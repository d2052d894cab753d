import Numa.Pipeline
import Numa.ValidatedContent

/-!
# The running service

Clients that run `resolve_query` beside the refreshes, over one cache.  Every
effect is one step, and the steps of all clients and background tasks
interleave.  What `validate_response` says of a response is taken as given for
a run, since it depends on the servers; the keys it fetches on the way are
fetched by background tasks.
-/

namespace Numa

/-! ## The validator -/

/-- What `validate_response` says of the responses of a run.  `none` is a
panic. -/
structure Verdict where
  status : DnsPacket → Option DnssecStatus
  content : ∀ {first second}, SameContent first second → status first = status second
  unsigned : ∀ {response}, allRrsigsOf response = [] → status response = some .insecure

/-- The verdicts of the validator in a given world. -/
def Verdict.ofValidator {W : Type} (ctx : ValidationCtx W) (world : W) : Verdict where
  status response := (validateResponseIn ctx response world).map Prod.fst
  content same := by rw [validateResponseIn_eq_of_sameContent ctx same]
  unsigned none := by
    simp only [validateResponseIn, none, if_true]
    rfl

/-- One fetch of `fetch_dnskeys` or `fetch_ds`. -/
def fetchKeys (env : ResolverEnv) (name : Text) (qtype : QueryType) : Resolver Unit := do
  let view ← Resolver.readCache
  match view name qtype with
  | some _ => pure ()
  | none =>
    match ← resolveIterative env .validator name qtype 0 0 with
    | .ok packet => insertPackets env [(name, qtype, packet)]
    | .error _ => pure ()

/-! ## Priming -/

section Prime

variable (env : ResolverEnv)

/-- The first root server that answers, or else the first one. -/
def probeRoots (rootAddr : SocketAddr) : List SocketAddr → Resolver SocketAddr
  | [] => pure rootAddr
  | hint :: hints => do
    match ← Resolver.sendQueryHedged [dot] .ns [hint] with
    | .ok _ => pure hint
    | .error _ => probeRoots rootAddr hints

/-- The DNSKEY answer of a zone from one server. -/
def primeDnskey (zone : Text) (server : SocketAddr) : Resolver Unit := do
  match ← Resolver.sendQueryHedged zone .dnskey [server] with
  | .ok dnskeyResp => insertPackets env [(zone, .dnskey, dnskeyResp)]
  | .error _ => pure ()

/-- The NS referral of a top-level domain with its glue and DS, and its DNSKEY
answer. -/
def primeTld (rootAddr : SocketAddr) (tld : Text) : Resolver Unit := do
  match ← Resolver.sendQueryHedged tld .ns [rootAddr] with
  | .error _ => pure ()
  | .ok response =>
    let nsNames := extractNsNames response
    if nsNames = [] then pure ()
    else do
      insertPackets env ((tld, .ns, response) :: cacheGlue response nsNames ++
        cacheDsFromAuthority response)
      match (glueAddrsFor response (nsNames.headD [])).head? with
      | some nsAddr => primeDnskey env tld nsAddr
      | none => pure ()

def primeTlds (rootAddr : SocketAddr) : List Text → Resolver Unit
  | [] => pure ()
  | tld :: tlds => do
    primeTld env rootAddr tld
    primeTlds rootAddr tlds

def primeTldCache (tlds : List Text) : Resolver Unit :=
  match env.rootHints with
  | [] => pure ()
  | first :: hints =>
    if tlds = [] then pure ()
    else do
      let rootAddr ← probeRoots first (first :: hints)
      primeDnskey env [dot] rootAddr
      primeTlds env rootAddr tlds

end Prime

/-! ## The state -/

/-- An effect with its answer. -/
structure Event where
  effect : QueryEffect
  answer : effect.Answer

/-- A client with its query, what has happened to its task so far, the last
event first, and what is left to do. -/
structure Client where
  query : DnsPacket
  history : List Event
  program : QueryProgram (Option ClientAnswer)

/-- A query and its answer. -/
structure Answered where
  query : DnsPacket
  answer : ClientAnswer

structure Service where
  system : System
  clients : Nat → Option Client
  /-- The number of clients that have arrived. -/
  arrived : Nat
  /-- Everything that leaders have broadcast. -/
  sent : List (CacheKey × Option DnsPacket)
  answers : List Answered

namespace Service

def init (cache : DnsCache) : Service where
  system := .init cache
  clients _ := none
  arrived := 0
  sent := []
  answers := []

def setClient (service : Service) (id : Nat) (client : Option Client) : Service :=
  { service with clients := Function.update service.clients id client }

@[simp]
theorem setClient_clients_self (service : Service) (id : Nat) (client : Option Client) :
    (service.setClient id client).clients id = client := by
  simp [setClient]

theorem setClient_clients_of_ne (service : Service) {id other : Nat} (different : other ≠ id)
    (client : Option Client) :
    (service.setClient id client).clients other = service.clients other := by
  simp [setClient, different]

end Service

/-- The part of an answer that is not determined by the state. -/
inductive QueryReply
  | nothing
  | resolver (reply : Reply)
  | resolveLocal (answer : Option LocalAnswer)
  | rebind (filter : RebindFilter)

/-- What happens outside a task. -/
inductive ServiceAction
  | tick (duration : Nat)
  /-- The warming of the cache refreshes an entry. -/
  | warm (qname : Text) (qtype : QueryType)
  /-- The start of the service primes the cache. -/
  | prime (tlds : List Text)
  /-- The API clears the cache. -/
  | clear
  /-- The API removes a name, given in lower case. -/
  | remove (domain : Text)
  /-- The validator that works for a client fetches a DNSKEY or DS answer. -/
  | fetch (id : Nat) (name : Text) (qtype : QueryType)
  /-- A background task takes its next step. -/
  | task (id : Nat) (reply : Reply)
  /-- A client asks. -/
  | arrive (query : DnsPacket) (filterAaaa : Bool)
  /-- A client's task takes its next step. -/
  | client (id : Nat) (reply : QueryReply)

section Steps

variable (ctx : PipelineCtx) (verdict : Verdict)

/-- Is the task waiting for the validator? -/
def Client.validating (client : Client) : Bool :=
  match client.program with
  | .ask (.validate _) _ => true
  | _ => false

/-- The answer to a resolver's effect, with the broadcasts of all leaders. -/
def Service.answerResolver (service : Service) (id : Nat) : (effect : Effect) → Reply →
    Option (effect.Answer × Service)
  | .broadcast key result, _ => some ((), { service with sent := (key, result) :: service.sent })
  | .receive key, .broadcast result =>
    -- A receiver whose sender is gone gets an error, which counts as `none`.
    if result = none ∨ (key, result) ∈ service.sent then some (result, service) else none
  | .receive _, _ => none
  | effect, reply => do
    let (value, system) ← answer ctx.toServerCtx service.system id effect reply
    some (value, { service with system := system })

/-- `DnsCache::insert_with_status` on the shared cache. -/
def Service.insertWithStatus (service : Service) (qname : Text) (qtype : QueryType)
    (response : DnsPacket) (status : DnssecStatus) : Option Service :=
  if ctx.writable response then do
    let cache ← service.system.cache.insertWire service.system.now qname qtype
      (.ofPacket response) status
    some { service with system := { service.system with cache := cache } }
  else some service

/-- The answer to an effect and the state after it.  `none` is a panic or a
reply that does not fit. -/
def Service.answer (service : Service) (id : Nat) : (effect : QueryEffect) → QueryReply →
    Option (effect.Answer × Service)
  | .resolver effect, .resolver reply => service.answerResolver ctx id effect reply
  | .resolveLocal .., .resolveLocal found => some (found, service)
  | .validate response, _ => (verdict.status response).map fun status => (status, service)
  | .insertWithStatus qname qtype response status, _ =>
    (service.insertWithStatus ctx qname qtype response status).map fun after => ((), after)
  | .readRebind, .rebind filter => some (filter, service)
  | _, _ => none

def Service.step (service : Service) : ServiceAction → Option Service
  | .tick duration => do
    let system ← service.system.step ctx.toServerCtx (.tick duration)
    some { service with system := system }
  | .warm qname qtype => do
    let system ← service.system.step ctx.toServerCtx (.warm qname qtype)
    some { service with system := system }
  | .prime tlds =>
    some { service with
      system := service.system.spawn none (primeTldCache ctx.toResolverEnv tlds) }
  | .clear =>
    some { service with system := { service.system with cache := service.system.cache.clear } }
  | .remove domain =>
    some { service with
      system := { service.system with cache := service.system.cache.remove id domain } }
  | .fetch id name qtype => do
    let client ← service.clients id
    if client.validating then
      some { service with
        system := service.system.spawn none (fetchKeys ctx.toResolverEnv name qtype) }
    else none
  | .task id reply => do
    let system ← service.system.step ctx.toServerCtx (.run id reply)
    some { service with system := system }
  | .arrive query filterAaaa =>
    some
      { service.setClient service.arrived (some ⟨query, [], resolveQuery ctx query filterAaaa⟩) with
        arrived := service.arrived + 1 }
  | .client id reply => do
    let client ← service.clients id
    match client.program with
    | .done none => some (service.setClient id none)
    | .done (some answer) =>
      some
        { service.setClient id none with answers := ⟨client.query, answer⟩ :: service.answers }
    | .ask effect next => do
      let (value, after) ← service.answer ctx verdict id effect reply
      some (after.setClient id
        (some ⟨client.query, ⟨effect, value⟩ :: client.history, next value⟩))

/-- The state after a run. -/
def Service.runAll : Service → List ServiceAction → Option Service
  | service, [] => some service
  | service, action :: actions => do
    let after ← service.step ctx verdict action
    after.runAll actions

/-- The client that takes a step, and what happens to its task. -/
def Service.event (service : Service) : ServiceAction → Option (Client × Event)
  | .client id reply => do
    let client ← service.clients id
    match client.program with
    | .ask effect _ => do
      let (value, _) ← service.answer ctx verdict id effect reply
      some (client, ⟨effect, value⟩)
    | .done _ => none
  | _ => none

/-- What happens to the background task that takes a step. -/
def Service.taskEvent (service : Service) : ServiceAction → Option Event
  | .task id reply => do
    let task ← service.system.tasks id
    match task.program with
    | .ask effect _ => do
      let (value, _) ← Numa.answer ctx.toServerCtx service.system id effect reply
      some ⟨.resolver effect, value⟩
    | .done _ => none
  | _ => none

/-- The state after a run whose steps all meet a condition. -/
def Service.runMeeting (meets : Service → ServiceAction → Bool) :
    Service → List ServiceAction → Option Service
  | service, [] => some service
  | service, action :: actions =>
    if meets service action then do
      let after ← service.step ctx verdict action
      after.runMeeting meets actions
    else none

end Steps

/-! ## What one step can do -/

section Cases

variable {ctx : PipelineCtx} {verdict : Verdict} {service after : Service} {id : Nat}

/-- A resolver's effect is a broadcast, the receipt of one, or an effect on the
system. -/
theorem Service.answerResolver_cases {effect : Effect} {reply : Reply} {value : effect.Answer}
    (answered : service.answerResolver ctx id effect reply = some (value, after)) :
    (∃ key result, effect = .broadcast key result ∧
      after = { service with sent := (key, result) :: service.sent }) ∨
    (∃ key, effect = .receive key ∧ after = service) ∨
    ∃ system, Numa.answer ctx.toServerCtx service.system id effect reply = some (value, system) ∧
      after = { service with system := system } := by
  cases effect with
  | broadcast key result =>
      cases answered
      exact .inl ⟨key, result, rfl, rfl⟩
  | receive key =>
      cases reply with
      | broadcast result =>
          simp only [Service.answerResolver, Option.ite_none_right_eq_some] at answered
          cases answered.2
          exact .inr (.inl ⟨key, rfl, rfl⟩)
      | _ => cases answered
  | _ =>
      simp only [Service.answerResolver, Option.bind_eq_bind, Option.bind_eq_some_iff] at answered
      obtain ⟨⟨given, system⟩, inSystem, same⟩ := answered
      cases same
      exact .inr (.inr ⟨system, inSystem, rfl⟩)

/-- What a receiver gets was sent by a leader of the same key. -/
theorem Service.mem_sent_of_receive {key : CacheKey} {reply : Reply} {packet : DnsPacket}
    (answered : service.answerResolver ctx id (.receive key) reply = some (some packet, after)) :
    (key, some packet) ∈ service.sent := by
  cases reply with
  | broadcast result =>
      simp only [Service.answerResolver] at answered
      split at answered
      · rename_i wasSent
        cases answered
        exact wasSent.resolve_left (by simp)
      · cases answered
  | _ => cases answered

/-- An effect is a resolver's, the final insertion, or changes nothing. -/
theorem Service.answer_cases {effect : QueryEffect} {reply : QueryReply} {value : effect.Answer}
    (answered : service.answer ctx verdict id effect reply = some (value, after)) :
    (∃ (inner : Effect) (innerReply : Reply) (innerValue : inner.Answer),
      effect = .resolver inner ∧
      service.answerResolver ctx id inner innerReply = some (innerValue, after)) ∨
    (∃ qname qtype response status cache,
      effect = .insertWithStatus qname qtype response status ∧
      service.system.cache.insertWire service.system.now qname qtype (.ofPacket response)
        status = some cache ∧
      after = { service with system := { service.system with cache := cache } }) ∨
    after = service := by
  cases effect with
  | resolver inner =>
      cases reply with
      | resolver innerReply => exact .inl ⟨inner, innerReply, value, rfl, answered⟩
      | _ => cases answered
  | resolveLocal qname qtype =>
      cases reply with
      | resolveLocal found =>
          cases answered
          exact .inr (.inr rfl)
      | _ => cases answered
  | validate response =>
      obtain ⟨status, -, same⟩ := Option.map_eq_some_iff.mp answered
      cases same
      exact .inr (.inr rfl)
  | insertWithStatus qname qtype response status =>
      obtain ⟨final, stored, same⟩ := Option.map_eq_some_iff.mp answered
      cases same
      unfold Service.insertWithStatus at stored
      split at stored
      · simp only [Option.bind_eq_bind, Option.bind_eq_some_iff] at stored
        obtain ⟨cache, inserted, isFinal⟩ := stored
        exact .inr (.inl ⟨qname, qtype, response, status, cache, rfl, inserted,
          (Option.some.inj isFinal).symm⟩)
      · cases stored
        exact .inr (.inr rfl)
  | readRebind =>
      cases reply with
      | rebind filter =>
          cases answered
          exact .inr (.inr rfl)
      | _ => cases answered

/-- No effect touches the clients or their answers. -/
theorem Service.answer_frame {effect : QueryEffect} {reply : QueryReply} {value : effect.Answer}
    (answered : service.answer ctx verdict id effect reply = some (value, after)) :
    after.clients = service.clients ∧ after.answers = service.answers := by
  rcases Service.answer_cases answered with ⟨inner, innerReply, innerValue, rfl, inResolver⟩ |
    ⟨qname, qtype, response, status, cache, rfl, -, rfl⟩ | rfl
  · rcases Service.answerResolver_cases inResolver with ⟨key, result, -, rfl⟩ | ⟨key, -, rfl⟩ |
      ⟨system, -, rfl⟩ <;> exact ⟨rfl, rfl⟩
  · exact ⟨rfl, rfl⟩
  · exact ⟨rfl, rfl⟩

/-- A client's step ends its task, with or without an answer, or asks for an
effect. -/
theorem Service.step_client_cases {reply : QueryReply}
    (stepped : service.step ctx verdict (.client id reply) = some after) :
    ∃ client, service.clients id = some client ∧
      ((client.program = .done none ∧ after = service.setClient id none) ∨
        (∃ answer, client.program = .done (some answer) ∧
          after = { service.setClient id none with
            answers := ⟨client.query, answer⟩ :: service.answers }) ∨
        ∃ (effect : QueryEffect) (next : effect.Answer → QueryProgram (Option ClientAnswer))
          (value : effect.Answer) (middle : Service), client.program = .ask effect next ∧
          service.answer ctx verdict id effect reply = some (value, middle) ∧
          after = middle.setClient id
            (some ⟨client.query, ⟨effect, value⟩ :: client.history, next value⟩)) := by
  obtain ⟨client, isClient, taken⟩ := Option.bind_eq_some_iff.mp stepped
  refine ⟨client, isClient, ?_⟩
  cases program : client.program with
  | done result =>
      rw [program] at taken
      cases result with
      | none =>
          cases taken
          exact .inl ⟨rfl, rfl⟩
      | some answer =>
          cases taken
          exact .inr (.inl ⟨answer, rfl, rfl⟩)
  | ask effect next =>
      rw [program] at taken
      obtain ⟨⟨value, middle⟩, answered, same⟩ := Option.bind_eq_some_iff.mp taken
      exact .inr (.inr ⟨effect, next, value, middle, rfl, answered, (Option.some.inj same).symm⟩)

/-- A step of a background task is one of the system. -/
theorem Service.step_task_cases {reply : Reply}
    (stepped : service.step ctx verdict (.task id reply) = some after) :
    ∃ system, service.system.step ctx.toServerCtx (.run id reply) = some system ∧
      after = { service with system := system } := by
  obtain ⟨system, ran, same⟩ := Option.bind_eq_some_iff.mp stepped
  exact ⟨system, ran, (Option.some.inj same).symm⟩

theorem Service.event_eq_some {reply : QueryReply} {client : Client} {effect : QueryEffect}
    {next : effect.Answer → QueryProgram (Option ClientAnswer)} {value : effect.Answer}
    (isClient : service.clients id = some client) (isNext : client.program = .ask effect next)
    (answered : service.answer ctx verdict id effect reply = some (value, after)) :
    service.event ctx verdict (.client id reply) = some (client, ⟨effect, value⟩) := by
  simp only [Service.event, isClient, isNext, Option.bind_eq_bind, Option.bind_some, answered]

theorem Service.taskEvent_eq_some {reply : Reply} {task : Task} {effect : Effect}
    {next : effect.Answer → Resolver Unit} {value : effect.Answer} {system : System}
    (isTask : service.system.tasks id = some task) (isNext : task.program = .ask effect next)
    (answered : Numa.answer ctx.toServerCtx service.system id effect reply =
      some (value, system)) :
    service.taskEvent ctx (.task id reply) = some ⟨.resolver effect, value⟩ := by
  simp only [Service.taskEvent, isTask, isNext, Option.bind_eq_bind, Option.bind_some, answered]

/-- What holds at first and is kept by every step that meets the condition
holds after the run. -/
theorem Service.invariant_runMeeting {meets : Service → ServiceAction → Bool}
    {invariant : Service → Prop} {actions : List ServiceAction} (holds : invariant service)
    (kept : ∀ before action next, invariant before → meets before action = true →
      before.step ctx verdict action = some next → invariant next)
    (ran : service.runMeeting ctx verdict meets actions = some after) : invariant after := by
  induction actions generalizing service with
  | nil =>
      cases ran
      exact holds
  | cons action actions ih =>
      simp only [Service.runMeeting, Option.bind_eq_bind, Option.ite_none_right_eq_some,
        Option.bind_eq_some_iff] at ran
      obtain ⟨met, middle, stepped, rest⟩ := ran
      exact ih (kept service action middle holds met stepped) rest

/-- What holds at first and is kept by every step of the run holds after it. -/
theorem Service.invariant_runAll {invariant : Service → Prop} {actions : List ServiceAction}
    (holds : invariant service)
    (kept : ∀ before action next, action ∈ actions → invariant before →
      before.step ctx verdict action = some next → invariant next)
    (ran : service.runAll ctx verdict actions = some after) : invariant after := by
  induction actions generalizing service with
  | nil =>
      cases ran
      exact holds
  | cons action actions ih =>
      simp only [Service.runAll, Option.bind_eq_bind, Option.bind_eq_some_iff] at ran
      obtain ⟨middle, stepped, rest⟩ := ran
      apply ih (kept service action middle List.mem_cons_self holds stepped) _ rest
      exact fun before later next laterMem => kept before later next (List.mem_cons_of_mem _ laterMem)

end Cases

/-! ## Protocols of clients -/

section Rules

variable {σ : Type} (protocol : Protocol QueryEffect QueryEffect.Answer σ)
  (ghost : List Event → σ) (post : DnsPacket → σ → Option ClientAnswer → Prop)

/-- Every client obeys the protocol from the ghost state of its history, and
every answer satisfies the postcondition. -/
structure Service.Obeying (service : Service) : Prop where
  clients : ∀ id client, service.clients id = some client →
    client.program.Obeys protocol (post client.query) (ghost client.history)
  answers : ∀ answered ∈ service.answers, ∃ state,
    post answered.query state (some answered.answer)

variable {protocol ghost post} {ctx : PipelineCtx} {verdict : Verdict}
  {service after : Service}

theorem Service.Obeying.setClient (obeying : service.Obeying protocol ghost post) (id : Nat)
    (client : Option Client)
    (this : ∀ new, client = some new →
      new.program.Obeys protocol (post new.query) (ghost new.history)) :
    (service.setClient id client).Obeying protocol ghost post where
  clients := by
    intro other found isFound
    by_cases same : other = id
    · subst same
      rw [Service.setClient_clients_self] at isFound
      exact this found isFound
    · rw [Service.setClient_clients_of_ne _ same] at isFound
      exact obeying.clients other found isFound
  answers := obeying.answers

/-- A step keeps the clients to the protocol when its answer is one that the
protocol allows for. -/
theorem Service.Obeying.step {action : ServiceAction}
    (obeying : service.Obeying protocol ghost post)
    (starts : ∀ query filterAaaa,
      (resolveQuery ctx query filterAaaa).Obeys protocol (post query) (ghost []))
    (moves : ∀ id reply client effect next value middle, action = .client id reply →
      service.clients id = some client → client.program = .ask effect next →
      service.answer ctx verdict id effect reply = some (value, middle) →
      protocol.moves (ghost client.history) effect value
        (ghost (⟨effect, value⟩ :: client.history)))
    (stepped : service.step ctx verdict action = some after) :
    after.Obeying protocol ghost post := by
  cases action with
  | tick duration =>
      cases stepped
      exact ⟨obeying.clients, obeying.answers⟩
  | warm qname qtype =>
      cases stepped
      exact ⟨obeying.clients, obeying.answers⟩
  | prime tlds =>
      cases stepped
      exact ⟨obeying.clients, obeying.answers⟩
  | clear =>
      cases stepped
      exact ⟨obeying.clients, obeying.answers⟩
  | remove domain =>
      cases stepped
      exact ⟨obeying.clients, obeying.answers⟩
  | fetch id name qtype =>
      obtain ⟨client, -, taken⟩ := Option.bind_eq_some_iff.mp stepped
      simp only [Option.ite_none_right_eq_some] at taken
      cases taken.2
      exact ⟨obeying.clients, obeying.answers⟩
  | task id reply =>
      obtain ⟨system, -, rfl⟩ := Service.step_task_cases stepped
      exact ⟨obeying.clients, obeying.answers⟩
  | arrive query filterAaaa =>
      cases stepped
      have arrived : (service.setClient service.arrived
          (some ⟨query, [], resolveQuery ctx query filterAaaa⟩)).Obeying protocol ghost post := by
        apply obeying.setClient
        rintro _ ⟨⟩
        exact starts query filterAaaa
      exact ⟨arrived.clients, arrived.answers⟩
  | client id reply =>
      obtain ⟨client, isClient, ⟨-, rfl⟩ | ⟨answer, isDone, rfl⟩ |
        ⟨effect, next, value, middle, isNext, answered, rfl⟩⟩ := Service.step_client_cases stepped
      · apply obeying.setClient
        rintro _ ⟨⟩
      · have ended := obeying.clients id client isClient
        rw [isDone] at ended
        have gone : (service.setClient id none).Obeying protocol ghost post := by
          apply obeying.setClient
          rintro _ ⟨⟩
        refine ⟨gone.clients, ?_⟩
        intro answered answeredMem
        rcases List.mem_cons.mp answeredMem with rfl | earlier
        · exact ⟨_, ended⟩
        · exact obeying.answers answered earlier
      · obtain ⟨sameClients, sameAnswers⟩ := Service.answer_frame answered
        have asks := obeying.clients id client isClient
        rw [isNext] at asks
        have kept : middle.Obeying protocol ghost post := by
          constructor
          · rw [sameClients]
            exact obeying.clients
          · rw [sameAnswers]
            exact obeying.answers
        apply kept.setClient
        rintro _ ⟨⟩
        exact asks.2 value _ (moves id reply client effect next value middle rfl isClient isNext
          answered)

theorem Service.obeying_init (cache : DnsCache) :
    (Service.init cache).Obeying protocol ghost post where
  clients := by
    intro id client isClient
    cases isClient
  answers := by
    intro answered answeredMem
    cases answeredMem

end Rules

/-! ## What is written to the cache -/

/-- One message with the key and the status it is stored with. -/
structure Written where
  domain : Text
  qtype : QueryType
  wire : Wire
  status : DnssecStatus

def Effect.writes : Effect → List Written
  | insertWires batch => batch.map fun item => ⟨item.domain, item.qtype, item.wire, .indeterminate⟩
  | _ => []

def QueryEffect.writes : QueryEffect → List Written
  | resolver effect => effect.writes
  | insertWithStatus qname qtype response status => [⟨qname, qtype, .ofPacket response, status⟩]
  | _ => []

/-- What an action writes. -/
def Service.writes (service : Service) : ServiceAction → List Written
  | .task id _ =>
    match (service.system.tasks id).map Task.program with
    | some (.ask effect _) => effect.writes
    | _ => []
  | .client id _ =>
    match (service.clients id).map Client.program with
    | some (.ask effect _) => effect.writes
    | _ => []
  | _ => []

/-- An entry is an old one, gone, or one of those written. -/
def EntryFrom (written : List Written) (before after : DnsCache) : Prop :=
  ∀ domain qtype, after.entry domain qtype = before.entry domain qtype ∨
    after.entry domain qtype = none ∨
    ∃ item ∈ written, ∃ entry, after.entry domain qtype = some entry ∧
      (domain = item.domain ∧ qtype = item.qtype) ∧ entry.wire = item.wire ∧
      entry.dnssecStatus = item.status

theorem EntryFrom.refl (written : List Written) (cache : DnsCache) :
    EntryFrom written cache cache :=
  fun _ _ => .inl rfl

section Writes

variable {ctx : PipelineCtx} {verdict : Verdict} {service after : Service} {id : Nat}

theorem entryFrom_answer {system next : System} {effect : Effect} {reply : Reply}
    {value : effect.Answer}
    (answered : answer ctx.toServerCtx system id effect reply = some (value, next)) :
    EntryFrom effect.writes system.cache next.cache := by
  rcases answer_system_cases answered with ⟨sameCache, -⟩ | ⟨batch, cache, rfl, inserted, rfl⟩ |
    ⟨key, -, rfl⟩
  · rw [sameCache]
    exact .refl _ _
  · intro domain qtype
    obtain ⟨-, -, entryCases⟩ := entry_insertBatch inserted
    rcases entryCases domain qtype with same | gone | ⟨item, itemMem, sameKey, -, isNew⟩
    · exact .inl same
    · exact .inr (.inl gone)
    · exact .inr (.inr ⟨_, List.mem_map_of_mem itemMem, _, isNew, sameKey, rfl, rfl⟩)
  · exact .refl _ _

/-- Entries change only by what an action writes. -/
theorem Service.entryFrom_step {action : ServiceAction}
    (stepped : service.step ctx verdict action = some after) :
    EntryFrom (service.writes action) service.system.cache after.system.cache := by
  cases action with
  | tick duration =>
      cases stepped
      exact .refl _ _
  | warm qname qtype =>
      cases stepped
      exact .refl _ _
  | prime tlds =>
      cases stepped
      exact .refl _ _
  | clear =>
      cases stepped
      exact fun _ _ => .inr (.inl rfl)
  | remove domain =>
      cases stepped
      intro name type
      rcases DnsCache.entry_remove id service.system.cache domain name type with same | gone
      · exact .inl same
      · exact .inr (.inl gone)
  | fetch id name qtype =>
      obtain ⟨client, -, taken⟩ := Option.bind_eq_some_iff.mp stepped
      simp only [Option.ite_none_right_eq_some] at taken
      cases taken.2
      exact .refl _ _
  | arrive query filterAaaa =>
      cases stepped
      exact .refl _ _
  | task id reply =>
      obtain ⟨system, ran, rfl⟩ := Service.step_task_cases stepped
      obtain ⟨task, isTask, ⟨value, isDone, rfl⟩ | ⟨effect, next, value, middle, isNext,
        answered, rfl⟩⟩ := step_run_cases ran
      · exact .refl _ _
      · simp only [Service.writes, isTask, Option.map_some, isNext]
        change EntryFrom _ _ middle.cache
        exact entryFrom_answer answered
  | client id reply =>
      obtain ⟨client, isClient, ⟨-, rfl⟩ | ⟨answer, -, rfl⟩ |
        ⟨effect, next, value, middle, isNext, answered, rfl⟩⟩ := Service.step_client_cases stepped
      · exact .refl _ _
      · exact .refl _ _
      · simp only [Service.writes, isClient, Option.map_some, isNext]
        change EntryFrom _ _ middle.system.cache
        rcases Service.answer_cases answered with ⟨inner, innerReply, innerValue, rfl,
          inResolver⟩ | ⟨qname, qtype, response, status, cache, rfl, inserted, rfl⟩ | rfl
        · rcases Service.answerResolver_cases inResolver with ⟨key, result, -, rfl⟩ |
            ⟨key, -, rfl⟩ | ⟨system, inSystem, rfl⟩
          · exact .refl _ _
          · exact .refl _ _
          · exact entryFrom_answer inSystem
        · intro domain type
          obtain ⟨-, -, entryCases⟩ := DnsCache.entry_insertWire inserted
          rcases entryCases domain type with same | gone | ⟨sameKey, -, isNew⟩
          · exact .inl same
          · exact .inr (.inl gone)
          · exact .inr (.inr ⟨_, List.mem_singleton_self _, _, isNew, sameKey, rfl, rfl⟩)
        · exact .refl _ _

/-- What is written has no status yet, or is the final insertion of a client. -/
theorem Service.writes_cases {action : ServiceAction} {item : Written}
    (itemMem : item ∈ service.writes action) :
    item.status = .indeterminate ∨
      ∃ id reply client qname qtype response status next, action = .client id reply ∧
        service.clients id = some client ∧
        client.program = .ask (.insertWithStatus qname qtype response status) next ∧
        item = ⟨qname, qtype, .ofPacket response, status⟩ := by
  have unvalidated : ∀ effect : Effect, item ∈ effect.writes → item.status = .indeterminate := by
    intro effect written
    cases effect with
    | insertWires batch =>
        obtain ⟨_, -, rfl⟩ := List.mem_map.mp written
        rfl
    | _ => cases written
  cases action with
  | task id reply =>
      simp only [Service.writes] at itemMem
      split at itemMem
      · exact .inl (unvalidated _ itemMem)
      · cases itemMem
  | client id reply =>
      simp only [Service.writes] at itemMem
      split at itemMem
      · rename_i effect next isProgram
        obtain ⟨client, isClient, isNext⟩ := Option.map_eq_some_iff.mp isProgram
        cases effect with
        | resolver inner => exact .inl (unvalidated inner itemMem)
        | insertWithStatus qname qtype response status =>
            obtain rfl := List.mem_singleton.mp itemMem
            exact .inr ⟨id, reply, client, qname, qtype, response, status, next, rfl, isClient,
              isNext, rfl⟩
        | _ => cases itemMem
      · cases itemMem
  | _ => cases itemMem

end Writes

end Numa
