import Numa.ResolverRules
import Numa.Service

/-!
# Rules for the tasks of the service

A property of packets that holds of what servers and upstreams send holds of
all that the tasks of the service store and broadcast, when the steps between
keep it.  This file follows such a property through every task that resolves
something, and through a run of the service.
-/

namespace Numa

/-- The callers that hand on what the first lookup of `resolve_iterative`
finds. -/
def Caller.handsOn : Caller → Bool
  | client | refresh | validator => true
  | cnameChase | nameserver => false

/-- A property of packets and one of messages, which hold of what is received
under an assumption on the answers. -/
structure PacketRules where
  /-- What is assumed of an answer. -/
  permits : (effect : Effect) → effect.Answer → Prop
  good : DnsPacket → Prop
  goodWire : Wire → Prop
  send : ∀ {qname qtype servers packet},
    permits (.sendQueryHedged qname qtype servers) (.ok packet) → good packet
  forward : ∀ {wire}, permits .forwardRaw (.ok wire) → goodWire wire
  lookup : ∀ {caller qname qtype packet}, caller.handsOn = true →
    permits (.lookup caller qname qtype) (some packet) → good packet
  good_glue : ∀ answers, good { makeGluePacket with answers := answers }
  good_combine : ∀ {response} finalResp, good response → good (combineResponse response finalResp)
  good_answer : ∀ {resp} id recursionDesired questions, good resp → good
    { resp with
      header :=
        { resp.header with
          id := id
          recursionAvailable := true
          recursionDesired := recursionDesired }
      questions := questions }
  goodWire_ofPacket : ∀ {packet}, good packet → goodWire (.ofPacket packet)
  good_of_goodWire : ∀ {wire packet}, goodWire wire → wire.packet = some packet → good packet

namespace PacketRules

variable (rules : PacketRules)

/-- Good messages are stored and good packets are broadcast. -/
def protocol : Protocol Effect Effect.Answer Unit where
  allowed _ effect :=
    match effect with
    | .insertWires batch => ∀ item ∈ batch, rules.goodWire item.wire
    | .broadcast _ (some packet) => rules.good packet
    | _ => True
  moves _ effect answer _ := rules.permits effect answer

/-- What is returned is good. -/
def Returns (_ : Unit) (result : Except ResolveError DnsPacket) : Prop :=
  ∀ packet, result = .ok packet → rules.good packet

variable {rules} {env : ResolverEnv} {state : Unit}

theorem good_of_mem_gluePacket {domain : Text} {qtype : QueryType} {answers : List DnsRecord}
    {item : Text × QueryType × DnsPacket} (itemMem : item ∈ gluePacket domain qtype answers) :
    rules.good item.2.2 := by
  unfold gluePacket at itemMem
  split at itemMem
  · cases itemMem
  · obtain rfl := List.mem_singleton.mp itemMem
    exact rules.good_glue answers

theorem good_of_mem_cacheGlue {response : DnsPacket} {nsNames : List Text}
    {item : Text × QueryType × DnsPacket} (itemMem : item ∈ cacheGlue response nsNames) :
    rules.good item.2.2 := by
  obtain ⟨nsName, -, glueMem⟩ := List.mem_flatMap.mp itemMem
  rcases List.mem_append.mp glueMem with isA | isAaaa
  · exact good_of_mem_gluePacket isA
  · exact good_of_mem_gluePacket isAaaa

theorem good_of_mem_cacheDs {response : DnsPacket} {item : Text × QueryType × DnsPacket}
    (itemMem : item ∈ cacheDsFromAuthority response) : rules.good item.2.2 := by
  obtain ⟨group, -, groupMem⟩ := List.mem_flatMap.mp itemMem
  exact good_of_mem_gluePacket groupMem

theorem allowed_insertPackets {packets : List (Text × QueryType × DnsPacket)}
    (good : ∀ item ∈ packets, rules.good item.2.2) :
    rules.protocol.allowed state (.insertWires (packets.filterMap fun (domain, qtype, packet) =>
      if env.writable packet then some ⟨domain, qtype, .ofPacket packet⟩ else none)) := by
  intro item itemMem
  obtain ⟨⟨domain, qtype, stored⟩, storedMem, isItem⟩ := List.mem_filterMap.mp itemMem
  simp only [Option.ite_none_right_eq_some, Option.some.injEq] at isItem
  obtain ⟨-, rfl⟩ := isItem
  exact rules.goodWire_ofPacket (good _ storedMem)

/-- The rules for a resolution. -/
def resolverRules (rules : PacketRules) (env : ResolverEnv) : ResolverRules env Unit where
  protocol := rules.protocol
  asked _ _ _ := True
  heard _ packet := rules.good packet
  good _ packet := rules.good packet
  storable _ item := rules.good item.2.2
  trusts caller := caller.handsOn = true
  grows _ _ _ _ _ := le_refl ()
  asked_mono _ _ := trivial
  heard_mono _ heard := heard
  good_mono _ good := good
  good_of_heard heard := heard
  allowed_lookup _ _ _ _ := trivial
  allowed_readCache _ := trivial
  allowed_sort _ _ := trivial
  allowed_send _ _ _ _ := trivial
  allowed_insert good := allowed_insertPackets good
  lookup := by
    intro before caller qname qtype found after moves
    refine ⟨trivial, ?_⟩
    rintro trusts packet rfl
    exact rules.lookup trusts moves
  send moves := rules.send moves
  storable_kept _ good := good
  storable_glue _ _ _ itemMem := good_of_mem_cacheGlue itemMem
  storable_delegation _ _ _ itemMem := good_of_mem_gluePacket itemMem
  storable_ds _ _ _ itemMem := good_of_mem_cacheDs itemMem
  good_combine heard _ := rules.good_combine _ heard

/-! ## The tasks -/

/-- What a caller that hands on gets is good. -/
theorem obeys_resolveIterative {caller : Caller} (handsOn : caller.handsOn = true) (qname : Text)
    (qtype : QueryType) :
    (resolveIterative env caller qname qtype 0 0).Obeys rules.protocol rules.Returns state :=
  (((rules.resolverRules env).sound_resolveIterative caller qname qtype 0 0) state).mono
    fun _ _ returns => returns handsOn

theorem obeys_resolveRecursive {caller : Caller} (handsOn : caller.handsOn = true) (qname : Text)
    (qtype : QueryType) (query : DnsPacket) :
    (resolveRecursive env caller qname qtype query).Obeys rules.protocol rules.Returns state := by
  apply (obeys_resolveIterative handsOn qname qtype).bind
  intro after result returns
  cases result with
  | ok packet =>
      rintro _ ⟨⟩
      exact rules.good_answer _ _ _ (returns packet rfl)
  | error error =>
      rintro _ ⟨⟩

theorem obeys_insertPackets {packets : List (Text × QueryType × DnsPacket)}
    (good : ∀ item ∈ packets, rules.good item.2.2) :
    (insertPackets env packets).Obeys rules.protocol (fun _ _ => True) state :=
  ⟨allowed_insertPackets good, fun _ _ _ => trivial⟩

theorem obeys_insertPacket {qname : Text} {qtype : QueryType} {packet : DnsPacket}
    (good : rules.good packet) :
    (insertPackets env [(qname, qtype, packet)]).Obeys rules.protocol (fun _ _ => True)
      state := by
  apply obeys_insertPackets
  intro item itemMem
  obtain rfl := List.mem_singleton.mp itemMem
  exact good

/-- A packet that a server has just sent is good. -/
theorem obeys_sendQuery {α : Type} {qname : Text} {qtype : QueryType}
    {servers : List SocketAddr} {post : Unit → α → Prop}
    {next : Except Unit DnsPacket → Resolver α}
    (later : ∀ result, (∀ packet, result = .ok packet → rules.good packet) →
      (next result).Obeys rules.protocol post state) :
    (Resolver.sendQueryHedged qname qtype servers >>= next).Obeys rules.protocol post state := by
  refine ⟨trivial, fun result after moves => later result ?_⟩
  rintro packet rfl
  exact rules.send moves

/-- So is a message that an upstream has just sent. -/
theorem obeys_forwardRaw {α : Type} {post : Unit → α → Prop}
    {next : Except Unit Wire → Resolver α}
    (later : ∀ result, (∀ wire, result = .ok wire → rules.goodWire wire) →
      (next result).Obeys rules.protocol post state) :
    (Resolver.forwardRaw >>= next).Obeys rules.protocol post state := by
  refine ⟨trivial, fun result after moves => later result ?_⟩
  rintro wire rfl
  exact rules.forward moves

theorem obeys_insertWire {qname : Text} {qtype : QueryType} {wire : Wire}
    (good : rules.goodWire wire) :
    (Resolver.insertWires [⟨qname, qtype, wire⟩]).Obeys rules.protocol (fun _ _ => True)
      state := by
  refine ⟨?_, fun _ _ _ => trivial⟩
  intro item itemMem
  obtain rfl := List.mem_singleton.mp itemMem
  exact good

theorem obeys_forwardAndCache (qname : Text) (qtype : QueryType) :
    (forwardAndCache qname qtype).Obeys rules.protocol rules.Returns state := by
  apply obeys_forwardRaw
  intro result good
  cases result with
  | error error =>
      rintro _ ⟨⟩
  | ok wire =>
      apply (obeys_insertWire (good wire rfl)).bind
      intro after _ _
      split
      · rename_i packet isPacket
        rintro _ ⟨⟩
        exact rules.good_of_goodWire (good wire rfl) isPacket
      · rintro _ ⟨⟩

/-- What the leader resolves is good. -/
theorem obeys_resolveMiss {ctx : ServerCtx} (query : DnsPacket) (qname : Text)
    (qtype : QueryType) :
    (resolveMiss ctx query qname qtype).2.Obeys rules.protocol rules.Returns state := by
  unfold resolveMiss
  split
  · exact obeys_forwardAndCache qname qtype
  · split
    · exact obeys_resolveRecursive rfl qname qtype query
    · exact obeys_forwardAndCache qname qtype

theorem obeys_refreshByForwarding {ctx : ServerCtx} (qname : Text) (qtype : QueryType) :
    (refreshByForwarding ctx qname qtype).Obeys rules.protocol (fun _ _ => True) state := by
  unfold refreshByForwarding
  split
  · apply obeys_forwardRaw
    intro result good
    cases result with
    | ok wire => exact obeys_insertWire (good wire rfl)
    | error error => trivial
  · trivial

theorem obeys_refreshEntry {ctx : ServerCtx} (qname : Text) (qtype : QueryType) :
    (refreshEntry ctx qname qtype).Obeys rules.protocol (fun _ _ => True) state := by
  unfold refreshEntry
  split
  · exact obeys_refreshByForwarding qname qtype
  · split
    · apply (obeys_resolveRecursive rfl qname qtype _).bind
      intro after result returns
      cases result with
      | ok packet => exact obeys_insertPacket (returns packet rfl)
      | error error => trivial
    · exact obeys_refreshByForwarding qname qtype

theorem obeys_spawnedRefresh {ctx : ServerCtx} (key : CacheKey) :
    (spawnedRefresh ctx key).Obeys rules.protocol (fun _ _ => True) state := by
  apply (obeys_refreshEntry key.1 key.2).bind
  exact fun _ _ _ => ⟨trivial, fun _ _ _ => trivial⟩

theorem obeys_fetchKeys (name : Text) (qtype : QueryType) :
    (fetchKeys env name qtype).Obeys rules.protocol (fun _ _ => True) state := by
  refine ⟨trivial, fun view after _ => ?_⟩
  dsimp only [Interaction.bind]
  split
  · trivial
  · apply (obeys_resolveIterative rfl name qtype).bind
    intro final result returns
    cases result with
    | ok packet => exact obeys_insertPacket (returns packet rfl)
    | error error => trivial

theorem obeys_probeRoots (rootAddr : SocketAddr) (hints : List SocketAddr) :
    (probeRoots rootAddr hints).Obeys rules.protocol (fun _ _ => True) state := by
  induction hints with
  | nil => trivial
  | cons hint hints ih =>
      apply obeys_sendQuery
      intro result _
      cases result with
      | ok packet => trivial
      | error error => exact ih

theorem obeys_primeDnskey (zone : Text) (server : SocketAddr) :
    (primeDnskey env zone server).Obeys rules.protocol (fun _ _ => True) state := by
  apply obeys_sendQuery
  intro result good
  cases result with
  | ok packet => exact obeys_insertPacket (good packet rfl)
  | error error => trivial

theorem obeys_primeTld (rootAddr : SocketAddr) (tld : Text) :
    (primeTld env rootAddr tld).Obeys rules.protocol (fun _ _ => True) state := by
  apply obeys_sendQuery
  intro result good
  cases result with
  | error error => trivial
  | ok response =>
      dsimp only
      split
      · trivial
      · have stored : ∀ item ∈ (tld, QueryType.ns, response) ::
            cacheGlue response (extractNsNames response) ++ cacheDsFromAuthority response,
            rules.good item.2.2 := by
          intro item itemMem
          rcases List.mem_append.mp itemMem with first | ds
          · rcases List.mem_cons.mp first with rfl | glue
            · exact good response rfl
            · exact good_of_mem_cacheGlue glue
          · exact good_of_mem_cacheDs ds
        apply (obeys_insertPackets stored).bind
        intro after _ _
        split
        · exact obeys_primeDnskey tld _
        · trivial

theorem obeys_primeTlds (rootAddr : SocketAddr) (tlds : List Text) :
    (primeTlds env rootAddr tlds).Obeys rules.protocol (fun _ _ => True) state := by
  induction tlds with
  | nil => trivial
  | cons tld tlds ih =>
      apply (obeys_primeTld rootAddr tld).bind
      exact fun _ _ _ => ih

theorem obeys_primeTldCache (tlds : List Text) :
    (primeTldCache env tlds).Obeys rules.protocol (fun _ _ => True) state := by
  unfold primeTldCache
  split
  · trivial
  · split
    · trivial
    · apply (obeys_probeRoots _ _).bind
      intro _ rootAddr _
      apply (obeys_primeDnskey _ rootAddr).bind
      exact fun _ _ _ => obeys_primeTlds rootAddr tlds

/-! ## The background tasks of a run -/

/-- The background tasks obey the protocol. -/
def Background (rules : PacketRules) (system : System) : Prop :=
  ∀ id task, system.tasks id = some task →
    task.program.Obeys rules.protocol (fun _ _ => True) ()

namespace Background

variable {ctx : PipelineCtx} {verdict : Verdict} {service after : Service} {system : System}
  {id : Nat}

theorem init (cache : DnsCache) : rules.Background (Service.init cache).system := by
  intro id task isTask
  cases isTask

theorem setTask (tasks : rules.Background system) {next : Option Task}
    (this : ∀ task, next = some task →
      task.program.Obeys rules.protocol (fun _ _ => True) ()) :
    rules.Background (system.setTask id next) := by
  intro other task isTask
  by_cases same : other = id
  · subst same
    rw [System.setTask_tasks_self] at isTask
    exact this task isTask
  · rw [System.setTask_tasks_of_ne _ same] at isTask
    exact tasks other task isTask

theorem spawn (tasks : rules.Background system) (refreshes : Option CacheKey)
    {program : Resolver Unit} (obeys : program.Obeys rules.protocol (fun _ _ => True) ()) :
    rules.Background (system.spawn refreshes program) := by
  apply tasks.setTask
  rintro _ ⟨⟩
  exact obeys

theorem answer {next : System} {effect : Effect} {reply : Reply} {value : effect.Answer}
    (tasks : rules.Background system)
    (answered : Numa.answer ctx.toServerCtx system id effect reply = some (value, next)) :
    rules.Background next := by
  rcases answer_system_cases answered with ⟨-, sameTasks⟩ | ⟨batch, cache, -, -, rfl⟩ |
    ⟨key, -, rfl⟩
  · intro other task isTask
    rw [sameTasks] at isTask
    exact tasks other task isTask
  · exact tasks
  · exact tasks.spawn _ (obeys_spawnedRefresh key)

/-- The tasks after a step in which a task gets a permitted answer. -/
theorem step {action : ServiceAction}
    (tasks : rules.Background service.system)
    (permitted : ∀ effect value,
      service.taskEvent ctx action = some ⟨.resolver effect, value⟩ → rules.permits effect value)
    (stepped : service.step ctx verdict action = some after) :
    rules.Background after.system := by
  cases action with
  | tick duration =>
      cases stepped
      exact tasks
  | warm qname qtype =>
      cases stepped
      exact tasks.spawn _ (obeys_refreshEntry qname qtype)
  | prime tlds =>
      cases stepped
      exact tasks.spawn _ (obeys_primeTldCache tlds)
  | clear =>
      cases stepped
      exact tasks
  | remove domain =>
      cases stepped
      exact tasks
  | fetch id name qtype =>
      obtain ⟨client, -, taken⟩ := Option.bind_eq_some_iff.mp stepped
      simp only [Option.ite_none_right_eq_some] at taken
      cases taken.2
      exact tasks.spawn _ (obeys_fetchKeys name qtype)
  | arrive query filterAaaa =>
      cases stepped
      exact tasks
  | task id reply =>
      obtain ⟨system, ran, rfl⟩ := Service.step_task_cases stepped
      obtain ⟨task, isTask, ⟨value, isDone, rfl⟩ | ⟨effect, next, value, middle, isNext,
        answered, rfl⟩⟩ := step_run_cases ran
      · apply tasks.setTask
        rintro _ ⟨⟩
      · apply (tasks.answer answered).setTask
        rintro _ ⟨⟩
        have asks := tasks id task isTask
        rw [isNext] at asks
        exact asks.2 value ()
          (permitted effect value (Service.taskEvent_eq_some isTask isNext answered))
  | client id reply =>
      obtain ⟨client, isClient, ⟨-, rfl⟩ | ⟨answer, -, rfl⟩ |
        ⟨effect, next, value, middle, isNext, answered, rfl⟩⟩ := Service.step_client_cases stepped
      · exact tasks
      · exact tasks
      · change rules.Background middle.system
        rcases Service.answer_cases answered with ⟨inner, innerReply, innerValue, rfl,
          inResolver⟩ | ⟨qname, qtype, response, status, cache, rfl, inserted, rfl⟩ | rfl
        · rcases Service.answerResolver_cases inResolver with ⟨key, result, -, rfl⟩ |
            ⟨key, -, rfl⟩ | ⟨system, inSystem, rfl⟩
          · exact tasks
          · exact tasks
          · exact tasks.answer inSystem
        · exact tasks
        · exact tasks

end Background

/-- What a resolution is allowed to write is good. -/
theorem goodWire_of_writes {effect : Effect} {item : Written}
    (allowed : rules.protocol.allowed () effect) (itemMem : item ∈ effect.writes) :
    rules.goodWire item.wire := by
  cases effect with
  | insertWires batch =>
      obtain ⟨inserted, insertedMem, rfl⟩ := List.mem_map.mp itemMem
      exact allowed inserted insertedMem
  | _ => cases itemMem

/-- What a background task writes is good. -/
theorem Background.goodWire_of_writes {service : Service} {id : Nat} {reply : Reply}
    {item : Written} (tasks : rules.Background service.system)
    (itemMem : item ∈ service.writes (.task id reply)) : rules.goodWire item.wire := by
  simp only [Service.writes] at itemMem
  split at itemMem
  · rename_i effect next isProgram
    obtain ⟨task, isTask, isNext⟩ := Option.map_eq_some_iff.mp isProgram
    have asks := tasks id task isTask
    rw [isNext] at asks
    exact PacketRules.goodWire_of_writes asks.1 itemMem
  · cases itemMem

end PacketRules

end Numa
