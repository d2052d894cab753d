import Numa.Forward
import Numa.StrictMode
import Numa.TaskRules

/-!
# Messages and the queries they answer

An exchange returns the first message that arrives, and this message is stored
and handed on as it is: nothing compares its ID or its question section with
the query.  The responses that the program takes from its cache, from its own
recursion or from local data are addressed to the client instead.
-/

namespace Numa

open PipelineRules

/-- The message that an upstream sends in a step. -/
def ServiceAction.wire : ServiceAction → Option Wire
  | .task _ (.wire (.ok wire)) => some wire
  | .client _ (.resolver (.wire (.ok wire))) => some wire
  | _ => none

/-- A message has the ID of the query, and its question section, unless it was
taken from an upstream.  What a leader broadcasts keeps its own question
section. -/
def Addressed (query : DnsPacket) (path : QueryPath) (message : DnsPacket) : Prop :=
  path ≠ .forwarded → path ≠ .upstream →
    message.header.id = query.header.id ∧
      (path ≠ .coalesced → message.questions = query.questions)

section Rules

variable (arrived : Wire → Prop)

/-- Messages are stored that have arrived, or that the program has written. -/
def relaying : PacketRules where
  permits effect answer :=
    match effect, answer with
    | .forwardRaw, .ok wire => arrived wire
    | _, _ => True
  good _ := True
  goodWire wire := (∃ packet, wire = .ofPacket packet) ∨ arrived wire
  send _ := trivial
  forward permitted := .inr permitted
  lookup _ _ := trivial
  good_glue _ := trivial
  good_combine _ _ := trivial
  good_answer _ _ _ _ := trivial
  goodWire_ofPacket _ := .inl ⟨_, rfl⟩
  good_of_goodWire _ _ := trivial

/-- The protocol of a client. -/
def relayingQuery : Protocol QueryEffect QueryEffect.Answer Unit where
  allowed state effect :=
    match effect with
    | .resolver inner => (relaying arrived).protocol.allowed state inner
    | _ => True
  moves state effect answer after :=
    match effect, answer with
    | .resolver inner, answer => (relaying arrived).protocol.moves state inner answer after
    | _, _ => True

/-- The protocol of the resolution of a client. -/
def relayingRemote : Protocol Effect Effect.Answer Unit :=
  (relayingQuery arrived).pullback QueryEffect.resolver fun _ answer => answer

end Rules

section Clients

variable {arrived : Wire → Prop} {ctx : PipelineCtx} {query : DnsPacket} {state : Unit}

theorem addressed_of_eq {path : QueryPath} {message : DnsPacket}
    (sameId : message.header.id = query.header.id)
    (sameQuestions : message.questions = query.questions) : Addressed query path message :=
  fun _ _ => ⟨sameId, fun _ => sameQuestions⟩

/-- The leader's own recursion answers the query. -/
theorem obeys_resolveMiss_addressed {qname : Text} {qtype : QueryType} :
    (resolveMiss ctx.toServerCtx query qname qtype).2.Obeys (relaying arrived).protocol
      (fun _ result => ∀ packet, result = .ok packet →
        Addressed query (resolveMiss ctx.toServerCtx query qname qtype).1 packet) state := by
  unfold resolveMiss
  split
  · apply ((relaying arrived).obeys_forwardAndCache qname qtype).mono
    exact fun _ _ _ _ _ other => absurd rfl other
  · split
    · apply ((relaying arrived).obeys_resolveIterative (by decide) qname qtype).bind
      intro after result _
      cases result with
      | ok packet =>
          rintro _ ⟨⟩
          exact addressed_of_eq rfl rfl
      | error error =>
          rintro _ ⟨⟩
    · apply ((relaying arrived).obeys_forwardAndCache qname qtype).mono
      exact fun _ _ _ _ _ _ other => absurd rfl other

theorem obeys_resolveRemote_addressed {qname : Text} {qtype : QueryType} :
    (resolveRemote ctx.toServerCtx query qname qtype).Obeys (relayingRemote arrived)
      (fun _ result => Addressed query result.2.1 result.1) state := by
  apply obeys_resolveRemote
  · trivial
  · intro cached status freshness after _
    apply obeys_serveCached ⟨trivial, fun _ _ _ => rfl⟩ ⟨trivial, fun _ _ _ => rfl⟩
    exact addressed_of_eq rfl rfl
  · intro after _
    apply obeys_resolveCoalesced
    · trivial
    · intro middle _
      refine ⟨trivial, fun result final _ => ?_⟩
      cases result with
      | none => exact addressed_of_eq rfl rfl
      | some packet => exact fun _ _ => ⟨rfl, fun other => absurd rfl other⟩
    · intro middle _
      have resolves : (resolveMiss ctx.toServerCtx query qname qtype).2.Obeys
          (relayingRemote arrived) (fun _ result => ∀ packet, result = .ok packet →
            Addressed query (resolveMiss ctx.toServerCtx query qname qtype).1 packet) middle := by
        apply obeys_resolveMiss_addressed.transfer
        · exact fun _ _ allowed => allowed
        · rintro _ _ _ _ ⟨_, rfl, permitted⟩
          exact permitted
      apply resolves.mono
      intro final result addressed
      refine ⟨⟨trivial, fun _ _ _ => rfl⟩, ?_⟩
      cases result with
      | error error => exact ⟨trivial, fun _ _ => addressed_of_eq rfl rfl⟩
      | ok packet => exact ⟨trivial, fun _ _ => addressed packet rfl⟩

theorem obeys_resolveOnce_addressed {qname : Text} {qtype : QueryType} :
    (resolveOnce ctx query qname qtype).Obeys (relayingQuery arrived)
      (fun _ result => Addressed query result.2.1 result.1) state := by
  refine ⟨trivial, fun found after _ => ?_⟩
  cases found with
  | some answer => exact addressed_of_eq rfl rfl
  | none =>
      apply Interaction.Obeys.embed
      exact obeys_resolveRemote_addressed

theorem Addressed.applyStatus {path : QueryPath} {status : DnssecStatus} {response : DnsPacket}
    (addressed : Addressed query path response) :
    Addressed query path (applyStatus ctx query status response) := by
  unfold Numa.applyStatus
  split
  · exact addressed
  · split
    · exact addressed_of_eq rfl rfl
    · exact addressed

/-- Every answer is addressed to the client. -/
theorem obeys_resolveQuery_addressed (query : DnsPacket) (filterAaaa : Bool) :
    (resolveQuery ctx query filterAaaa).Obeys (relayingQuery arrived)
      (fun _ result => ∀ answer, result = some answer →
        Addressed query answer.path answer.message) () := by
  apply obeys_resolveQuery (fun _ path _ _ _ resp => Addressed query path resp)
    (fun path _ _ response => Addressed query path response)
  · exact fun _ _ => obeys_resolveOnce_addressed
  · exact fun _ _ _ _ _ _ _ => addressed_of_eq rfl rfl
  · intro question path dnssec state current resp target addressed _
    apply obeys_resolveOnce_addressed.mono
    exact fun _ _ _ => addressed
  · intro question path dnssec state current resp _ addressed
    unfold validateAndCache
    split
    · exact ⟨trivial, fun status after _ => ⟨trivial, fun _ _ _ => addressed.applyStatus⟩⟩
    · exact addressed
  · exact fun _ => trivial
  · exact fun _ _ _ _ _ _ addressed _ => addressed
  · rintro _ _ ⟨⟩
  · intro path dnssec state response message octets addressed sends _ same
    cases same
    rcases sends with ⟨sameId, sameQuestions, -⟩ | ⟨sameId, sameQuestions, -⟩
    · intro notForwarded notUpstream
      obtain ⟨isId, areQuestions⟩ := addressed notForwarded notUpstream
      exact ⟨sameId.trans isId, fun other => sameQuestions.trans (areQuestions other)⟩
    · exact addressed_of_eq sameId sameQuestions

end Clients

/-! ## The invariant -/

/-- Clients and tasks obey the protocol, and what is stored has arrived or was
written by the program. -/
structure Service.RelaySound (arrived : Wire → Prop) (service : Service) : Prop where
  obeying : service.Obeying (relayingQuery arrived) (fun _ => ()) fun query _ result =>
    ∀ answer, result = some answer → Addressed query answer.path answer.message
  tasks : (relaying arrived).Background service.system
  entries : ∀ domain qtype entry, service.system.cache.entry domain qtype = some entry →
    (∃ packet, entry.wire = .ofPacket packet) ∨ arrived entry.wire

section Invariant

variable {arrived : Wire → Prop} {ctx : PipelineCtx} {verdict : Verdict}
  {service after : Service} {id : Nat}

/-- A message that an exchange returns is the one in the reply. -/
theorem reply_of_forwardRaw {system next : System} {reply : Reply} {wire : Wire}
    (answered : answer ctx.toServerCtx system id .forwardRaw reply = some (.ok wire, next)) :
    reply = .wire (.ok wire) := by
  cases reply with
  | wire result =>
      cases result with
      | ok given =>
          cases answered
          rfl
      | error error => cases answered
  | _ => cases answered

theorem permits_of_answer {system next : System} {effect : Effect} {reply : Reply}
    {value : effect.Answer} (arrives : ∀ wire, reply = .wire (.ok wire) → arrived wire)
    (answered : answer ctx.toServerCtx system id effect reply = some (value, next)) :
    (relaying arrived).permits effect value := by
  cases effect with
  | forwardRaw =>
      cases value with
      | ok wire => exact arrives wire (reply_of_forwardRaw answered)
      | error error => trivial
  | _ => trivial

theorem permits_of_answerResolver {effect : Effect} {reply : Reply} {value : effect.Answer}
    (arrives : ∀ wire, reply = .wire (.ok wire) → arrived wire)
    (answered : service.answerResolver ctx id effect reply = some (value, after)) :
    (relaying arrived).permits effect value := by
  rcases Service.answerResolver_cases answered with ⟨key, result, rfl, -⟩ | ⟨key, rfl, -⟩ |
    ⟨system, inSystem, -⟩
  · trivial
  · trivial
  · exact permits_of_answer arrives inSystem

theorem Service.RelaySound.step {action : ServiceAction} (sound : service.RelaySound arrived)
    (arrives : ∀ wire, action.wire = some wire → arrived wire)
    (stepped : service.step ctx verdict action = some after) : after.RelaySound arrived where
  obeying := by
    apply sound.obeying.step _ _ stepped
    · exact obeys_resolveQuery_addressed
    · rintro id reply client effect next value middle rfl isClient isNext answered
      cases effect with
      | resolver inner =>
          cases reply with
          | resolver innerReply =>
              apply permits_of_answerResolver _ answered
              rintro wire rfl
              exact arrives wire rfl
          | _ => cases answered
      | _ => trivial
  tasks := by
    apply sound.tasks.step _ stepped
    intro effect value event
    cases action with
    | task id reply =>
        simp only [Service.taskEvent, Option.bind_eq_bind, Option.bind_eq_some_iff] at event
        obtain ⟨task, -, taken⟩ := event
        split at taken
        · obtain ⟨⟨given, system⟩, answered, same⟩ := Option.bind_eq_some_iff.mp taken
          cases same
          apply permits_of_answer _ answered
          rintro wire rfl
          exact arrives wire rfl
        · cases taken
    | _ => cases event
  entries := by
    intro domain qtype entry isEntry
    rcases Service.entryFrom_step stepped domain qtype with same | gone |
      ⟨item, itemMem, _, isNew, -, sameWire, -⟩
    · exact sound.entries domain qtype entry (same ▸ isEntry)
    · rw [gone] at isEntry
      cases isEntry
    · obtain rfl := Option.some.inj (isNew.symm.trans isEntry)
      rw [sameWire]
      cases action with
      | task id reply => exact sound.tasks.goodWire_of_writes itemMem
      | client id reply =>
          simp only [Service.writes] at itemMem
          split at itemMem
          · rename_i effect next isProgram
            obtain ⟨client, isClient, isNext⟩ := Option.map_eq_some_iff.mp isProgram
            have asks := sound.obeying.clients id client isClient
            rw [isNext] at asks
            cases effect with
            | resolver inner => exact (relaying arrived).goodWire_of_writes asks.1 itemMem
            | insertWithStatus qname qtype response status =>
                obtain rfl := List.mem_singleton.mp itemMem
                exact .inl ⟨response, rfl⟩
            | _ => cases itemMem
          · cases itemMem
      | _ => cases itemMem

theorem Service.relaySound_init (cache : DnsCache)
    (empty : ∀ domain qtype, cache.entry domain qtype = none) :
    (Service.init cache).RelaySound arrived where
  obeying := Service.obeying_init cache
  tasks := PacketRules.Background.init cache
  entries := by
    intro domain qtype entry isEntry
    rw [show (Service.init cache).system.cache = cache from rfl, empty] at isEntry
    cases isEntry

/-- In every run, what is stored was written by the program or is a message of
an upstream as it arrived, and every answer is addressed to its client. -/
theorem Service.relaySound_of_runAll {cache : DnsCache} {actions : List ServiceAction}
    (empty : ∀ domain qtype, cache.entry domain qtype = none)
    (ran : (Service.init cache).runAll ctx verdict actions = some service) :
    service.RelaySound fun wire => ∃ action ∈ actions, action.wire = some wire := by
  apply Service.invariant_runAll (Service.relaySound_init cache empty) _ ran
  intro before action next actionMem holds stepped
  exact holds.step (fun wire isWire => ⟨action, actionMem, isWire⟩) stepped

end Invariant

/-- The exchanges return the first message that arrives, whatever it says, and
so it is stored; the message that is finally sent has the ID of the client's
query and its question section, unless it was taken from an upstream or, as to
the question section, from another client's resolution. -/
theorem messages_of_runAll {ctx : PipelineCtx} {verdict : Verdict} {maxEntries : Nat}
    {minTtl maxTtl : UInt32} {actions : List ServiceAction} {service : Service}
    (ran : (Service.init (.new maxEntries minTtl maxTtl)).runAll ctx verdict actions =
      some service) :
    (∀ odoh wire arrivals message upstream,
      forwardQueryRaw odoh wire arrivals upstream = .ok message ↔
        ArrivesFirst odoh wire arrivals message upstream) ∧
    (∀ query arrivals packet, forwardUdp query arrivals = .ok packet ↔
      query.Writable ∧ ∃ sender datagram later,
        arrivals.datagrams = (sender, datagram) :: later ∧
          parseMessage (datagram.take 4096) = .ok packet) ∧
    (∀ domain qtype entry, service.system.cache.entry domain qtype = some entry →
      (∃ packet, entry.wire = .ofPacket packet) ∨
        ∃ action ∈ actions, action.wire = some entry.wire) ∧
    ∀ answered ∈ service.answers,
      Addressed answered.query answered.answer.path answered.answer.message := by
  have sound := Service.relaySound_of_runAll (fun _ _ => rfl) ran
  refine ⟨fun _ _ _ _ => forwardQueryRaw_eq_ok_iff, ?_, sound.entries, ?_⟩
  · intro query arrivals packet
    rw [forwardUdp, exchangePacket_eq_ok_iff, forwardUdpRaw]
    cases arrivals.datagrams with
    | nil => simp
    | cons first later =>
        obtain ⟨sender, datagram⟩ := first
        simp
  · intro answered answeredMem
    obtain ⟨_, addressed⟩ := sound.obeying.answers answered answeredMem
    exact addressed answered.answer rfl

/-! ## A stray message -/

/-- A message with another ID about another name. -/
def strayPacket : DnsPacket where
  header := { id := 7, response := true, questions := 1, answers := 1 }
  questions := [⟨text "www.bank", .a⟩]
  answers := [sampleAddress (text "www.bank")]

def strayOctets : List UInt8 :=
  (BytePacketBuffer.exec strayPacket.write .new).2.filled

/-- The message comes from a stranger before that of the upstream. -/
def strayArrivals : Arrivals where
  datagrams := [(.v4 (.new 203 0 113 9) 4242, strayOctets)]

def forwardingCtx : PipelineCtx :=
  { strictCtx with upstreamMode := .forward }

/-- The first client's query is forwarded, and the second one is served from the
cache. -/
def strayRun : List ServiceAction :=
  coalescing 0 (strictQuery 1) ++
    [ .client 0 (.resolver (.wire (.ok (.ofOctets strayOctets)))), .client 0 (.resolver .nothing),
      .client 0 (.resolver .nothing), .client 0 (.resolver .nothing), .client 0 (.rebind rebindOff),
      .client 0 .nothing, .arrive (strictQuery 2) false, .client 1 (.resolveLocal none),
      .client 1 (.resolver .nothing), .client 1 (.rebind rebindOff), .client 1 .nothing ]

theorem messages_of_runAll_strayRun :
    ∃ service, (Service.init (.new 100000 60 86400)).runAll forwardingCtx strictVerdict strayRun =
        some service ∧
      service.answers.map (fun answered =>
        (answered.answer.path, answered.answer.message.header.id)) =
          [(.cached, 2), (.upstream, 7)] ∧
      ∀ answered ∈ service.answers,
        Addressed answered.query answered.answer.path answered.answer.message := by
  have served : ((Service.init (.new 100000 60 86400)).runAll forwardingCtx strictVerdict
      strayRun).any (fun service => decide (service.answers.map (fun answered =>
        (answered.answer.path, answered.answer.message.header.id)) =
          [(.cached, 2), (.upstream, 7)])) = true := by decide +kernel
  obtain ⟨service, ran, isServed⟩ := (Option.any_eq_true _ _).mp served
  exact ⟨service, ran, of_decide_eq_true isServed, (messages_of_runAll ran).2.2.2⟩

/-- A message with another ID and another question is returned, stored for the
name that was asked, and sent to the client. -/
theorem strayPacket_returned :
    forwardUdp (serverQuery 1 (text "test") .a) strayArrivals = .ok strayPacket ∧
      strayPacket.header.id ≠ 1 ∧ strayPacket.questions ≠ [⟨text "test", .a⟩] ∧
      ((Service.init (.new 100000 60 86400)).runAll forwardingCtx strictVerdict strayRun).any
        (fun service =>
          (service.system.cache.entry (text "test") .a).any (fun entry =>
            decide (entry.wire.packet = some strayPacket)) &&
          service.answers.any fun answered =>
            decide (answered.query = strictQuery 1) &&
              decide (answered.answer.message.header.id = 7 ∧
                answered.answer.message.questions = strayPacket.questions)) = true := by
  refine ⟨?_, by decide, by decide, ?_⟩
  · decide +kernel
  · decide +kernel

end Numa
