import Numa.StrictMode
import Numa.TaskRules

/-!
# The AD bit

The AD bit of an answer should stand for a status `Secure`.  The pipeline only
ever sets the bit, so a bit that a server sets comes through to the client, and
a bit that is stored with a validated entry is handed on by every resolution
that starts with a hit on this entry, while its status is not.
-/

namespace Numa

open PipelineRules

/-- No answer has the AD bit without the status. -/
def Service.AuthenticAd (service : Service) : Prop :=
  ∀ answered ∈ service.answers, answered.answer.path ∈ [.recursive, .cached, .coalesced] →
    answered.answer.message.header.authedData = true → answered.answer.dnssec = .secure

/-! ## The condition -/

/-- No server sets the AD bit, and no resolution hands on a stored one. -/
def Effect.permitsAd : (effect : Effect) → effect.Answer → Bool
  | .sendQueryHedged .., .ok packet => !packet.header.authedData
  | .forwardRaw, .ok wire => wire.packet.all fun packet => !packet.header.authedData
  | .lookup caller .., some packet => !(caller.handsOn && packet.header.authedData)
  | _, _ => true

def Event.permitsAd (event : Event) : Bool :=
  match event with
  | ⟨.resolver effect, answer⟩ => effect.permitsAd answer
  | _ => true

/-- The condition on a step. -/
def Service.adMeets (ctx : PipelineCtx) (verdict : Verdict) (service : Service)
    (action : ServiceAction) : Bool :=
  (service.taskEvent ctx action).all Event.permitsAd &&
    (service.event ctx verdict action).all fun (_, event) => event.permitsAd

/-- Packets without status are stored and broadcast without the bit. -/
def authentic : PacketRules where
  permits effect answer := effect.permitsAd answer = true
  good packet := packet.header.authedData = false
  goodWire wire := ∀ packet, wire.packet = some packet → packet.header.authedData = false
  send permitted := by simpa [Effect.permitsAd] using permitted
  forward := by
    intro wire permitted packet isPacket
    simpa [Effect.permitsAd, isPacket] using permitted
  lookup handsOn permitted := by simpa [Effect.permitsAd, handsOn] using permitted
  good_glue _ := rfl
  good_combine _ clear := clear
  good_answer _ _ _ clear := clear
  goodWire_ofPacket := by
    rintro packet clear _ ⟨⟩
    exact clear
  good_of_goodWire clear isPacket := clear _ isPacket

/-- The bit is set in a packet only for the status. -/
def AdFor (status : DnssecStatus) (packet : DnsPacket) : Prop :=
  packet.header.authedData = true → status = .secure

/-! ## The protocol of a client -/

/-- What an answer tells: nothing that is broadcast has the bit, and a stored
one stands for the status of the entry. -/
def Effect.InformsAd : (effect : Effect) → effect.Answer → Prop
  | .lookupWithStatus .., some (packet, status, _) => AdFor status packet
  | .receive _, some packet => packet.header.authedData = false
  | _, _ => True

/-- The final insertion stores the bit only for the status. -/
def authenticQuery : Protocol QueryEffect QueryEffect.Answer Unit where
  allowed state effect :=
    match effect with
    | .resolver inner => authentic.protocol.allowed state inner
    | .insertWithStatus _ _ response status => AdFor status response
    | _ => True
  moves state effect answer after :=
    match effect, answer with
    | .resolver inner, answer =>
      authentic.protocol.moves state inner answer after ∧ inner.InformsAd answer
    | _, _ => True

/-- The protocol of the resolution of a client. -/
def authenticRemote : Protocol Effect Effect.Answer Unit :=
  authenticQuery.pullback QueryEffect.resolver fun _ answer => answer

section Clients

variable {ctx : PipelineCtx} {query : DnsPacket}

theorem informs_of_moves {state after : Unit} {effect : Effect} {answer : effect.Answer}
    (moves : authenticRemote.moves state effect answer after) : effect.InformsAd answer := by
  obtain ⟨_, rfl, -, informs⟩ := moves
  exact informs

/-- A response on its way to a client has the bit only for its status, and not
before its validation. -/
def AdReady (path : QueryPath) (status : DnssecStatus) (resp : DnsPacket) : Prop :=
  AdFor status resp ∧ (path = .recursive → resp.header.authedData = false)

theorem adReady_of_clear {path : QueryPath} {status : DnssecStatus} {resp : DnsPacket}
    (clear : resp.header.authedData = false) : AdReady path status resp := by
  refine ⟨fun isSet => ?_, fun _ => clear⟩
  rw [clear] at isSet
  cases isSet

theorem obeys_resolveRemote_authentic {qname : Text} {qtype : QueryType} (state : Unit) :
    (resolveRemote ctx.toServerCtx query qname qtype).Obeys authenticRemote
      (fun _ result => AdReady result.2.1 result.2.2 result.1) state := by
  apply obeys_resolveRemote
  · trivial
  · intro cached status freshness after moves
    have stored : AdFor status cached := informs_of_moves moves
    apply obeys_serveCached ⟨trivial, fun _ _ _ => rfl⟩ ⟨trivial, fun _ _ _ => rfl⟩
    refine ⟨fun isSet => ?_, nofun⟩
    rcases Bool.or_eq_true_iff.mp isSet with isSecure | isCached
    · exact eq_of_beq isSecure
    · exact stored isCached
  · intro after _
    apply obeys_resolveCoalesced
    · trivial
    · intro middle _
      refine ⟨trivial, fun result final moves => ?_⟩
      cases result with
      | none => exact adReady_of_clear rfl
      | some packet =>
          have clear : packet.header.authedData = false := informs_of_moves moves
          exact adReady_of_clear clear
    · intro middle _
      have resolves : (resolveMiss ctx.toServerCtx query qname qtype).2.Obeys authenticRemote
          authentic.Returns middle := by
        apply (authentic.obeys_resolveMiss query qname qtype).transfer
        · exact fun _ _ allowed => allowed
        · rintro _ _ _ _ ⟨_, rfl, permitted, -⟩
          exact permitted
      apply resolves.mono
      intro final result clear
      cases result with
      | error error =>
          exact ⟨⟨trivial, fun _ _ _ => rfl⟩, trivial, fun _ _ => adReady_of_clear rfl⟩
      | ok packet =>
          exact ⟨⟨trivial, fun _ _ _ => rfl⟩, clear packet rfl,
            fun _ _ => adReady_of_clear (clear packet rfl)⟩

theorem obeys_resolveOnce_authentic {qname : Text} {qtype : QueryType} {state : Unit} :
    (resolveOnce ctx query qname qtype).Obeys authenticQuery
      (fun _ result => AdReady result.2.1 result.2.2 result.1) state := by
  refine ⟨trivial, fun found after _ => ?_⟩
  cases found with
  | some answer => exact adReady_of_clear rfl
  | none =>
      apply Interaction.Obeys.embed
      exact obeys_resolveRemote_authentic after

theorem adFor_applyStatus {status dnssec : DnssecStatus} {resp : DnsPacket}
    (ready : AdReady .recursive dnssec resp) : AdFor status (applyStatus ctx query status resp) := by
  unfold applyStatus
  split
  · rename_i isSecure
    exact fun _ => isSecure
  · split
    · exact nofun
    · exact fun isSet => absurd isSet (by rw [ready.2 rfl]; decide)

/-- An answer has the AD bit only for its status. -/
theorem obeys_resolveQuery_authentic (query : DnsPacket) (filterAaaa : Bool) :
    (resolveQuery ctx query filterAaaa).Obeys authenticQuery
      (fun _ result => ∀ answer, result = some answer →
        answer.message.header.authedData = true → answer.dnssec = .secure) () := by
  apply obeys_resolveQuery (fun _ path dnssec _ _ resp => AdReady path dnssec resp)
    (fun _ dnssec _ response => AdFor dnssec response)
  · exact fun _ _ => obeys_resolveOnce_authentic
  · exact fun _ _ _ _ _ _ _ => adReady_of_clear rfl
  · intro question path dnssec state current resp target ready _
    apply obeys_resolveOnce_authentic.mono
    exact fun _ _ _ => ready
  · intro question path dnssec state current resp _ ready
    unfold validateAndCache
    split
    · rename_i both
      rw [both.2] at ready
      refine ⟨trivial, fun status after _ => ?_⟩
      exact ⟨adFor_applyStatus ready, fun _ _ _ => adFor_applyStatus ready⟩
    · exact ready.1
  · exact fun _ => trivial
  · exact fun _ _ _ _ _ _ ready _ => ready
  · intro _ _ same
    cases same
  · intro path dnssec state response message octets ready sends _ same isSet
    cases same
    rcases sends with ⟨-, -, authed⟩ | ⟨-, -, clear⟩
    · exact ready (authed isSet)
    · rw [clear] at isSet
      cases isSet

end Clients

/-! ## The invariant -/

/-- Clients and tasks obey the protocol, nothing that was broadcast has the AD
bit, and stored bits stand for the status of their entry. -/
structure Service.AdSound (service : Service) : Prop where
  obeying : service.Obeying authenticQuery (fun _ => ()) fun _ _ result =>
    ∀ answer, result = some answer →
      answer.message.header.authedData = true → answer.dnssec = .secure
  tasks : authentic.Background service.system
  sent : ∀ key packet, (key, some packet) ∈ service.sent → packet.header.authedData = false
  entries : ∀ domain qtype entry packet, service.system.cache.entry domain qtype = some entry →
    entry.wire.packet = some packet → AdFor entry.dnssecStatus packet

section Invariant

variable {ctx : PipelineCtx} {verdict : Verdict} {service after : Service} {id : Nat}

/-- An answer of the system tells the truth in a sound state. -/
theorem Service.AdSound.informs {effect : Effect} {reply : Reply} {value : effect.Answer}
    {middle : Service} (sound : service.AdSound)
    (answered : service.answerResolver ctx id effect reply = some (value, middle)) :
    effect.InformsAd value := by
  cases effect with
  | lookupWithStatus qname qtype =>
      cases value with
      | none => trivial
      | some found =>
          obtain ⟨packet, status, freshness⟩ := found
          have isFound : service.system.cache.lookupWithStatus service.system.now qname qtype =
              some (packet, status, freshness) := (Prod.ext_iff.mp (Option.some.inj answered)).1
          obtain ⟨entry, stored, ttl, isEntry, isStored, rfl, rfl, -⟩ :=
            DnsCache.lookupWithStatus_eq_some isFound
          exact sound.entries qname qtype entry stored isEntry isStored
  | receive key =>
      cases value with
      | none => trivial
      | some packet => exact sound.sent key packet (Service.mem_sent_of_receive answered)
  | _ => trivial

/-- What is broadcast after a step. -/
theorem Service.AdSound.sent_step {action : ServiceAction} (sound : service.AdSound)
    (stepped : service.step ctx verdict action = some after) {key : CacheKey}
    {packet : DnsPacket} (wasSent : (key, some packet) ∈ after.sent) :
    packet.header.authedData = false := by
  cases action with
  | fetch id name qtype =>
      obtain ⟨client, -, taken⟩ := Option.bind_eq_some_iff.mp stepped
      simp only [Option.ite_none_right_eq_some] at taken
      cases taken.2
      exact sound.sent key packet wasSent
  | task id reply =>
      obtain ⟨system, ran, rfl⟩ := Service.step_task_cases stepped
      exact sound.sent key packet wasSent
  | client id reply =>
      obtain ⟨client, isClient, ⟨-, rfl⟩ | ⟨answer, -, rfl⟩ |
        ⟨effect, next, value, middle, isNext, answered, rfl⟩⟩ := Service.step_client_cases stepped
      · exact sound.sent key packet wasSent
      · exact sound.sent key packet wasSent
      · change (key, some packet) ∈ middle.sent at wasSent
        have asks := sound.obeying.clients id client isClient
        rw [isNext] at asks
        rcases Service.answer_cases answered with ⟨inner, innerReply, innerValue, rfl,
          inResolver⟩ | ⟨qname, qtype, response, status, cache, rfl, inserted, rfl⟩ | rfl
        · rcases Service.answerResolver_cases inResolver with ⟨sentKey, result, rfl, rfl⟩ |
            ⟨sentKey, -, rfl⟩ | ⟨system, inSystem, rfl⟩
          · rcases List.mem_cons.mp wasSent with same | earlier
            · cases same
              exact asks.1
            · exact sound.sent key packet earlier
          · exact sound.sent key packet wasSent
          · exact sound.sent key packet wasSent
        · exact sound.sent key packet wasSent
        · exact sound.sent key packet wasSent
  | _ =>
      cases stepped
      exact sound.sent key packet wasSent

/-- A step writes the AD bit only with the status. -/
theorem Service.AdSound.adFor_of_writes {action : ServiceAction} {item : Written}
    {packet : DnsPacket} (sound : service.AdSound) (itemMem : item ∈ service.writes action)
    (isPacket : item.wire.packet = some packet) : AdFor item.status packet := by
  have clear : packet.header.authedData = false → AdFor item.status packet := by
    intro notSet isSet
    rw [notSet] at isSet
    cases isSet
  cases action with
  | task id reply =>
      exact clear (sound.tasks.goodWire_of_writes itemMem packet isPacket)
  | client id reply =>
      simp only [Service.writes] at itemMem
      split at itemMem
      · rename_i effect next isProgram
        obtain ⟨client, isClient, isNext⟩ := Option.map_eq_some_iff.mp isProgram
        have asks := sound.obeying.clients id client isClient
        rw [isNext] at asks
        cases effect with
        | resolver inner =>
            exact clear (authentic.goodWire_of_writes asks.1 itemMem packet isPacket)
        | insertWithStatus qname qtype response status =>
            obtain rfl := List.mem_singleton.mp itemMem
            cases isPacket
            exact asks.1
        | _ => cases itemMem
      · cases itemMem
  | _ => cases itemMem

theorem Service.AdSound.step {action : ServiceAction} (sound : service.AdSound)
    (met : service.adMeets ctx verdict action = true)
    (stepped : service.step ctx verdict action = some after) : after.AdSound where
  obeying := by
    apply sound.obeying.step _ _ stepped
    · exact obeys_resolveQuery_authentic
    · rintro id reply client effect next value middle rfl isClient isNext answered
      have event := Service.event_eq_some isClient isNext answered
      simp only [Service.adMeets, event, Option.all_some, Bool.and_eq_true] at met
      cases effect with
      | resolver inner =>
          cases reply with
          | resolver innerReply => exact ⟨met.2, sound.informs answered⟩
          | _ => cases answered
      | _ => trivial
  tasks := by
    apply sound.tasks.step _ stepped
    intro effect value event
    simp only [Service.adMeets, event, Option.all_some, Bool.and_eq_true] at met
    exact met.1
  sent _ _ wasSent := sound.sent_step stepped wasSent
  entries := by
    intro domain qtype entry packet isEntry isPacket
    rcases Service.entryFrom_step stepped domain qtype with same | gone |
      ⟨item, itemMem, _, isNew, -, sameWire, sameStatus⟩
    · exact sound.entries domain qtype entry packet (same ▸ isEntry) isPacket
    · rw [gone] at isEntry
      cases isEntry
    · obtain rfl := Option.some.inj (isNew.symm.trans isEntry)
      rw [sameStatus]
      exact sound.adFor_of_writes itemMem (sameWire ▸ isPacket)

theorem Service.adSound_init (cache : DnsCache)
    (empty : ∀ domain qtype, cache.entry domain qtype = none) :
    (Service.init cache).AdSound where
  obeying := Service.obeying_init cache
  tasks := PacketRules.Background.init cache
  sent := by
    intro key packet wasSent
    cases wasSent
  entries := by
    intro domain qtype entry packet isEntry
    rw [show (Service.init cache).system.cache = cache from rfl, empty] at isEntry
    cases isEntry

end Invariant

/-- In every run in which no server sets the AD bit and no resolution hands on
a stored one, every answer with the bit has the status. -/
theorem authenticAd_of_runMeeting {ctx : PipelineCtx} {verdict : Verdict} {maxEntries : Nat}
    {minTtl maxTtl : UInt32} {actions : List ServiceAction} {service : Service}
    (ran : (Service.init (.new maxEntries minTtl maxTtl)).runMeeting ctx verdict
      (Service.adMeets ctx verdict) actions = some service) :
    service.AuthenticAd := by
  have sound : service.AdSound := by
    apply Service.invariant_runMeeting (Service.adSound_init _ fun _ _ => rfl) _ ran
    exact fun before action next holds met stepped => holds.step met stepped
  intro answered answeredMem _ isSet
  obtain ⟨_, authed⟩ := sound.obeying.answers answered answeredMem
  exact authed answered.answer rfl isSet

theorem authenticAd_of_runMeeting_secureRun :
    ∃ service, (Service.init (.new 100000 60 86400)).runMeeting strictCtx strictVerdict
        (Service.adMeets strictCtx strictVerdict) secureRun = some service ∧
      service.answers.map (fun answered =>
        (answered.answer.path, answered.answer.message.header.authedData)) =
          [(.cached, true), (.recursive, true)] ∧
      service.AuthenticAd := by
  have served : ((Service.init (.new 100000 60 86400)).runMeeting strictCtx strictVerdict
      (Service.adMeets strictCtx strictVerdict) secureRun).any (fun service =>
        decide (service.answers.map (fun answered =>
          (answered.answer.path, answered.answer.message.header.authedData)) =
            [(.cached, true), (.recursive, true)])) = true := by decide +kernel
  obtain ⟨service, ran, isServed⟩ := (Option.any_eq_true _ _).mp served
  exact ⟨service, ran, of_decide_eq_true isServed, authenticAd_of_runMeeting ran⟩

/-! ## A server sets the bit -/

/-- An unsigned answer with the AD bit. -/
def vouchedResponse : DnsPacket where
  header := { response := true, authedData := true }
  answers := [sampleAddress (text "test")]

/-- One client leads, the server sets the AD bit. -/
def vouchedRun : List ServiceAction :=
  coalescing 0 (strictQuery 1) ++
    [ .client 0 (.resolver .nothing), .client 0 (.resolver .nothing),
      .client 0 (.resolver (.order [strictServer])),
      .client 0 (.resolver (.response (.ok vouchedResponse))), .client 0 (.resolver .nothing),
      .client 0 (.resolver .nothing), .client 0 (.resolver .nothing) ] ++
    finishing

/-- Does some answer have the AD bit without the status? -/
def vouchesWithoutStatus (service : Service) : Bool :=
  service.answers.any fun answered =>
    decide (answered.answer.path ∈ [.recursive, .cached, .coalesced]) &&
      answered.answer.message.header.authedData && answered.answer.dnssec != .secure

theorem not_authenticAd_of_vouches {service : Service}
    (vouches : vouchesWithoutStatus service = true) : ¬ service.AuthenticAd := by
  intro authenticAd
  obtain ⟨answered, answeredMem, all⟩ := List.any_eq_true.mp vouches
  simp only [Bool.and_eq_true, decide_eq_true_eq, bne_iff_ne] at all
  exact all.2 (authenticAd answered answeredMem all.1.1 all.1.2)

/-- The insecure answer goes out with the AD bit of the server. -/
theorem vouchedRun_vouches :
    ∃ service, (Service.init (.new 100000 60 86400)).runAll strictCtx strictVerdict
        vouchedRun = some service ∧ ¬ service.AuthenticAd := by
  have vouches : ((Service.init (.new 100000 60 86400)).runAll strictCtx strictVerdict
      vouchedRun).any vouchesWithoutStatus = true := by decide +kernel
  obtain ⟨service, ran, isVouched⟩ := (Option.any_eq_true _ _).mp vouches
  exact ⟨service, ran, not_authenticAd_of_vouches isVouched⟩

end Numa
