import Numa.StrictMode

/-!
# The status of stored responses

An entry should carry the status that `validate_response` gives to the response
it stores.  Only the final insertion of a client stores a validated response;
all other writers store what they have as `Indeterminate`, under the same keys,
and a cache hit is not validated again.
-/

namespace Numa

open PipelineRules

/-- Every entry under a visible key carries the status of the response it
stores. -/
def Service.StatusStored (service : Service) (verdict : Verdict)
    (visible : Text → QueryType → Bool) : Prop :=
  ∀ domain qtype entry packet, visible domain qtype = true →
    service.system.cache.entry domain qtype = some entry → entry.wire.packet = some packet →
    verdict.status packet = some entry.dnssecStatus

/-! ## The condition -/

/-- A response that the validator leaves undecided. -/
def Verdict.undecided (verdict : Verdict) (packet : DnsPacket) : Bool :=
  decide (verdict.status packet = some .indeterminate)

/-- What is stored without validation is undecided anyway, and no bogus response
is replaced by an error of its own. -/
def Written.permitted (ctx : PipelineCtx) (verdict : Verdict) (item : Written) : Bool :=
  match item.status with
  | .indeterminate => item.wire.packet.all verdict.undecided
  | .bogus => !ctx.dnssecStrict
  | _ => true

/-- The condition on a step. -/
def Service.statusMeets (ctx : PipelineCtx) (verdict : Verdict)
    (visible : Text → QueryType → Bool) (service : Service) (action : ServiceAction) : Bool :=
  (service.writes action).all fun item =>
    !visible item.domain item.qtype || item.permitted ctx verdict

section Undecided

variable {W : Type} {ctx : ValidationCtx W} {world : W} {packet : DnsPacket}

/-- Only a signed response without answers is undecided. -/
theorem negative_of_undecided
    (undecided : (Verdict.ofValidator ctx world).undecided packet = true) :
    allRrsigsOf packet ≠ [] ∧ groupRrsets packet.answers = [] := by
  have isStatus := of_decide_eq_true undecided
  obtain ⟨⟨status, after⟩, validated, rfl⟩ := Option.map_eq_some_iff.mp isStatus
  constructor
  · intro unsigned
    have insecure := (Verdict.ofValidator ctx world).unsigned unsigned
    rw [isStatus] at insecure
    cases insecure
  · by_contra positive
    simp only [validateResponseIn] at validated
    split at validated
    · exact absurd (Exec.pure_eq_some.mp validated).1 (by simp)
    · obtain ⟨_, middle, -, rest⟩ := Exec.bind_eq_some.mp validated
      obtain ⟨verified, final, -, last⟩ := Exec.bind_eq_some.mp rest
      split at last <;> exact absurd (Exec.pure_eq_some.mp last).1 (by simp)

end Undecided

/-! ## The protocol of a client -/

/-- The final insertion stores a response with its status, but for a bogus one
in strict mode. -/
def validated (ctx : PipelineCtx) (verdict : Verdict) :
    Protocol QueryEffect QueryEffect.Answer Unit where
  allowed _ effect :=
    match effect with
    | .insertWithStatus _ _ response status =>
      status = .bogus ∧ ctx.dnssecStrict = true ∨ verdict.status response = some status
    | _ => True
  moves _ effect answer _ :=
    match effect, answer with
    | .validate response, status => verdict.status response = some status
    | _, _ => True

section Clients

variable {ctx : PipelineCtx} {verdict : Verdict} {query : DnsPacket}

/-- Validated responses keep their status when the AD bit is set. -/
theorem status_applyStatus {status : DnssecStatus} {response : DnsPacket}
    (isStatus : verdict.status response = some status) :
    status = .bogus ∧ ctx.dnssecStrict = true ∨
      verdict.status (applyStatus ctx query status response) = some status := by
  unfold applyStatus
  split
  · right
    have same : SameContent
        { response with header := { response.header with authedData := true } } response :=
      ⟨rfl, rfl, rfl, rfl, rfl⟩
    rw [verdict.content same]
    exact isStatus
  · split
    · rename_i both
      exact .inl both
    · exact .inr isStatus

theorem obeys_resolveOnce_validated {qname : Text} {qtype : QueryType} {state : Unit} :
    (resolveOnce ctx query qname qtype).Obeys (validated ctx verdict) (fun _ _ => True)
      state := by
  refine ⟨trivial, fun found after _ => ?_⟩
  cases found with
  | some answer => trivial
  | none =>
      apply Interaction.Obeys.embed
      apply Interaction.Obeys.of_invariant
      · exact fun _ _ _ => trivial
      · exact fun _ _ _ _ _ _ => trivial
      · trivial

theorem obeys_resolveQuery_validated (query : DnsPacket) (filterAaaa : Bool) :
    (resolveQuery ctx query filterAaaa).Obeys (validated ctx verdict) (fun _ _ => True) () := by
  apply obeys_resolveQuery (fun _ _ _ _ _ _ => True) (fun _ _ _ _ => True)
  · exact fun _ _ => obeys_resolveOnce_validated
  · exact fun _ _ _ _ _ _ _ => trivial
  · exact fun _ _ _ _ _ _ _ _ _ => obeys_resolveOnce_validated
  · intro question path dnssec state current resp _ _
    unfold validateAndCache
    split
    · refine ⟨trivial, fun status after isStatus => ?_⟩
      exact ⟨status_applyStatus isStatus, fun _ _ _ => trivial⟩
    · trivial
  · exact fun _ => trivial
  · exact fun _ _ _ _ _ _ _ _ => trivial
  · exact fun _ => trivial
  · exact fun _ _ _ _ _ _ _ _ => trivial

end Clients

/-! ## The invariant -/

/-- Every client obeys the protocol, and the entries are right. -/
structure Service.StatusSound (ctx : PipelineCtx) (verdict : Verdict)
    (visible : Text → QueryType → Bool) (service : Service) : Prop where
  obeying : service.Obeying (validated ctx verdict) (fun _ => ()) fun _ _ _ => True
  stored : service.StatusStored verdict visible

section Invariant

variable {ctx : PipelineCtx} {verdict : Verdict} {visible : Text → QueryType → Bool}
  {service after : Service}

theorem Service.moves_of_answer {id : Nat} {effect : QueryEffect} {reply : QueryReply}
    {value : effect.Answer} {middle : Service}
    (answered : service.answer ctx verdict id effect reply = some (value, middle)) :
    (validated ctx verdict).moves () effect value () := by
  cases effect with
  | validate response =>
      obtain ⟨status, isStatus, same⟩ := Option.map_eq_some_iff.mp answered
      cases same
      exact isStatus
  | _ => trivial

/-- What a permitted step writes has the status of the response. -/
theorem Service.StatusSound.status_of_writes {action : ServiceAction} {item : Written}
    {packet : DnsPacket} (sound : service.StatusSound ctx verdict visible)
    (itemMem : item ∈ service.writes action) (permitted : item.permitted ctx verdict = true)
    (isPacket : item.wire.packet = some packet) :
    verdict.status packet = some item.status := by
  have undecided : item.status = .indeterminate → verdict.status packet = some item.status := by
    intro unvalidated
    simp only [Written.permitted, unvalidated, isPacket, Option.all_some] at permitted
    rw [unvalidated]
    exact of_decide_eq_true permitted
  rcases Service.writes_cases itemMem with unvalidated | ⟨id, reply, client, qname, qtype,
    response, status, next, rfl, isClient, isNext, rfl⟩
  · exact undecided unvalidated
  · cases isPacket
    have asks := sound.obeying.clients id client isClient
    rw [isNext] at asks
    rcases asks.1 with ⟨rfl, strictMode⟩ | isStatus
    · simp [Written.permitted, strictMode] at permitted
    · exact isStatus

theorem Service.StatusSound.step {action : ServiceAction}
    (sound : service.StatusSound ctx verdict visible)
    (met : service.statusMeets ctx verdict visible action = true)
    (stepped : service.step ctx verdict action = some after) :
    after.StatusSound ctx verdict visible where
  obeying := by
    apply sound.obeying.step _ _ stepped
    · exact obeys_resolveQuery_validated
    · exact fun _ _ _ _ _ _ _ _ _ _ answered => Service.moves_of_answer answered
  stored := by
    intro domain qtype entry packet isVisible isEntry isPacket
    rcases Service.entryFrom_step stepped domain qtype with same | gone |
      ⟨item, itemMem, _, isNew, ⟨rfl, rfl⟩, sameWire, sameStatus⟩
    · exact sound.stored domain qtype entry packet isVisible (same ▸ isEntry) isPacket
    · rw [gone] at isEntry
      cases isEntry
    · obtain rfl := Option.some.inj (isNew.symm.trans isEntry)
      have permitted : item.permitted ctx verdict = true := by
        have all := List.all_eq_true.mp met item itemMem
        simpa [isVisible] using all
      rw [sameStatus]
      exact sound.status_of_writes itemMem permitted (sameWire ▸ isPacket)

theorem Service.statusSound_init (cache : DnsCache)
    (empty : ∀ domain qtype, cache.entry domain qtype = none) :
    (Service.init cache).StatusSound ctx verdict visible where
  obeying := Service.obeying_init cache
  stored := by
    intro domain qtype entry packet _ isEntry
    rw [show (Service.init cache).system.cache = cache from rfl, empty] at isEntry
    cases isEntry

end Invariant

/-- In every run in which whatever is stored under a visible key without
validation is undecided anyway, and no bogus response is found in strict mode,
every entry under a visible key carries the status of the response it stores. -/
theorem statusStored_of_runMeeting {ctx : PipelineCtx} {verdict : Verdict}
    {visible : Text → QueryType → Bool} {maxEntries : Nat} {minTtl maxTtl : UInt32}
    {actions : List ServiceAction} {service : Service}
    (ran : (Service.init (.new maxEntries minTtl maxTtl)).runMeeting ctx verdict
      (Service.statusMeets ctx verdict visible) actions = some service) :
    service.StatusStored verdict visible := by
  have sound : service.StatusSound ctx verdict visible := by
    apply Service.invariant_runMeeting (Service.statusSound_init _ fun _ _ => rfl) _ ran
    exact fun before action next holds met stepped => holds.step met stepped
  exact sound.stored

/-- A response without data, which `resolve_iterative` does not store. -/
def emptyResponse : DnsPacket where
  header := { response := true }
  authorities :=
    [ .soa
        { domain := [dot], mname := text "ns", rname := text "mail", serial := 1, refresh := 1
          retry := 1, expire := 1, minimum := 1, ttl := 60 } ]

/-- One client is answered that there are no data. -/
def emptyRun : List ServiceAction :=
  coalescing 0 (strictQuery 1) ++
    [ .client 0 (.resolver .nothing), .client 0 (.resolver .nothing),
      .client 0 (.resolver (.order [strictServer])),
      .client 0 (.resolver (.response (.ok emptyResponse))), .client 0 (.resolver .nothing),
      .client 0 (.resolver .nothing), .client 0 .nothing, .client 0 .nothing,
      .client 0 (.rebind rebindOff), .client 0 .nothing ]

theorem statusStored_of_runMeeting_emptyRun :
    ∃ service, (Service.init (.new 100000 60 86400)).runMeeting strictCtx strictVerdict
        (Service.statusMeets strictCtx strictVerdict fun _ _ => true) emptyRun = some service ∧
      (service.system.cache.entry (text "test") .a).map CacheEntry.dnssecStatus =
        some .insecure ∧
      service.StatusStored strictVerdict fun _ _ => true := by
  have stored : ((Service.init (.new 100000 60 86400)).runMeeting strictCtx strictVerdict
      (Service.statusMeets strictCtx strictVerdict fun _ _ => true) emptyRun).any (fun service =>
        decide ((service.system.cache.entry (text "test") .a).map CacheEntry.dnssecStatus =
          some .insecure)) = true := by decide +kernel
  obtain ⟨service, ran, isStored⟩ := (Option.any_eq_true _ _).mp stored
  exact ⟨service, ran, of_decide_eq_true isStored, statusStored_of_runMeeting ran⟩

/-! ## A refresh forgets the status -/

/-- A client leads the recursion for a signed name and stores its response as
secure, and then the warming of the cache refreshes the entry. -/
def forgettingRun : List ServiceAction :=
  secureRun ++ [.warm (text "www.test") .a, .task 0 .nothing, .task 0 .nothing]

/-- Does the entry of `www.test` have another status than its response? -/
def statusForgotten (verdict : Verdict) (service : Service) : Bool :=
  match service.system.cache.entry (text "www.test") .a with
  | some entry =>
    entry.wire.packet.any fun packet =>
      decide (verdict.status packet ≠ some entry.dnssecStatus)
  | none => false

theorem not_statusStored_of_forgotten {verdict : Verdict} {service : Service}
    (forgotten : statusForgotten verdict service = true) :
    ¬ service.StatusStored verdict fun domain qtype =>
      decide ((domain, qtype) = (text "www.test", .a)) := by
  intro stored
  unfold statusForgotten at forgotten
  split at forgotten
  · rename_i entry isEntry
    obtain ⟨packet, isPacket, differs⟩ := (Option.any_eq_true _ _).mp forgotten
    exact of_decide_eq_true differs
      (stored _ _ entry packet (decide_eq_true rfl) isEntry isPacket)
  · cases forgotten

/-- The refreshed entry of a secure response is indeterminate. -/
theorem forgettingRun_forgets :
    ∃ service, (Service.init (.new 100000 60 86400)).runAll strictCtx strictVerdict
        forgettingRun = some service ∧
      ¬ service.StatusStored strictVerdict fun domain qtype =>
        decide ((domain, qtype) = (text "www.test", .a)) := by
  have forgotten : ((Service.init (.new 100000 60 86400)).runAll strictCtx strictVerdict
      forgettingRun).any (statusForgotten strictVerdict) = true := by decide +kernel
  obtain ⟨service, ran, isForgotten⟩ := (Option.any_eq_true _ _).mp forgotten
  exact ⟨service, ran, not_statusStored_of_forgotten isForgotten⟩

end Numa
