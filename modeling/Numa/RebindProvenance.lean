import Numa.CnameChase

/-!
# Rebind protection and provenance

Whether the rebinding filter runs is decided by the first step of a chase, but
the response holds the answers of all steps.  The filter does what the
provenance of every record asks for when it would change nothing in the answers
of the steps of the other kind.
-/

namespace Numa

/-! ## Sections of one kind and the other -/

/-- What the provenance of some records asks for. -/
def guardSection (isPrivate : IpAddr → Bool) (fromLocal : Bool) (records : List DnsRecord) :
    List DnsRecord :=
  if fromLocal then records else (scrubSection isPrivate records).1

section Sections

variable (isPrivate : IpAddr → Bool)

theorem scrubSection_append (first second : List DnsRecord) :
    (scrubSection isPrivate (first ++ second)).1 =
      (scrubSection isPrivate first).1 ++ (scrubSection isPrivate second).1 := by
  simp only [scrubSection, List.filter_append, List.map_append]

theorem length_scrubSection_le (records : List DnsRecord) :
    (scrubSection isPrivate records).1.length ≤ records.length := by
  simp only [scrubSection, List.length_map]
  exact List.length_filter_le _ _

theorem guardSection_flatMap {α : Type} (fromLocal : Bool) (records : α → List DnsRecord)
    (items : List α) :
    guardSection isPrivate fromLocal (items.flatMap records) =
      items.flatMap fun item => guardSection isPrivate fromLocal (records item) := by
  cases fromLocal with
  | true => rfl
  | false =>
      induction items with
      | nil => rfl
      | cons item items ih =>
          rw [List.flatMap_cons, List.flatMap_cons, ← ih]
          exact scrubSection_append isPrivate _ _

end Sections

/-- Lists put together from parts are equal when the parts are, if no part of
the second is longer. -/
theorem flatMap_eq_iff_of_length_le {α β : Type} {first second : α → List β} {items : List α}
    (shorter : ∀ item ∈ items, (second item).length ≤ (first item).length) :
    items.flatMap first = items.flatMap second ↔ ∀ item ∈ items, first item = second item := by
  have total : ∀ rest : List α, (∀ item ∈ rest, (second item).length ≤ (first item).length) →
      (rest.flatMap second).length ≤ (rest.flatMap first).length := by
    intro rest
    induction rest with
    | nil => simp
    | cons item rest ih =>
        intro isShorter
        have own := isShorter item (by simp)
        have later := ih fun other otherMem => isShorter other (by simp [otherMem])
        rw [List.flatMap_cons, List.flatMap_cons, List.length_append, List.length_append]
        omega
  induction items with
  | nil => simp
  | cons item items ih =>
      have own := shorter item (by simp)
      have laterShorter : ∀ other ∈ items, (second other).length ≤ (first other).length :=
        fun other otherMem => shorter other (by simp [otherMem])
      have later := total items laterShorter
      rw [List.flatMap_cons, List.flatMap_cons, List.forall_mem_cons]
      constructor
      · intro same
        have lengths := congrArg List.length same
        rw [List.length_append, List.length_append] at lengths
        obtain ⟨sameFirst, sameLater⟩ := List.append_inj same (by omega)
        exact ⟨sameFirst, (ih laterShorter).mp sameLater⟩
      · rintro ⟨sameFirst, sameLater⟩
        rw [sameFirst, (ih laterShorter).mpr sameLater]

/-! ## What becomes of a chase -/

section Provenance

variable (isPrivate : IpAddr → Bool)

/-- Every record that came from a remote step is behind the filter, and every
record that came from a local step is as it was. -/
structure FollowsProvenance (chase : Chase) (filtered : DnsPacket) : Prop where
  answers : filtered.answers = chase.steps.flatMap fun step =>
    guardSection isPrivate step.fromLocal step.response.answers
  authorities : filtered.authorities =
    guardSection isPrivate chase.first.fromLocal chase.first.response.authorities
  resources : filtered.resources =
    guardSection isPrivate chase.first.fromLocal chase.first.response.resources

/-- The filter leaves the answers of the steps of the other kind than the first
one alone. -/
def OthersUnfiltered (chase : Chase) : Prop :=
  ∀ step ∈ chase.steps, step.fromLocal ≠ chase.first.fromLocal →
    (scrubSection isPrivate step.response.answers).1 = step.response.answers

/-- The sections of a response, filtered as the first step of the chase asks
for. -/
structure FilteredByFirst (chase : Chase) (filtered : DnsPacket) : Prop where
  answers : filtered.answers =
    guardSection isPrivate chase.first.fromLocal chase.response.answers
  authorities : filtered.authorities =
    guardSection isPrivate chase.first.fromLocal chase.first.response.authorities
  resources : filtered.resources =
    guardSection isPrivate chase.first.fromLocal chase.first.response.resources

variable {isPrivate}

theorem FilteredByFirst.followsProvenance_iff {chase : Chase} {filtered : DnsPacket}
    (byFirst : FilteredByFirst isPrivate chase filtered) :
    FollowsProvenance isPrivate chase filtered ↔ OthersUnfiltered isPrivate chase := by
  have answers_iff : FollowsProvenance isPrivate chase filtered ↔
      (chase.steps.flatMap fun step =>
        guardSection isPrivate chase.first.fromLocal step.response.answers) =
      chase.steps.flatMap fun step =>
        guardSection isPrivate step.fromLocal step.response.answers := by
    rw [← guardSection_flatMap, ← Chase.response_answers, ← byFirst.answers]
    exact ⟨FollowsProvenance.answers, fun same => ⟨same, byFirst.authorities, byFirst.resources⟩⟩
  rw [answers_iff, OthersUnfiltered]
  have each : ∀ (kind : Bool) (step : ChaseStep),
      (guardSection isPrivate kind step.response.answers =
        guardSection isPrivate step.fromLocal step.response.answers ↔
          (step.fromLocal ≠ kind →
            (scrubSection isPrivate step.response.answers).1 = step.response.answers)) := by
    intro kind step
    cases kind <;> cases step.fromLocal <;> simp [guardSection, eq_comm]
  cases kind : chase.first.fromLocal with
  | true =>
      rw [flatMap_eq_iff_of_length_le]
      · exact forall₂_congr fun step _ => each true step
      · intro step _
        cases step.fromLocal with
        | true => exact le_rfl
        | false => exact length_scrubSection_le isPrivate _
  | false =>
      rw [eq_comm, flatMap_eq_iff_of_length_le]
      · exact forall₂_congr fun step _ => eq_comm.trans (each false step)
      · intro step _
        cases step.fromLocal with
        | true => exact length_scrubSection_le isPrivate _
        | false => exact le_rfl

end Provenance

/-! ## The filter in a run -/

section Runs

variable {ctx : PipelineCtx} {query : DnsPacket} {qname : Text} {qtype : QueryType}
  {trace : List QueryEvent}

/-- Everything is allowed, and no answer is assumed away. -/
def anything : Protocol QueryEffect QueryEffect.Answer Unit where
  allowed _ _ := True
  moves _ _ _ _ := True

theorem obeys_anything {α : Type} (action : Resolver α) :
    action.Obeys (anything.pullback QueryEffect.resolver fun _ answer => answer)
      (fun _ _ => True) () :=
  Interaction.Obeys.of_invariant (fun _ _ _ => trivial) (fun _ _ _ _ _ _ => trivial) action trivial

/-- No remote path is trusted. -/
theorem resolveRemote_untrusted {result : DnsPacket × QueryPath × DnssecStatus}
    (ran : (QueryProgram.lift (resolveRemote ctx.toServerCtx query qname qtype)).Runs trace
      result) : result.2.1.returnsTrustedLocalData = false := by
  have quietly : ∀ effect, PipelineRules.Quietly
      (anything.pullback QueryEffect.resolver fun _ answer => answer) effect () :=
    fun _ => ⟨trivial, fun _ _ _ => rfl⟩
  have missed : (resolveMiss ctx.toServerCtx query qname qtype).1.returnsTrustedLocalData =
      false := by
    unfold resolveMiss
    split
    · rfl
    · split <;> rfl
  have obeys : (resolveRemote ctx.toServerCtx query qname qtype).Obeys
      (anything.pullback QueryEffect.resolver fun _ answer => answer)
      (fun _ result => result.2.1.returnsTrustedLocalData = false) () := by
    apply PipelineRules.obeys_resolveRemote trivial
    · intro cached status freshness after moves
      exact PipelineRules.obeys_serveCached (quietly _) (quietly _) rfl freshness
    · intro after moves
      apply PipelineRules.obeys_resolveCoalesced trivial
      · intro middle _
        refine ⟨trivial, fun answer final _ => ?_⟩
        cases answer <;> rfl
      · intro middle _
        apply (obeys_anything _).mono
        rintro _ value -
        refine ⟨quietly _, trivial, fun final _ => ?_⟩
        cases value with
        | ok resp => exact missed
        | error error => rfl
  exact ran.of_obeys obeys.embed fun _ _ => trivial

theorem ResolvedBy.trusted {step : ChaseStep} {path : QueryPath} {status : DnssecStatus}
    (resolved : ResolvedBy ctx query qtype qname trace step path status) :
    path.returnsTrustedLocalData = step.fromLocal := by
  cases resolved with
  | fromLocal answer => exact answer.trusted
  | fromRemote ran => exact resolveRemote_untrusted ran

/-- The sections are those of the other response. -/
structure SameSections (response other : DnsPacket) : Prop where
  answers : response.answers = other.answers
  authorities : response.authorities = other.authorities
  resources : response.resources = other.resources

theorem runs_validateAndCache {response : DnsPacket} {path : QueryPath} {status : DnssecStatus}
    {result : DnsPacket × DnssecStatus}
    (ran : (validateAndCache ctx query qname qtype response path status).Runs trace result) :
    SameSections result.1 response ∨ result.1.records = [] := by
  unfold validateAndCache at ran
  split at ran
  · obtain ⟨verdict, later, ranLater, -⟩ := Interaction.runs_ask_iff.mp ran
    obtain ⟨stored, last, ranLast, -⟩ := Interaction.runs_ask_iff.mp ranLater
    obtain ⟨-, rfl⟩ := Interaction.runs_done_iff.mp ranLast
    unfold applyStatus
    split
    · exact .inl ⟨rfl, rfl, rfl⟩
    · split
      · exact .inr rfl
      · exact .inl ⟨rfl, rfl, rfl⟩
  · obtain ⟨-, rfl⟩ := Interaction.runs_done_iff.mp ran
    exact .inl ⟨rfl, rfl, rfl⟩

theorem RebindFilter.filterResponse_sections {filter : RebindFilter} (enabled : filter.enabled = true)
    (notAllowed : filter.isAllowed qname = false) (response : DnsPacket) :
    (filter.filterResponse qname response).answers =
        (scrubSection filter.isPrivate response.answers).1 ∧
      (filter.filterResponse qname response).authorities =
        (scrubSection filter.isPrivate response.authorities).1 ∧
      (filter.filterResponse qname response).resources =
        (scrubSection filter.isPrivate response.resources).1 := by
  have applied : (filter.apply qname response).1 =
      { response with
        answers := (scrubSection filter.isPrivate response.answers).1
        authorities := (scrubSection filter.isPrivate response.authorities).1
        resources := (scrubSection filter.isPrivate response.resources).1 } := by
    unfold apply
    rw [if_neg (by simp [enabled, notAllowed])]
  unfold filterResponse
  dsimp only
  rw [applied]
  split <;> exact ⟨rfl, rfl, rfl⟩

theorem runs_applyRebind {isPrivate : IpAddr → Bool} {path : QueryPath}
    {response filtered : DnsPacket}
    (ran : (applyRebind qname path response).Runs trace filtered)
    (filters : ∀ filter : RebindFilter, (⟨.readRebind, filter⟩ : QueryEvent) ∈ trace →
      filter.enabled = true ∧ filter.isAllowed qname = false ∧ filter.isPrivate = isPrivate) :
    filtered.answers =
        guardSection isPrivate path.returnsTrustedLocalData response.answers ∧
      filtered.authorities =
        guardSection isPrivate path.returnsTrustedLocalData response.authorities ∧
      filtered.resources =
        guardSection isPrivate path.returnsTrustedLocalData response.resources := by
  unfold applyRebind at ran
  cases trusted : path.returnsTrustedLocalData with
  | true =>
      rw [trusted, if_pos rfl] at ran
      obtain ⟨-, rfl⟩ := Interaction.runs_done_iff.mp ran
      exact ⟨rfl, rfl, rfl⟩
  | false =>
      rw [trusted, if_neg (by simp)] at ran
      obtain ⟨filter, rest, ranRest, rfl⟩ := Interaction.runs_ask_iff.mp ran
      obtain ⟨-, rfl⟩ := Interaction.runs_done_iff.mp ranRest
      obtain ⟨enabled, notAllowed, rfl⟩ := filters filter (by simp)
      exact RebindFilter.filterResponse_sections enabled notAllowed response

theorem foldl_combineResponse_others (resp : DnsPacket) (later : List ChaseStep) :
    (later.foldl (fun resp step => combineResponse resp step.response) resp).authorities =
        resp.authorities ∧
      (later.foldl (fun resp step => combineResponse resp step.response) resp).resources =
        resp.resources := by
  induction later generalizing resp with
  | nil => exact ⟨rfl, rfl⟩
  | cons step later ih => exact ih _

/-- With the filter on and the name not allowed, every address record of the
response is treated by its provenance if and only if the filter would change
nothing in the answers of the steps of the other kind than the first. -/
theorem rebind_followsProvenance_iff {isPrivate : IpAddr → Bool} {filterAaaa : Bool}
    {question : DnsQuestion} {answer : ClientAnswer}
    (asked : query.questions.head? = some question)
    (ran : (resolveQuery ctx query filterAaaa).Runs trace (some answer))
    (filters : ∀ filter : RebindFilter, (⟨.readRebind, filter⟩ : QueryEvent) ∈ trace →
      filter.enabled = true ∧ filter.isAllowed question.name = false ∧
        filter.isPrivate = isPrivate) :
    ∃ chase path status early middle late filtered,
      Chase.Covers chase ctx query question.name question.qtype early path status ∧
        trace = early ++ middle ++ late ∧
        (applyRebind question.name path answer.response).Runs late filtered ∧
        (filtered.shapeForClient query filterAaaa).serializeWithFallback query filterAaaa =
          some (answer.message, answer.octets) ∧
        (answer.response.records = [] ∨
          (FollowsProvenance isPrivate chase filtered ↔ OthersUnfiltered isPrivate chase)) := by
  unfold resolveQuery at ran
  rw [asked] at ran
  obtain ⟨chased, early, rest, ranChase, ranRest, rfl⟩ := Interaction.runs_bind_iff.mp ran
  obtain ⟨chase, path, status, covers, ends⟩ := exists_chase ranChase
  obtain ⟨firstEvents, laterEvents, resolved, -, -⟩ := covers.events
  have trusted := resolved.trusted
  have finish : ∀ resp, chased = some (resp, path, status) →
      SameSections resp chase.response ∨ resp.records = [] →
      ∃ middle late filtered, early ++ rest = early ++ middle ++ late ∧
        (applyRebind question.name path answer.response).Runs late filtered ∧
        (filtered.shapeForClient query filterAaaa).serializeWithFallback query filterAaaa =
          some (answer.message, answer.octets) ∧
        (answer.response.records = [] ∨
          (FollowsProvenance isPrivate chase filtered ↔ OthersUnfiltered isPrivate chase)) := by
    rintro resp rfl sections
    obtain ⟨⟨response, dnssec⟩, middle, last, ranValidate, ranLast, rfl⟩ :=
      Interaction.runs_bind_iff.mp ranRest
    obtain ⟨filtered, late, done, ranRebind, ranDone, rfl⟩ := Interaction.runs_bind_iff.mp ranLast
    have validated := runs_validateAndCache ranValidate
    dsimp only at ranDone
    cases serialized : (filtered.shapeForClient query filterAaaa).serializeWithFallback query
        filterAaaa with
    | none =>
        rw [serialized] at ranDone
        cases (Interaction.runs_done_iff.mp ranDone).2
    | some sent =>
        rw [serialized] at ranDone
        obtain ⟨rfl, isAnswer⟩ := Interaction.runs_done_iff.mp ranDone
        obtain rfl := Option.some.inj isAnswer
        refine ⟨middle, late, filtered, by simp, ranRebind, serialized, ?_⟩
        by_cases empty : response.records = []
        · exact .inl empty
        right
        have same : SameSections response chase.response := by
          rcases validated with kept | gone
          · rcases sections with asChased | none
            · exact ⟨kept.answers.trans asChased.answers,
                kept.authorities.trans asChased.authorities,
                kept.resources.trans asChased.resources⟩
            · refine absurd ?_ empty
              rw [DnsPacket.records, kept.answers, kept.authorities, kept.resources]
              exact none
          · exact absurd gone empty
        obtain ⟨answersEq, authoritiesEq, resourcesEq⟩ := runs_applyRebind ranRebind
          fun filter filterMem => filters filter (by simp [filterMem])
        obtain ⟨othersFirst, othersSecond⟩ :=
          foldl_combineResponse_others chase.first.response chase.later
        refine FilteredByFirst.followsProvenance_iff ⟨?_, ?_, ?_⟩
        · rw [answersEq, trusted, same.answers]
        · rw [authoritiesEq, trusted, same.authorities, Chase.response, othersFirst]
        · rw [resourcesEq, trusted, same.resources, Chase.response, othersSecond]
  rcases ends with ⟨-, rfl⟩ | ⟨-, rfl⟩ | ⟨-, rfl⟩
  · obtain ⟨middle, late, filtered, split, rest⟩ := finish _ rfl (.inr rfl)
    exact ⟨chase, path, status, early, middle, late, filtered, covers, split, rest⟩
  · obtain ⟨middle, late, filtered, split, rest⟩ := finish _ rfl (.inl ⟨rfl, rfl, rfl⟩)
    exact ⟨chase, path, status, early, middle, late, filtered, covers, split, rest⟩
  · cases (Interaction.runs_done_iff.mp ranRest).2

end Runs

/-! ## An alias to a private address -/

def isTenNet : IpAddr → Bool
  | .v4 addr => addr.toList.headD 0 == 10
  | .v6 _ => false

theorem runs_resolveOnce_cached (ctx : PipelineCtx) (query : DnsPacket) (name : Text)
    (qtype : QueryType) (cached : DnsPacket) (status : DnssecStatus) :
    (resolveOnce ctx query name qtype).Runs
      [⟨.resolveLocal name qtype, none⟩,
        ⟨.resolver (.lookupWithStatus name qtype), some (cached, status, .fresh)⟩]
      (PipelineRules.servedResponse query cached status, .cached, status) :=
  Interaction.runs_ask_iff.mpr ⟨none, _, Interaction.runs_ask_iff.mpr
    ⟨some (cached, status, .fresh), [], .done _, rfl⟩, rfl⟩

/-- The rest of a query that is not validated and whose path is trusted. -/
theorem runs_resolveQuery_trusted {ctx : PipelineCtx} {query : DnsPacket} {filterAaaa : Bool}
    {trace : List QueryEvent} {question : DnsQuestion} {resp message : DnsPacket}
    {path : QueryPath} {status : DnssecStatus} {octets : List UInt8}
    (asked : query.questions.head? = some question)
    (chased : (resolveWithCnameChase ctx query question.name question.qtype).Runs trace
      (some (resp, path, status)))
    (unvalidated : ctx.dnssecEnabled = false) (trusted : path.returnsTrustedLocalData = true)
    (serialized : (resp.shapeForClient query filterAaaa).serializeWithFallback query filterAaaa =
      some (message, octets)) :
    (resolveQuery ctx query filterAaaa).Runs trace
      (some ⟨resp, message, octets, path, status⟩) := by
  unfold resolveQuery
  rw [asked]
  refine Interaction.runs_bind_iff.mpr ⟨_, trace, [], chased, ?_, (List.append_nil trace).symm⟩
  have validated : validateAndCache ctx query question.name question.qtype resp path status =
      pure (resp, status) := by
    rw [validateAndCache, if_neg (by simp [unvalidated])]
  have exempt : applyRebind question.name path resp = pure resp := by
    rw [applyRebind, if_pos trusted]
  refine Interaction.runs_bind_iff.mpr ⟨(resp, status), [], [], ?_, ?_, rfl⟩
  · rw [validated]
    exact .done _
  · refine Interaction.runs_bind_iff.mpr ⟨resp, [], [], ?_, ?_, rfl⟩
    · rw [exempt]
      exact .done _
    · dsimp only
      rw [serialized]
      exact .done _

/-- The answer for an aliased address follows provenance. -/
theorem rebind_followsProvenance_iff_aliasQuery :
    ∃ answer, (resolveQuery chaseCtx aliasQuery false).Runs aliasTrace (some answer) ∧
      ∃ chase path status early middle late filtered,
        Chase.Covers chase chaseCtx aliasQuery (text "a.test") .a early path status ∧
          aliasTrace = early ++ middle ++ late ∧
          (applyRebind (text "a.test") path answer.response).Runs late filtered ∧
          (filtered.shapeForClient aliasQuery false).serializeWithFallback aliasQuery false =
            some (answer.message, answer.octets) ∧
          (answer.response.records = [] ∨
            (FollowsProvenance isTenNet chase filtered ↔ OthersUnfiltered isTenNet chase)) := by
  obtain ⟨⟨message, octets⟩, serialized⟩ : ∃ sent,
      (aliasResponse.shapeForClient aliasQuery false).serializeWithFallback aliasQuery false =
        some sent :=
    Option.isSome_iff_exists.mp (by decide +kernel)
  have asked : aliasQuery.questions.head? = some ⟨text "a.test", .a⟩ := rfl
  have ran := runs_resolveQuery_trusted asked runs_aliasQuery rfl rfl serialized
  refine ⟨_, ran, rebind_followsProvenance_iff asked ran fun filter filterMem => ?_⟩
  simp only [aliasTrace, List.mem_cons, List.not_mem_nil, or_false] at filterMem
  rcases filterMem with same | same <;> cases congrArg Sigma.fst same

/-- The cache holds a private address for the target of an override. -/
def hostilePacket : DnsPacket where
  header := { response := true }
  questions := [⟨text "b.test", .a⟩]
  answers := [.a (text "b.test") (.new 10 0 0 1) 300]

def hostileTrace : List QueryEvent :=
  [⟨.resolveLocal (text "a.test") .a, some (aliasOverride (text "a.test") (text "b.test"))⟩,
    ⟨.resolveLocal (text "b.test") .a, none⟩,
    ⟨.resolver (.lookupWithStatus (text "b.test") .a), some (hostilePacket, .indeterminate, .fresh)⟩]

def hostileResponse : DnsPacket :=
  combineResponse ((aliasOverride (text "a.test") (text "b.test")).toResponse aliasQuery)
    (PipelineRules.servedResponse (.query 1 (text "b.test") .a) hostilePacket .indeterminate)

/-- A remote private address behind a local alias is served, and no filter is
asked. -/
theorem hostileTarget_served :
    (∀ filter : RebindFilter, (⟨.readRebind, filter⟩ : QueryEvent) ∉ hostileTrace) ∧
      isTenNet (.v4 (.new 10 0 0 1)) = true ∧
      ∃ answer, (resolveQuery chaseCtx aliasQuery false).Runs hostileTrace (some answer) ∧
        .a (text "b.test") (.new 10 0 0 1) 300 ∈ answer.message.answers := by
  have target : chaseTarget .a (text "a.test")
      ((aliasOverride (text "a.test") (text "b.test")).toResponse aliasQuery) =
        some (text "b.test") := by
    decide +kernel
  have ended : chaseTarget .a (text "b.test") hostileResponse = none := by decide +kernel
  have chased : (resolveWithCnameChase chaseCtx aliasQuery (text "a.test") .a).Runs
      hostileTrace (some (hostileResponse, .overridden, .indeterminate)) :=
    runs_resolveWithCnameChase (runs_resolveOnce_fromLocal _ _ _ _ _)
      (runs_chaseLoop_hop target (by decide +kernel) (by decide +kernel)
        (runs_resolveOnce_cached _ _ _ _ hostilePacket .indeterminate)
        (runs_chaseLoop_of_ended ended))
  have served : ((hostileResponse.shapeForClient aliasQuery false).serializeWithFallback aliasQuery
      false).any (fun sent => sent.1.answers.contains (.a (text "b.test") (.new 10 0 0 1) 300)) =
        true := by
    decide +kernel
  have asked : aliasQuery.questions.head? = some ⟨text "a.test", .a⟩ := rfl
  cases serialized : (hostileResponse.shapeForClient aliasQuery false).serializeWithFallback
      aliasQuery false with
  | none =>
      rw [serialized] at served
      cases served
  | some sent =>
      rw [serialized] at served
      refine ⟨fun filter filterMem => ?_, by decide,
        _, runs_resolveQuery_trusted asked chased rfl rfl serialized, by simpa using served⟩
      simp only [hostileTrace, List.mem_cons, List.not_mem_nil, or_false] at filterMem
      rcases filterMem with same | same | same <;> cases congrArg Sigma.fst same

end Numa
