import Numa.ClientResponse
import Numa.Server

/-!
# The pipeline of a query

`resolve_query` of `ctx.rs` as an interaction: local data or the remote
resolution, the chase of CNAMEs over both, the validation, and the response to
the client.  The data that `resolve_local` answers from, the validator and the
rebinding filter are effects of their own.  The query log, the statistics and
the transport tags are left out.
-/

namespace Numa

/-- An answer of `resolve_local`.  Overrides, zones and the built-in names have
no signatures. -/
structure LocalAnswer where
  rescode : ResultCode
  answers : List DnsRecord
  path : QueryPath
  trusted : path.returnsTrustedLocalData = true
  unsigned : ∀ record ∈ answers, record.isRrsig = false

/-- The response that `resolve_local` builds from the query. -/
def LocalAnswer.toResponse (answer : LocalAnswer) (query : DnsPacket) : DnsPacket :=
  { DnsPacket.responseFrom query answer.rescode with answers := answer.answers }

/-- What a client's task asks of its surroundings. -/
inductive QueryEffect
  | resolver (effect : Effect)
  | resolveLocal (qname : Text) (qtype : QueryType)
  /-- `validate_response`. -/
  | validate (response : DnsPacket)
  | insertWithStatus (qname : Text) (qtype : QueryType) (response : DnsPacket)
    (status : DnssecStatus)
  /-- The read lock of the rebinding filter. -/
  | readRebind

def QueryEffect.Answer : QueryEffect → Type
  | resolver effect => effect.Answer
  | resolveLocal .. => Option LocalAnswer
  | validate _ => DnssecStatus
  | insertWithStatus .. => Unit
  | readRebind => RebindFilter

abbrev QueryProgram := Interaction QueryEffect QueryEffect.Answer

namespace QueryProgram

/-- A resolution as a part of the pipeline. -/
def lift {α : Type} (action : Resolver α) : QueryProgram α :=
  action.embed QueryEffect.resolver fun _ answer => answer

def resolveLocal (qname : Text) (qtype : QueryType) : QueryProgram (Option LocalAnswer) :=
  .ask (.resolveLocal qname qtype) .done

def validate (response : DnsPacket) : QueryProgram DnssecStatus :=
  .ask (.validate response) .done

def insertWithStatus (qname : Text) (qtype : QueryType) (response : DnsPacket)
    (status : DnssecStatus) : QueryProgram Unit :=
  .ask (.insertWithStatus qname qtype response status) .done

def readRebind : QueryProgram RebindFilter :=
  .ask .readRebind .done

end QueryProgram

structure PipelineCtx extends ServerCtx where
  dnssecEnabled : Bool
  dnssecStrict : Bool

/-- What a client gets: the packet that is sent with its octets, and the
response, path and status it comes from. -/
structure ClientAnswer where
  response : DnsPacket
  message : DnsPacket
  octets : List UInt8
  path : QueryPath
  dnssec : DnssecStatus

/-- The name the chase goes on with, unless the response is final. -/
def chaseTarget (qtype : QueryType) (currentQname : Text) (resp : DnsPacket) : Option Text :=
  if resp.answers.any (fun record => record.queryType == qtype) ||
      resp.header.rescode != .noerror then none
  else extractCnameTarget resp currentQname

section Programs

variable (ctx : PipelineCtx)

/-- Local data, or else the remote resolution. -/
def resolveOnce (query : DnsPacket) (qname : Text) (qtype : QueryType) :
    QueryProgram (DnsPacket × QueryPath × DnssecStatus) := do
  match ← QueryProgram.resolveLocal qname qtype with
  | some answer => pure (answer.toResponse query, answer.path, .indeterminate)
  | none => QueryProgram.lift (resolveRemote ctx.toServerCtx query qname qtype)

/-- The loop of `resolve_with_cname_chase`.  As many names may still be visited
as `MAX_CNAME_DEPTH` leaves; `none` is the panic of a sub-query that cannot be
serialized. -/
def chaseLoop (query : DnsPacket) (qtype : QueryType) :
    (left : Nat) → (visited : List Text) → (currentQname : Text) → DnsPacket →
      QueryProgram (Option DnsPacket)
  | 0, _, currentQname, resp =>
    match chaseTarget qtype currentQname resp with
    | none => pure (some resp)
    | some _ => pure (some (.responseFrom query .servfail))
  | left + 1, visited, currentQname, resp =>
    match chaseTarget qtype currentQname resp with
    | none => pure (some resp)
    | some target =>
      let subQuery := DnsPacket.query query.header.id target qtype
      if target.toLowercase ∈ visited then pure (some (.responseFrom query .servfail))
      else if !ctx.writable subQuery then pure none
      else do
        let (subResp, _, _) ← resolveOnce ctx subQuery target qtype
        chaseLoop query qtype left (target.toLowercase :: visited) target
          (combineResponse resp subResp)

def resolveWithCnameChase (query : DnsPacket) (qname : Text) (qtype : QueryType) :
    QueryProgram (Option (DnsPacket × QueryPath × DnssecStatus)) := do
  let (resp, path, dnssec) ← resolveOnce ctx query qname qtype
  match ← chaseLoop ctx query qtype maxCnameDepth [qname.toLowercase] qname resp with
  | none => pure none
  | some resp => pure (some (resp, path, dnssec))

/-- The response after its validation. -/
def applyStatus (query : DnsPacket) (status : DnssecStatus) (response : DnsPacket) : DnsPacket :=
  if status = .secure then
    { response with header := { response.header with authedData := true } }
  else if status = .bogus ∧ ctx.dnssecStrict = true then .responseFrom query .servfail
  else response

/-- The validation of a response that was resolved recursively, and the final
insertion. -/
def validateAndCache (query : DnsPacket) (qname : Text) (qtype : QueryType)
    (response : DnsPacket) (path : QueryPath) (dnssec : DnssecStatus) :
    QueryProgram (DnsPacket × DnssecStatus) :=
  if ctx.dnssecEnabled = true ∧ path = .recursive then do
    let status ← QueryProgram.validate response
    let response := applyStatus ctx query status response
    QueryProgram.insertWithStatus qname qtype response status
    pure (response, status)
  else pure (response, dnssec)

/-- The rebinding filter, from which trusted local data are exempt. -/
def applyRebind (qname : Text) (path : QueryPath) (response : DnsPacket) :
    QueryProgram DnsPacket :=
  if path.returnsTrustedLocalData then pure response
  else do
    let filter ← QueryProgram.readRebind
    pure (filter.filterResponse qname response)

/-- `resolve_query`.  `none` is an error or a panic, on which the client gets
no answer. -/
def resolveQuery (query : DnsPacket) (filterAaaa : Bool) : QueryProgram (Option ClientAnswer) :=
  match query.questions.head? with
  | none => pure none
  | some question => do
    match ← resolveWithCnameChase ctx query question.name question.qtype with
    | none => pure none
    | some (response, path, dnssec) =>
      let (response, dnssec) ←
        validateAndCache ctx query question.name question.qtype response path dnssec
      let filtered ← applyRebind question.name path response
      let shaped := filtered.shapeForClient query filterAaaa
      match shaped.serializeWithFallback query filterAaaa with
      | none => pure none
      | some (message, octets) => pure (some ⟨response, message, octets, path, dnssec⟩)

end Programs

/-! ## Rules -/

namespace PipelineRules

/-- What a sent message has of the response it comes from.  A message that does
not fit is replaced by one that is built from the query. -/
def Sends (query response message : DnsPacket) : Prop :=
  (message.header.id = response.header.id ∧ message.questions = response.questions ∧
    (message.header.authedData = true → response.header.authedData = true)) ∨
  (message.header.id = query.header.id ∧ message.questions = query.questions ∧
    message.header.authedData = false)

section Remote

variable {σ : Type} {protocol : Protocol Effect Effect.Answer σ} {ctx : ServerCtx} {state : σ}
  {query : DnsPacket} {qname : Text} {qtype : QueryType} {key : CacheKey}

/-- The effect may be asked for and leaves the ghost state alone. -/
def Quietly (protocol : Protocol Effect Effect.Answer σ) (effect : Effect) (state : σ) : Prop :=
  protocol.allowed state effect ∧
    ∀ answer after, protocol.moves state effect answer after → after = state

/-- The response that a client is served from the cache. -/
def servedResponse (query cached : DnsPacket) (status : DnssecStatus) : DnsPacket :=
  { cached with
    header :=
      { cached.header with
        id := query.header.id
        recursionDesired := query.header.recursionDesired
        recursionAvailable := true
        authedData := status == .secure || cached.header.authedData }
    questions := query.questions }

theorem obeys_serveCached {outcome : σ → DnsPacket × QueryPath × DnssecStatus → Prop}
    {cached : DnsPacket} {status : DnssecStatus}
    (mark : Quietly protocol (.markRefreshing key) state)
    (spawn : Quietly protocol (.spawnRefresh key) state)
    (served : outcome state (servedResponse query cached status, .cached, status))
    (freshness : Freshness) :
    (serveCached query key cached status freshness).Obeys protocol outcome state := by
  have refreshed : (startRefresh key).Obeys protocol (fun after _ => after = state) state := by
    refine ⟨mark.1, fun inserted after moves => ?_⟩
    obtain rfl := mark.2 inserted after moves
    cases inserted with
    | false => rfl
    | true => exact ⟨spawn.1, spawn.2⟩
  unfold serveCached
  cases freshness.needsRefresh with
  | false => exact served
  | true =>
      apply refreshed.bind
      rintro after _ rfl
      exact served

/-- What a follower makes of what it receives. -/
def followed (query : DnsPacket) : Option DnsPacket → DnsPacket × QueryPath
  | some resp =>
    ({ resp with header := { resp.header with id := query.header.id } }, .coalesced)
  | none => (.responseFrom query .servfail, .upstreamError)

/-- What a leader makes of its result. -/
def led (query : DnsPacket) (leaderPath : QueryPath) :
    Except ResolveError DnsPacket → DnsPacket × QueryPath
  | .ok resp => (resp, leaderPath)
  | .error _ => (.responseFrom query .servfail, .upstreamError)

theorem obeys_resolveCoalesced {outcome : σ → DnsPacket × QueryPath → Prop}
    {leaderPath : QueryPath} {resolveFn : Resolution}
    (acquire : protocol.allowed state (.acquireInflight key))
    (follows : ∀ after, protocol.moves state (.acquireInflight key) .follower after →
      protocol.allowed after (.receive key) ∧
        ∀ result final, protocol.moves after (.receive key) result final →
          outcome final (followed query result))
    (leads : ∀ after, protocol.moves state (.acquireInflight key) .leader after →
      resolveFn.Obeys protocol (fun middle result =>
        Quietly protocol (.releaseInflight key) middle ∧
          protocol.allowed middle (.broadcast key result.toOption) ∧
          ∀ final, protocol.moves middle (.broadcast key result.toOption) () final →
            outcome final (led query leaderPath result)) after) :
    (resolveCoalesced key query leaderPath resolveFn).Obeys protocol outcome state := by
  refine ⟨acquire, fun disposition after moves => ?_⟩
  cases disposition with
  | follower =>
      obtain ⟨receive, received⟩ := follows after moves
      refine ⟨receive, fun result final receives => ?_⟩
      cases result with
      | none => exact received none final receives
      | some resp => exact received (some resp) final receives
  | leader =>
      apply (leads after moves).bind
      rintro middle result ⟨release, broadcast, sent⟩
      refine ⟨release.1, fun _ released releases => ?_⟩
      obtain rfl := release.2 _ _ releases
      cases result with
      | ok resp => exact ⟨broadcast, fun _ final sends => sent final sends⟩
      | error error => exact ⟨broadcast, fun _ final sends => sent final sends⟩

theorem obeys_resolveRemote {outcome : σ → DnsPacket × QueryPath × DnssecStatus → Prop}
    (lookup : protocol.allowed state (.lookupWithStatus qname qtype))
    (hit : ∀ cached status freshness after,
      protocol.moves state (.lookupWithStatus qname qtype) (some (cached, status, freshness))
        after →
      (serveCached query (qname, qtype) cached status freshness).Obeys protocol outcome after)
    (miss : ∀ after, protocol.moves state (.lookupWithStatus qname qtype) none after →
      (resolveCoalesced (qname, qtype) query (resolveMiss ctx query qname qtype).1
        (resolveMiss ctx query qname qtype).2).Obeys protocol
          (fun final result => outcome final (result.1, result.2, .indeterminate)) after) :
    (resolveRemote ctx query qname qtype).Obeys protocol outcome state := by
  refine ⟨lookup, fun found after moves => ?_⟩
  cases found with
  | some cached =>
      obtain ⟨packet, status, freshness⟩ := cached
      exact hit packet status freshness after moves
  | none =>
      apply (miss after moves).bind
      rintro final ⟨resp, path⟩ result
      exact result

end Remote

section Rules

variable {σ : Type} {protocol : Protocol QueryEffect QueryEffect.Answer σ} {ctx : PipelineCtx}
  {query : DnsPacket}

/-- A property of the response that every sub-resolution keeps holds at the end
of the chase. -/
theorem obeys_chaseLoop {qtype : QueryType} {ready : σ → Text → DnsPacket → Prop}
    (servfail : ∀ state current resp, ready state current resp →
      ready state current (.responseFrom query .servfail))
    (sub : ∀ state current resp target, ready state current resp →
      chaseTarget qtype current resp = some target →
      (resolveOnce ctx (.query query.header.id target qtype) target qtype).Obeys protocol
        (fun after result => ready after target (combineResponse resp result.1)) state)
    (left : Nat) (visited : List Text) (current : Text) (resp : DnsPacket) (state : σ)
    (isReady : ready state current resp) :
    (chaseLoop ctx query qtype left visited current resp).Obeys protocol
      (fun after result => ∀ final, result = some final → ∃ last, ready after last final)
      state := by
  induction left generalizing visited current resp state with
  | zero =>
      unfold chaseLoop
      split
      · rintro _ ⟨⟩
        exact ⟨current, isReady⟩
      · rintro _ ⟨⟩
        exact ⟨current, servfail state current resp isReady⟩
  | succ left ih =>
      unfold chaseLoop
      split
      · rintro _ ⟨⟩
        exact ⟨current, isReady⟩
      · rename_i target isTarget
        dsimp only
        split
        · rintro _ ⟨⟩
          exact ⟨current, servfail state current resp isReady⟩
        · split
          · rintro _ ⟨⟩
          · apply (sub state current resp target isReady isTarget).bind
            intro after result readyAfter
            exact ih _ target _ after readyAfter

/-- The filter and the shaping keep what a message has of its response. -/
theorem sends_of_serialized {response filtered message : DnsPacket} {filterAaaa : Bool}
    {octets : List UInt8} (sameId : filtered.header.id = response.header.id)
    (sameQuestions : filtered.questions = response.questions)
    (authed : filtered.header.authedData = true → response.header.authedData = true)
    (serialized : (filtered.shapeForClient query filterAaaa).serializeWithFallback query
      filterAaaa = some (message, octets)) : Sends query response message := by
  rcases DnsPacket.serializeWithFallback_cases serialized with rfl | fallback
  · left
    rw [DnsPacket.shapeForClient_header, DnsPacket.shapeForClient_questions]
    exact ⟨sameId, sameQuestions, authed⟩
  · exact .inr fallback

variable (ready : DnsQuestion → QueryPath → DnssecStatus → σ → Text → DnsPacket → Prop)
  (answerable : QueryPath → DnssecStatus → σ → DnsPacket → Prop)
  {post : σ → Option ClientAnswer → Prop} {start : σ}

theorem obeys_applyRebind {path : QueryPath} {dnssec : DnssecStatus} {response : DnsPacket}
    {state : σ} (allowed : protocol.allowed state .readRebind)
    (keeps : ∀ filter after, protocol.moves state .readRebind filter after →
      answerable path dnssec after response)
    (isAnswerable : answerable path dnssec state response) (qname : Text) :
    (applyRebind qname path response).Obeys protocol (fun after filtered =>
      answerable path dnssec after response ∧ filtered.header.id = response.header.id ∧
        filtered.questions = response.questions ∧
        (filtered.header.authedData = true → response.header.authedData = true)) state := by
  unfold applyRebind
  split
  · exact ⟨isAnswerable, rfl, rfl, id⟩
  · refine ⟨allowed, fun filter after moves => ?_⟩
    have sameQuestions := RebindFilter.filterResponse_questions filter qname response
    refine ⟨keeps filter after moves, ?_⟩
    rcases RebindFilter.filterResponse_header filter qname response with sameHeader | cleared
    · rw [sameHeader]
      exact ⟨rfl, sameQuestions, id⟩
    · rw [cleared]
      refine ⟨rfl, sameQuestions, fun impossible => ?_⟩
      cases impossible

/-- A response is followed from its resolution through the chase and the
validation to the message that is sent. -/
theorem obeys_resolveQuery
    (first : ∀ question, query.questions.head? = some question →
      (resolveOnce ctx query question.name question.qtype).Obeys protocol
        (fun after result => ready question result.2.1 result.2.2 after question.name result.1)
        start)
    (servfail : ∀ question path dnssec state current resp,
      ready question path dnssec state current resp →
      ready question path dnssec state current (.responseFrom query .servfail))
    (sub : ∀ question path dnssec state current resp target,
      ready question path dnssec state current resp →
      chaseTarget question.qtype current resp = some target →
      (resolveOnce ctx (.query query.header.id target question.qtype) target
        question.qtype).Obeys protocol (fun after result =>
          ready question path dnssec after target (combineResponse resp result.1)) state)
    (validated : ∀ question path dnssec state current resp,
      query.questions.head? = some question → ready question path dnssec state current resp →
      (validateAndCache ctx query question.name question.qtype resp path dnssec).Obeys protocol
        (fun after result => answerable path result.2 after result.1) state)
    (allowed : ∀ state, protocol.allowed state .readRebind)
    (keeps : ∀ path dnssec state response filter after, answerable path dnssec state response →
      protocol.moves state .readRebind filter after → answerable path dnssec after response)
    (silent : ∀ state, post state none)
    (answers : ∀ path dnssec state response message octets,
      answerable path dnssec state response → Sends query response message →
      post state (some ⟨response, message, octets, path, dnssec⟩))
    (filterAaaa : Bool) :
    (resolveQuery ctx query filterAaaa).Obeys protocol post start := by
  unfold resolveQuery
  split
  · exact silent start
  · rename_i question isQuestion
    have chased : (resolveWithCnameChase ctx query question.name question.qtype).Obeys protocol
        (fun after result => ∀ resp path dnssec, result = some (resp, path, dnssec) →
          ∃ last, ready question path dnssec after last resp) start := by
      apply (first question isQuestion).bind
      rintro middle ⟨resp, path, dnssec⟩ isReady
      apply (obeys_chaseLoop (servfail question path dnssec) (sub question path dnssec)
        maxCnameDepth [question.name.toLowercase] question.name resp middle isReady).bind
      intro after result final
      cases result with
      | none =>
          intro _ _ _ same
          cases same
      | some last =>
          intro _ _ _ same
          cases same
          exact final last rfl
    apply chased.bind
    intro middle result isReady
    cases result with
    | none => exact silent middle
    | some resolved =>
        obtain ⟨resp, path, dnssec⟩ := resolved
        obtain ⟨last, readyLast⟩ := isReady resp path dnssec rfl
        apply (validated question path dnssec middle last resp isQuestion readyLast).bind
        rintro after ⟨response, status⟩ isAnswerable
        apply (obeys_applyRebind answerable (allowed after)
          (fun filter next moves => keeps path status after response filter next isAnswerable moves)
          isAnswerable _).bind
        rintro final filtered ⟨finallyAnswerable, sameId, sameQuestions, authed⟩
        dsimp only
        split
        · exact silent final
        · rename_i message octets serialized
          exact answers path status final response message octets finallyAnswerable
            (sends_of_serialized sameId sameQuestions authed serialized)

end Rules

end PipelineRules

end Numa
