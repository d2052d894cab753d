import Numa.AnswerSoundness
import Numa.Service

/-!
# Strict mode

In strict mode a client must not get records of a response that
`validate_response` calls `Bogus`.  The pipeline validates the response of the
task that leads a recursion, at its end; what other tasks take from the
broadcast of a leader or from the cache, and what the chase of a CNAME adds to
a response that was not resolved recursively, is not validated.
-/

namespace Numa

/-- The packet has no RRSIG in any section. -/
def Unsigned (packet : DnsPacket) : Prop :=
  allRrsigsOf packet = []

instance (packet : DnsPacket) : Decidable (Unsigned packet) :=
  inferInstanceAs (Decidable (allRrsigsOf packet = []))

/-- The response has no records, or the validator does not call it bogus. -/
def Verdict.Safe (verdict : Verdict) (response : DnsPacket) : Prop :=
  response.records = [] ∨ verdict.status response ≠ some .bogus

/-- No client has been answered with the records of a bogus response. -/
def Service.Strict (service : Service) (verdict : Verdict) : Prop :=
  ∀ answered ∈ service.answers, verdict.Safe answered.answer.response

/-! ## The condition -/

/-- What a client's response rests on. -/
inductive Footing
  /-- Nothing yet. -/
  | fresh
  /-- A recursion that the client leads for its own question. -/
  | led
  /-- A validated entry of the cache. -/
  | settled
  /-- Local data and records without signatures. -/
  | unsigned
  deriving DecidableEq

namespace Footing

variable (ctx : PipelineCtx)

/-- The footing after an event.  It is settled by the first answer to the
question of the client. -/
def after : Footing → (effect : QueryEffect) → effect.Answer → Footing
  | fresh, .resolveLocal .., some _ => unsigned
  | fresh, .resolver (.lookupWithStatus ..), some (packet, _, _) =>
    if Unsigned packet then unsigned else settled
  | fresh, .resolver (.acquireInflight key), .leader =>
    if matchForwardingRule key.1 ctx.forwardingRules then unsigned else led
  | fresh, .resolver (.acquireInflight _), .follower => unsigned
  | footing, _, _ => footing

/-- Records with signatures come from a recursion that the client leads for its
own question, or from a validated entry that answers the question without a
chase. -/
def permits : Footing → (effect : QueryEffect) → effect.Answer → Bool
  | led, _, _ => true
  | fresh, .resolver (.lookupWithStatus qname qtype), some (packet, status, _) =>
    decide (Unsigned packet) ||
      status != .indeterminate && (chaseTarget qtype qname packet).isNone
  | _, .resolver (.lookupWithStatus ..), some (packet, _, _) => decide (Unsigned packet)
  | _, .resolver (.receive _), some packet => decide (Unsigned packet)
  | _, .resolver (.broadcast _ (some packet)), _ => decide (Unsigned packet)
  | _, _, _ => true

/-- The footing of a client with this history. -/
def ofHistory : List Event → Footing
  | [] => fresh
  | event :: history => (ofHistory history).after ctx event.effect event.answer

end Footing

/-- The condition on a step. -/
def Service.strictMeets (ctx : PipelineCtx) (verdict : Verdict) (service : Service)
    (action : ServiceAction) : Bool :=
  (service.event ctx verdict action).all fun (client, event) =>
    (Footing.ofHistory ctx client.history).permits event.effect event.answer

/-! ## The protocol of a client -/

open PipelineRules

/-- A stored response that is safe, and answers the question of its key. -/
def Verdict.SafeFor (verdict : Verdict) (qname : Text) (qtype : QueryType)
    (response : DnsPacket) : Prop :=
  response.records = [] ∨
    verdict.status response ≠ some .bogus ∧ response.questions.head? = some ⟨qname, qtype⟩

/-- What an answer tells: an entry with a status of its own is safe, and the
validator answers by its verdict. -/
def Verdict.Informs (verdict : Verdict) : (effect : QueryEffect) → effect.Answer → Prop
  | .resolver (.lookupWithStatus qname qtype), some (packet, status, _) =>
    status ≠ .indeterminate → verdict.SafeFor qname qtype packet
  | .validate response, status => verdict.status response = some status
  | _, _ => True

/-- Clients store safe responses only with a status of their own. -/
def strict (ctx : PipelineCtx) (verdict : Verdict) :
    Protocol QueryEffect QueryEffect.Answer Footing where
  allowed _ effect :=
    match effect with
    | .insertWithStatus qname qtype response _ => verdict.SafeFor qname qtype response
    | _ => True
  moves footing effect answer after :=
    after = footing.after ctx effect answer ∧ footing.permits effect answer = true ∧
      verdict.Informs effect answer

/-- The protocol of the resolution of a client. -/
def strictRemote (ctx : PipelineCtx) (verdict : Verdict) :
    Protocol Effect Effect.Answer Footing :=
  (strict ctx verdict).pullback QueryEffect.resolver fun _ answer => answer

section Packets

variable {verdict : Verdict} {packet : DnsPacket}

theorem unsigned_iff : Unsigned packet ↔ ∀ record ∈ packet.records, record.isRrsig = false := by
  simp only [Unsigned, allRrsigsOf, List.filter_eq_nil_iff, Bool.not_eq_true, DnsPacket.records]

theorem Unsigned.safe (unsigned : Unsigned packet) : verdict.Safe packet := by
  right
  rw [verdict.unsigned unsigned]
  simp

theorem safe_responseFrom (query : DnsPacket) (rescode : ResultCode) :
    verdict.Safe (.responseFrom query rescode) :=
  .inl rfl

theorem unsigned_responseFrom (query : DnsPacket) (rescode : ResultCode) :
    Unsigned (.responseFrom query rescode) :=
  rfl

theorem unsigned_combineResponse {finalResp : DnsPacket} (first : Unsigned packet)
    (last : Unsigned finalResp) : Unsigned (combineResponse packet finalResp) := by
  rw [unsigned_iff] at *
  intro record recordMem
  simp only [combineResponse, DnsPacket.records, List.mem_append] at recordMem first last
  rcases recordMem with ((inFirst | inLast) | inAuthorities) | inResources
  · exact first record (.inl (.inl inFirst))
  · exact last record (.inl (.inl inLast))
  · exact first record (.inl (.inr inAuthorities))
  · exact first record (.inr inResources)

theorem chaseTarget_of_rescode {qtype : QueryType} {current : Text}
    (failed : packet.header.rescode ≠ .noerror) : chaseTarget qtype current packet = none := by
  simp [chaseTarget, failed]

/-- A safe response stays safe when it is served for the same question. -/
theorem Verdict.SafeFor.served {query : DnsPacket} {qname : Text} {qtype : QueryType}
    {status : DnssecStatus} (safe : verdict.SafeFor qname qtype packet)
    (asked : query.questions.head? = some ⟨qname, qtype⟩) :
    verdict.Safe (servedResponse query packet status) := by
  rcases safe with empty | ⟨notBogus, sameQuestion⟩
  · exact .inl empty
  · right
    have same : SameContent (servedResponse query packet status) packet :=
      ⟨rfl, asked.trans sameQuestion.symm, rfl, rfl, rfl⟩
    rw [verdict.content same]
    exact notBogus

end Packets

namespace Footing

variable {ctx : PipelineCtx} {verdict : Verdict}

theorem after_of_ne_fresh {footing : Footing} (started : footing ≠ fresh) (effect : QueryEffect)
    (answer : effect.Answer) : footing.after ctx effect answer = footing := by
  cases footing with
  | fresh => exact absurd rfl started
  | _ => rfl

theorem of_moves {footing next : Footing} {effect : Effect} {answer : effect.Answer}
    (moves : (strictRemote ctx verdict).moves footing effect answer next) :
    next = footing.after ctx (.resolver effect) answer ∧
      footing.permits (.resolver effect) answer = true ∧
      verdict.Informs (.resolver effect) answer := by
  obtain ⟨_, rfl, holds⟩ := moves
  exact holds

/-- A client that has its first answer keeps its footing. -/
theorem eq_of_moves {footing next : Footing} {effect : Effect} {answer : effect.Answer}
    (started : footing ≠ fresh)
    (moves : (strictRemote ctx verdict).moves footing effect answer next) : next = footing :=
  (of_moves moves).1.trans (after_of_ne_fresh started _ _)

/-- It keeps it through any resolution. -/
theorem obeys_steady {α : Type} (action : Resolver α) {footing : Footing}
    (started : footing ≠ fresh) :
    action.Obeys (strictRemote ctx verdict) (fun after _ => after = footing) footing := by
  apply Interaction.Obeys.of_invariant
  · exact fun _ _ _ => trivial
  · rintro _ effect answer next rfl moves
    exact eq_of_moves started moves
  · rfl

/-- What holds of the response of a client on the way to its answer: it will be
validated, or it is safe and final, or it has no signatures. -/
def Ready (verdict : Verdict) (query : DnsPacket) (question : DnsQuestion) (path : QueryPath) :
    Footing → Text → DnsPacket → Prop
  | fresh, _, _ => False
  | led, current, resp =>
    path = .recursive ∧ resp.questions = query.questions ∨
      path ≠ .recursive ∧ verdict.Safe resp ∧ chaseTarget question.qtype current resp = none
  | settled, current, resp =>
    path ≠ .recursive ∧ verdict.Safe resp ∧ chaseTarget question.qtype current resp = none
  | unsigned, _, resp => path ≠ .recursive ∧ Unsigned resp

variable {query : DnsPacket} {qname : Text} {qtype : QueryType}

theorem ready_servfail {question : DnsQuestion} {path : QueryPath} {footing : Footing}
    {current : Text} {resp : DnsPacket}
    (ready : footing.Ready verdict query question path current resp) :
    footing.Ready verdict query question path current (.responseFrom query .servfail) := by
  have final : chaseTarget question.qtype current (.responseFrom query .servfail) = none :=
    chaseTarget_of_rescode (by simp [DnsPacket.responseFrom])
  cases footing with
  | fresh => exact ready
  | led =>
      rcases ready with ⟨isRecursive, -⟩ | ⟨other, -⟩
      · exact .inl ⟨isRecursive, rfl⟩
      · exact .inr ⟨other, safe_responseFrom query _, final⟩
  | settled => exact ⟨ready.1, safe_responseFrom query _, final⟩
  | unsigned => exact ⟨ready.1, unsigned_responseFrom query _⟩

/-- No effect moves the footing of a client that has its first answer. -/
theorem quietly_of_ne_fresh {footing : Footing} (started : footing ≠ fresh) (effect : Effect) :
    Quietly (strictRemote ctx verdict) effect footing :=
  ⟨trivial, fun _ _ moves => eq_of_moves started moves⟩

/-- What a follower receives has no signatures. -/
theorem unsigned_followed (query : DnsPacket) {key : CacheKey} {result : Option DnsPacket} {next : Footing}
    (moves : (strictRemote ctx verdict).moves unsigned (.receive key) result next) :
    next = unsigned ∧ (followed query result).2 ≠ .recursive ∧
      Unsigned (followed query result).1 := by
  refine ⟨eq_of_moves (by decide) moves, ?_⟩
  cases result with
  | none => exact ⟨by simp [followed], unsigned_responseFrom query _⟩
  | some packet => exact ⟨by simp [followed], of_decide_eq_true (of_moves moves).2.1⟩

/-- A client whose records have no signatures follows, or leads a resolution
that is not its own, to records without signatures. -/
theorem obeys_resolveCoalesced_unsigned {key : CacheKey} {leaderPath : QueryPath}
    {resolveFn : Resolution} {footing : Footing}
    (becomes : ∀ disposition : Disposition,
      footing.after ctx (.resolver (.acquireInflight key)) disposition = unsigned) :
    (resolveCoalesced key query leaderPath resolveFn).Obeys (strictRemote ctx verdict)
      (fun after result => after = unsigned ∧
        (leaderPath ≠ .recursive → result.2 ≠ .recursive) ∧ Unsigned result.1) footing := by
  apply obeys_resolveCoalesced
  · trivial
  · intro middle acquires
    obtain rfl : middle = unsigned := (of_moves acquires).1.trans (becomes .follower)
    refine ⟨trivial, fun result final receives => ?_⟩
    obtain ⟨same, other, resultUnsigned⟩ := unsigned_followed query receives
    exact ⟨same, fun _ => other, resultUnsigned⟩
  · intro middle acquires
    obtain rfl : middle = unsigned := (of_moves acquires).1.trans (becomes .leader)
    apply (obeys_steady resolveFn (by decide)).mono
    rintro _ result rfl
    refine ⟨quietly_of_ne_fresh (by decide) _, trivial, fun final sends => ?_⟩
    refine ⟨eq_of_moves (by decide) sends, ?_⟩
    cases result with
    | error error => exact ⟨fun _ => by simp [PipelineRules.led], unsigned_responseFrom query _⟩
    | ok packet => exact ⟨id, of_decide_eq_true (of_moves sends).2.1⟩

theorem obeys_resolveOnce_led :
    (resolveOnce ctx query qname qtype).Obeys (strict ctx verdict)
      (fun after _ => after = led) led := by
  refine ⟨trivial, ?_⟩
  rintro found _ ⟨rfl, -, -⟩
  cases found with
  | some answer => rfl
  | none => exact (obeys_steady (resolveRemote ctx.toServerCtx query qname qtype) (by decide)).embed

theorem unsigned_toResponse (answer : LocalAnswer) (query : DnsPacket) :
    Unsigned (answer.toResponse query) := by
  rw [unsigned_iff]
  intro record recordMem
  apply answer.unsigned
  simpa [LocalAnswer.toResponse, DnsPacket.records, DnsPacket.responseFrom] using recordMem

theorem obeys_resolveOnce_unsigned :
    (resolveOnce ctx query qname qtype).Obeys (strict ctx verdict)
      (fun after result => after = unsigned ∧ Unsigned result.1) unsigned := by
  refine ⟨trivial, ?_⟩
  rintro found _ ⟨rfl, -, -⟩
  cases found with
  | some answer => exact ⟨rfl, unsigned_toResponse answer query⟩
  | none =>
      apply Interaction.Obeys.embed
      apply obeys_resolveRemote
      · trivial
      · intro cached status freshness middle hits
        obtain rfl : middle = unsigned := eq_of_moves (by decide) hits
        have cachedUnsigned : Unsigned cached := of_decide_eq_true (of_moves hits).2.1
        apply obeys_serveCached (quietly_of_ne_fresh (by decide) _)
          (quietly_of_ne_fresh (by decide) _)
        exact ⟨rfl, cachedUnsigned⟩
      · intro middle misses
        obtain rfl : middle = unsigned := eq_of_moves (by decide) misses
        apply (obeys_resolveCoalesced_unsigned fun _ => rfl).mono
        rintro _ result ⟨rfl, -, resultUnsigned⟩
        exact ⟨rfl, resultUnsigned⟩

/-- The leader of a recursion for its own question. -/
theorem obeys_resolveCoalesced_led {question : DnsQuestion} {key : CacheKey}
    (leads : fresh.after ctx (.resolver (.acquireInflight key)) Disposition.leader = led) :
    (resolveCoalesced key query .recursive
      (resolveRecursive ctx.toResolverEnv .client qname qtype query)).Obeys
      (strictRemote ctx verdict)
      (fun after result => after.Ready verdict query question result.2 qname result.1)
      fresh := by
  have final : chaseTarget question.qtype qname (.responseFrom query .servfail) = none :=
    chaseTarget_of_rescode (by simp [DnsPacket.responseFrom])
  apply obeys_resolveCoalesced
  · trivial
  · intro middle acquires
    obtain rfl : middle = unsigned := (of_moves acquires).1
    refine ⟨trivial, fun result last receives => ?_⟩
    obtain ⟨rfl, ready⟩ := unsigned_followed query receives
    exact ready
  · intro middle acquires
    obtain rfl : middle = led := (of_moves acquires).1.trans leads
    apply (obeys_steady (resolveIterative ctx.toResolverEnv .client qname qtype 0 0)
      (by decide)).bind
    rintro _ result rfl
    cases result with
    | ok packet =>
        refine ⟨quietly_of_ne_fresh (by decide) _, trivial, fun last sends => ?_⟩
        obtain rfl := eq_of_moves (by decide) sends
        exact .inl ⟨rfl, rfl⟩
    | error error =>
        refine ⟨quietly_of_ne_fresh (by decide) _, trivial, fun last sends => ?_⟩
        obtain rfl := eq_of_moves (by decide) sends
        exact .inr ⟨by simp [PipelineRules.led], safe_responseFrom query _, final⟩

/-- A cache hit that answers the question of a client. -/
theorem obeys_serveCached_fresh {question : DnsQuestion} {cached : DnsPacket}
    {status : DnssecStatus} {freshness : Freshness} {next : Footing}
    (asked : query.questions.head? = some question)
    (hits : (strictRemote ctx verdict).moves fresh
      (.lookupWithStatus question.name question.qtype) (some (cached, status, freshness)) next) :
    (serveCached query (question.name, question.qtype) cached status freshness).Obeys
      (strictRemote ctx verdict)
      (fun after result => after.Ready verdict query question result.2.1 question.name result.1)
      next := by
  obtain ⟨isNext, permitted, informs⟩ := of_moves hits
  by_cases cachedUnsigned : Unsigned cached
  · obtain rfl : next = unsigned := isNext.trans (if_pos cachedUnsigned)
    apply obeys_serveCached (quietly_of_ne_fresh (by decide) _)
      (quietly_of_ne_fresh (by decide) _)
    exact ⟨by simp, cachedUnsigned⟩
  · obtain rfl : next = settled := isNext.trans (if_neg cachedUnsigned)
    simp only [permits, cachedUnsigned, decide_false, Bool.false_or, Bool.and_eq_true,
      bne_iff_ne, ne_eq, Option.isNone_iff_eq_none] at permitted
    obtain ⟨validated, final⟩ := permitted
    have safe : verdict.SafeFor question.name question.qtype cached := informs validated
    apply obeys_serveCached (quietly_of_ne_fresh (by decide) _)
      (quietly_of_ne_fresh (by decide) _)
    exact ⟨by simp, safe.served asked, final⟩

/-- The first answer to the question of a client. -/
theorem obeys_resolveOnce_fresh (recursive : ctx.upstreamMode = .recursive)
    {question : DnsQuestion} (asked : query.questions.head? = some question) :
    (resolveOnce ctx query question.name question.qtype).Obeys (strict ctx verdict)
      (fun after result => after.Ready verdict query question result.2.1 question.name result.1)
      fresh := by
  refine ⟨trivial, ?_⟩
  rintro found _ ⟨rfl, -, -⟩
  cases found with
  | some answer =>
      refine ⟨?_, unsigned_toResponse answer query⟩
      intro isRecursive
      have isPath : answer.path = .recursive := isRecursive
      have trusted := answer.trusted
      rw [isPath] at trusted
      cases trusted
  | none =>
      apply Interaction.Obeys.embed
      apply obeys_resolveRemote
      · trivial
      · intro cached status freshness middle hits
        exact obeys_serveCached_fresh asked hits
      · intro middle misses
        obtain rfl : middle = fresh := (of_moves misses).1
        unfold resolveMiss
        by_cases forwarded : matchForwardingRule question.name ctx.forwardingRules = true
        · rw [if_pos forwarded]
          have becomes : ∀ disposition : Disposition, fresh.after ctx
              (.resolver (.acquireInflight (question.name, question.qtype))) disposition =
                unsigned := by
            intro disposition
            cases disposition with
            | follower => rfl
            | leader => exact if_pos forwarded
          apply (obeys_resolveCoalesced_unsigned becomes).mono
          rintro _ result ⟨rfl, other, resultUnsigned⟩
          exact ⟨other (by simp), resultUnsigned⟩
        · rw [if_neg forwarded, if_pos recursive]
          exact obeys_resolveCoalesced_led (if_neg forwarded)

/-- A response that was validated or is safe already is answered safely. -/
theorem obeys_validateAndCache (enabled : ctx.dnssecEnabled = true)
    (strictMode : ctx.dnssecStrict = true) {question : DnsQuestion}
    (asked : query.questions.head? = some question) {path : QueryPath} {footing : Footing}
    {current : Text} {resp : DnsPacket} {dnssec : DnssecStatus}
    (ready : footing.Ready verdict query question path current resp) :
    (validateAndCache ctx query question.name question.qtype resp path dnssec).Obeys
      (strict ctx verdict) (fun _ result => verdict.Safe result.1) footing := by
  unfold validateAndCache
  by_cases isRecursive : path = .recursive
  · rw [if_pos ⟨enabled, isRecursive⟩]
    have sameQuestions : resp.questions = query.questions := by
      cases footing with
      | fresh => exact ready.elim
      | led =>
          rcases ready with ⟨-, same⟩ | ⟨other, -⟩
          · exact same
          · exact absurd isRecursive other
      | settled => exact absurd isRecursive ready.1
      | unsigned => exact absurd isRecursive ready.1
    refine ⟨trivial, ?_⟩
    rintro status _ ⟨rfl, -, isStatus⟩
    have safe : verdict.SafeFor question.name question.qtype
        (applyStatus ctx query status resp) := by
      unfold applyStatus
      split
      · rename_i isSecure
        right
        have same : SameContent { resp with header := { resp.header with authedData := true } }
            resp := ⟨rfl, rfl, rfl, rfl, rfl⟩
        rw [verdict.content same, isStatus, isSecure]
        exact ⟨nofun, (congrArg List.head? sameQuestions).trans asked⟩
      · split
        · exact .inl rfl
        · rename_i notBogus
          right
          rw [isStatus]
          refine ⟨?_, (congrArg List.head? sameQuestions).trans asked⟩
          intro isBogus
          exact notBogus ⟨Option.some.inj isBogus, strictMode⟩
    refine ⟨safe, fun _ _ _ => ?_⟩
    rcases safe with empty | ⟨notBogus, -⟩
    · exact .inl empty
    · exact .inr notBogus
  · rw [if_neg fun both => isRecursive both.2]
    cases footing with
    | fresh => exact ready.elim
    | led =>
        rcases ready with ⟨same, -⟩ | ⟨-, safe, -⟩
        · exact absurd same isRecursive
        · exact safe
    | settled => exact ready.2.1
    | unsigned => exact ready.2.safe

/-- A client that obeys the protocol is answered safely. -/
theorem obeys_resolveQuery (recursive : ctx.upstreamMode = .recursive)
    (enabled : ctx.dnssecEnabled = true) (strictMode : ctx.dnssecStrict = true)
    (query : DnsPacket) (filterAaaa : Bool) :
    (resolveQuery ctx query filterAaaa).Obeys (strict ctx verdict)
      (fun _ result => ∀ answer, result = some answer → verdict.Safe answer.response) fresh := by
  apply PipelineRules.obeys_resolveQuery
    (fun question path _ footing => footing.Ready verdict query question path)
    (fun _ _ _ response => verdict.Safe response)
  · exact fun question asked => obeys_resolveOnce_fresh recursive asked
  · exact fun _ _ _ _ _ _ ready => ready_servfail ready
  · intro question path dnssec footing current resp target ready isTarget
    cases footing with
    | fresh => exact ready.elim
    | led =>
        rcases ready with ⟨isRecursive, sameQuestions⟩ | ⟨-, -, final⟩
        · apply obeys_resolveOnce_led.mono
          rintro _ result rfl
          exact .inl ⟨isRecursive, sameQuestions⟩
        · rw [final] at isTarget
          cases isTarget
    | settled =>
        rw [ready.2.2] at isTarget
        cases isTarget
    | unsigned =>
        apply obeys_resolveOnce_unsigned.mono
        rintro _ result ⟨rfl, subUnsigned⟩
        exact ⟨ready.1, unsigned_combineResponse ready.2 subUnsigned⟩
  · exact fun question path dnssec footing current resp asked ready =>
      obeys_validateAndCache enabled strictMode asked ready
  · exact fun _ => trivial
  · exact fun _ _ _ _ _ _ safe _ => safe
  · intro _ _ same
    cases same
  · intro path dnssec footing response message octets safe _ _ same
    cases same
    exact safe

end Footing

/-! ## The invariant -/

/-- Every client obeys the protocol, and every entry with a status of its own is
safe. -/
structure Service.StrictSound (ctx : PipelineCtx) (verdict : Verdict) (service : Service) :
    Prop where
  obeying : service.Obeying (strict ctx verdict) (Footing.ofHistory ctx) fun _ _ result =>
    ∀ answer, result = some answer → verdict.Safe answer.response
  entries : ∀ domain qtype entry packet, service.system.cache.entry domain qtype = some entry →
    entry.wire.packet = some packet → entry.dnssecStatus ≠ .indeterminate →
    verdict.SafeFor domain qtype packet

section Invariant

variable {ctx : PipelineCtx} {verdict : Verdict} {service after : Service}

theorem Verdict.SafeFor.patch {domain : Text} {qtype : QueryType} {packet : DnsPacket}
    (safe : verdict.SafeFor domain qtype packet) (id : UInt16) (ttl : UInt32) :
    verdict.SafeFor domain qtype (packet.patch id ttl) := by
  rcases safe with empty | ⟨notBogus, sameQuestion⟩
  · left
    simpa [DnsPacket.records, DnsPacket.patch] using empty
  · right
    rw [verdict.content (sameContent_patch id ttl packet)]
    exact ⟨notBogus, sameQuestion⟩

/-- Answers tell the truth in a sound state. -/
theorem Service.StrictSound.informs {id : Nat} {effect : QueryEffect} {reply : QueryReply}
    {value : effect.Answer} {middle : Service} (sound : service.StrictSound ctx verdict)
    (answered : service.answer ctx verdict id effect reply = some (value, middle)) :
    verdict.Informs effect value := by
  cases effect with
  | resolver inner =>
      cases inner with
      | lookupWithStatus qname qtype =>
          cases reply with
          | resolver innerReply =>
              cases value with
              | none => trivial
              | some found =>
                  obtain ⟨packet, status, freshness⟩ := found
                  have isFound : service.system.cache.lookupWithStatus service.system.now qname
                      qtype = some (packet, status, freshness) :=
                    (Prod.ext_iff.mp (Option.some.inj answered)).1
                  obtain ⟨entry, stored, ttl, isEntry, isStored, rfl, rfl, -⟩ :=
                    DnsCache.lookupWithStatus_eq_some isFound
                  intro validated
                  exact (sound.entries qname qtype entry stored isEntry isStored validated).patch
                    0 ttl
          | _ => cases answered
      | _ => trivial
  | validate response =>
      obtain ⟨status, isStatus, same⟩ := Option.map_eq_some_iff.mp answered
      cases same
      exact isStatus
  | _ => trivial

theorem Service.StrictSound.step {action : ServiceAction}
    (recursive : ctx.upstreamMode = .recursive) (enabled : ctx.dnssecEnabled = true)
    (strictMode : ctx.dnssecStrict = true) (sound : service.StrictSound ctx verdict)
    (met : service.strictMeets ctx verdict action = true)
    (stepped : service.step ctx verdict action = some after) :
    after.StrictSound ctx verdict where
  obeying := by
    apply sound.obeying.step _ _ stepped
    · exact fun query filterAaaa =>
        Footing.obeys_resolveQuery recursive enabled strictMode query filterAaaa
    · rintro id reply client effect next value middle rfl isClient isNext answered
      have event := Service.event_eq_some isClient isNext answered
      refine ⟨rfl, ?_, sound.informs answered⟩
      simpa [Service.strictMeets, event] using met
  entries := by
    intro domain qtype entry packet isEntry isPacket validated
    rcases Service.entryFrom_step stepped domain qtype with same | gone |
      ⟨item, itemMem, _, isNew, ⟨rfl, rfl⟩, sameWire, sameStatus⟩
    · exact sound.entries domain qtype entry packet (same ▸ isEntry) isPacket validated
    · rw [gone] at isEntry
      cases isEntry
    · obtain rfl := Option.some.inj (isNew.symm.trans isEntry)
      rcases Service.writes_cases itemMem with unvalidated | ⟨id, reply, client, qname, qtype,
        response, status, next, rfl, isClient, isNext, rfl⟩
      · exact absurd (sameStatus.trans unvalidated) validated
      · have asks := sound.obeying.clients id client isClient
        rw [isNext] at asks
        rw [sameWire] at isPacket
        cases isPacket
        exact asks.1

theorem Service.strictSound_init (cache : DnsCache)
    (empty : ∀ domain qtype, cache.entry domain qtype = none) :
    (Service.init cache).StrictSound ctx verdict where
  obeying := Service.obeying_init cache
  entries := by
    intro domain qtype entry packet isEntry
    rw [show (Service.init cache).system.cache = cache from rfl, empty] at isEntry
    cases isEntry

end Invariant

/-- In every run in which records with signatures reach a client only through a
recursion that it leads for its own question, or through a validated entry that
answers the question without a chase, no client is answered with the records of
a bogus response. -/
theorem strict_of_runMeeting {ctx : PipelineCtx} {verdict : Verdict} {maxEntries : Nat}
    {minTtl maxTtl : UInt32} {actions : List ServiceAction} {service : Service}
    (recursive : ctx.upstreamMode = .recursive) (enabled : ctx.dnssecEnabled = true)
    (strictMode : ctx.dnssecStrict = true)
    (ran : (Service.init (.new maxEntries minTtl maxTtl)).runMeeting ctx verdict
      (Service.strictMeets ctx verdict) actions = some service) :
    service.Strict verdict := by
  have sound : service.StrictSound ctx verdict := by
    apply Service.invariant_runMeeting (Service.strictSound_init _ fun _ _ => rfl) _ ran
    exact fun before action next holds met stepped =>
      holds.step recursive enabled strictMode met stepped
  intro answered answeredMem
  obtain ⟨state, safe⟩ := sound.obeying.answers answered answeredMem
  exact safe answered.answer rfl

def strictServer : SocketAddr :=
  .v4 (.new 192 0 2 1) 53

/-- A server in strict recursive mode with one root hint. -/
def strictCtx : PipelineCtx where
  writable _ := true
  rootHints := [strictServer]
  forwardingRules := []
  upstreamMode := .recursive
  dnssecEnabled := true
  dnssecStrict := true

/-- The validator knows the keys of the sample zone. -/
def strictVerdict : Verdict :=
  .ofValidator answerCtx ()

def rebindOff : RebindFilter where
  enabled := false
  isPrivate _ := false
  isAllowed _ := false

/-- A client up to the resolution it leads or follows. -/
def coalescing (id : Nat) (query : DnsPacket) : List ServiceAction :=
  [ .arrive query false, .client id (.resolveLocal none), .client id (.resolver .nothing),
    .client id (.resolver .nothing) ]

/-- The root refers to the sample zone. -/
def sampleReferral : DnsPacket where
  header := { response := true }
  authorities := [.ns (text "test") (text "ns.test") 3600]
  resources := [.a (text "ns.test") (.new 192 0 2 2) 3600]

/-- One client leads the recursion for a signed name, and a second one is served
the validated entry. -/
def secureRun : List ServiceAction :=
  coalescing 0 (.query 1 (text "www.test") .a) ++
    [ .client 0 (.resolver .nothing), .client 0 (.resolver .nothing),
      .client 0 (.resolver (.order [strictServer])),
      .client 0 (.resolver (.response (.ok sampleReferral))), .client 0 (.resolver .nothing),
      .client 0 (.resolver .nothing),
      .client 0 (.resolver (.order [.v4 (.new 192 0 2 2) 53])),
      .client 0 (.resolver (.response (.ok signedAnswer))), .client 0 (.resolver .nothing),
      .client 0 (.resolver .nothing), .client 0 (.resolver .nothing), .client 0 .nothing,
      .client 0 .nothing, .client 0 (.rebind rebindOff), .client 0 .nothing,
      .arrive (.query 2 (text "www.test") .a) false, .client 1 (.resolveLocal none),
      .client 1 (.resolver .nothing), .client 1 (.rebind rebindOff), .client 1 .nothing ]

theorem strict_of_runMeeting_secureRun :
    ∃ service, (Service.init (.new 100000 60 86400)).runMeeting strictCtx strictVerdict
        (Service.strictMeets strictCtx strictVerdict) secureRun = some service ∧
      service.answers.map (fun answered => answered.answer.dnssec) = [.secure, .secure] ∧
      service.Strict strictVerdict := by
  have served : ((Service.init (.new 100000 60 86400)).runMeeting strictCtx strictVerdict
      (Service.strictMeets strictCtx strictVerdict) secureRun).any (fun service =>
        decide (service.answers.map (fun answered => answered.answer.dnssec) =
          [.secure, .secure])) = true := by decide +kernel
  obtain ⟨service, ran, isServed⟩ := (Option.any_eq_true _ _).mp served
  exact ⟨service, ran, of_decide_eq_true isServed, strict_of_runMeeting rfl rfl rfl ran⟩

/-! ## A follower gets a bogus response -/

/-- An address of the sample zone under a forged signature. -/
def forgedResponse : DnsPacket where
  header := { response := true }
  answers :=
    [ sampleAddress (text "test"), sampleRrsig (text "test") .a 1 27232 (text "test") 0 ]

def strictQuery (id : UInt16) : DnsPacket :=
  .query id (text "test") .a

/-- The forged response as the leader broadcasts it. -/
def forgedBroadcast : DnsPacket :=
  { forgedResponse with
    header :=
      { forgedResponse.header with id := 1, recursionAvailable := true, recursionDesired := true }
    questions := (strictQuery 1).questions }

/-- The resolution of the first client, from the lookup to the broadcast. -/
def leading : List ServiceAction :=
  [ .client 0 (.resolver .nothing), .client 0 (.resolver .nothing),
    .client 0 (.resolver (.order [strictServer])),
    .client 0 (.resolver (.response (.ok forgedResponse))), .client 0 (.resolver .nothing),
    .client 0 (.resolver .nothing), .client 0 (.resolver .nothing) ]

/-- The validation, the final insertion and the answer of the first client. -/
def finishing : List ServiceAction :=
  [.client 0 .nothing, .client 0 .nothing, .client 0 (.rebind rebindOff), .client 0 .nothing]

/-- Has a client been answered with the records of a bogus response? -/
def answersBogus (verdict : Verdict) (service : Service) : Bool :=
  service.answers.any fun answered =>
    decide (answered.answer.response.records ≠ []) &&
      decide (verdict.status answered.answer.response = some .bogus)

theorem not_strict_of_answersBogus {verdict : Verdict} {service : Service}
    (bogus : answersBogus verdict service = true) : ¬ service.Strict verdict := by
  intro isStrict
  obtain ⟨answered, answeredMem, both⟩ := List.any_eq_true.mp bogus
  simp only [Bool.and_eq_true, decide_eq_true_eq] at both
  exact (isStrict answered answeredMem).elim both.1 fun notBogus => notBogus both.2

/-- One client leads, a second one follows it. -/
def followingRun : List ServiceAction :=
  coalescing 0 (strictQuery 1) ++ coalescing 1 (strictQuery 2) ++ leading ++
    [ .client 1 (.resolver (.broadcast (some forgedBroadcast))), .client 1 (.rebind rebindOff),
      .client 1 .nothing ] ++
    finishing

/-- The follower is answered with the forged record, which the leader then
finds bogus. -/
theorem followingRun_answers_bogus :
    ∃ service, (Service.init (.new 100000 60 86400)).runAll strictCtx strictVerdict
        followingRun = some service ∧ ¬ service.Strict strictVerdict := by
  have bogus : ((Service.init (.new 100000 60 86400)).runAll strictCtx strictVerdict
      followingRun).any (answersBogus strictVerdict) = true := by decide +kernel
  obtain ⟨service, ran, isBogus⟩ := (Option.any_eq_true _ _).mp bogus
  exact ⟨service, ran, not_strict_of_answersBogus isBogus⟩

end Numa
