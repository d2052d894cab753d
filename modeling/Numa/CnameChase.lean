import Numa.Pipeline

/-!
# The chase of CNAMEs

What a run of `resolve_with_cname_chase` has gone through: a chain of local and
remote resolutions, each for the CNAME target at which the answers so far end.
Whatever these answer, the chain is short and meets no name twice.
-/

namespace Numa

/-- An effect of the pipeline with its answer. -/
abbrev QueryEvent := Sigma QueryEffect.Answer

/-- One resolution of a chase. -/
structure ChaseStep where
  name : Text
  fromLocal : Bool
  response : DnsPacket

section Steps

variable (ctx : PipelineCtx) (query : DnsPacket) (qtype : QueryType)

/-- The events of a resolution of a query for a name, and where it took its
response from. -/
inductive ResolvedBy (name : Text) : List QueryEvent → ChaseStep → QueryPath → DnssecStatus → Prop
  | fromLocal (answer : LocalAnswer) :
      ResolvedBy name [⟨.resolveLocal name qtype, some answer⟩]
        ⟨name, true, answer.toResponse query⟩ answer.path .indeterminate
  | fromRemote {trace : List QueryEvent} {resp : DnsPacket} {path : QueryPath}
      {status : DnssecStatus}
      (ran : (QueryProgram.lift (resolveRemote ctx.toServerCtx query name qtype)).Runs trace
        (resp, path, status)) :
      ResolvedBy name (⟨.resolveLocal name qtype, none⟩ :: trace) ⟨name, false, resp⟩ path status

/-- The events of the resolutions of sub-queries one after the other. -/
def ResolvedAll : List ChaseStep → List QueryEvent → Prop
  | [], trace => trace = []
  | step :: later, trace => ∃ early late path status,
    ResolvedBy ctx (.query query.header.id step.name qtype) qtype step.name early step path status ∧
      ResolvedAll later late ∧ trace = early ++ late

/-- Each step is for the target at which the response before it ends. -/
def LinkedFrom : (current : Text) → DnsPacket → List ChaseStep → Prop
  | _, _, [] => True
  | current, resp, step :: later =>
    chaseTarget qtype current resp = some step.name ∧
      LinkedFrom step.name (combineResponse resp step.response) later

end Steps

/-- The steps of a chase. -/
structure Chase where
  first : ChaseStep
  later : List ChaseStep

namespace Chase

def steps (chase : Chase) : List ChaseStep :=
  chase.first :: chase.later

/-- The names that were resolved, in lower case. -/
def names (chase : Chase) : List Text :=
  chase.steps.map fun step => step.name.toLowercase

def last (chase : Chase) : ChaseStep :=
  chase.later.getLastD chase.first

/-- The response put together from the steps. -/
def response (chase : Chase) : DnsPacket :=
  chase.later.foldl (fun resp step => combineResponse resp step.response) chase.first.response

/-- The target at which the answers end. -/
def target (chase : Chase) (qtype : QueryType) : Option Text :=
  chaseTarget qtype chase.last.name chase.response

/-- The chain comes back to a name, or is longer than allowed. -/
def Stuck (chase : Chase) (qtype : QueryType) : Prop :=
  ∃ target, chase.target qtype = some target ∧
    (target.toLowercase ∈ chase.names ∨ chase.later.length = maxCnameDepth)

/-- A sub-query for the target can be written, unless the chain ends there. -/
def TargetWritable (chase : Chase) (ctx : PipelineCtx) (query : DnsPacket) (qtype : QueryType) :
    Prop :=
  ∀ target, chase.target qtype = some target → ¬ chase.Stuck qtype →
    ctx.writable (.query query.header.id target qtype) = true

/-- The events of a run are those of the steps, each of which goes on where the
one before ends. -/
structure Covers (chase : Chase) (ctx : PipelineCtx) (query : DnsPacket) (qname : Text)
    (qtype : QueryType) (trace : List QueryEvent) (path : QueryPath) (status : DnssecStatus) :
    Prop where
  name : chase.first.name = qname
  events : ∃ early late, ResolvedBy ctx query qtype qname early chase.first path status ∧
    ResolvedAll ctx query qtype chase.later late ∧ trace = early ++ late
  linked : LinkedFrom qtype qname chase.first.response chase.later
  short : chase.later.length ≤ maxCnameDepth
  distinct : chase.names.Nodup

end Chase

section Loop

variable {ctx : PipelineCtx} {query : DnsPacket} {qtype : QueryType} {trace : List QueryEvent}

theorem runs_resolveOnce {name : Text} {result : DnsPacket × QueryPath × DnssecStatus}
    (ran : (resolveOnce ctx query name qtype).Runs trace result) :
    ∃ step, ResolvedBy ctx query qtype name trace step result.2.1 result.2.2 ∧
      step.name = name ∧ step.response = result.1 := by
  obtain ⟨answer, rest, ranRest, rfl⟩ := Interaction.runs_ask_iff.mp ran
  cases answer with
  | none => exact ⟨⟨name, false, result.1⟩, .fromRemote ranRest, rfl, rfl⟩
  | some answer =>
      obtain ⟨rfl, rfl⟩ := Interaction.runs_done_iff.mp ranRest
      exact ⟨_, .fromLocal answer, rfl, rfl⟩

/-- How the loop ends when as many names are left. -/
def LoopEnds (ctx : PipelineCtx) (query : DnsPacket) (qtype : QueryType) (left : Nat)
    (visited : List Text) (current : Text) (resp : DnsPacket) (result : Option DnsPacket) : Prop :=
  match chaseTarget qtype current resp with
  | none => result = some resp
  | some target =>
    (left = 0 ∨ target.toLowercase ∈ visited → result = some (.responseFrom query .servfail)) ∧
      (¬ (left = 0 ∨ target.toLowercase ∈ visited) →
        ctx.writable (.query query.header.id target qtype) = false ∧ result = none)

/-- The steps that a run of the loop takes. -/
theorem exists_steps_of_chaseLoop {left : Nat} {visited : List Text} {first : ChaseStep}
    {resp : DnsPacket} {result : Option DnsPacket} (distinct : visited.Nodup)
    (ran : (chaseLoop ctx query qtype left visited first.name resp).Runs trace result) :
    ∃ later : List ChaseStep, ResolvedAll ctx query qtype later trace ∧
      LinkedFrom qtype first.name resp later ∧ later.length ≤ left ∧
      ((later.map fun step => step.name.toLowercase).reverse ++ visited).Nodup ∧
      LoopEnds ctx query qtype (left - later.length)
        ((later.map fun step => step.name.toLowercase).reverse ++ visited)
        (later.getLastD first).name
        (later.foldl (fun resp step => combineResponse resp step.response) resp) result := by
  induction left generalizing visited first resp trace with
  | zero =>
      unfold chaseLoop at ran
      cases found : chaseTarget qtype first.name resp with
      | none =>
          simp only [found] at ran
          obtain ⟨rfl, rfl⟩ := Interaction.runs_done_iff.mp ran
          refine ⟨[], rfl, trivial, le_rfl, distinct, ?_⟩
          simp [LoopEnds, found]
      | some target =>
          simp only [found] at ran
          obtain ⟨rfl, rfl⟩ := Interaction.runs_done_iff.mp ran
          refine ⟨[], rfl, trivial, le_rfl, distinct, ?_⟩
          simp [LoopEnds, found]
  | succ left ih =>
      unfold chaseLoop at ran
      cases found : chaseTarget qtype first.name resp with
      | none =>
          simp only [found] at ran
          obtain ⟨rfl, rfl⟩ := Interaction.runs_done_iff.mp ran
          refine ⟨[], rfl, trivial, by simp, distinct, ?_⟩
          simp [LoopEnds, found]
      | some target =>
          simp only [found] at ran
          by_cases revisited : target.toLowercase ∈ visited
          · rw [if_pos revisited] at ran
            obtain ⟨rfl, rfl⟩ := Interaction.runs_done_iff.mp ran
            refine ⟨[], rfl, trivial, by simp, distinct, ?_⟩
            simp [LoopEnds, found, revisited]
          · rw [if_neg revisited] at ran
            cases writable : ctx.writable (.query query.header.id target qtype) with
            | false =>
                rw [writable] at ran
                obtain ⟨rfl, rfl⟩ := Interaction.runs_done_iff.mp ran
                refine ⟨[], rfl, trivial, by simp, distinct, ?_⟩
                simp [LoopEnds, found, revisited, writable]
            | true =>
                rw [writable, if_neg (by simp)] at ran
                obtain ⟨⟨subResp, path, status⟩, early, late, ranSub, ranLater, rfl⟩ :=
                  Interaction.runs_bind_iff.mp ran
                obtain ⟨step, resolved, nameEq, responseEq⟩ := runs_resolveOnce ranSub
                subst nameEq
                subst responseEq
                obtain ⟨later, all, linked, short, nodup, ends⟩ :=
                  ih (List.nodup_cons.mpr ⟨revisited, distinct⟩) ranLater
                refine ⟨step :: later, ⟨early, late, path, status, resolved, all, rfl⟩,
                  ⟨found, linked⟩, Nat.succ_le_succ short, ?_, ?_⟩
                · simpa using nodup
                · rw [List.length_cons, List.map_cons, List.reverse_cons, List.append_assoc,
                    List.getLastD_cons, List.foldl_cons, Nat.add_sub_add_right]
                  exact ends

end Loop

/-! ## What a chase returns -/

section Result

variable {ctx : PipelineCtx} {query : DnsPacket} {qname : Text} {qtype : QueryType}
  {trace : List QueryEvent} {result : Option (DnsPacket × QueryPath × DnssecStatus)}

/-- The end of a chase: `none` where a sub-query cannot be written. -/
def Chase.Ends (chase : Chase) (ctx : PipelineCtx) (query : DnsPacket) (qtype : QueryType)
    (path : QueryPath) (status : DnssecStatus)
    (result : Option (DnsPacket × QueryPath × DnssecStatus)) : Prop :=
  (chase.Stuck qtype ∧ result = some (.responseFrom query .servfail, path, status)) ∨
    (chase.target qtype = none ∧ result = some (chase.response, path, status)) ∨
    (¬ chase.TargetWritable ctx query qtype ∧ result = none)

/-- The chain behind a run. -/
theorem exists_chase (ran : (resolveWithCnameChase ctx query qname qtype).Runs trace result) :
    ∃ chase path status, Chase.Covers chase ctx query qname qtype trace path status ∧
      chase.Ends ctx query qtype path status result := by
  obtain ⟨⟨resp, path, status⟩, early, late, ranFirst, ranRest, rfl⟩ :=
    Interaction.runs_bind_iff.mp ran
  obtain ⟨first, resolved, rfl, responseEq⟩ := runs_resolveOnce ranFirst
  obtain rfl : first.response = resp := responseEq
  obtain ⟨outcome, middle, rest, ranLoop, ranEnd, rfl⟩ := Interaction.runs_bind_iff.mp ranRest
  obtain ⟨later, all, linked, short, nodup, ends⟩ :=
    exists_steps_of_chaseLoop (List.nodup_singleton _) ranLoop
  have namesPerm : (later.map fun step => step.name.toLowercase).reverse ++
      [first.name.toLowercase] = (Chase.names ⟨first, later⟩).reverse := by
    simp [Chase.names, Chase.steps]
  rw [namesPerm] at nodup ends
  have covers : Chase.Covers ⟨first, later⟩ ctx query first.name qtype
      (early ++ (middle ++ rest)) path status := by
    refine ⟨rfl, ⟨early, middle ++ rest, resolved, ?_, rfl⟩, linked, short,
      List.nodup_reverse.mp nodup⟩
    cases outcome <;> (obtain ⟨rfl, -⟩ := Interaction.runs_done_iff.mp ranEnd; rwa [List.append_nil])
  refine ⟨⟨first, later⟩, path, status, covers, ?_⟩
  have target_eq : Chase.target ⟨first, later⟩ qtype =
      chaseTarget qtype (later.getLastD first).name
        (later.foldl (fun resp step => combineResponse resp step.response) first.response) := rfl
  unfold LoopEnds at ends
  rw [← target_eq] at ends
  cases found : Chase.target ⟨first, later⟩ qtype with
  | none =>
      simp only [found] at ends
      subst ends
      exact .inr (.inl ⟨found, (Interaction.runs_done_iff.mp ranEnd).2⟩)
  | some target =>
      have stuck_iff : Chase.Stuck ⟨first, later⟩ qtype ↔
          (maxCnameDepth - later.length = 0 ∨
            target.toLowercase ∈ (Chase.names ⟨first, later⟩).reverse) := by
        have full : later.length = maxCnameDepth ↔ maxCnameDepth - later.length = 0 := by omega
        simp [Chase.Stuck, found, full, or_comm]
      simp only [found] at ends
      by_cases stuck : Chase.Stuck ⟨first, later⟩ qtype
      · obtain rfl := ends.1 (stuck_iff.mp stuck)
        exact .inl ⟨stuck, (Interaction.runs_done_iff.mp ranEnd).2⟩
      · obtain ⟨unwritable, rfl⟩ := ends.2 (stuck_iff.not.mp stuck)
        refine .inr (.inr ⟨fun writable => ?_, (Interaction.runs_done_iff.mp ranEnd).2⟩)
        rw [writable target found stuck] at unwritable
        cases unwritable

end Result

theorem foldl_combineResponse_answers (resp : DnsPacket) (later : List ChaseStep) :
    (later.foldl (fun resp step => combineResponse resp step.response) resp).answers =
      resp.answers ++ later.flatMap fun step => step.response.answers := by
  induction later generalizing resp with
  | nil => simp
  | cons step later ih =>
      rw [List.foldl_cons, ih, List.flatMap_cons, ← List.append_assoc]
      rfl

theorem foldl_combineResponse_rescode (first : ChaseStep) (resp : DnsPacket)
    (later : List ChaseStep) (same : resp.header.rescode = first.response.header.rescode) :
    (later.foldl (fun resp step => combineResponse resp step.response) resp).header.rescode =
      (later.getLastD first).response.header.rescode := by
  induction later generalizing first resp with
  | nil => exact same
  | cons step later ih =>
      rw [List.foldl_cons, List.getLastD_cons]
      exact ih step _ rfl

/-- Is the record a CNAME with this owner? -/
def IsAliasOf (owner : Text) (record : DnsRecord) : Prop :=
  ∃ domain host ttl, record = .cname domain host ttl ∧ domain.eqIgnoreAsciiCase owner = true

theorem not_isAliasOf_of_extractCnameTarget {response : DnsPacket} {qname : Text}
    (noTarget : extractCnameTarget response qname = none) :
    ∀ record ∈ response.answers, ¬ IsAliasOf qname record := by
  rintro record recordMem ⟨domain, host, ttl, rfl, owned⟩
  have found := List.findSome?_eq_none_iff.mp noTarget _ recordMem
  simp [owned] at found

namespace Chase

theorem response_answers (chase : Chase) :
    chase.response.answers = chase.steps.flatMap fun step => step.response.answers := by
  rw [response, foldl_combineResponse_answers, steps, List.flatMap_cons]

theorem response_rescode (chase : Chase) :
    chase.response.header.rescode = chase.last.response.header.rescode :=
  foldl_combineResponse_rescode chase.first chase.first.response chase.later rfl

/-- The answer that a chain calls for. -/
structure Answers (chase : Chase) (query : DnsPacket) (qtype : QueryType)
    (response : DnsPacket) : Prop where
  stuck : chase.Stuck qtype → response.header.rescode = .servfail ∧ response.answers = []
  answers : ¬ chase.Stuck qtype →
    response.answers = chase.steps.flatMap fun step => step.response.answers
  rescode : ¬ chase.Stuck qtype →
    response.header.rescode = chase.last.response.header.rescode
  ended : response.header.rescode = .noerror →
    (∀ record ∈ response.answers, record.queryType ≠ qtype) →
      ∀ record ∈ response.answers, ¬ IsAliasOf chase.last.name record

theorem not_stuck_of_target_eq_none {chase : Chase} {qtype : QueryType}
    (ended : chase.target qtype = none) : ¬ chase.Stuck qtype := by
  rintro ⟨target, isTarget, -⟩
  rw [ended] at isTarget
  cases isTarget

theorem answers_response {chase : Chase} {query : DnsPacket} {qtype : QueryType}
    (ended : chase.target qtype = none) : chase.Answers query qtype chase.response where
  stuck := fun stuck => absurd stuck (not_stuck_of_target_eq_none ended)
  answers := fun _ => chase.response_answers
  rescode := fun _ => chase.response_rescode
  ended := by
    intro noError absent
    have noTarget : extractCnameTarget chase.response chase.last.name = none := by
      have untyped : chase.response.answers.any (fun record => record.queryType == qtype) =
          false := by
        simpa using absent
      rw [target, chaseTarget, untyped, noError] at ended
      exact ended
    exact not_isAliasOf_of_extractCnameTarget noTarget

theorem answers_servfail {chase : Chase} {query : DnsPacket} {qtype : QueryType}
    (stuck : chase.Stuck qtype) :
    chase.Answers query qtype (.responseFrom query .servfail) where
  stuck := fun _ => ⟨rfl, rfl⟩
  answers := fun notStuck => absurd stuck notStuck
  rescode := fun notStuck => absurd stuck notStuck
  ended := fun noError => by cases noError

end Chase

/-- The chase of any query comes to an end whatever its surroundings answer.  It
resolves at most as many names as allowed, none of them twice, and its answer is
what the chain calls for if and only if the sub-queries can be written. -/
theorem resolveWithCnameChase_answers_iff (ctx : PipelineCtx) (query : DnsPacket) (qname : Text)
    (qtype : QueryType) :
    (∀ answers : List QueryEvent → ∀ effect : QueryEffect, effect.Answer, ∃ trace result,
      (resolveWithCnameChase ctx query qname qtype).Runs trace result ∧
        ∀ early effect answer late, trace = early ++ ⟨effect, answer⟩ :: late →
          answer = answers early effect) ∧
    ∀ trace result, (resolveWithCnameChase ctx query qname qtype).Runs trace result →
      ∃ chase path status, Chase.Covers chase ctx query qname qtype trace path status ∧
        ((∃ response, result = some (response, path, status) ∧
          chase.Answers query qtype response) ↔ chase.TargetWritable ctx query qtype) := by
  refine ⟨fun answers => ?_, fun trace result ran => ?_⟩
  · exact Interaction.exists_runs answers _ []
  · obtain ⟨chase, path, status, covers, ends⟩ := exists_chase ran
    refine ⟨chase, path, status, covers, ?_⟩
    rcases ends with ⟨stuck, rfl⟩ | ⟨ended, rfl⟩ | ⟨unwritable, rfl⟩
    · exact ⟨fun _ target _ notStuck => absurd stuck notStuck,
        fun _ => ⟨_, rfl, Chase.answers_servfail stuck⟩⟩
    · refine ⟨fun _ target isTarget => ?_, fun _ => ⟨_, rfl, Chase.answers_response ended⟩⟩
      rw [ended] at isTarget
      cases isTarget
    · refine ⟨?_, fun writable => absurd writable unwritable⟩
      rintro ⟨response, isResponse, -⟩
      cases isResponse

/-! ## Two chains of overrides -/

/-- A forwarding server, with the test that `DnsPacket::write` makes. -/
def chaseCtx : PipelineCtx where
  writable packet := (BytePacketBuffer.exec packet.write .new).1.isOk
  rootHints := []
  forwardingRules := []
  upstreamMode := .forward
  dnssecEnabled := false
  dnssecStrict := false

/-- The answer of an override of a name by another one. -/
def aliasOverride (owner host : Text) : LocalAnswer where
  rescode := .noerror
  answers := [.cname owner host 60]
  path := .overridden
  trusted := rfl
  unsigned := by simp [DnsRecord.isRrsig]

/-- The answer of an override of a name by an address. -/
def addressOverride (owner : Text) : LocalAnswer where
  rescode := .noerror
  answers := [.a owner (.new 192 0 2 1) 60]
  path := .overridden
  trusted := rfl
  unsigned := by simp [DnsRecord.isRrsig]

def aliasQuery : DnsPacket :=
  .query 1 (text "a.test") .a

theorem runs_resolveOnce_fromLocal (ctx : PipelineCtx) (query : DnsPacket) (name : Text)
    (qtype : QueryType) (answer : LocalAnswer) :
    (resolveOnce ctx query name qtype).Runs [⟨.resolveLocal name qtype, some answer⟩]
      (answer.toResponse query, answer.path, .indeterminate) :=
  Interaction.runs_ask_iff.mpr ⟨some answer, [], .done _, rfl⟩

section Hop

variable {ctx : PipelineCtx} {query : DnsPacket} {qtype : QueryType} {left : Nat}
  {visited : List Text} {current target : Text} {resp : DnsPacket}

theorem runs_chaseLoop_of_ended (ended : chaseTarget qtype current resp = none) :
    (chaseLoop ctx query qtype left visited current resp).Runs [] (some resp) := by
  cases left with
  | zero =>
      rw [chaseLoop, ended]
      exact .done _
  | succ left =>
      rw [chaseLoop, ended]
      exact .done _

theorem runs_chaseLoop_of_unwritable (isTarget : chaseTarget qtype current resp = some target)
    (fresh : target.toLowercase ∉ visited)
    (unwritable : ctx.writable (.query query.header.id target qtype) = false) :
    (chaseLoop ctx query qtype (left + 1) visited current resp).Runs [] none := by
  rw [chaseLoop, isTarget]
  dsimp only
  rw [if_neg fresh, unwritable]
  exact .done _

theorem runs_chaseLoop_hop {early late : List QueryEvent} {result : Option DnsPacket}
    {sub : DnsPacket × QueryPath × DnssecStatus}
    (isTarget : chaseTarget qtype current resp = some target)
    (fresh : target.toLowercase ∉ visited)
    (writable : ctx.writable (.query query.header.id target qtype) = true)
    (resolved : (resolveOnce ctx (.query query.header.id target qtype) target qtype).Runs early sub)
    (rest : (chaseLoop ctx query qtype left (target.toLowercase :: visited) target
      (combineResponse resp sub.1)).Runs late result) :
    (chaseLoop ctx query qtype (left + 1) visited current resp).Runs (early ++ late) result := by
  rw [chaseLoop, isTarget]
  dsimp only
  rw [if_neg fresh, writable, if_neg (by simp)]
  exact Interaction.runs_bind_iff.mpr ⟨sub, early, late, resolved, rest, rfl⟩

theorem runs_resolveWithCnameChase {qname : Text} {early late : List QueryEvent}
    {first : DnsPacket × QueryPath × DnssecStatus} {result : Option DnsPacket}
    (resolved : (resolveOnce ctx query qname qtype).Runs early first)
    (loop : (chaseLoop ctx query qtype maxCnameDepth [qname.toLowercase] qname first.1).Runs late
      result) :
    (resolveWithCnameChase ctx query qname qtype).Runs (early ++ late)
      (result.map fun resp => (resp, first.2)) := by
  refine Interaction.runs_bind_iff.mpr ⟨first, early, late, resolved, ?_, rfl⟩
  refine Interaction.runs_bind_iff.mpr ⟨result, late, [], loop, ?_, (List.append_nil late).symm⟩
  cases result <;> exact .done _

end Hop

/-- The chase of an override by a name that is overridden itself. -/
def aliasResponse : DnsPacket :=
  combineResponse ((aliasOverride (text "a.test") (text "b.test")).toResponse aliasQuery)
    ((addressOverride (text "b.test")).toResponse (.query 1 (text "b.test") .a))

def aliasTrace : List QueryEvent :=
  [⟨.resolveLocal (text "a.test") .a, some (aliasOverride (text "a.test") (text "b.test"))⟩,
    ⟨.resolveLocal (text "b.test") .a, some (addressOverride (text "b.test"))⟩]

theorem runs_aliasQuery :
    (resolveWithCnameChase chaseCtx aliasQuery (text "a.test") .a).Runs aliasTrace
      (some (aliasResponse, .overridden, .indeterminate)) := by
  have target : chaseTarget .a (text "a.test")
      ((aliasOverride (text "a.test") (text "b.test")).toResponse aliasQuery) =
        some (text "b.test") := by
    decide +kernel
  have ended : chaseTarget .a (text "b.test") aliasResponse = none := by decide +kernel
  exact runs_resolveWithCnameChase (runs_resolveOnce_fromLocal _ _ _ _ _)
    (runs_chaseLoop_hop target (by decide +kernel) (by decide +kernel)
      (runs_resolveOnce_fromLocal _ _ _ _ (addressOverride (text "b.test")))
      (runs_chaseLoop_of_ended ended))

/-- The answer to an aliased address is the chain of both overrides. -/
theorem resolveWithCnameChase_answers_iff_aliasQuery :
    ∃ chase path status,
      Chase.Covers chase chaseCtx aliasQuery (text "a.test") .a aliasTrace path status ∧
        ((∃ response, some (aliasResponse, .overridden, .indeterminate) =
          some (response, path, status) ∧ chase.Answers aliasQuery .a response) ↔
            chase.TargetWritable chaseCtx aliasQuery .a) :=
  (resolveWithCnameChase_answers_iff chaseCtx aliasQuery (text "a.test") .a).2 _ _
    runs_aliasQuery

/-- A name with one label of 64 octets. -/
def longLabel : Text :=
  List.replicate 64 120

/-- The query for a name that is overridden by one with a label too long panics. -/
theorem longLabel_panics :
    (BytePacketBuffer.exec (DnsPacket.query 1 longLabel .a).write .new).1.isOk = false ∧
      (resolveWithCnameChase chaseCtx aliasQuery (text "a.test") .a).Runs
        [⟨.resolveLocal (text "a.test") .a, some (aliasOverride (text "a.test") longLabel)⟩]
        none := by
  have target : chaseTarget .a (text "a.test")
      ((aliasOverride (text "a.test") longLabel).toResponse aliasQuery) = some longLabel := by
    decide +kernel
  refine ⟨by decide +kernel, ?_⟩
  exact runs_resolveWithCnameChase (runs_resolveOnce_fromLocal _ _ _ _ _)
    (runs_chaseLoop_of_unwritable target (by decide +kernel) (by decide +kernel))

end Numa
