import Numa.Hedging
import Numa.SrttCache

/-!
# Failover between upstreams

`forward_with_failover_raw` with the round trip times it reads and records.  An
attempt takes its time, while other queries may change the SRTT cache.
-/

namespace Numa

namespace Upstream

def transport : Upstream → UpstreamTransport
  | udp _ => .udp
  | tcp _ => .tcp
  | doh _ => .doh
  | dot .. => .dot
  | odoh .. => .odoh

def trackedKey : Upstream → Option SrttKey
  | udp addr => some (addr.ip, .udp)
  | tcp addr => some (addr.ip, .tcp)
  | dot addr _ => some (addr.ip, .dot)
  | doh _ => none
  | odoh .. => none

end Upstream

namespace UpstreamPool

/-- The primaries by their positions, each with the SRTT that is read at a time of its own. -/
def candidates (pool : UpstreamPool) (srtt : SrttCache) (clock : Nat → Nat) : List (Nat × Nat) :=
  pool.primary.mapIdx fun i upstream =>
    (i, (upstream.trackedKey.map (srtt.get (clock i))).getD 0)

/-- `all_upstreams`. -/
def allUpstreams (pool : UpstreamPool) (candidates : List (Nat × Nat)) : List Upstream :=
  let sorted := candidates.mergeSort fun first second => first.2 ≤ second.2
  let hasFallback := !pool.fallback.isEmpty
  (sorted.filter fun candidate => !hasFallback || candidate.2 < primarySkipSrttMs).filterMap
      (fun candidate => pool.primary[candidate.1]?) ++
    pool.fallback

end UpstreamPool

inductive SrttRecord
  | rtt (key : SrttKey) (rttMs : Nat)
  | failure (key : SrttKey)
  deriving DecidableEq

def SrttRecord.apply (now : Nat) (srtt : SrttCache) : SrttRecord → SrttCache
  | rtt key rttMs => srtt.recordRtt now key rttMs
  | failure key => srtt.recordFailure now key

/-- How the futures of an attempt end. -/
structure TimedAttempt (ε ρ : Type) where
  startedAt : Nat
  events : List (HedgeEvent ε ρ)
  endedAt : Nat
  /-- What other queries record meanwhile. -/
  meanwhile : SrttCache → SrttCache

variable {ε ρ : Type}

namespace TimedAttempt

/-- Without a delay there is one future alone. -/
def result (hedgeDelay : Nat) (attempt : TimedAttempt ε ρ) : Option (Except ε ρ) :=
  if hedgeDelay ≠ 0 then
    match HedgeStage.run attempt.events with
    | some (.returned result) => some result
    | _ => none
  else
    match attempt.events with
    | [.primary result] => some result
    | _ => none

def rttMs (attempt : TimedAttempt ε ρ) : Nat :=
  (attempt.endedAt - attempt.startedAt) / 1000000 % 2 ^ 64

end TimedAttempt

inductive FailoverError (ε : Type)
  | attempt (error : ε)
  | noUpstreamConfigured

/-- What an observer has seen, and the SRTT cache. -/
structure FailoverLog where
  tried : List Upstream
  records : List SrttRecord
  srtt : SrttCache

/-- The SRTT cache after an attempt. -/
def recordAttempt (attempt : TimedAttempt ε ρ) (record : Option SrttRecord) (srtt : SrttCache) :
    SrttCache :=
  match record with
  | some record => record.apply attempt.endedAt (attempt.meanwhile srtt)
  | none => attempt.meanwhile srtt

/-- The loop over `all_upstreams`; `none` while an attempt has not ended. -/
def failoverLoop (hedgeDelay : Nat) : List Upstream → List (TimedAttempt ε ρ) → Option ε →
    SrttCache → Option (Except (FailoverError ε) ρ × FailoverLog)
  | [], _, lastErr, srtt =>
    some (.error (lastErr.elim .noUpstreamConfigured .attempt), ⟨[], [], srtt⟩)
  | _ :: _, [], _, _ => none
  | upstream :: upstreams, attempt :: attempts, _, srtt =>
    match attempt.result hedgeDelay with
    | none => none
    | some (.ok resp) =>
      let record := upstream.trackedKey.map fun key => .rtt key attempt.rttMs
      some (.ok resp, ⟨[upstream], record.toList, recordAttempt attempt record srtt⟩)
    | some (.error e) =>
      let record := upstream.trackedKey.map .failure
      match failoverLoop hedgeDelay upstreams attempts (some e)
          (recordAttempt attempt record srtt) with
      | none => none
      | some (result, log) =>
        some (result, ⟨upstream :: log.tried, record.toList ++ log.records, log.srtt⟩)

/-- `forward_with_failover_raw`. -/
def forwardWithFailover (pool : UpstreamPool) (srtt : SrttCache) (clock : Nat → Nat)
    (hedgeDelay : Nat) (attempts : List (TimedAttempt ε ρ)) :
    Option (Except (FailoverError ε) ρ × FailoverLog) :=
  failoverLoop hedgeDelay (pool.allUpstreams (pool.candidates srtt clock)) attempts none srtt

/-! ## The order of the candidates -/

/-- By the SRTT, and by the position where it is the same. -/
def ComesBefore (first second : Nat × Nat) : Prop :=
  first.2 < second.2 ∨ first.2 = second.2 ∧ first.1 < second.1

/-- Sorting keeps the elements in their order that may stand side by side. -/
theorem filter_mergeSort {α : Type} {le : α → α → Bool}
    (trans : ∀ first second third, le first second → le second third → le first third)
    (total : ∀ first second, le first second || le second first) (p : α → Bool) (items : List α)
    (tied : ∀ first second, p first → p second → le first second) :
    (items.mergeSort le).filter p = items.filter p := by
  have pairwise : (items.filter p).Pairwise fun first second => le first second := by
    apply List.pairwise_of_forall_mem_list
    intro first firstMem second secondMem
    exact tied first second (List.of_mem_filter firstMem) (List.of_mem_filter secondMem)
  have sublist : (items.filter p).Sublist (items.mergeSort le) :=
    List.sublist_mergeSort trans total pairwise List.filter_sublist
  have filtered : (items.filter p).Sublist ((items.mergeSort le).filter p) := by
    simpa using sublist.filter p
  apply (filtered.eq_of_length _).symm
  exact ((List.mergeSort_perm items le).filter p).length_eq.symm

theorem UpstreamPool.allUpstreams_eq (pool : UpstreamPool) (candidates : List (Nat × Nat)) :
    pool.allUpstreams candidates =
      ((candidates.mergeSort fun first second => first.2 ≤ second.2).filter fun candidate =>
          pool.fallback = [] ∨ candidate.2 < primarySkipSrttMs).filterMap
        (fun candidate => pool.primary[candidate.1]?) ++ pool.fallback := by
  rw [UpstreamPool.allUpstreams]
  congr 3
  funext candidate
  cases pool.fallback <;> simp

theorem UpstreamPool.length_allUpstreams_le (pool : UpstreamPool) (srtt : SrttCache)
    (clock : Nat → Nat) :
    (pool.allUpstreams (pool.candidates srtt clock)).length ≤
      pool.primary.length + pool.fallback.length := by
  rw [pool.allUpstreams_eq, List.length_append]
  apply Nat.add_le_add_right
  apply (List.length_filterMap_le _ _).trans
  apply (List.length_filter_le _ _).trans
  simp [candidates]

/-- Without a fallback no primary is left out. -/
theorem UpstreamPool.allUpstreams_eq_nil_iff {pool : UpstreamPool} {srtt : SrttCache}
    {clock : Nat → Nat} :
    pool.allUpstreams (pool.candidates srtt clock) = [] ↔
      pool.primary = [] ∧ pool.fallback = [] := by
  constructor
  · intro isNil
    rw [pool.allUpstreams_eq, List.append_eq_nil_iff] at isNil
    obtain ⟨kept, noFallback⟩ := isNil
    refine ⟨?_, noFallback⟩
    by_contra hasPrimary
    have positive : 0 < (pool.candidates srtt clock).length := by
      simpa [candidates] using List.length_pos_iff.mpr hasPrimary
    have first := List.getElem_mem positive
    rw [List.filterMap_eq_nil_iff] at kept
    have notFound := kept _ (List.mem_filter.mpr ⟨List.mem_mergeSort.mpr first, by simp [noFallback]⟩)
    simp [candidates, hasPrimary] at notFound
  · rintro ⟨noPrimary, noFallback⟩
    simp [pool.allUpstreams_eq, candidates, noPrimary, noFallback]

section Order

variable (pool : UpstreamPool) (srtt : SrttCache) (clock : Nat → Nat)

theorem pairwise_candidates :
    (pool.candidates srtt clock).Pairwise fun first second => first.1 < second.1 := by
  rw [UpstreamPool.candidates, List.pairwise_iff_getElem]
  intro first second firstLt secondLt isLess
  simpa using isLess

/-- A stable sort. -/
theorem pairwise_comesBefore_mergeSort {candidates : List (Nat × Nat)}
    (inOrder : candidates.Pairwise fun first second => first.1 < second.1) :
    (candidates.mergeSort fun first second => first.2 ≤ second.2).Pairwise ComesBefore := by
  have trans : ∀ first second third : Nat × Nat, decide (first.2 ≤ second.2) →
      decide (second.2 ≤ third.2) → decide (first.2 ≤ third.2) := by
    simp only [decide_eq_true_eq]
    exact fun _ _ _ => le_trans
  have total : ∀ first second : Nat × Nat,
      decide (first.2 ≤ second.2) || decide (second.2 ≤ first.2) := by
    simp only [Bool.or_eq_true, decide_eq_true_eq]
    exact fun first second => le_total first.2 second.2
  rw [List.pairwise_iff_forall_sublist]
  intro first second sublist
  have sorted := List.pairwise_iff_forall_sublist.mp
    (List.pairwise_mergeSort trans total candidates) sublist
  rcases (of_decide_eq_true sorted).lt_or_eq with less | same
  · exact .inl less
  · right
    refine ⟨same, ?_⟩
    have kept := filter_mergeSort trans total (fun candidate => candidate.2 = first.2) candidates
      (by simp +contextual)
    have filtered := sublist.filter fun candidate => candidate.2 = first.2
    rw [kept] at filtered
    apply List.pairwise_iff_forall_sublist.mp inOrder
    simpa [same] using filtered.trans List.filter_sublist

end Order

/-! ## The loop -/

/-- What an attempt has come to, by its number. -/
def attemptResult (hedgeDelay : Nat) (attempts : List (TimedAttempt ε ρ)) (i : Nat) :
    Option (Except ε ρ) :=
  attempts[i]?.bind (TimedAttempt.result hedgeDelay)

/-- The record of an attempt with a tracked upstream. -/
def recordOf (hedgeDelay : Nat) (upstream : Upstream) (attempt : TimedAttempt ε ρ) :
    Option SrttRecord :=
  upstream.trackedKey.map fun key =>
    match attempt.result hedgeDelay with
    | some (.ok _) => .rtt key attempt.rttMs
    | _ => .failure key

/-- What the loop does with some upstreams. -/
structure Tries (hedgeDelay : Nat) (upstreams : List Upstream) (attempts : List (TimedAttempt ε ρ))
    (lastErr : Option ε) (result : Except (FailoverError ε) ρ) (log : FailoverLog) : Prop where
  tried : log.tried <+: upstreams
  records : log.records =
    (log.tried.zip attempts).filterMap fun (upstream, attempt) =>
      recordOf hedgeDelay upstream attempt
  succeeds : ∀ resp, result = .ok resp → ∃ last, log.tried.length = last + 1 ∧
    attemptResult hedgeDelay attempts last = some (.ok resp) ∧
    ∀ i < last, ∃ e, attemptResult hedgeDelay attempts i = some (.error e)
  fails : ∀ error, result = .error error → log.tried = upstreams ∧
    (∀ i < upstreams.length, ∃ e, attemptResult hedgeDelay attempts i = some (.error e)) ∧
    (error = .noUpstreamConfigured ↔ upstreams = [] ∧ lastErr = none)

section Loop

variable {hedgeDelay : Nat} {upstream : Upstream} {upstreams : List Upstream}
  {attempt : TimedAttempt ε ρ} {attempts : List (TimedAttempt ε ρ)} {lastErr : Option ε}

theorem tries_nil (srtt : SrttCache) :
    Tries hedgeDelay [] attempts lastErr
      (.error (lastErr.elim .noUpstreamConfigured .attempt)) ⟨[], [], srtt⟩ where
  tried := List.prefix_rfl
  records := rfl
  succeeds _ isOk := by cases isOk
  fails error isError := by
    cases isError
    refine ⟨rfl, fun i less => absurd less (Nat.not_lt_zero i), ?_⟩
    cases lastErr <;> simp

theorem tries_ok {resp : ρ} (isOk : attempt.result hedgeDelay = some (.ok resp))
    (srtt : SrttCache) :
    Tries hedgeDelay (upstream :: upstreams) (attempt :: attempts) lastErr (.ok resp)
      ⟨[upstream], (recordOf hedgeDelay upstream attempt).toList, srtt⟩ where
  tried := by simp
  records := by
    cases isRecord : recordOf hedgeDelay upstream attempt <;> simp [isRecord]
  succeeds other same := by
    cases same
    exact ⟨0, rfl, isOk, fun i less => absurd less (Nat.not_lt_zero i)⟩
  fails _ isError := by cases isError

/-- After a failure the loop goes on. -/
theorem Tries.cons {e : ε} {result : Except (FailoverError ε) ρ} {log : FailoverLog}
    (tries : Tries hedgeDelay upstreams attempts (some e) result log)
    (failed : attempt.result hedgeDelay = some (.error e)) :
    Tries hedgeDelay (upstream :: upstreams) (attempt :: attempts) lastErr result
      ⟨upstream :: log.tried, (recordOf hedgeDelay upstream attempt).toList ++ log.records,
        log.srtt⟩ where
  tried := by simpa using tries.tried
  records := by
    rw [tries.records]
    cases isRecord : recordOf hedgeDelay upstream attempt <;> simp [isRecord]
  succeeds resp isOk := by
    obtain ⟨last, isLast, succeeded, earlier⟩ := tries.succeeds resp isOk
    refine ⟨last + 1, by simp [isLast], succeeded, ?_⟩
    intro i less
    cases i with
    | zero => exact ⟨e, failed⟩
    | succ i => exact earlier i (Nat.lt_of_succ_lt_succ less)
  fails error isError := by
    obtain ⟨all, earlier, isNone⟩ := tries.fails error isError
    refine ⟨by simp [all], ?_, ?_⟩
    · intro i less
      cases i with
      | zero => exact ⟨e, failed⟩
      | succ i => exact earlier i (Nat.lt_of_succ_lt_succ less)
    · simpa using isNone

/-- The whole loop. -/
theorem tries_of_failoverLoop {srtt : SrttCache} {result : Except (FailoverError ε) ρ}
    {log : FailoverLog}
    (returns : failoverLoop hedgeDelay upstreams attempts lastErr srtt = some (result, log)) :
    Tries hedgeDelay upstreams attempts lastErr result log := by
  induction upstreams generalizing attempts lastErr srtt result log with
  | nil =>
      cases returns
      exact tries_nil srtt
  | cons upstream upstreams ih =>
      cases attempts with
      | nil => cases returns
      | cons attempt attempts =>
          simp only [failoverLoop] at returns
          split at returns
          · cases returns
          · rename_i resp isOk
            cases returns
            have isRecord : upstream.trackedKey.map (fun key => .rtt key attempt.rttMs) =
                recordOf hedgeDelay upstream attempt := by
              simp only [recordOf, isOk]
            rw [isRecord]
            exact tries_ok isOk _
          · rename_i e failed
            have isRecord : upstream.trackedKey.map .failure =
                recordOf hedgeDelay upstream attempt := by
              simp only [recordOf, failed]
            split at returns
            · cases returns
            · rename_i later laterLog rest
              cases returns
              rw [isRecord]
              exact (ih rest).cons failed

/-- The loop returns when the attempts end. -/
theorem exists_failoverLoop
    (ends : ∀ i < upstreams.length, (attemptResult hedgeDelay attempts i).isSome)
    (srtt : SrttCache) :
    ∃ result log, failoverLoop hedgeDelay upstreams attempts lastErr srtt = some (result, log) := by
  induction upstreams generalizing attempts lastErr srtt with
  | nil => exact ⟨_, _, rfl⟩
  | cons upstream upstreams ih =>
      cases attempts with
      | nil => simpa [attemptResult] using ends 0
      | cons attempt attempts =>
          obtain ⟨first, isFirst⟩ := Option.isSome_iff_exists.mp (ends 0 (Nat.succ_pos _))
          have isResult : attempt.result hedgeDelay = some first := isFirst
          cases first with
          | ok resp =>
              simp only [failoverLoop, isResult]
              exact ⟨_, _, rfl⟩
          | error e =>
              have later : ∀ i < upstreams.length, (attemptResult hedgeDelay attempts i).isSome :=
                fun i less => ends (i + 1) (Nat.succ_lt_succ less)
              obtain ⟨result, log, rest⟩ : ∃ result log,
                  failoverLoop hedgeDelay upstreams attempts (some e)
                    (recordAttempt attempt (upstream.trackedKey.map .failure) srtt) =
                    some (result, log) :=
                ih later _
              simp only [failoverLoop, isResult, rest]
              exact ⟨_, _, rfl⟩

end Loop

/-! ## The results alone -/

section Results

variable {odoh : OdohCrypto} {wire : List UInt8}

/-- The reads of the SRTT cache agree on some round trip times. -/
def UpstreamPool.Reads (pool : UpstreamPool) (candidates : List (Nat × Nat))
    (rtt : Upstream → Nat) : Prop :=
  candidates = pool.primary.mapIdx fun i upstream => (i, rtt upstream)

theorem UpstreamPool.Reads.exists_upstream {pool : UpstreamPool} {candidates : List (Nat × Nat)}
    {rtt : Upstream → Nat} (reads : pool.Reads candidates rtt) {candidate : Nat × Nat}
    (mem : candidate ∈ candidates) :
    ∃ upstream, pool.primary[candidate.1]? = some upstream ∧ candidate.2 = rtt upstream := by
  rw [reads] at mem
  obtain ⟨i, less, rfl⟩ := List.mem_mapIdx.mp mem
  exact ⟨pool.primary[i], List.getElem?_eq_getElem less, rfl⟩

/-- Then the upstreams are tried in the order of those times. -/
theorem UpstreamPool.Reads.allUpstreams_eq {pool : UpstreamPool} {candidates : List (Nat × Nat)}
    {rtt : Upstream → Nat} (reads : pool.Reads candidates rtt) :
    pool.allUpstreams candidates = pool.tried rtt := by
  have named : candidates.map (fun candidate => pool.primary[candidate.1]?) =
      pool.primary.map some := by
    rw [reads]
    apply List.ext_getElem
    · simp
    · intro i _ less
      simp
  have sorted : (candidates.mergeSort fun first second => first.2 ≤ second.2).map
        (fun candidate => pool.primary[candidate.1]?) =
      (pool.primary.mergeSort fun first second => rtt first ≤ rtt second).map some := by
    let within : Option Upstream → Option Upstream → Bool := fun first second =>
      (first.map rtt).getD 0 ≤ (second.map rtt).getD 0
    have byCandidate := List.map_mergeSort (s := within) (l := candidates)
      (f := fun candidate => pool.primary[candidate.1]?)
      (r := fun first second => first.2 ≤ second.2) (by
        intro first firstMem second secondMem
        obtain ⟨_, isFirst, firstRtt⟩ := reads.exists_upstream firstMem
        obtain ⟨_, isSecond, secondRtt⟩ := reads.exists_upstream secondMem
        simp [within, isFirst, isSecond, firstRtt, secondRtt])
    have byUpstream := List.map_mergeSort (s := within) (l := pool.primary) (f := some)
      (r := fun first second => rtt first ≤ rtt second) (by simp [within])
    rw [byCandidate, byUpstream, named]
  have names : (candidates.mergeSort fun first second => first.2 ≤ second.2).filterMap
        (fun candidate => pool.primary[candidate.1]?) =
      pool.primary.mergeSort fun first second => rtt first ≤ rtt second := by
    have flattened := congrArg (List.filterMap id) sorted
    simpa [List.filterMap_map, Function.comp_def] using flattened
  rw [UpstreamPool.allUpstreams, UpstreamPool.tried, ← names, List.filter_filterMap,
    List.filterMap_filter]
  congr 1
  apply List.filterMap_congr
  intro candidate mem
  obtain ⟨upstream, isUpstream, isRtt⟩ := reads.exists_upstream (List.mem_mergeSort.mp mem)
  simp [isUpstream, isRtt, Option.filter]

/-- The loop on results is what is left of the loop when times and records are left out. -/
theorem tryUpstreams_of_failoverLoop {hedgeDelay : Nat} {upstreams : List Upstream}
    {attempts : List (TimedAttempt Unit (List UInt8))} {courses : List Attempt}
    {lastErr : Option Unit} {srtt : SrttCache}
    {result : Except (FailoverError Unit) (List UInt8)} {log : FailoverLog}
    (agree : ∀ (i : Nat) (upstream : Upstream) (attempt : TimedAttempt Unit (List UInt8)),
      upstreams[i]? = some upstream → attempts[i]? = some attempt →
        ∃ course : Attempt, courses[i]? = some course ∧
          attempt.result hedgeDelay = some (course.result odoh wire upstream))
    (returns : failoverLoop hedgeDelay upstreams attempts lastErr srtt = some (result, log)) :
    tryUpstreams odoh wire upstreams courses = result.mapError fun _ => () := by
  induction upstreams generalizing attempts courses lastErr srtt result log with
  | nil =>
      cases returns
      rfl
  | cons upstream upstreams ih =>
      cases attempts with
      | nil => cases returns
      | cons attempt attempts =>
          obtain ⟨course, isCourse, isResult⟩ := agree 0 upstream attempt rfl rfl
          cases courses with
          | nil => cases isCourse
          | cons first courses =>
              cases isCourse
              simp only [failoverLoop, isResult] at returns
              simp only [tryUpstreams]
              split at returns
              · cases returns
              · rename_i resp isOk
                cases returns
                rw [Option.some.inj isOk]
                rfl
              · rename_i e failed
                rw [Option.some.inj failed]
                split at returns
                · cases returns
                · rename_i others laterLog rest
                  cases returns
                  exact ih (fun i => agree (i + 1)) rest

end Results

/-- A server that is tried without a fallback. -/
def onlyResolver : UpstreamPool where
  primary := [.udp (.v4 (.new 192 0 2 99) 53)]
  fallback := []

/-- Both futures fail, the hedge before the primary. -/
def bothFail : List (TimedAttempt Unit Nat) :=
  [⟨0, [.delay, .secondary (.error ()), .primary (.error ())], 7, id⟩]

end Numa
