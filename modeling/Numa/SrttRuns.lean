import Numa.NestedMap
import Numa.SrttCache

/-!
# Runs of the round trip times

What a store holds after any operations at times that do not go backwards: its
size, which keys a recording leaves alone, between which samples the values
stay, and how they decay.  A hash map lists its entries in any order, so every
operation may find them rearranged.
-/

namespace Numa

inductive SrttOperation
  | recordRtt (key : SrttKey) (rttMs : Nat)
  | recordFailure (key : SrttKey)
  | get (key : SrttKey)
  deriving DecidableEq

structure SrttEvent where
  time : Nat
  operation : SrttOperation
  deriving DecidableEq

/-- What an operation records for a key. -/
def SrttOperation.sample (key : SrttKey) : SrttOperation → Option Nat
  | recordRtt other rttMs => if other = key then some rttMs else none
  | recordFailure other => if other = key then some SrttCache.failurePenaltyMs else none
  | get _ => none

/-- The values that bound the round trip times of a key. -/
def observed (events : List SrttEvent) (key : SrttKey) : List Nat :=
  SrttCache.initialSrttMs :: events.filterMap (·.operation.sample key)

namespace SrttCache

def perform (cache : SrttCache) (event : SrttEvent) : SrttCache :=
  match event.operation with
  | .recordRtt key rttMs => cache.recordRtt event.time key rttMs
  | .recordFailure key => cache.recordFailure event.time key
  | .get _ => cache

/-- The same store with its entries in another order. -/
structure Arranges (cache arranged : SrttCache) : Prop where
  enabled : arranged.enabled = cache.enabled
  perm : arranged.entries.entries.Perm cache.entries.entries

/-- An operation on a store, whose entries are found in any order. -/
def Steps (cache : SrttCache) (event : SrttEvent) (next : SrttCache) : Prop :=
  ∃ arranged, cache.Arranges arranged ∧ next = arranged.perform event

/-- The stores that an enabled one becomes, with the operations so far. -/
inductive Run : List SrttEvent → SrttCache → Prop
  | new : Run [] (new true)
  | step {events : List SrttEvent} {cache next : SrttCache} {event : SrttEvent}
      (run : Run events cache) (inOrder : ∀ earlier ∈ events, earlier.time ≤ event.time)
      (steps : cache.Steps event next) : Run (events ++ [event]) next

/-! ## Values -/

/-- A value between the least and the greatest of some others. -/
def Within (values : List Nat) (value : Nat) : Prop :=
  (∃ low ∈ values, low ≤ value) ∧ ∃ high ∈ values, value ≤ high

theorem within_of_mem {values : List Nat} {value : Nat} (mem : value ∈ values) :
    Within values value :=
  ⟨⟨value, mem, le_rfl⟩, value, mem, le_rfl⟩

theorem Within.mono {values others : List Nat} {value : Nat} (within : Within values value)
    (subset : values ⊆ others) : Within others value := by
  obtain ⟨⟨low, lowMem, lowLe⟩, high, highMem, leHigh⟩ := within
  exact ⟨⟨low, subset lowMem, lowLe⟩, high, subset highMem, leHigh⟩

theorem Within.between {values : List Nat} {first second value : Nat}
    (withinFirst : Within values first) (withinSecond : Within values second)
    (low : min first second ≤ value) (high : value ≤ max first second) : Within values value := by
  obtain ⟨⟨lowFirst, lowFirstMem, lowFirstLe⟩, highFirst, highFirstMem, leHighFirst⟩ := withinFirst
  obtain ⟨⟨lowSecond, lowSecondMem, lowSecondLe⟩, highSecond, highSecondMem, leHighSecond⟩ :=
    withinSecond
  constructor
  · rcases le_total first second with le | le
    · exact ⟨lowFirst, lowFirstMem, by omega⟩
    · exact ⟨lowSecond, lowSecondMem, by omega⟩
  · rcases le_total first second with le | le
    · exact ⟨highSecond, highSecondMem, by omega⟩
    · exact ⟨highFirst, highFirstMem, by omega⟩

/-- A value no farther from the initial one than another, on the same side. -/
def Toward (srttMs later : Nat) : Prop :=
  (srttMs ≤ later ∧ later ≤ initialSrttMs) ∨ (initialSrttMs ≤ later ∧ later ≤ srttMs)

theorem toward_refl (srttMs : Nat) : Toward srttMs srttMs := by
  rcases le_total srttMs initialSrttMs with le | le
  · exact .inl ⟨le_rfl, le⟩
  · exact .inr ⟨le, le_rfl⟩

theorem Toward.trans {first second third : Nat} (toward : Toward first second)
    (next : Toward second third) : Toward first third := by
  unfold Toward at *
  omega

theorem Within.toward {values : List Nat} {srttMs later : Nat} (within : Within values srttMs)
    (initial : initialSrttMs ∈ values) (toward : Toward srttMs later) : Within values later := by
  refine within.between (within_of_mem initial) ?_ ?_ <;>
  · rcases toward with ⟨_, _⟩ | ⟨_, _⟩ <;> omega

/-! ## Decay -/

/-- One period of decay. -/
def halve (srttMs : Nat) : Nat :=
  (srttMs + initialSrttMs) / 2

theorem decayForAge_eq (srttMs ageSecs : Nat) :
    decayForAge srttMs ageSecs =
      if decayAfterSecs < ageSecs then halve^[min (ageSecs / decayAfterSecs) 8] srttMs
      else srttMs :=
  rfl

theorem toward_halve (srttMs : Nat) : Toward srttMs (halve srttMs) := by
  unfold Toward halve
  omega

theorem toward_iterate_halve (srttMs : Nat) {fewer more : Nat} (le : fewer ≤ more) :
    Toward (halve^[fewer] srttMs) (halve^[more] srttMs) := by
  induction more, le using Nat.le_induction with
  | base => exact toward_refl _
  | succ more _ ih =>
      rw [Function.iterate_succ_apply']
      exact ih.trans (toward_halve _)

theorem toward_decayForAge (srttMs : Nat) {younger older : Nat} (le : younger ≤ older) :
    Toward (decayForAge srttMs younger) (decayForAge srttMs older) := by
  rw [decayForAge_eq, decayForAge_eq]
  split
  · rw [if_pos (by omega)]
    have periods : younger / decayAfterSecs ≤ older / decayAfterSecs := Nat.div_le_div_right le
    exact toward_iterate_halve srttMs (by omega)
  · split
    · exact toward_iterate_halve srttMs (Nat.zero_le _)
    · exact toward_refl srttMs

theorem toward_decayedSrtt (entry : SrttEntry) {earlier later : Nat} (le : earlier ≤ later) :
    Toward (decayedSrtt earlier entry) (decayedSrtt later entry) :=
  toward_decayForAge entry.srttMs (Nat.div_le_div_right (Nat.sub_le_sub_right le _))

theorem toward_decayedSrtt_self (entry : SrttEntry) (now : Nat) :
    Toward entry.srttMs (decayedSrtt now entry) :=
  toward_decayForAge entry.srttMs (Nat.zero_le _)

theorem toward_get (cache : SrttCache) (key : SrttKey) {earlier later : Nat}
    (le : earlier ≤ later) : Toward (cache.get earlier key) (cache.get later key) := by
  unfold get
  cases cache.entries.lookup key with
  | none => exact toward_refl _
  | some entry => exact toward_decayedSrtt entry le

/-- A failure that is old enough no longer trips the breaker. -/
theorem decayForAge_failurePenaltyMs_lt {ageSecs : Nat} (old : decayAfterSecs < ageSecs) :
    decayForAge failurePenaltyMs ageSecs < primarySkipSrttMs := by
  have toward := toward_decayForAge failurePenaltyMs
    (Nat.succ_le_of_lt old)
  have once : decayForAge failurePenaltyMs (decayAfterSecs + 1) = 2600 := by decide
  rw [Nat.succ_eq_add_one, once] at toward
  unfold Toward initialSrttMs at toward
  unfold primarySkipSrttMs
  omega

/-! ## Eviction -/

/-- What a recording removes first: nothing below the limit, and the least
recently updated keys of a full store. -/
structure Evicts (cache : SrttCache) (evicted : List SrttKey) : Prop where
  below : cache.entries.entries.length < maxEntries → evicted = []
  full : maxEntries ≤ cache.entries.entries.length → evicted.length = evictBatch
  nodup : evicted.Nodup
  present : ∀ key ∈ evicted, key ∈ cache.entries
  oldest : ∀ key ∈ evicted, ∀ entry ∈ cache.entries.lookup key, ∀ other, other ∉ evicted →
    ∀ kept ∈ cache.entries.lookup other, entry.updatedAt ≤ kept.updatedAt

theorem lookup_foldl_erase (removed : List (Sigma fun _ : SrttKey => SrttEntry))
    (entries : AList fun _ : SrttKey => SrttEntry) (key : SrttKey) :
    (removed.foldl (fun entries entry => entries.erase entry.1) entries).lookup key =
      if key ∈ removed.map (·.1) then none else entries.lookup key := by
  induction removed generalizing entries with
  | nil => simp
  | cons entry removed ih =>
      rw [List.foldl_cons, ih, List.map_cons]
      by_cases same : key = entry.1
      · rw [same, AList.lookup_erase, ite_self, if_pos List.mem_cons_self]
      · rw [AList.lookup_erase_ne same]
        refine if_congr ?_ rfl rfl
        rw [List.mem_cons, or_iff_right same]

theorem length_foldl_erase {removed : List (Sigma fun _ : SrttKey => SrttEntry)}
    {entries : AList fun _ : SrttKey => SrttEntry} (nodup : (removed.map (·.1)).Nodup)
    (present : ∀ entry ∈ removed, entry.1 ∈ entries) :
    (removed.foldl (fun entries entry => entries.erase entry.1) entries).entries.length +
      removed.length = entries.entries.length := by
  induction removed generalizing entries with
  | nil => rfl
  | cons entry removed ih =>
      rw [List.map_cons, List.nodup_cons] at nodup
      have rest : ∀ other ∈ removed, other.1 ∈ entries.erase entry.1 := by
        intro other otherMem
        refine AList.mem_erase.mpr ⟨fun same => nodup.1 ?_, present other (by simp [otherMem])⟩
        exact List.mem_map.mpr ⟨other, otherMem, same⟩
      have one := length_erase (present entry (by simp))
      rw [List.foldl_cons, List.length_cons]
      have others := ih nodup.2 rest
      omega

/-- The order of eviction. -/
def updatedBefore (first second : Sigma fun _ : SrttKey => SrttEntry) : Bool :=
  first.2.updatedAt ≤ second.2.updatedAt

/-- The entries that a full store loses. -/
def oldestEntries (cache : SrttCache) : List (Sigma fun _ : SrttKey => SrttEntry) :=
  (cache.entries.entries.mergeSort updatedBefore).take evictBatch

theorem maybeEvict_eq (cache : SrttCache) :
    cache.maybeEvict =
      if cache.entries.entries.length < maxEntries then cache
      else ⟨cache.oldestEntries.foldl (fun entries entry => entries.erase entry.1) cache.entries,
        cache.enabled⟩ :=
  rfl

theorem mem_of_mem_oldestEntries {cache : SrttCache} {entry : Sigma fun _ : SrttKey => SrttEntry}
    (mem : entry ∈ cache.oldestEntries) : entry ∈ cache.entries.entries :=
  List.mem_mergeSort.mp (List.mem_of_mem_take mem)

theorem nodup_oldestEntries (cache : SrttCache) : (cache.oldestEntries.map (·.1)).Nodup := by
  have sublist : (cache.oldestEntries.map (·.1)).Sublist
      ((cache.entries.entries.mergeSort updatedBefore).map (·.1)) :=
    (List.take_sublist _ _).map _
  refine sublist.nodup (((List.mergeSort_perm _ _).map _).nodup_iff.mpr ?_)
  exact cache.entries.nodupKeys

theorem updatedAt_le_of_mem_oldestEntries {cache : SrttCache}
    {entry kept : Sigma fun _ : SrttKey => SrttEntry} (mem : entry ∈ cache.oldestEntries)
    (keptMem : kept ∈ cache.entries.entries) (notMem : kept ∉ cache.oldestEntries) :
    entry.2.updatedAt ≤ kept.2.updatedAt := by
  have sorted : (cache.entries.entries.mergeSort updatedBefore).Pairwise
      fun first second => updatedBefore first second = true := by
    refine List.pairwise_mergeSort (fun first second third => ?_) (fun first second => ?_) _
    · simp only [updatedBefore, decide_eq_true_eq]
      omega
    · simp only [updatedBefore, Bool.or_eq_true, decide_eq_true_eq]
      omega
  have keptSorted : kept ∈ cache.entries.entries.mergeSort updatedBefore :=
    List.mem_mergeSort.mpr keptMem
  rw [← List.take_append_drop evictBatch (List.mergeSort _ _)] at sorted keptSorted
  have later := (List.mem_append.mp keptSorted).resolve_left notMem
  simpa [updatedBefore] using (List.pairwise_append.mp sorted).2.2 entry mem kept later

theorem length_oldestEntries {cache : SrttCache}
    (full : maxEntries ≤ cache.entries.entries.length) :
    cache.oldestEntries.length = evictBatch := by
  have enough : evictBatch ≤ maxEntries := by decide
  rw [oldestEntries, List.length_take, List.length_mergeSort]
  omega

theorem evicts_oldestEntries {cache : SrttCache}
    (full : maxEntries ≤ cache.entries.entries.length) :
    cache.Evicts (cache.oldestEntries.map (·.1)) where
  below := fun below => absurd below (by omega)
  full := fun _ => by rw [List.length_map, length_oldestEntries full]
  nodup := cache.nodup_oldestEntries
  present := by
    intro key mem
    obtain ⟨entry, entryMem, rfl⟩ := List.mem_map.mp mem
    exact AList.mem_keys.mpr (List.mem_keys_of_mem (mem_of_mem_oldestEntries entryMem))
  oldest := by
    intro key mem entry found other notMem kept keptFound
    obtain ⟨oldest, oldestMem, rfl⟩ := List.mem_map.mp mem
    have same : entry = oldest.2 := by
      have inStore : oldest.2 ∈ cache.entries.lookup oldest.1 :=
        AList.mem_lookup_iff.mpr (mem_of_mem_oldestEntries oldestMem)
      exact Option.mem_unique found inStore
    rw [same]
    refine updatedAt_le_of_mem_oldestEntries oldestMem (AList.mem_lookup_iff.mp keptFound) ?_
    exact fun keptMem => notMem (List.mem_map_of_mem keptMem)

/-- Eviction leaves the keys that it does not remove alone, and leaves room. -/
theorem maybeEvict_spec (cache : SrttCache) :
    ∃ evicted, cache.Evicts evicted ∧
      (∀ key, cache.maybeEvict.entries.lookup key =
        if key ∈ evicted then none else cache.entries.lookup key) ∧
      cache.maybeEvict.entries.entries.length + evicted.length = cache.entries.entries.length := by
  rw [maybeEvict_eq]
  split
  · rename_i below
    exact ⟨[], ⟨fun _ => rfl, fun full => absurd below (by omega), List.nodup_nil, by simp, by simp⟩,
      by simp, rfl⟩
  · rename_i full
    refine ⟨_, evicts_oldestEntries (by omega), lookup_foldl_erase _ _, ?_⟩
    rw [List.length_map]
    refine length_foldl_erase cache.nodup_oldestEntries fun entry mem => ?_
    exact AList.mem_keys.mpr (List.mem_keys_of_mem (mem_of_mem_oldestEntries mem))

theorem Arranges.lookup {cache arranged : SrttCache} (arranges : cache.Arranges arranged)
    (key : SrttKey) : arranged.entries.lookup key = cache.entries.lookup key :=
  AList.perm_lookup arranges.perm

theorem Evicts.of_arranges {cache arranged : SrttCache} {evicted : List SrttKey}
    (evicts : arranged.Evicts evicted) (arranges : cache.Arranges arranged) :
    cache.Evicts evicted where
  below := fun below => evicts.below (by rwa [arranges.perm.length_eq])
  full := fun full => evicts.full (by rwa [arranges.perm.length_eq])
  nodup := evicts.nodup
  present := fun key mem => (AList.mem_of_perm arranges.perm).mp (evicts.present key mem)
  oldest := by
    intro key mem entry found other notMem kept keptFound
    rw [← arranges.lookup] at found keptFound
    exact evicts.oldest key mem entry found other notMem kept keptFound

/-! ## Steps -/

/-- What a recording leaves: the entry for its key, and of the others those
that are not evicted. -/
structure Records (cache : SrttCache) (key : SrttKey) (entry : SrttEntry) (next : SrttCache) :
    Prop where
  recorded : next.entries.lookup key = some entry
  others : ∃ evicted, cache.Evicts evicted ∧ ∀ other, other ≠ key →
    next.entries.lookup other =
      if other ∈ evicted then none else cache.entries.lookup other
  size : cache.entries.entries.length ≤ maxEntries → next.entries.entries.length ≤ maxEntries

theorem records_insert {cache arranged : SrttCache} (arranges : cache.Arranges arranged)
    (key : SrttKey) (entry : SrttEntry) :
    cache.Records key entry
      { arranged.maybeEvict with entries := arranged.maybeEvict.entries.insert key entry } := by
  obtain ⟨evicted, evicts, lookup, length⟩ := arranged.maybeEvict_spec
  refine ⟨AList.lookup_insert _, ⟨evicted, evicts.of_arranges arranges, ?_⟩, fun size => ?_⟩
  · intro other ne
    rw [← arranges.lookup, ← lookup other]
    exact AList.lookup_insert_ne ne
  · rw [← arranges.perm.length_eq] at size
    have room : arranged.maybeEvict.entries.entries.length + 1 ≤ maxEntries := by
      rcases lt_or_ge arranged.entries.entries.length maxEntries with below | full
      · omega
      · have batch := evicts.full full
        unfold evictBatch at batch
        omega
    dsimp only
    rw [length_insert]
    split <;> omega

/-- The value that a sample is averaged with: the decayed one of the key, or
the sample itself. -/
def Base (cache : SrttCache) (now : Nat) (key : SrttKey) (rttMs base : Nat) : Prop :=
  base = rttMs ∨ ∃ entry ∈ cache.entries.lookup key, base = decayedSrtt now entry

theorem base_maybeEvict {cache arranged : SrttCache} (arranges : cache.Arranges arranged)
    (now : Nat) (key : SrttKey) (rttMs : Nat) :
    cache.Base now key rttMs
      (decayedSrtt now ((arranged.maybeEvict.entries.lookup key).getD ⟨rttMs, now⟩)) := by
  obtain ⟨evicted, -, lookup, -⟩ := arranged.maybeEvict_spec
  have fresh : decayedSrtt now ⟨rttMs, now⟩ = rttMs := by simp [decayedSrtt, decayForAge]
  rw [lookup key, arranges.lookup]
  split
  · exact .inl fresh
  · cases found : cache.entries.lookup key with
    | none => exact .inl fresh
    | some entry => exact .inr ⟨entry, found, rfl⟩

/-- What an operation does to an enabled store. -/
def Obeys (cache : SrttCache) (event : SrttEvent) (next : SrttCache) : Prop :=
  match event.operation with
  | .recordRtt key rttMs => ∃ base, cache.Base event.time key rttMs base ∧
      cache.Records key ⟨(base * 7 + rttMs) / 8, event.time⟩ next
  | .recordFailure key => cache.Records key ⟨failurePenaltyMs, event.time⟩ next
  | .get _ => cache.Arranges next

theorem Steps.obeys {cache next : SrttCache} {event : SrttEvent} (steps : cache.Steps event next)
    (enabled : cache.enabled = true) : cache.Obeys event next ∧ next.enabled = true := by
  obtain ⟨arranged, arranges, rfl⟩ := steps
  have evictedEnabled : arranged.maybeEvict.enabled = true := by
    rw [maybeEvict_eq]
    split <;> exact arranges.enabled.trans enabled
  have enabled : arranged.enabled = true := arranges.enabled.trans enabled
  obtain ⟨time, operation⟩ := event
  cases operation with
  | recordRtt key rttMs =>
      refine ⟨⟨_, base_maybeEvict arranges time key rttMs, ?_⟩, ?_⟩
      · change cache.Records key _ (arranged.recordRtt time key rttMs)
        rw [recordRtt, if_pos enabled]
        exact records_insert arranges key _
      · change (arranged.recordRtt time key rttMs).enabled = true
        rw [recordRtt, if_pos enabled]
        exact evictedEnabled
  | recordFailure key =>
      constructor
      · change cache.Records key _ (arranged.recordFailure time key)
        rw [recordFailure, if_pos enabled]
        exact records_insert arranges key _
      · change (arranged.recordFailure time key).enabled = true
        rw [recordFailure, if_pos enabled]
        exact evictedEnabled
  | get key => exact ⟨arranges, enabled⟩

theorem Records.of_lookup {cache next : SrttCache} {key other : SrttKey} {entry found : SrttEntry}
    (records : cache.Records key entry next) (lookup : next.entries.lookup other = some found) :
    other = key ∧ found = entry ∨ cache.entries.lookup other = some found := by
  by_cases same : other = key
  · rw [same, records.recorded] at lookup
    exact .inl ⟨same, (Option.some.inj lookup).symm⟩
  · obtain ⟨evicted, -, others⟩ := records.others
    rw [others other same] at lookup
    split at lookup
    · cases lookup
    · exact .inr lookup

/-- Where an entry comes from: it was there, or it lies between a sample and
the value that the sample is averaged with. -/
theorem Obeys.of_lookup {cache next : SrttCache} {event : SrttEvent} {key : SrttKey}
    {found : SrttEntry} (obeys : cache.Obeys event next)
    (lookup : next.entries.lookup key = some found) :
    cache.entries.lookup key = some found ∨
      ∃ sample base, event.operation.sample key = some sample ∧
        cache.Base event.time key sample base ∧
          min base sample ≤ found.srttMs ∧ found.srttMs ≤ max base sample := by
  obtain ⟨time, operation⟩ := event
  cases operation with
  | recordRtt other rttMs =>
      obtain ⟨base, isBase, records⟩ := obeys
      rcases records.of_lookup lookup with ⟨rfl, rfl⟩ | before
      · refine .inr ⟨rttMs, base, if_pos rfl, isBase, ?_, ?_⟩ <;> dsimp only <;> omega
      · exact .inl before
  | recordFailure other =>
      rcases Records.of_lookup obeys lookup with ⟨rfl, rfl⟩ | before
      · exact .inr ⟨failurePenaltyMs, failurePenaltyMs, if_pos rfl, .inl rfl, by simp, by simp⟩
      · exact .inl before
  | get other =>
      rw [Arranges.lookup obeys] at lookup
      exact .inl lookup

/-! ## Runs -/

section Observed

variable {events : List SrttEvent} {event : SrttEvent} {key : SrttKey}

theorem initialSrttMs_mem_observed : initialSrttMs ∈ observed events key :=
  List.mem_cons_self

theorem observed_subset_append : observed events key ⊆ observed (events ++ [event]) key := by
  rw [observed, observed, List.filterMap_append, ← List.cons_append]
  exact List.subset_append_left _ _

theorem sample_mem_observed {sample : Nat} (sampled : event.operation.sample key = some sample) :
    sample ∈ observed (events ++ [event]) key := by
  refine List.mem_cons_of_mem _ (List.mem_filterMap.mpr ⟨event, ?_, sampled⟩)
  simp

end Observed

/-- The invariant of the values. -/
def Bounded (events : List SrttEvent) (cache : SrttCache) : Prop :=
  ∀ key, ∀ entry ∈ cache.entries.lookup key, Within (observed events key) entry.srttMs

theorem Bounded.base {events : List SrttEvent} {cache : SrttCache} (bounded : cache.Bounded events)
    {now : Nat} {key : SrttKey} {rttMs base : Nat} (isBase : cache.Base now key rttMs base) :
    base = rttMs ∨ Within (observed events key) base := by
  refine isBase.imp_right fun ⟨entry, found, same⟩ => ?_
  rw [same]
  exact (bounded key entry found).toward initialSrttMs_mem_observed
    (toward_decayedSrtt_self entry now)

theorem Bounded.step {events : List SrttEvent} {cache next : SrttCache} {event : SrttEvent}
    (bounded : cache.Bounded events) (obeys : cache.Obeys event next) :
    next.Bounded (events ++ [event]) := by
  intro key entry found
  rcases obeys.of_lookup found with before | ⟨sample, base, sampled, isBase, low, high⟩
  · exact (bounded key entry before).mono observed_subset_append
  · have sampleWithin := within_of_mem (@sample_mem_observed events _ _ _ sampled)
    rcases bounded.base isBase with rfl | baseWithin
    · exact sampleWithin.between sampleWithin low high
    · exact (baseWithin.mono observed_subset_append).between sampleWithin low high

theorem Obeys.size_le {cache next : SrttCache} {event : SrttEvent} (obeys : cache.Obeys event next)
    (size : cache.entries.entries.length ≤ maxEntries) :
    next.entries.entries.length ≤ maxEntries := by
  obtain ⟨time, operation⟩ := event
  cases operation with
  | recordRtt key rttMs =>
      obtain ⟨base, -, records⟩ := obeys
      exact records.size size
  | recordFailure key => exact Records.size obeys size
  | get key => exact (Arranges.perm obeys).length_eq.trans_le size

/-- What holds in every store of a run. -/
structure Sound (events : List SrttEvent) (cache : SrttCache) : Prop where
  enabled : cache.enabled = true
  size : cache.entries.entries.length ≤ maxEntries
  bounded : cache.Bounded events

theorem Run.sound {events : List SrttEvent} {cache : SrttCache} (run : Run events cache) :
    cache.Sound events := by
  induction run with
  | new => exact ⟨rfl, Nat.zero_le _, fun key entry found => by cases found⟩
  | step _ _ steps ih =>
      obtain ⟨obeys, enabled⟩ := steps.obeys ih.enabled
      exact ⟨enabled, obeys.size_le ih.size, ih.bounded.step obeys⟩

theorem Bounded.get {events : List SrttEvent} {cache : SrttCache} (bounded : cache.Bounded events)
    (key : SrttKey) (now : Nat) : Within (observed events key) (cache.get now key) := by
  rw [SrttCache.get]
  cases found : cache.entries.lookup key with
  | none => exact within_of_mem initialSrttMs_mem_observed
  | some entry =>
      exact (bounded key entry found).toward initialSrttMs_mem_observed
        (toward_decayedSrtt_self entry now)

/-- After a failure and no other recording for its key, the penalty is all that
can be stored for the key. -/
theorem Run.entry_eq_of_failure {key : SrttKey} {failedAt : Nat} {events before after : List SrttEvent}
    {cache : SrttCache} (run : Run events cache)
    (split : events = before ++ ⟨failedAt, .recordFailure key⟩ :: after)
    (untouched : ∀ event ∈ after, event.operation.sample key = none) :
    ∀ entry ∈ cache.entries.lookup key, entry = ⟨failurePenaltyMs, failedAt⟩ := by
  induction run generalizing after with
  | new => simp at split
  | @step events cache next event run inOrder steps ih =>
      have obeys := (steps.obeys run.sound.enabled).1
      rcases List.eq_nil_or_concat after with rfl | ⟨after, last, rfl⟩
      · obtain ⟨rfl, same⟩ := List.append_inj' split rfl
        cases same
        intro entry found
        exact (Option.some.inj ((Records.recorded obeys).symm.trans found)).symm
      · rw [List.concat_eq_append, ← List.cons_append, ← List.append_assoc] at split
        obtain ⟨rfl, same⟩ := List.append_inj' split rfl
        cases same
        intro entry found
        rcases obeys.of_lookup found with old | ⟨sample, base, sampled, -⟩
        · exact ih rfl (fun other mem => untouched other (by simp [mem])) entry old
        · rw [untouched event (by simp)] at sampled
          cases sampled

theorem Run.get_lt_of_failure {key : SrttKey} {failedAt now : Nat}
    {before after : List SrttEvent} {cache : SrttCache}
    (run : Run (before ++ ⟨failedAt, .recordFailure key⟩ :: after) cache)
    (untouched : ∀ event ∈ after, event.operation.sample key = none)
    (old : failedAt + fromSecs (decayAfterSecs + 1) ≤ now) :
    cache.get now key < primarySkipSrttMs := by
  rw [get]
  cases found : cache.entries.lookup key with
  | none => exact (by decide : initialSrttMs < primarySkipSrttMs)
  | some entry =>
      rw [run.entry_eq_of_failure rfl untouched entry found]
      have seconds : fromSecs (decayAfterSecs + 1) = (decayAfterSecs + 1) * fromSecs 1 := by
        rw [fromSecs, fromSecs, one_mul]
      refine decayForAge_failurePenaltyMs_lt (Nat.succ_le_iff.mp ?_)
      rw [Nat.le_div_iff_mul_le (by decide), Nat.succ_eq_add_one, ← seconds]
      exact Nat.le_sub_of_add_le' old

/-- No sum of the code overflows a `u64`. -/
structure Fits (cache : SrttCache) : Prop where
  decay : ∀ key, ∀ entry ∈ cache.entries.lookup key, ∀ periods,
    halve^[periods] entry.srttMs + initialSrttMs < 2 ^ 64
  average : ∀ now key rttMs base, rttMs < 2 ^ 60 → cache.Base now key rttMs base →
    base * 7 + rttMs < 2 ^ 64

/-- All samples are below 2⁶⁰ milliseconds. -/
def SmallSamples (events : List SrttEvent) : Prop :=
  ∀ event ∈ events, ∀ key rttMs, event.operation = .recordRtt key rttMs → rttMs < 2 ^ 60

theorem lt_of_mem_observed {events : List SrttEvent} (small : SmallSamples events) {key : SrttKey}
    {value : Nat} (mem : value ∈ observed events key) : value < 2 ^ 60 := by
  rcases List.mem_cons.mp mem with rfl | sampled
  · decide
  · obtain ⟨⟨time, operation⟩, eventMem, sampled⟩ := List.mem_filterMap.mp sampled
    cases operation with
    | recordRtt other rttMs =>
        simp only [SrttOperation.sample, Option.ite_none_right_eq_some, Option.some.injEq] at sampled
        rw [← sampled.2]
        exact small _ eventMem other rttMs rfl
    | recordFailure other =>
        simp only [SrttOperation.sample, Option.ite_none_right_eq_some, Option.some.injEq] at sampled
        rw [← sampled.2]
        decide
    | get other => cases sampled

theorem Within.lt {values : List Nat} {value bound : Nat} (within : Within values value)
    (below : ∀ other ∈ values, other < bound) : value < bound := by
  obtain ⟨-, high, highMem, leHigh⟩ := within
  exact leHigh.trans_lt (below high highMem)

theorem Bounded.fits {events : List SrttEvent} {cache : SrttCache} (bounded : cache.Bounded events)
    (small : SmallSamples events) : cache.Fits where
  decay := by
    intro key entry found periods
    have within := (bounded key entry found).toward initialSrttMs_mem_observed
      (toward_iterate_halve entry.srttMs (Nat.zero_le periods))
    have below := within.lt fun _ => lt_of_mem_observed small
    unfold initialSrttMs
    omega
  average := by
    intro now key rttMs base sampleSmall isBase
    rcases bounded.base isBase with rfl | within
    · omega
    · have below := within.lt fun _ => lt_of_mem_observed small
      omega

theorem toward_get_of_lookup {cache : SrttCache} {key : SrttKey} {entry : SrttEntry}
    (found : cache.entries.lookup key = some entry) (now : Nat) :
    Toward entry.srttMs (cache.get now key) := by
  rw [get, found]
  exact toward_decayedSrtt_self entry now

/-- In every run the store stays within its limit, its values stay between the
observed ones and decay towards the initial one, an old failure no longer trips
the breaker, and a recording changes the key alone but for a batch of the least
recently updated ones. -/
theorem Run.correct {events : List SrttEvent} {cache : SrttCache} (run : Run events cache) :
    cache.entries.entries.length ≤ maxEntries ∧
      (∀ key now, Within (observed events key) (cache.get now key)) ∧
      (∀ key, ∀ entry ∈ cache.entries.lookup key, ∀ now,
        Toward entry.srttMs (cache.get now key)) ∧
      (∀ key earlier later, earlier ≤ later →
        Toward (cache.get earlier key) (cache.get later key)) ∧
      (∀ key failedAt before after now,
        events = before ++ ⟨failedAt, .recordFailure key⟩ :: after →
          (∀ event ∈ after, event.operation.sample key = none) →
            failedAt + fromSecs (decayAfterSecs + 1) ≤ now →
              cache.get now key < primarySkipSrttMs) ∧
      (SmallSamples events → cache.Fits) ∧
      ∀ event next, cache.Steps event next → cache.Obeys event next := by
  have sound := run.sound
  refine ⟨sound.size, sound.bounded.get, fun key entry found => toward_get_of_lookup found,
    fun key earlier later => cache.toward_get key, ?_, sound.bounded.fits,
    fun event next steps => (steps.obeys sound.enabled).1⟩
  rintro key failedAt before after now rfl untouched old
  exact run.get_lt_of_failure untouched old

theorem arranges_refl (cache : SrttCache) : cache.Arranges cache :=
  ⟨rfl, .refl _⟩

theorem run_correct_sample :
    Within [initialSrttMs, failurePenaltyMs, 100]
      ((((new true).recordFailure 0 (.v4 (.new 192 0 2 1), .udp)).recordRtt (fromSecs 1)
        (.v4 (.new 192 0 2 1), .udp) 100).get (fromSecs 2) (.v4 (.new 192 0 2 1), .udp)) := by
  let key : SrttKey := (.v4 (.new 192 0 2 1), .udp)
  have failed : Run [⟨0, .recordFailure key⟩] ((new true).recordFailure 0 key) :=
    .step .new (by simp) ⟨_, arranges_refl _, rfl⟩
  have recovered : Run [⟨0, .recordFailure key⟩, ⟨fromSecs 1, .recordRtt key 100⟩]
      (((new true).recordFailure 0 key).recordRtt (fromSecs 1) key 100) :=
    .step failed (by simp) ⟨_, arranges_refl _, rfl⟩
  exact (Run.correct recovered).2.1 key (fromSecs 2)

/-- Half a second after the period the whole seconds have not passed it. -/
theorem not_all_get_lt_primarySkipSrttMs :
    ¬ ∀ (events : List SrttEvent) (cache : SrttCache), Run events cache →
      ∀ key failedAt before after now,
        events = before ++ ⟨failedAt, .recordFailure key⟩ :: after →
          (∀ event ∈ after, event.operation.sample key = none) →
            failedAt + fromSecs decayAfterSecs < now →
              cache.get now key < primarySkipSrttMs := by
  intro all
  let key : SrttKey := (.v4 (.new 192 0 2 1), .udp)
  have failed : Run [⟨0, .recordFailure key⟩] ((new true).recordFailure 0 key) :=
    .step .new (by simp) ⟨_, arranges_refl _, rfl⟩
  have low := all _ _ failed key 0 [] [] 300500000000 rfl (by simp) (by decide)
  have high : primarySkipSrttMs ≤ ((new true).recordFailure 0 key).get 300500000000 key :=
    primarySkipSrttMs_le_get_recordFailure rfl key (by decide)
  exact absurd low (Nat.not_lt.mpr high)

end SrttCache

end Numa
