import Numa.StoreArithmetic
import Numa.WirePatch

/-!
# The freshness of a cached message

`lookup_wire`, `ttl_remaining` and `list` compute the age of an entry each for
themselves.  An entry goes through its phases in their order, its TTL never
grows, and the three agree on the seconds that are left.
-/

namespace Numa

/-- The TTLs of the answers in a scanned message. -/
def answerTtls (wire : List UInt8) (scanned : WireMeta) : List UInt32 :=
  (scanned.ttlOffsets.take scanned.answerCount).map (wireU32 wire)

/-- The least TTL of the answers, within the bounds. -/
def clampedTtl (minTtl maxTtl : UInt32) (ttls : List UInt32) : Nat :=
  max minTtl.toNat (min (ttls.min?.getD minTtl).toNat maxTtl.toNat)

/-- An entry with a scanned message and the lifetime of it. -/
structure CacheEntry.Stored (minTtl maxTtl : UInt32) (scanned : WireMeta) (entry : CacheEntry) :
    Prop where
  scans : scanTtlOffsets entry.wire.octets = .ok scanned
  ttl : entry.ttl = fromSecs (clampedTtl minTtl maxTtl (answerTtls entry.wire.octets scanned))

/-- The phases of an entry: fresh, near its expiry, stale and no longer served. -/
def phase : Option Freshness → Nat
  | some .fresh => 0
  | some .nearExpiry => 1
  | some .stale => 2
  | none => 3

/-- `Duration - Duration`.  `none` is its panic. -/
def subDuration (whole part : Nat) : Option Nat :=
  if part ≤ whole then some (whole - part) else none

/-- The results of the operators on durations that a lookup or a listing applies. -/
def durationResults (entry : CacheEntry) (now : Nat) : List (Option Nat) :=
  let elapsed := now - entry.insertedAt
  if elapsed < entry.ttl then
    [subDuration entry.ttl elapsed, durationOf (elapsed * 10), durationOf (entry.ttl * 9)]
  else [durationOf (entry.ttl + staleWindow)]

/-! ## What is stored -/

theorem minTtlFromWire_eq {wire : List UInt8} {scanned : WireMeta}
    (accepted : scanTtlOffsets wire = .ok scanned) :
    minTtlFromWire wire scanned = (answerTtls wire scanned).min? := by
  obtain ⟨answers, authorities, additionals, first, second, third, last, sections, rfl⟩ :=
    scanTtlOffsets_eq_ok_iff.mp accepted
  have inside : ∀ pos ∈ (answers ++ authorities ++ additionals).take answers.length,
      (if pos + 4 ≤ wire.length then some (wireU32 wire pos) else none) =
        some (wireU32 wire pos) := by
    intro pos posMem
    exact if_pos (sections.fields.2.1 pos (List.mem_of_mem_take posMem)).2
  rw [minTtlFromWire, answerTtls, List.filterMap_congr inside, List.filterMap_eq_map']

/-- The lifetime of a message in terms of its answers. -/
theorem lifetime_ofOctets {cache : DnsCache} {octets : List UInt8} {scanned : WireMeta}
    (accepted : scanTtlOffsets octets = .ok scanned) :
    cache.lifetime (.ofOctets octets) =
      fromSecs (clampedTtl cache.minTtl cache.maxTtl (answerTtls octets scanned)) := by
  rw [DnsCache.lifetime, clampedTtl, Wire.ofOctets]
  simp only [accepted, Except.toOption, Option.bind_some, minTtlFromWire_eq accepted]

theorem clampedTtl_le (minTtl maxTtl : UInt32) (ttls : List UInt32) :
    fromSecs (clampedTtl minTtl maxTtl ttls) ≤ longestTtl := by
  have minimum := minTtl.toNat_lt
  have maximum := maxTtl.toNat_lt
  simp only [clampedTtl, longestTtl, fromSecs]
  omega

namespace DnsCache

/-- The entries of a run are scanned messages with their lifetimes. -/
theorem stored_of_run {toLowercase : Text → Text} {maxEntries : Nat} {minTtl maxTtl : UInt32}
    {operations : List (Nat × Operation)} {cache : DnsCache}
    (ran : (new maxEntries minTtl maxTtl).applyAll toLowercase operations = some cache) :
    ∀ domain qtype entry, cache.entry domain qtype = some entry →
      ∃ scanned, entry.Stored minTtl maxTtl scanned := by
  apply entry_applyAll (fun entry => ∃ scanned, entry.Stored minTtl maxTtl scanned) ran
  · intro now octets status scans
    cases accepted : scanTtlOffsets octets with
    | error error =>
        rw [accepted] at scans
        cases scans
    | ok scanned => exact ⟨scanned, accepted, lifetime_ofOctets accepted⟩
  · intro domain qtype entry isEntry
    cases isEntry

/-! ## The age of an entry -/

section Age

variable {entry : CacheEntry}

theorem phase_le {now later : Nat} (ordered : now ≤ later) :
    phase ((remaining entry now).map Prod.snd) ≤ phase ((remaining entry later).map Prod.snd) := by
  unfold remaining
  dsimp only
  split_ifs <;> simp only [Option.map_some, Option.map_none, phase] <;> omega

variable {now : Nat} {ttl : UInt32} {freshness : Freshness}

/-- An entry is served with the seconds that it has left, at least one. -/
theorem ttl_of_remaining (short : entry.ttl ≤ longestTtl)
    (served : remaining entry now = some (ttl, freshness)) :
    ttl.toNat = max ((entry.ttl - (now - entry.insertedAt)) / fromSecs 1) 1 := by
  unfold remaining at served
  dsimp only at served
  split at served
  · cases served
    have small : (entry.ttl - (now - entry.insertedAt)) / fromSecs 1 < 2 ^ 32 := by
      simp only [longestTtl, fromSecs] at short ⊢
      omega
    rw [UInt32.toNat_max]
    simp only [Nat.toUInt32_eq, UInt32.toNat_ofNat', Nat.mod_eq_of_lt small]
    rfl
  · split at served
    · rename_i expired _
      cases served
      have nothing : entry.ttl - (now - entry.insertedAt) = 0 := by omega
      rw [nothing]
      rfl
    · cases served

theorem stale_iff_of_remaining (served : remaining entry now = some (ttl, freshness)) :
    freshness ≠ .stale ↔ now - entry.insertedAt < entry.ttl := by
  unfold remaining at served
  dsimp only at served
  split at served
  · rename_i inside
    cases served
    refine iff_of_true ?_ inside
    split <;> simp
  · rename_i expired
    split at served
    · cases served
      exact iff_of_false (by simp) expired
    · cases served

theorem durationResults_isSome (short : entry.ttl ≤ longestTtl) (now : Nat) :
    ∀ result ∈ durationResults entry now, result.isSome = true := by
  intro result resultMem
  unfold durationResults at resultMem
  simp only [longestTtl, fromSecs] at short
  dsimp only at resultMem
  split at resultMem
  · rename_i inside
    simp only [List.mem_cons, List.not_mem_nil, or_false] at resultMem
    rcases resultMem with rfl | rfl | rfl
    · rw [subDuration, if_pos (Nat.le_of_lt inside)]
      rfl
    · rw [durationOf_of_lt (by simp only [durationEnd, fromSecs]; omega)]
      rfl
    · rw [durationOf_of_lt (by simp only [durationEnd, fromSecs]; omega)]
      rfl
  · rw [List.mem_singleton] at resultMem
    rw [resultMem, durationOf_of_lt (by simp only [durationEnd, staleWindow, fromSecs]; omega)]
    rfl

theorem checkedTtlRemaining_eq (short : entry.ttl ≤ longestTtl) (now : Nat) :
    checkedTtlRemaining entry now = some
      (if entry.ttl ≤ now - entry.insertedAt then none
      else some (((entry.ttl - (now - entry.insertedAt)) / fromSecs 1).toUInt32,
        (entry.ttl / fromSecs 1).toUInt32)) := by
  unfold checkedTtlRemaining
  have total : castSecs (entry.ttl / fromSecs 1) = some (entry.ttl / fromSecs 1).toUInt32 := by
    apply castSecs_of_lt
    simp only [longestTtl, fromSecs] at short ⊢
    omega
  dsimp only
  split
  · rfl
  · rw [total, castSecs_left short now]
    rfl

end Age

/-- A lookup that serves a message with a TTL, or none. -/
def Serves (cache : DnsCache) (now : Nat) (domain : Text) (qtype : QueryType) (newId : UInt16)
    (scanned : WireMeta) (entry : CacheEntry) : Option (UInt32 × Freshness) → Prop
  | none => cache.lookupOctets now domain qtype newId = some none
  | some (ttl, freshness) => ∃ wire,
    cache.lookupOctets now domain qtype newId = some (some (wire, entry.dnssecStatus, freshness)) ∧
      Patched entry.wire.octets newId ttl scanned wire

section Lookup

variable {cache : DnsCache} {domain : Text} {qtype : QueryType} {entry : CacheEntry}
  (isEntry : cache.entry domain qtype = some entry)

include isEntry

theorem serves_remaining {scanned : WireMeta}
    (accepted : scanTtlOffsets entry.wire.octets = .ok scanned) (now : Nat) (newId : UInt16) :
    cache.Serves now domain qtype newId scanned entry (remaining entry now) := by
  have scannedEq : entry.scanned = scanned := by
    simp [CacheEntry.scanned, accepted, Except.toOption]
  cases isRemaining : remaining entry now with
  | none =>
      rw [Serves, lookupOctets, isEntry]
      simp only [isRemaining]
  | some served =>
      obtain ⟨ttl, freshness⟩ := served
      obtain ⟨wire, patched, isPatched⟩ := exists_patchWire accepted newId ttl
      refine ⟨wire, ?_, isPatched⟩
      rw [lookupOctets, isEntry]
      simp only [isRemaining, scannedEq, patched, Option.map_some]

theorem ttlRemaining_eq (short : entry.ttl ≤ longestTtl) (now : Nat) :
    cache.ttlRemaining now domain qtype = some
      (if entry.ttl ≤ now - entry.insertedAt then none
      else some (((entry.ttl - (now - entry.insertedAt)) / fromSecs 1).toUInt32,
        (entry.ttl / fromSecs 1).toUInt32)) := by
  rw [ttlRemaining, isEntry]
  exact checkedTtlRemaining_eq short now

/-- `ttl_remaining` reports an entry until it is stale, with the seconds that it
is served with, but for the floor. -/
theorem ttlRemaining_eq_some_iff (short : entry.ttl ≤ longestTtl) (now : Nat) (secs : UInt32) :
    (∃ total, cache.ttlRemaining now domain qtype = some (some (secs, total))) ↔
      secs.toNat = (entry.ttl - (now - entry.insertedAt)) / fromSecs 1 ∧
        ∃ freshness, remaining entry now = some (max secs 1, freshness) ∧ freshness ≠ .stale := by
  have small : (entry.ttl - (now - entry.insertedAt)) / fromSecs 1 < 2 ^ 32 := by
    simp only [longestTtl, fromSecs] at short ⊢
    omega
  have left : ((entry.ttl - (now - entry.insertedAt)) / fromSecs 1).toUInt32.toNat =
      (entry.ttl - (now - entry.insertedAt)) / fromSecs 1 := by
    simp only [Nat.toUInt32_eq, UInt32.toNat_ofNat', Nat.mod_eq_of_lt small]
  rw [ttlRemaining_eq isEntry short]
  by_cases inside : now - entry.insertedAt < entry.ttl
  · rw [if_neg (Nat.not_le.mpr inside)]
    constructor
    · rintro ⟨total, same⟩
      cases same
      refine ⟨left, if entry.ttl * 9 ≤ (now - entry.insertedAt) * 10 then .nearExpiry else .fresh,
        ?_, ?_⟩
      · rw [remaining, if_pos inside]
      · split <;> simp
    · rintro ⟨secsEq, -⟩
      exact ⟨_, by rw [UInt32.toNat_inj.mp (left.trans secsEq.symm)]⟩
  · rw [if_pos (Nat.not_lt.mp inside)]
    constructor
    · rintro ⟨total, same⟩
      cases same
    · rintro ⟨-, freshness, served, notStale⟩
      exact absurd ((stale_iff_of_remaining served).mp notStale) inside

end Lookup

/-- `list` reports what `ttl_remaining` does. -/
theorem mem_list_iff {cache : DnsCache} (short : ∀ domain qtype entry,
    cache.entry domain qtype = some entry → entry.ttl ≤ longestTtl) (now : Nat) :
    ∃ items, cache.list now = some items ∧ ∀ domain qtype secs,
      (domain, qtype, secs) ∈ items ↔
        ∃ total, cache.ttlRemaining now domain qtype = some (some (secs, total)) := by
  have total : ∀ item ∈ cache.allEntries.filter
      (fun item => decide (now - item.2.2.insertedAt < item.2.2.ttl)),
      (do
        let remaining ← castSecs ((item.2.2.ttl - (now - item.2.2.insertedAt)) / fromSecs 1)
        some (item.1, item.2.1, remaining)) =
      some (item.1, item.2.1,
        ((item.2.2.ttl - (now - item.2.2.insertedAt)) / fromSecs 1).toUInt32) := by
    rintro ⟨domain, qtype, entry⟩ itemMem
    have isEntry := mem_allEntries.mp (List.mem_of_mem_filter itemMem)
    dsimp only
    rw [castSecs_left (short _ _ _ isEntry) now]
    rfl
  refine ⟨_, mapM_eq_some_map total, fun domain qtype secs => ?_⟩
  simp only [List.mem_map, List.mem_filter, decide_eq_true_eq]
  constructor
  · rintro ⟨⟨name, type, entry⟩, ⟨entryMem, inside⟩, same⟩
    cases same
    have isEntry := mem_allEntries.mp entryMem
    rw [ttlRemaining_eq isEntry (short _ _ _ isEntry), if_neg (Nat.not_le.mpr inside)]
    exact ⟨_, rfl⟩
  · rintro ⟨total, reported⟩
    cases isEntry : cache.entry domain qtype with
    | none =>
        rw [ttlRemaining, isEntry] at reported
        cases reported
    | some entry =>
        rw [ttlRemaining_eq isEntry (short _ _ _ isEntry)] at reported
        split at reported
        · cases reported
        · rename_i inside
          cases reported
          exact ⟨(domain, qtype, entry), ⟨mem_allEntries.mpr isEntry, Nat.not_le.mp inside⟩, rfl⟩

/-- How an entry ages: what lookups, `ttl_remaining` and `list` make of it as
time passes. -/
structure Ages (cache : DnsCache) (domain : Text) (qtype : QueryType) (scanned : WireMeta)
    (entry : CacheEntry) : Prop where
  serves : ∀ now newId, cache.Serves now domain qtype newId scanned entry (remaining entry now)
  phases : ∀ now later, now ≤ later →
    phase ((remaining entry now).map Prod.snd) ≤ phase ((remaining entry later).map Prod.snd)
  shrinks : ∀ now later before after, now ≤ later → remaining entry now = some before →
    remaining entry later = some after → after.1 ≤ before.1
  bounds : ∀ now ttl freshness, remaining entry now = some (ttl, freshness) →
    1 ≤ ttl ∧ fromSecs ttl.toNat ≤ max (fromSecs 1) (entry.ttl - (now - entry.insertedAt))
  reported : ∀ now, (∃ left, cache.ttlRemaining now domain qtype = some (some left)) ↔
    ∃ ttl freshness, remaining entry now = some (ttl, freshness) ∧ freshness ≠ .stale
  seconds : ∀ now secs total ttl freshness,
    cache.ttlRemaining now domain qtype = some (some (secs, total)) →
    remaining entry now = some (ttl, freshness) → ttl = max secs 1
  listed : ∀ now, ∃ items, cache.list now = some items ∧ ∀ secs,
    (domain, qtype, secs) ∈ items ↔
      ∃ total, cache.ttlRemaining now domain qtype = some (some (secs, total))
  exact : ∀ now, (∀ result ∈ durationResults entry now, result.isSome = true) ∧
    checkedRemaining entry now = some (remaining entry now) ∧
    (cache.ttlRemaining now domain qtype).isSome = true

/-- In every cache that a run fills, an entry has the least TTL of its answers
within the bounds as its lifetime, and it ages in the same way for all that look
at it. -/
theorem ages_of_run {toLowercase : Text → Text} {maxEntries : Nat} {minTtl maxTtl : UInt32}
    {operations : List (Nat × Operation)} {cache : DnsCache}
    (ran : (new maxEntries minTtl maxTtl).applyAll toLowercase operations = some cache)
    {domain : Text} {qtype : QueryType} {entry : CacheEntry}
    (isEntry : cache.entry domain qtype = some entry) :
    ∃ scanned, entry.Stored minTtl maxTtl scanned ∧ cache.Ages domain qtype scanned entry := by
  have shorts : ∀ domain qtype entry, cache.entry domain qtype = some entry →
      entry.ttl ≤ longestTtl := by
    intro domain qtype entry isEntry
    obtain ⟨scanned, stored⟩ := stored_of_run ran domain qtype entry isEntry
    rw [stored.ttl]
    exact clampedTtl_le minTtl maxTtl _
  have short := shorts domain qtype entry isEntry
  obtain ⟨scanned, stored⟩ := stored_of_run ran domain qtype entry isEntry
  refine ⟨scanned, stored, ?_⟩
  constructor
  case serves => exact serves_remaining isEntry stored.scans
  case phases => exact fun now later => phase_le
  case shrinks =>
    rintro now later ⟨before, _⟩ ⟨after, _⟩ ordered isBefore isAfter
    rw [UInt32.le_iff_toNat_le, ttl_of_remaining short isBefore, ttl_of_remaining short isAfter]
    have less : entry.ttl - (later - entry.insertedAt) ≤ entry.ttl - (now - entry.insertedAt) := by
      omega
    exact max_le_max_right 1 (Nat.div_le_div_right less)
  case bounds =>
    intro now ttl freshness served
    have ttlEq := ttl_of_remaining short served
    constructor
    · rw [UInt32.le_iff_toNat_le, ttlEq]
      exact le_max_right _ 1
    · rw [ttlEq]
      simp only [fromSecs]
      omega
  case reported =>
    intro now
    constructor
    · rintro ⟨⟨secs, total⟩, left⟩
      obtain ⟨-, freshness, served, notStale⟩ :=
        (ttlRemaining_eq_some_iff isEntry short now secs).mp ⟨total, left⟩
      exact ⟨_, freshness, served, notStale⟩
    · rintro ⟨ttl, freshness, served, notStale⟩
      have inside := (stale_iff_of_remaining served).mp notStale
      rw [ttlRemaining_eq isEntry short, if_neg (Nat.not_le.mpr inside)]
      exact ⟨_, rfl⟩
  case seconds =>
    intro now secs total ttl freshness left served
    obtain ⟨-, _, servedAgain, -⟩ :=
      (ttlRemaining_eq_some_iff isEntry short now secs).mp ⟨total, left⟩
    rw [served] at servedAgain
    cases servedAgain
    rfl
  case listed =>
    intro now
    obtain ⟨items, isList, mem⟩ := mem_list_iff shorts now
    exact ⟨items, isList, mem domain qtype⟩
  case exact =>
    intro now
    refine ⟨durationResults_isSome short now, checkedRemaining_eq short now, ?_⟩
    rw [ttlRemaining_eq isEntry short]
    rfl

/-- A run that stores one address record with a TTL of 300 seconds. -/
def rootAddressRun : List (Nat × Operation) :=
  [(5, .insertWire (text "a.test") .a rootAddressWire .secure)]

theorem ages_of_run_rootAddressRun :
    ∃ cache entry scanned,
      (new 10 60 3600).applyAll Text.toLowercase rootAddressRun = some cache ∧
        cache.entry (text "a.test") .a = some entry ∧ entry.ttl = fromSecs 300 ∧
        cache.Ages (text "a.test") .a scanned entry := by
  obtain ⟨cache, ran⟩ := Option.isSome_iff_exists.mp
    (by decide +kernel :
      ((new 10 60 3600).applyAll Text.toLowercase rootAddressRun).isSome = true)
  have lifetime : (((new 10 60 3600).applyAll Text.toLowercase rootAddressRun).bind
      fun cache => (cache.entry (text "a.test") .a).map CacheEntry.ttl) = some (fromSecs 300) := by
    decide +kernel
  rw [ran, Option.bind_some, Option.map_eq_some_iff] at lifetime
  obtain ⟨entry, isEntry, ttl⟩ := lifetime
  obtain ⟨scanned, -, ages⟩ := ages_of_run ran isEntry
  exact ⟨cache, entry, scanned, ran, isEntry, ttl, ages⟩

end DnsCache

end Numa
