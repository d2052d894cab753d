import Numa.CacheInvariant
import Numa.Exec
import Numa.OverrideStore

/-!
# Arithmetic on times in the stores

The cache and the overrides compute with TTLs, ages and expiries.  Neither panics
nor loses a number while the bounds of the cache are in order, its lifetimes come
from TTLs, and the expiries of the overrides are points in time.
-/

namespace Numa

/-! ## The arithmetic of the cache -/

/-- `secs as u32`.  `none` is a number that the cast changes. -/
def castSecs (secs : Nat) : Option UInt32 :=
  if secs < 2 ^ 32 then some secs.toUInt32 else none

theorem castSecs_of_lt {secs : Nat} (small : secs < 2 ^ 32) :
    castSecs secs = some secs.toUInt32 :=
  if_pos small

/-- The longest lifetime that a TTL can give. -/
def longestTtl : Nat := fromSecs (2 ^ 32 - 1)

namespace DnsCache

/-- The arithmetic of `lookup_wire`, which yields what `remaining` does.  `none`
is a panic or a cast that changes a number. -/
def checkedRemaining (entry : CacheEntry) (now : Nat) : Option (Option (UInt32 × Freshness)) :=
  let elapsed := now - entry.insertedAt
  if elapsed < entry.ttl then do
    let secs ← castSecs ((entry.ttl - elapsed) / fromSecs 1)
    let tenfold ← durationOf (elapsed * 10)
    let ninefold ← durationOf (entry.ttl * 9)
    some (some (max secs 1, if ninefold ≤ tenfold then .nearExpiry else .fresh))
  else do
    let staleEnd ← durationOf (entry.ttl + staleWindow)
    some (if elapsed < staleEnd then some (1, .stale) else none)

/-- The arithmetic of `ttl_remaining`. -/
def checkedTtlRemaining (entry : CacheEntry) (now : Nat) : Option (Option (UInt32 × UInt32)) :=
  let elapsed := now - entry.insertedAt
  if entry.ttl ≤ elapsed then some none
  else do
    let total ← castSecs (entry.ttl / fromSecs 1)
    let remaining ← castSecs ((entry.ttl - elapsed) / fromSecs 1)
    some (some (remaining, total))

/-- `ttl_remaining`. -/
def ttlRemaining (cache : DnsCache) (now : Nat) (domain : Text) (qtype : QueryType) :
    Option (Option (UInt32 × UInt32)) :=
  match cache.entry domain qtype with
  | none => some none
  | some entry => checkedTtlRemaining entry now

/-- Less than a quarter of a lifetime is left, or nothing. -/
def isLow : Option (UInt32 × UInt32) → Bool
  | none => true
  | some (remaining, total) => decide (remaining < total / 4)

/-- `needs_warm`. -/
def needsWarm (cache : DnsCache) (now : Nat) (domain : Text) : Option Bool := do
  let first ← cache.ttlRemaining now domain .a
  if isLow first then some true
  else do
    let second ← cache.ttlRemaining now domain .aaaa
    some (isLow second)

/-- `list`, with the seconds that are left. -/
def list (cache : DnsCache) (now : Nat) : Option (List (Text × QueryType × UInt32)) :=
  (cache.allEntries.filter fun item => decide (now - item.2.2.insertedAt < item.2.2.ttl)).mapM
    fun item => do
      let remaining ← castSecs ((item.2.2.ttl - (now - item.2.2.insertedAt)) / fromSecs 1)
      some (item.1, item.2.1, remaining)

/-- The bounds are in order, and lifetimes come from TTLs. -/
structure InRange (cache : DnsCache) : Prop where
  ordered : cache.minTtl ≤ cache.maxTtl
  short : ∀ domain qtype entry, cache.entry domain qtype = some entry → entry.ttl ≤ longestTtl

section Arithmetic

variable {entry : CacheEntry} (short : entry.ttl ≤ longestTtl) (now : Nat)

include short

theorem castSecs_left : castSecs ((entry.ttl - (now - entry.insertedAt)) / fromSecs 1) =
    some ((entry.ttl - (now - entry.insertedAt)) / fromSecs 1).toUInt32 := by
  apply castSecs_of_lt
  simp only [longestTtl, fromSecs] at short ⊢
  omega

/-- The checks of the arithmetic never fail on a lifetime from a TTL. -/
theorem checkedRemaining_eq : checkedRemaining entry now = some (remaining entry now) := by
  unfold checkedRemaining remaining
  have left := castSecs_left short now
  simp only
  simp only [longestTtl, fromSecs] at short
  split
  · have tenfold : durationOf ((now - entry.insertedAt) * 10) =
        some ((now - entry.insertedAt) * 10) := durationOf_of_lt (by
      simp only [durationEnd, fromSecs]
      omega)
    have ninefold : durationOf (entry.ttl * 9) = some (entry.ttl * 9) := durationOf_of_lt (by
      simp only [durationEnd, fromSecs]
      omega)
    rw [left, tenfold, ninefold]
    rfl
  · have window : durationOf (entry.ttl + staleWindow) = some (entry.ttl + staleWindow) :=
      durationOf_of_lt (by
        simp only [durationEnd, staleWindow, fromSecs]
        omega)
    rw [window]
    rfl

theorem checkedTtlRemaining_isSome : (checkedTtlRemaining entry now).isSome = true := by
  unfold checkedTtlRemaining
  have total : castSecs (entry.ttl / fromSecs 1) = some (entry.ttl / fromSecs 1).toUInt32 := by
    apply castSecs_of_lt
    simp only [longestTtl, fromSecs] at short ⊢
    omega
  simp only
  split
  · rfl
  · rw [total, castSecs_left short now]
    rfl

end Arithmetic

namespace InRange

variable {cache : DnsCache} (inRange : cache.InRange)

include inRange

theorem ttlRemaining_isSome (now : Nat) (domain : Text) (qtype : QueryType) :
    (cache.ttlRemaining now domain qtype).isSome = true := by
  unfold ttlRemaining
  cases found : cache.entry domain qtype with
  | none => rfl
  | some entry => exact checkedTtlRemaining_isSome (inRange.short _ _ _ found) now

theorem needsWarm_isSome (now : Nat) (domain : Text) :
    (cache.needsWarm now domain).isSome = true := by
  unfold needsWarm
  obtain ⟨first, isFirst⟩ := Option.isSome_iff_exists.mp (inRange.ttlRemaining_isSome now domain .a)
  obtain ⟨second, isSecond⟩ :=
    Option.isSome_iff_exists.mp (inRange.ttlRemaining_isSome now domain .aaaa)
  rw [isFirst, isSecond, Option.bind_eq_bind, Option.bind_some]
  split <;> rfl

theorem list_isSome (now : Nat) : (cache.list now).isSome = true := by
  unfold list
  rw [mapM_isSome_iff]
  rintro ⟨domain, qtype, entry⟩ itemMem
  have isEntry := mem_allEntries.mp (List.mem_of_mem_filter itemMem)
  simp only
  rw [castSecs_left (inRange.short _ _ _ isEntry) now]
  rfl

end InRange

theorem lifetime_le (cache : DnsCache) (wire : Wire) : cache.lifetime wire ≤ longestTtl := by
  have minTtl := cache.minTtl.toNat_lt
  have maxTtl := cache.maxTtl.toNat_lt
  simp only [lifetime, longestTtl, fromSecs]
  omega

theorem inRange_new (maxEntries : Nat) {minTtl maxTtl : UInt32} (ordered : minTtl ≤ maxTtl) :
    (new maxEntries minTtl maxTtl).InRange where
  ordered := ordered
  short := by
    intro domain qtype entry found
    simp [entry_eq_bind, new] at found

/-- Operations that only remove entries keep the lifetimes. -/
theorem InRange.of_entry {before after : DnsCache} (inRange : before.InRange)
    (minTtl : after.minTtl = before.minTtl) (maxTtl : after.maxTtl = before.maxTtl)
    (kept : ∀ domain qtype, after.entry domain qtype = before.entry domain qtype ∨
      after.entry domain qtype = none) : after.InRange where
  ordered := by
    rw [minTtl, maxTtl]
    exact inRange.ordered
  short := by
    intro domain qtype entry found
    rcases kept domain qtype with same | gone
    · exact inRange.short domain qtype entry (same ▸ found)
    · rw [gone] at found
      cases found

theorem InRange.insertWire {cache : DnsCache} (inRange : cache.InRange) (now : Nat)
    (domain : Text) (qtype : QueryType) (wire : Wire) (status : DnssecStatus) :
    ∃ after, cache.insertWire now domain qtype wire status = some after ∧ after.InRange := by
  have inserted := insertWire_eq inRange.ordered now domain qtype wire status
  refine ⟨_, inserted, ?_⟩
  obtain ⟨maxTtl, minTtl, entries⟩ := entry_insertWire inserted
  constructor
  · rw [minTtl, maxTtl]
    exact inRange.ordered
  · intro name type entry found
    rcases entries name type with same | gone | ⟨-, -, new⟩
    · exact inRange.short name type entry (same ▸ found)
    · rw [gone] at found
      cases found
    · cases new.symm.trans found
      exact cache.lifetime_le wire

theorem InRange.insertWithStatus {cache : DnsCache} (inRange : cache.InRange) (now : Nat)
    (domain : Text) (qtype : QueryType) (packet : DnsPacket) (status : DnssecStatus) :
    ∃ after, cache.insertWithStatus now domain qtype packet status = some after ∧
      after.InRange := by
  unfold DnsCache.insertWithStatus
  split
  · exact ⟨cache, rfl, inRange⟩
  · exact inRange.insertWire now domain qtype _ status

theorem InRange.remove {cache : DnsCache} (inRange : cache.InRange) (toLowercase : Text → Text)
    (domain : Text) : (cache.remove toLowercase domain).InRange := by
  refine inRange.of_entry ?_ ?_ fun name type => entry_remove toLowercase cache domain name type
  · unfold DnsCache.remove
    split <;> rfl
  · unfold DnsCache.remove
    split <;> rfl

theorem InRange.clear {cache : DnsCache} (inRange : cache.InRange) : cache.clear.InRange :=
  inRange.of_entry rfl rfl fun _ _ => .inr rfl

end DnsCache

/-! ## The expiries of the overrides -/

namespace OverrideStore

/-- The expiries of all entries are points in time. -/
def Dated (store : OverrideStore) : Prop :=
  ∀ entry ∈ store.values, entry.Dated

theorem mem_values {store : OverrideStore} {entry : OverrideEntry} :
    entry ∈ store.values ↔ ∃ key, store.entries.lookup key = some entry := by
  simp only [values, List.mem_map]
  constructor
  · rintro ⟨⟨key, held⟩, heldMem, rfl⟩
    exact ⟨key, AList.mem_lookup_iff.mpr heldMem⟩
  · rintro ⟨key, found⟩
    exact ⟨⟨key, entry⟩, AList.mem_lookup_iff.mp found, rfl⟩

theorem dated_new : new.Dated := by
  intro entry entryMem
  cases entryMem

namespace Dated

variable {store : OverrideStore} (dated : store.Dated)

include dated

theorem retainUnexpired (now : Nat) :
    ∃ after, store.retainUnexpired now = some after ∧ after.Dated := by
  refine ⟨_, if_pos fun entry entryMem => OverrideEntry.isExpired_isSome.mpr (dated entry entryMem),
    fun entry entryMem => ?_⟩
  obtain ⟨key, found⟩ := mem_values.mp entryMem
  rw [lookup_retain] at found
  obtain ⟨held, isHeld, kept⟩ := Option.bind_eq_some_iff.mp found
  split at kept
  · cases kept
  · cases kept
    exact dated entry (mem_values.mpr ⟨key, isHeld⟩)

theorem insert (toLowercase : Text → Text) {now : Nat} (domain target : Text) (ttl : UInt32)
    {durationSecs : Option UInt64}
    (fits : ∀ secs ∈ durationSecs, now + fromSecs secs.toNat < instantEnd) :
    ∃ after qtype, store.insert toLowercase now domain target ttl durationSecs =
      some (after, qtype) ∧ after.Dated := by
  obtain ⟨kept, retained, keptDated⟩ := dated.retainUnexpired now
  rw [OverrideStore.insert, retained, Option.bind_eq_bind, Option.bind_some]
  refine ⟨_, _, rfl, fun entry entryMem => ?_⟩
  obtain ⟨key, found⟩ := mem_values.mp entryMem
  by_cases same : key = toLowercase domain
  · subst same
    rw [AList.lookup_insert] at found
    cases found
    exact fits
  · rw [AList.lookup_insert_ne same] at found
    exact keptDated entry (mem_values.mpr ⟨key, found⟩)

theorem remove (toLowercase : Text → Text) (domain : Text) :
    (store.remove toLowercase domain).1.Dated := by
  intro entry entryMem
  obtain ⟨key, found⟩ := mem_values.mp entryMem
  by_cases same : key = toLowercase domain
  · subst same
    simp [OverrideStore.remove] at found
  · exact dated entry (mem_values.mpr ⟨key, by simpa [OverrideStore.remove, same] using found⟩)

theorem unexpired (now : Nat) (key : Text) :
    ∃ held, store.unexpired now key = some held ∧ ∀ entry ∈ held, entry.Dated := by
  unfold OverrideStore.unexpired
  cases found : store.entries.lookup key with
  | none => exact ⟨none, rfl, by simp⟩
  | some entry =>
      have entryDated := dated entry (mem_values.mpr ⟨key, found⟩)
      obtain ⟨expired, isExpired⟩ : ∃ expired, entry.isExpired now = some expired :=
        Option.isSome_iff_exists.mp (OverrideEntry.isExpired_isSome.mpr entryDated)
      simp only [isExpired, Option.map_some]
      refine ⟨_, rfl, fun held heldMem => ?_⟩
      split at heldMem
      · cases heldMem
      · cases heldMem
        exact entryDated

/-- The entries that have not expired can be listed. -/
theorem list (now : Nat) : ∃ entries, store.list now = some entries ∧
    ∀ entry ∈ entries, entry.Dated := by
  refine ⟨_, filterM_eq_some_iff.mpr ⟨fun entry entryMem => ?_, rfl⟩, fun entry entryMem =>
    dated entry (List.mem_of_mem_filter entryMem)⟩
  rw [Ne, Option.map_eq_none_iff, ← Ne, Option.ne_none_iff_isSome]
  exact OverrideEntry.isExpired_isSome.mpr (dated entry entryMem)

end Dated

/-- An expiry that is no point in time stops every look at all entries. -/
theorem not_dated_iff {store : OverrideStore} :
    ¬ store.Dated ↔ ∃ entry ∈ store.values, ∀ now, entry.isExpired now = none := by
  unfold Dated
  simp only [not_forall, exists_prop]
  refine exists_congr fun entry => and_congr_right fun _ => ?_
  constructor
  · intro notDated now
    rw [← Option.not_isSome_iff_eq_none, OverrideEntry.isExpired_isSome]
    exact notDated
  · intro panics dated
    have isSome := (OverrideEntry.isExpired_isSome : (entry.isExpired 0).isSome = true ↔ _).mpr dated
    rw [panics 0] at isSome
    cases isSome

theorem retainUnexpired_of_not_dated {store : OverrideStore} (notDated : ¬ store.Dated)
    (now : Nat) : store.retainUnexpired now = none := by
  obtain ⟨entry, entryMem, panics⟩ := not_dated_iff.mp notDated
  refine if_neg fun all => ?_
  have isSome := all entry entryMem
  rw [panics now] at isSome
  cases isSome

theorem list_of_not_dated {store : OverrideStore} (notDated : ¬ store.Dated) (now : Nat) :
    store.list now = none := by
  obtain ⟨entry, entryMem, panics⟩ := not_dated_iff.mp notDated
  cases listed : store.list now with
  | none => rfl
  | some entries =>
      have tested := (filterM_eq_some_iff.mp listed).1 entry entryMem
      rw [panics now] at tested
      exact absurd rfl tested

end OverrideStore

end Numa
