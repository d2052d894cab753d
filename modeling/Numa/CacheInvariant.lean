import Mathlib.Data.Finset.Card
import Numa.Cache

/-!
# The representation invariant of the cache

The cache keeps the number of its entries beside a map of maps.  This file
shows that the number stays right in every run of the operations, that the
number never exceeds the configured maximum, and which entries an insertion
can remove.
-/

namespace Numa

namespace DnsCache

/-- The operations on a cache.  Lookups leave it as it is. -/
inductive Operation
  | insertWire (domain : Text) (qtype : QueryType) (wire : List UInt8) (status : DnssecStatus)
  | insert (domain : Text) (qtype : QueryType) (packet : DnsPacket)
  | insertWithStatus (domain : Text) (qtype : QueryType) (packet : DnsPacket)
      (status : DnssecStatus)
  | remove (domain : Text)
  | clear
  | lookupWire (domain : Text) (qtype : QueryType) (newId : UInt16)
  | lookup (domain : Text) (qtype : QueryType)
  | lookupWithStatus (domain : Text) (qtype : QueryType)

section Run

variable (toLowercase : Text → Text)

/-- The cache after an operation at some time; `none` is a panic. -/
def apply (cache : DnsCache) (now : Nat) : Operation → Option DnsCache
  | .insertWire domain qtype wire status =>
    cache.insertWire now domain qtype (.ofOctets wire) status
  | .insert domain qtype packet => cache.insert now domain qtype packet
  | .insertWithStatus domain qtype packet status =>
    cache.insertWithStatus now domain qtype packet status
  | .remove domain => some (cache.remove toLowercase domain)
  | .clear => some cache.clear
  | .lookupWire .. => some cache
  | .lookup .. => some cache
  | .lookupWithStatus .. => some cache

/-- The cache after operations at their times. -/
def applyAll (cache : DnsCache) : List (Nat × Operation) → Option DnsCache
  | [] => some cache
  | (now, operation) :: operations => do
    let after ← cache.apply toLowercase now operation
    after.applyAll operations

end Run

/-! ## The number of entries -/

/-- The entries of one name. -/
abbrev TypeMap := AList fun _ : QueryType => CacheEntry

def TypeMap.len (typeMap : TypeMap) : Nat :=
  typeMap.entries.length

/-- The number of entries in the map of maps. -/
def stored (cache : DnsCache) : Nat :=
  totalWeight TypeMap.len cache.entries

/-- The keys that hold an entry. -/
def keys (cache : DnsCache) : Finset (Text × QueryType) :=
  (cache.allEntries.map fun entry => (entry.1, entry.2.1)).toFinset

theorem mem_allEntries {cache : DnsCache} {domain : Text} {qtype : QueryType}
    {entry : CacheEntry} :
    (domain, qtype, entry) ∈ cache.allEntries ↔ cache.entry domain qtype = some entry := by
  rw [entry_eq_bind, Option.bind_eq_some_iff, allEntries, List.mem_flatMap]
  constructor
  · rintro ⟨⟨name, typeMap⟩, outerMem, innerMem⟩
    obtain ⟨⟨type, held⟩, heldMem, same⟩ := List.mem_map.mp innerMem
    cases same
    exact ⟨typeMap, AList.mem_lookup_iff.mpr outerMem, AList.mem_lookup_iff.mpr heldMem⟩
  · rintro ⟨typeMap, outer, inner⟩
    exact ⟨⟨domain, typeMap⟩, AList.mem_lookup_iff.mp outer, List.mem_map.mpr
      ⟨⟨qtype, entry⟩, AList.mem_lookup_iff.mp inner, rfl⟩⟩

theorem mem_keys {cache : DnsCache} {domain : Text} {qtype : QueryType} :
    (domain, qtype) ∈ cache.keys ↔ (cache.entry domain qtype).isSome = true := by
  rw [keys, List.mem_toFinset, List.mem_map, Option.isSome_iff_exists]
  constructor
  · rintro ⟨⟨name, type, entry⟩, entryMem, same⟩
    cases same
    exact ⟨entry, mem_allEntries.mp entryMem⟩
  · rintro ⟨entry, isEntry⟩
    exact ⟨(domain, qtype, entry), mem_allEntries.mpr isEntry, rfl⟩

theorem length_allEntries (cache : DnsCache) : cache.allEntries.length = cache.stored := by
  simp [allEntries, stored, totalWeight, List.length_flatMap, TypeMap.len]

/-- No key is listed twice. -/
theorem nodup_allEntries (cache : DnsCache) :
    (cache.allEntries.map fun entry => (entry.1, entry.2.1)).Nodup := by
  rw [allEntries, List.map_flatMap, List.nodup_flatMap]
  constructor
  · intro outer _
    have inner : (outer.2.entries.map Sigma.fst).Nodup := outer.2.nodupKeys
    rw [List.map_map]
    have pairs := inner.map (f := fun qtype => (outer.1, qtype)) fun first second same => by
      cases same
      rfl
    rwa [List.map_map] at pairs
  · have outer : (cache.entries.entries.map Sigma.fst).Nodup := cache.entries.nodupKeys
    rw [List.Nodup, List.pairwise_map] at outer
    refine outer.imp fun {first second} different => ?_
    apply List.disjoint_left.mpr
    intro key inFirst inSecond
    simp only [List.map_map, List.mem_map, Function.comp_apply] at inFirst inSecond
    obtain ⟨_, _, rfl⟩ := inFirst
    obtain ⟨_, _, same⟩ := inSecond
    exact different (congrArg Prod.fst same).symm

theorem card_keys (cache : DnsCache) : cache.keys.card = cache.stored := by
  rw [keys, List.toFinset_card_of_nodup cache.nodup_allEntries, List.length_map,
    length_allEntries]

/-- The number of entries is right, and no name has an empty map. -/
structure Counted (cache : DnsCache) : Prop where
  count : cache.entryCount = cache.stored
  nonempty : ∀ domain typeMap, cache.entries.lookup domain = some typeMap →
    typeMap.entries ≠ []

/-! ## Eviction -/

/-- Is the entry past its lifetime? -/
def Expired (now : Nat) (entry : CacheEntry) : Prop :=
  entry.ttl ≤ now - entry.insertedAt

/-- The lifetime an entry has left. -/
def lifetimeLeft (now : Nat) (entry : CacheEntry) : Nat :=
  entry.ttl - (now - entry.insertedAt)

/-- What `retain` keeps of the entries of a name. -/
def unexpired (now : Nat) (_ : QueryType) (entry : CacheEntry) : Option CacheEntry :=
  if now - entry.insertedAt < entry.ttl then some entry else none

/-- What `retain` keeps of the entries of a cache. -/
def unexpiredMap (now : Nat) (_ : Text) (typeMap : TypeMap) :
    Option TypeMap :=
  if (retain (unexpired now) typeMap).entries = [] then none
  else some (retain (unexpired now) typeMap)

/-- The number that `evict_expired` subtracts. -/
def expiredCount (cache : DnsCache) (now : Nat) : Nat :=
  (cache.entries.entries.map fun entry =>
    entry.2.entries.length - (retain (unexpired now) entry.2).entries.length).sum

theorem evictExpired_entries (cache : DnsCache) (now : Nat) :
    (cache.evictExpired now).entries = retain (unexpiredMap now) cache.entries :=
  rfl

theorem evictExpired_entryCount (cache : DnsCache) (now : Nat) :
    (cache.evictExpired now).entryCount = cache.entryCount - cache.expiredCount now :=
  rfl

theorem length_unexpiredMap (now : Nat) (domain : Text)
    (typeMap : TypeMap) :
    ((unexpiredMap now domain typeMap).map TypeMap.len).getD 0 =
      (retain (unexpired now) typeMap).entries.length := by
  unfold unexpiredMap
  split
  · rename_i empty
    rw [empty]
    rfl
  · rfl

/-- The entries that `evict_expired` leaves and those it counts are all. -/
theorem stored_evictExpired (cache : DnsCache) (now : Nat) :
    (cache.evictExpired now).stored + cache.expiredCount now = cache.stored := by
  rw [stored, evictExpired_entries, totalWeight_retain, expiredCount, stored, totalWeight]
  induction cache.entries.entries with
  | nil => rfl
  | cons outer entries ih =>
      have shorter : (retain (unexpired now) outer.2).entries.length ≤ outer.2.entries.length :=
        List.length_filterMap_le _ _
      simp only [List.map_cons, List.sum_cons, length_unexpiredMap, TypeMap.len] at ih ⊢
      omega

theorem expiredCount_le {cache : DnsCache} (counted : cache.Counted) (now : Nat) :
    cache.expiredCount now ≤ cache.entryCount := by
  rw [counted.count]
  exact (stored_evictExpired cache now).le.trans' (Nat.le_add_left ..)

theorem counted_evictExpired {cache : DnsCache} (counted : cache.Counted) (now : Nat) :
    (cache.evictExpired now).Counted where
  count := by
    have all := stored_evictExpired cache now
    rw [evictExpired_entryCount, counted.count]
    omega
  nonempty := by
    intro domain typeMap found
    rw [evictExpired_entries, lookup_retain, Option.bind_eq_some_iff] at found
    obtain ⟨old, _, kept⟩ := found
    unfold unexpiredMap at kept
    split at kept
    · cases kept
    · cases kept
      assumption

/-- `evict_expired` removes just the expired entries. -/
theorem entry_evictExpired (cache : DnsCache) (now : Nat) (domain : Text) (qtype : QueryType) :
    (cache.evictExpired now).entry domain qtype =
      (cache.entry domain qtype).bind (unexpired now qtype) := by
  rw [entry_eq_bind, entry_eq_bind, evictExpired_entries, lookup_retain, Option.bind_assoc,
    Option.bind_assoc]
  refine congrArg _ (funext fun typeMap => ?_)
  rw [← lookup_retain, unexpiredMap]
  split
  · rename_i empty
    rw [Option.bind_none, eq_comm, AList.lookup_eq_none, AList.mem_keys, AList.keys, empty]
    simp
  · rfl

/-- The search ends at an entry with the least lifetime left. -/
theorem stalest_eq_some {now : Nat} {entries : List (Text × QueryType × CacheEntry)}
    {worst : Option (Text × QueryType × Nat)} {domain : Text} {qtype : QueryType} {least : Nat}
    (found : stalest now entries worst = some (domain, qtype, least)) :
    (worst = some (domain, qtype, least) ∨
      ∃ entry, (domain, qtype, entry) ∈ entries ∧ least = lifetimeLeft now entry) ∧
    (∀ name type left, worst = some (name, type, left) → least ≤ left) ∧
    ∀ name type entry, (name, type, entry) ∈ entries → least ≤ lifetimeLeft now entry := by
  induction entries generalizing worst with
  | nil =>
      rw [stalest] at found
      refine ⟨.inl found, fun name type left isWorst => ?_, by simp⟩
      rw [found] at isWorst
      cases isWorst
      exact le_rfl
  | cons first rest ih =>
      obtain ⟨name, type, entry⟩ := first
      -- The search goes on with this entry or with the one found before.
      have goesOn : ∃ next, stalest now rest next = some (domain, qtype, least) ∧
          (next = some (name, type, lifetimeLeft now entry) ∨
            next = worst ∧ ∃ before, worst = some before ∧ before.2.2 ≤ lifetimeLeft now entry) ∧
          ∀ before, worst = some before → ∃ after, next = some after ∧ after.2.2 ≤ before.2.2 := by
        rcases worst with _ | ⟨oldName, oldType, left⟩
        · exact ⟨_, found, .inl rfl, by simp⟩
        · simp only [stalest] at found
          split at found
          · rename_i smaller
            refine ⟨_, found, .inl rfl, fun before isBefore => ⟨_, rfl, ?_⟩⟩
            cases isBefore
            exact smaller.le
          · rename_i larger
            exact ⟨_, found, .inr ⟨rfl, _, rfl, Nat.le_of_not_lt larger⟩,
              fun before isBefore => ⟨before, isBefore, le_rfl⟩⟩
      obtain ⟨next, foundNext, source, atMost⟩ := goesOn
      obtain ⟨origin, leastNext, leastRest⟩ := ih foundNext
      refine ⟨?_, ?_, ?_⟩
      · rcases origin with isNext | ⟨later, laterMem, isLeast⟩
        · rcases source with isFirst | ⟨isWorst, _⟩
          · rw [isFirst] at isNext
            cases isNext
            exact .inr ⟨entry, by simp, rfl⟩
          · exact .inl (isWorst ▸ isNext)
        · exact .inr ⟨later, by simp [laterMem], isLeast⟩
      · intro oldName oldType left isWorst
        obtain ⟨after, isAfter, smaller⟩ := atMost _ isWorst
        exact (leastNext _ _ _ isAfter).trans smaller
      · intro other otherType otherEntry otherMem
        rcases List.mem_cons.mp otherMem with isFirst | inRest
        · cases isFirst
          rcases source with isFirst | ⟨isWorst, before, isBefore, smaller⟩
          · exact leastNext _ _ _ isFirst
          · exact (leastNext _ _ _ (isWorst.trans isBefore)).trans smaller
        · exact leastRest _ _ _ inRest

/-- The search finds an entry unless there is none. -/
theorem stalest_eq_none {now : Nat} {entries : List (Text × QueryType × CacheEntry)}
    {worst : Option (Text × QueryType × Nat)} (missing : stalest now entries worst = none) :
    entries = [] ∧ worst = none := by
  induction entries generalizing worst with
  | nil => exact ⟨rfl, missing⟩
  | cons first rest ih =>
      obtain ⟨name, type, entry⟩ := first
      rcases worst with _ | ⟨oldName, oldType, left⟩
      · cases (ih missing).2
      · simp only [stalest] at missing
        split at missing
        · cases (ih missing).2
        · cases (ih missing).2

/-- The number that `evict_stalest` subtracts. -/
def stalestCount (cache : DnsCache) (now : Nat) : Nat :=
  match stalest now cache.allEntries none with
  | none => 0
  | some (domain, qtype, _) => if (cache.entry domain qtype).isSome then 1 else 0

/-- What `evict_stalest` leaves of the entries, when it has found one. -/
def withoutEntry (cache : DnsCache) (domain : Text) (qtype : QueryType)
    (typeMap : TypeMap) : DnsCache :=
  { cache with
    entries :=
      if (typeMap.erase qtype).entries = [] then cache.entries.erase domain
      else cache.entries.insert domain (typeMap.erase qtype)
    entryCount := cache.entryCount - 1 }

/-- `evict_stalest` removes an entry with the least lifetime left, unless the
cache is empty. -/
theorem evictStalest_cases (cache : DnsCache) (now : Nat) :
    (cache.allEntries = [] ∧ cache.stalestCount now = 0 ∧ cache.evictStalest now = cache) ∨
      ∃ domain qtype typeMap entry, cache.entries.lookup domain = some typeMap ∧
        typeMap.lookup qtype = some entry ∧ cache.stalestCount now = 1 ∧
        cache.evictStalest now = cache.withoutEntry domain qtype typeMap ∧
        ∀ name type other, cache.entry name type = some other →
          lifetimeLeft now entry ≤ lifetimeLeft now other := by
  cases found : stalest now cache.allEntries none with
  | none =>
      left
      refine ⟨(stalest_eq_none found).1, ?_, ?_⟩
      · rw [stalestCount, found]
      · rw [evictStalest, found]
  | some worst =>
      right
      obtain ⟨domain, qtype, least⟩ := worst
      obtain ⟨origin, _, leastAll⟩ := stalest_eq_some found
      obtain ⟨entry, entryMem, rfl⟩ := origin.resolve_left (by simp)
      have isEntry := mem_allEntries.mp entryMem
      have present : (cache.entry domain qtype).isSome = true := by simp [isEntry]
      rw [entry_eq_bind, Option.bind_eq_some_iff] at isEntry
      obtain ⟨typeMap, outer, inner⟩ := isEntry
      have inMap : qtype ∈ typeMap := AList.lookup_isSome.mp (by simp [inner])
      refine ⟨domain, qtype, typeMap, entry, outer, inner, ?_, ?_, ?_⟩
      · simp only [stalestCount, found, present, if_true]
      · simp only [evictStalest, found, outer, inMap, if_true, withoutEntry]
      · intro name type other isOther
        exact leastAll name type other (mem_allEntries.mpr isOther)

section WithoutEntry

variable {cache : DnsCache} {domain : Text} {qtype : QueryType}
  {typeMap : TypeMap} {entry : CacheEntry}

theorem stored_withoutEntry (outer : cache.entries.lookup domain = some typeMap)
    (inner : typeMap.lookup qtype = some entry) :
    (cache.withoutEntry domain qtype typeMap).stored + 1 = cache.stored := by
  have inMap : qtype ∈ typeMap := AList.lookup_isSome.mp (by simp [inner])
  have shorter := length_erase inMap
  have all := totalWeight_eq_add_erase TypeMap.len outer
  rw [stored, stored, withoutEntry]
  simp only [TypeMap.len] at all ⊢
  split
  · rename_i empty
    rw [empty, List.length_nil] at shorter
    omega
  · rw [totalWeight_insert, TypeMap.len]
    omega

theorem counted_withoutEntry (counted : cache.Counted)
    (outer : cache.entries.lookup domain = some typeMap)
    (inner : typeMap.lookup qtype = some entry) :
    (cache.withoutEntry domain qtype typeMap).Counted where
  count := by
    have all := stored_withoutEntry outer inner
    have count := counted.count
    change cache.entryCount - 1 = _
    omega
  nonempty := by
    intro name held found
    simp only [withoutEntry] at found
    split at found
    · by_cases same : name = domain
      · rw [same, AList.lookup_erase] at found
        cases found
      · rw [AList.lookup_erase_ne same] at found
        exact counted.nonempty name held found
    · by_cases same : name = domain
      · rw [same, AList.lookup_insert] at found
        cases found
        assumption
      · rw [AList.lookup_insert_ne same] at found
        exact counted.nonempty name held found

theorem entry_withoutEntry (outer : cache.entries.lookup domain = some typeMap) (name : Text)
    (type : QueryType) :
    (cache.withoutEntry domain qtype typeMap).entry name type =
      if (name, type) = (domain, qtype) then none else cache.entry name type := by
  rw [entry_eq_bind, entry_eq_bind, withoutEntry]
  by_cases sameName : name = domain
  · subst sameName
    by_cases sameType : type = qtype
    · subst sameType
      dsimp only
      split <;> simp
    · have different : (name, type) ≠ (name, qtype) := by simp [sameType]
      rw [if_neg different, outer, Option.bind_some]
      dsimp only
      split
      · rename_i empty
        rw [AList.lookup_erase, Option.bind_none, ← AList.lookup_erase_ne sameType, eq_comm,
          AList.lookup_eq_none, AList.mem_keys, AList.keys, empty]
        simp
      · rw [AList.lookup_insert, Option.bind_some, AList.lookup_erase_ne sameType]
  · have different : (name, type) ≠ (domain, qtype) := by simp [sameName]
    rw [if_neg different]
    dsimp only
    split
    · rw [AList.lookup_erase_ne sameName]
    · rw [AList.lookup_insert_ne sameName]

end WithoutEntry

/-- An insertion may remove an entry when the cache is full and the entry is
expired or the one with the least lifetime left. -/
def Evictable (cache : DnsCache) (now : Nat) (victim : Text × QueryType) (domain : Text)
    (qtype : QueryType) (entry : CacheEntry) : Prop :=
  cache.maxEntries ≤ cache.entryCount ∧
    (Expired now entry ∨ (domain, qtype) = victim ∧
      ∀ name type other, cache.entry name type = some other →
        lifetimeLeft now entry ≤ lifetimeLeft now other)

/-- The counter is right and within its bound. -/
structure Consistent (cache : DnsCache) : Prop extends Counted cache where
  bounded : cache.entryCount ≤ max cache.maxEntries 1
  ordered : cache.minTtl ≤ cache.maxTtl

/-- The room that an insertion has made. -/
structure RoomMade (before : DnsCache) (now : Nat) (after : DnsCache) : Prop
    extends Counted after where
  room : after.entryCount < max before.maxEntries 1
  maxEntries : after.maxEntries = before.maxEntries
  evicted : ∃ victim, ∀ domain qtype,
    after.entry domain qtype = before.entry domain qtype ∨
      after.entry domain qtype = none ∧
        ∃ entry, before.entry domain qtype = some entry ∧
          before.Evictable now victim domain qtype entry

/-- Some expired entries were counted when they made room. -/
theorem roomMade_evictExpired {cache : DnsCache} {now : Nat} (consistent : cache.Consistent)
    (full : cache.maxEntries ≤ cache.entryCount)
    (room : (cache.evictExpired now).entryCount < max cache.maxEntries 1) :
    RoomMade cache now (cache.evictExpired now) where
  toCounted := counted_evictExpired consistent.toCounted now
  room := room
  maxEntries := rfl
  evicted := by
    refine ⟨([], .a), fun domain qtype => ?_⟩
    rw [entry_evictExpired]
    cases isEntry : cache.entry domain qtype with
    | none => exact .inl rfl
    | some entry =>
        rw [Option.bind_some, unexpired]
        split
        · exact .inl rfl
        · rename_i expired
          exact .inr ⟨rfl, entry, rfl, full, .inl (Nat.le_of_not_lt expired)⟩

/-- Without an expired entry `evict_expired` changes nothing that is seen. -/
theorem entry_evictExpired_of_count {cache : DnsCache} {now : Nat} (counted : cache.Counted)
    (same : (cache.evictExpired now).entryCount = cache.entryCount) (domain : Text)
    (qtype : QueryType) :
    (cache.evictExpired now).entry domain qtype = cache.entry domain qtype := by
  have subset : (cache.evictExpired now).keys ⊆ cache.keys := by
    rintro ⟨name, type⟩ keyMem
    rw [mem_keys, entry_evictExpired] at keyMem
    rw [mem_keys]
    cases isEntry : cache.entry name type with
    | none => simp [isEntry] at keyMem
    | some entry => rfl
  have keysEq : (cache.evictExpired now).keys = cache.keys := by
    apply Finset.eq_of_subset_of_card_le subset
    rw [card_keys, card_keys, ← counted.count, ← same,
      (counted_evictExpired counted now).count]
  rcases (shrinks_evictExpired cache now).entry domain qtype with kept | gone
  · exact kept
  · have missing : (domain, qtype) ∉ cache.keys := by
      rw [← keysEq, mem_keys, gone]
      simp
    rw [mem_keys, Option.not_isSome_iff_eq_none] at missing
    rw [gone, missing]

/-- In a cache that stays full nothing is expired, and the stalest entry goes. -/
theorem roomMade_evictStalest {cache : DnsCache} {now : Nat} (consistent : cache.Consistent)
    (full : cache.maxEntries ≤ (cache.evictExpired now).entryCount) :
    RoomMade cache now ((cache.evictExpired now).evictStalest now) := by
  have counted := counted_evictExpired consistent.toCounted now
  have wasFull : cache.maxEntries ≤ cache.entryCount := by
    rw [evictExpired_entryCount] at full
    omega
  have bounded := consistent.bounded
  rcases evictStalest_cases (cache.evictExpired now) now with
    ⟨empty, _, same⟩ | ⟨domain, qtype, typeMap, entry, outer, inner, _, isWithout, least⟩
  · have none : (cache.evictExpired now).entryCount = 0 := by
      rw [counted.count, ← length_allEntries, empty, List.length_nil]
    rw [same]
    exact roomMade_evictExpired consistent wasFull (by omega)
  · have stored := stored_withoutEntry outer inner
    have nonzero : 0 < (cache.evictExpired now).entryCount := by
      rw [counted.count]
      omega
    have sameCount : (cache.evictExpired now).entryCount = cache.entryCount := by
      rw [evictExpired_entryCount] at full nonzero ⊢
      omega
    have sameEntry := entry_evictExpired_of_count consistent.toCounted sameCount
    rw [isWithout]
    refine ⟨counted_withoutEntry counted outer inner, ?_, rfl, (domain, qtype),
      fun name type => ?_⟩
    · change (cache.evictExpired now).entryCount - 1 < _
      omega
    · rw [entry_withoutEntry outer, sameEntry]
      split
      · rename_i isVictim
        cases isVictim
        refine .inr ⟨rfl, entry, ?_, wasFull, .inr ⟨rfl, fun other type held isHeld => ?_⟩⟩
        · rw [← sameEntry, entry_eq_bind, outer, Option.bind_some, inner]
        · exact least other type held ((sameEntry other type).trans isHeld)
      · exact .inl rfl

theorem roomMade_makeRoom {cache : DnsCache} (consistent : cache.Consistent) (now : Nat) :
    RoomMade cache now (cache.makeRoom now) := by
  unfold makeRoom
  split
  · rename_i full
    dsimp only
    split
    · rename_i stillFull
      exact roomMade_evictStalest consistent stillFull
    · rename_i room
      change ¬ cache.maxEntries ≤ _ at room
      exact roomMade_evictExpired consistent full (by omega)
  · rename_i room
    exact ⟨consistent.toCounted, by omega, rfl, ([], .a), fun _ _ => .inl rfl⟩

/-! ## Insertion -/

/-- What `insert_wire` does once there is room. -/
def withEntry (cache : DnsCache) (domain : Text) (qtype : QueryType) (entry : CacheEntry) :
    DnsCache :=
  let typeMap := (cache.entries.lookup domain).getD ∅
  { cache with
    entries := cache.entries.insert domain (typeMap.insert qtype entry)
    entryCount := if qtype ∈ typeMap then cache.entryCount else cache.entryCount + 1 }

/-- The entry that an insertion makes. -/
def newEntry (cache : DnsCache) (now : Nat) (wire : Wire) (status : DnssecStatus) : CacheEntry where
  wire := wire
  insertedAt := now
  ttl := cache.lifetime wire
  dnssecStatus := status

theorem insertWire_eq {cache : DnsCache} (bounds : cache.minTtl ≤ cache.maxTtl) (now : Nat)
    (domain : Text) (qtype : QueryType) (wire : Wire) (status : DnssecStatus) :
    cache.insertWire now domain qtype wire status = some
      (if wire.scans then
        (cache.makeRoom now).withEntry domain qtype (cache.newEntry now wire status)
      else cache) := by
  have shrinks := shrinks_makeRoom cache now
  have ordered : ¬ (cache.makeRoom now).maxTtl < (cache.makeRoom now).minTtl := by
    rw [shrinks.maxTtl, shrinks.minTtl]
    exact UInt32.not_lt.mpr bounds
  unfold insertWire
  cases wire.scans with
  | false => rfl
  | true =>
      simp only [ordered, Bool.not_true, Bool.false_eq_true, if_false, if_true,
        lifetime_eq_of_shrinks shrinks]
      rfl

theorem entry_withEntry (cache : DnsCache) (domain : Text) (qtype : QueryType)
    (entry : CacheEntry) (name : Text) (type : QueryType) :
    (cache.withEntry domain qtype entry).entry name type =
      if (name, type) = (domain, qtype) then some entry else cache.entry name type := by
  rw [entry_eq_bind, entry_eq_bind, withEntry]
  by_cases sameName : name = domain
  · subst sameName
    rw [AList.lookup_insert, Option.bind_some]
    by_cases sameType : type = qtype
    · subst sameType
      rw [AList.lookup_insert, if_pos rfl]
    · have different : (name, type) ≠ (name, qtype) := by simp [sameType]
      rw [AList.lookup_insert_ne sameType, if_neg different]
      cases cache.entries.lookup name <;> rfl
  · have different : (name, type) ≠ (domain, qtype) := by simp [sameName]
    rw [AList.lookup_insert_ne sameName, if_neg different]

theorem counted_withEntry {cache : DnsCache} (counted : cache.Counted) (domain : Text)
    (qtype : QueryType) (entry : CacheEntry) :
    (cache.withEntry domain qtype entry).Counted where
  count := by
    have all := totalWeight_eq_getD_add_erase TypeMap.len cache.entries domain
    have old : ((cache.entries.lookup domain).map TypeMap.len).getD 0 =
        ((cache.entries.lookup domain).getD ∅).entries.length := by
      cases cache.entries.lookup domain <;> rfl
    have count := counted.count
    rw [stored] at count ⊢
    simp only [withEntry]
    rw [totalWeight_insert, TypeMap.len, length_insert]
    split <;> omega
  nonempty := by
    intro name typeMap found
    by_cases same : name = domain
    · subst same
      rw [withEntry, AList.lookup_insert] at found
      cases found
      rw [AList.entries_insert]
      exact List.cons_ne_nil _ _
    · rw [withEntry, AList.lookup_insert_ne same] at found
      exact counted.nonempty name typeMap found

theorem consistent_insertWire {cache after : DnsCache} (consistent : cache.Consistent)
    {now : Nat} {domain : Text} {qtype : QueryType} {wire : Wire} {status : DnssecStatus}
    (inserted : cache.insertWire now domain qtype wire status = some after) :
    after.Consistent := by
  rw [insertWire_eq consistent.ordered] at inserted
  cases inserted
  split
  · have made := roomMade_makeRoom consistent now
    have shrinks := shrinks_makeRoom cache now
    refine ⟨counted_withEntry made.toCounted domain qtype _, ?_, ?_⟩
    · have room := made.room
      have sameMax := made.maxEntries
      simp only [withEntry]
      split <;> omega
    · change (cache.makeRoom now).minTtl ≤ (cache.makeRoom now).maxTtl
      rw [shrinks.minTtl, shrinks.maxTtl]
      exact consistent.ordered
  · exact consistent

/-- An insertion that scans stores the message and removes only what is
expired or the stalest entry, and these only from a full cache. -/
theorem entry_insertWire_of_scans {cache : DnsCache} (consistent : cache.Consistent) (now : Nat)
    (domain : Text) (qtype : QueryType) (wire : Wire) (status : DnssecStatus)
    (scans : wire.scans = true) :
    ∃ after, cache.insertWire now domain qtype wire status = some after ∧
      after.entry domain qtype = some (cache.newEntry now wire status) ∧
      ∃ victim, ∀ name type, (name, type) ≠ (domain, qtype) →
        after.entry name type = cache.entry name type ∨
          after.entry name type = none ∧ ∃ entry, cache.entry name type = some entry ∧
            cache.Evictable now victim name type entry := by
  obtain ⟨victim, evicted⟩ := (roomMade_makeRoom consistent now).evicted
  refine ⟨_, insertWire_eq consistent.ordered now domain qtype wire status, ?_, victim,
    fun name type different => ?_⟩
  · rw [if_pos scans, entry_withEntry, if_pos rfl]
  · rw [if_pos scans, entry_withEntry, if_neg different]
    exact evicted name type

/-! ## The other operations and whole runs -/

theorem consistent_new (maxEntries : Nat) {minTtl maxTtl : UInt32} (ordered : minTtl ≤ maxTtl) :
    (new maxEntries minTtl maxTtl).Consistent where
  count := rfl
  nonempty := by simp [new]
  bounded := Nat.zero_le _
  ordered := ordered

theorem consistent_clear {cache : DnsCache} (consistent : cache.Consistent) :
    cache.clear.Consistent where
  count := rfl
  nonempty := by simp [clear]
  bounded := Nat.zero_le _
  ordered := consistent.ordered

theorem consistent_remove {cache : DnsCache} (consistent : cache.Consistent)
    (toLowercase : Text → Text) (domain : Text) :
    (cache.remove toLowercase domain).Consistent := by
  unfold remove
  cases found : cache.entries.lookup (toLowercase domain) with
  | none => exact consistent
  | some typeMap =>
      have all := totalWeight_eq_add_erase TypeMap.len found
      have count := consistent.count
      have bounded := consistent.bounded
      rw [stored, all, TypeMap.len] at count
      refine ⟨⟨?_, fun name held isHeld => ?_⟩, ?_, consistent.ordered⟩
      · rw [stored]
        dsimp only
        omega
      · by_cases same : name = toLowercase domain
        · rw [same, AList.lookup_erase] at isHeld
          cases isHeld
        · rw [AList.lookup_erase_ne same] at isHeld
          exact consistent.nonempty name held isHeld
      · dsimp only
        omega

theorem consistent_insertWithStatus {cache after : DnsCache} (consistent : cache.Consistent)
    {now : Nat} {domain : Text} {qtype : QueryType} {packet : DnsPacket} {status : DnssecStatus}
    (inserted : cache.insertWithStatus now domain qtype packet status = some after) :
    after.Consistent := by
  unfold insertWithStatus at inserted
  split at inserted
  · cases inserted
    exact consistent
  · exact consistent_insertWire consistent inserted

/-! ## The entries of a run -/

/-- The bounds stay, and an entry was there before or holds a message that is
inserted. -/
structure Updates (now : Nat) (before after : DnsCache) : Prop where
  minTtl : after.minTtl = before.minTtl
  maxTtl : after.maxTtl = before.maxTtl
  entry : ∀ name type entry, after.entry name type = some entry →
    before.entry name type = some entry ∨
      ∃ octets status, (scanTtlOffsets octets).isOk = true ∧
        entry = before.newEntry now (.ofOctets octets) status

theorem updates_insertWire {cache after : DnsCache} {now : Nat} {domain : Text}
    {qtype : QueryType} {octets : List UInt8} {status : DnssecStatus}
    (inserted : cache.insertWire now domain qtype (.ofOctets octets) status = some after) :
    Updates now cache after := by
  obtain ⟨maxTtl, minTtl, entries⟩ := entry_insertWire inserted
  refine ⟨minTtl, maxTtl, fun name type entry isEntry => ?_⟩
  rcases entries name type with same | gone | ⟨-, scans, stored⟩
  · exact .inl (same ▸ isEntry)
  · rw [gone] at isEntry
    cases isEntry
  · rw [stored] at isEntry
    cases isEntry
    exact .inr ⟨octets, status, scans, rfl⟩

theorem updates_insertWithStatus {cache after : DnsCache} {now : Nat} {domain : Text}
    {qtype : QueryType} {packet : DnsPacket} {status : DnssecStatus}
    (inserted : cache.insertWithStatus now domain qtype packet status = some after) :
    Updates now cache after := by
  unfold insertWithStatus at inserted
  split at inserted
  · cases inserted
    exact ⟨rfl, rfl, fun _ _ _ => .inl⟩
  · exact updates_insertWire inserted

theorem updates_apply {toLowercase : Text → Text} {cache after : DnsCache} {now : Nat}
    {operation : Operation} (applied : cache.apply toLowercase now operation = some after) :
    Updates now cache after := by
  cases operation with
  | insertWire domain qtype octets status => exact updates_insertWire applied
  | insert domain qtype packet => exact updates_insertWithStatus applied
  | insertWithStatus domain qtype packet status => exact updates_insertWithStatus applied
  | remove domain =>
      cases applied
      refine ⟨?_, ?_, fun name type entry isEntry => ?_⟩
      · unfold remove
        split <;> rfl
      · unfold remove
        split <;> rfl
      · rcases entry_remove toLowercase cache domain name type with same | gone
        · exact .inl (same ▸ isEntry)
        · rw [gone] at isEntry
          cases isEntry
  | clear =>
      cases applied
      refine ⟨rfl, rfl, fun name type entry isEntry => ?_⟩
      cases isEntry
  | _ =>
      cases applied
      exact ⟨rfl, rfl, fun _ _ _ => .inl⟩

/-- What holds of the entries of a cache and of every entry that is inserted
holds of the entries of a run. -/
theorem entry_applyAll {toLowercase : Text → Text} (Kept : CacheEntry → Prop)
    {cache after : DnsCache} {operations : List (Nat × Operation)}
    (ran : cache.applyAll toLowercase operations = some after)
    (inserted : ∀ now octets status, (scanTtlOffsets octets).isOk = true →
      Kept (cache.newEntry now (.ofOctets octets) status))
    (kept : ∀ name type entry, cache.entry name type = some entry → Kept entry) :
    ∀ name type entry, after.entry name type = some entry → Kept entry := by
  induction operations generalizing cache with
  | nil =>
      cases ran
      exact kept
  | cons timed operations ih =>
      obtain ⟨now, operation⟩ := timed
      obtain ⟨middle, applied, rest⟩ := Option.bind_eq_some_iff.mp ran
      obtain ⟨minTtl, maxTtl, entries⟩ := updates_apply applied
      have sameEntry : middle.newEntry = cache.newEntry := by
        funext now wire status
        rw [newEntry, newEntry, lifetime, lifetime, minTtl, maxTtl]
      apply ih rest
      · rw [sameEntry]
        exact inserted
      · intro name type entry isEntry
        rcases entries name type entry isEntry with before | ⟨octets, status, scans, rfl⟩
        · exact kept name type entry before
        · exact inserted now octets status scans

section Operations

variable (toLowercase : Text → Text)

/-- An operation succeeds and keeps the invariant. -/
theorem apply_consistent {cache : DnsCache} (consistent : cache.Consistent) (now : Nat)
    (operation : Operation) :
    ∃ after, cache.apply toLowercase now operation = some after ∧ after.Consistent ∧
      after.maxEntries = cache.maxEntries := by
  have insertion : ∀ domain qtype wire status, ∃ after,
      cache.insertWire now domain qtype wire status = some after ∧ after.Consistent ∧
        after.maxEntries = cache.maxEntries := by
    intro domain qtype wire status
    have inserted := insertWire_eq consistent.ordered now domain qtype wire status
    refine ⟨_, inserted, consistent_insertWire consistent inserted, ?_⟩
    split
    · exact (roomMade_makeRoom consistent now).maxEntries
    · rfl
  have packetInsertion : ∀ domain qtype packet status, ∃ after,
      cache.insertWithStatus now domain qtype packet status = some after ∧ after.Consistent ∧
        after.maxEntries = cache.maxEntries := by
    intro domain qtype packet status
    unfold insertWithStatus
    split
    · exact ⟨cache, rfl, consistent, rfl⟩
    · exact insertion domain qtype _ status
  cases operation with
  | insertWire domain qtype wire status => exact insertion domain qtype (.ofOctets wire) status
  | insert domain qtype packet => exact packetInsertion domain qtype packet .indeterminate
  | insertWithStatus domain qtype packet status => exact packetInsertion domain qtype packet status
  | remove domain =>
      refine ⟨_, rfl, consistent_remove consistent toLowercase domain, ?_⟩
      unfold remove
      split <;> rfl
  | clear => exact ⟨_, rfl, consistent_clear consistent, rfl⟩
  | lookupWire => exact ⟨cache, rfl, consistent, rfl⟩
  | lookup => exact ⟨cache, rfl, consistent, rfl⟩
  | lookupWithStatus => exact ⟨cache, rfl, consistent, rfl⟩

/-- A run succeeds and keeps the invariant. -/
theorem applyAll_consistent {cache : DnsCache} (consistent : cache.Consistent)
    (operations : List (Nat × Operation)) :
    ∃ after, cache.applyAll toLowercase operations = some after ∧ after.Consistent ∧
      after.maxEntries = cache.maxEntries := by
  induction operations generalizing cache with
  | nil => exact ⟨cache, rfl, consistent, rfl⟩
  | cons timed operations ih =>
      obtain ⟨now, operation⟩ := timed
      obtain ⟨middle, applied, middleConsistent, middleMax⟩ :=
        apply_consistent toLowercase consistent now operation
      obtain ⟨after, ran, afterConsistent, afterMax⟩ := ih middleConsistent
      refine ⟨after, ?_, afterConsistent, afterMax.trans middleMax⟩
      rw [applyAll, applied]
      exact ran

/-! The subtractions from the counter: what it is and what is subtracted. -/

def roomSubtractions (cache : DnsCache) (now : Nat) : List (Nat × Nat) :=
  if cache.maxEntries ≤ cache.entryCount then
    (cache.entryCount, cache.expiredCount now) ::
      if cache.maxEntries ≤ (cache.evictExpired now).entryCount then
        [((cache.evictExpired now).entryCount, (cache.evictExpired now).stalestCount now)]
      else []
  else []

def insertSubtractions (cache : DnsCache) (now : Nat) (wire : Wire) : List (Nat × Nat) :=
  if wire.scans then cache.roomSubtractions now else []

def packetSubtractions (cache : DnsCache) (now : Nat) (packet : DnsPacket) : List (Nat × Nat) :=
  match BytePacketBuffer.exec packet.write .new with
  | (.error _, _) => []
  | (.ok _, buffer) => cache.insertSubtractions now (.ofOctets buffer.filled)

def subtractions (cache : DnsCache) (now : Nat) : Operation → List (Nat × Nat)
  | .insertWire _ _ wire _ => cache.insertSubtractions now (.ofOctets wire)
  | .insert _ _ packet => cache.packetSubtractions now packet
  | .insertWithStatus _ _ packet _ => cache.packetSubtractions now packet
  | .remove domain =>
    match cache.entries.lookup (toLowercase domain) with
    | none => []
    | some typeMap => [(cache.entryCount, typeMap.entries.length)]
  | .clear => []
  | .lookupWire .. => []
  | .lookup .. => []
  | .lookupWithStatus .. => []

theorem evictStalest_entryCount (cache : DnsCache) (now : Nat) :
    (cache.evictStalest now).entryCount = cache.entryCount - cache.stalestCount now := by
  rcases evictStalest_cases cache now with
    ⟨_, count, same⟩ | ⟨_, _, _, _, _, _, count, isWithout, _⟩
  · rw [same, count, Nat.sub_zero]
  · rw [isWithout, count]
    rfl

theorem stalestCount_le {cache : DnsCache} (counted : cache.Counted) (now : Nat) :
    cache.stalestCount now ≤ cache.entryCount := by
  rcases evictStalest_cases cache now with
    ⟨_, count, _⟩ | ⟨_, _, _, _, outer, inner, count, _, _⟩
  · rw [count]
    exact Nat.zero_le _
  · have stored := stored_withoutEntry outer inner
    rw [count, counted.count]
    omega

theorem roomSubtractions_le {cache : DnsCache} (counted : cache.Counted) {now : Nat}
    {subtraction : Nat × Nat} (mem : subtraction ∈ cache.roomSubtractions now) :
    subtraction.2 ≤ subtraction.1 := by
  unfold roomSubtractions at mem
  split at mem
  · rcases List.mem_cons.mp mem with rfl | mem
    · exact expiredCount_le counted now
    · split at mem
      · cases List.mem_singleton.mp mem
        exact stalestCount_le (counted_evictExpired counted now) now
      · cases mem
  · cases mem

/-- No subtraction from the counter underflows. -/
theorem subtractions_le {cache : DnsCache} (counted : cache.Counted) {now : Nat}
    {operation : Operation} {subtraction : Nat × Nat}
    (mem : subtraction ∈ cache.subtractions toLowercase now operation) :
    subtraction.2 ≤ subtraction.1 := by
  have insertion : ∀ wire, subtraction ∈ cache.insertSubtractions now wire →
      subtraction.2 ≤ subtraction.1 := by
    intro wire inserted
    unfold insertSubtractions at inserted
    split at inserted
    · exact roomSubtractions_le counted inserted
    · cases inserted
  have packetInsertion : ∀ packet, subtraction ∈ cache.packetSubtractions now packet →
      subtraction.2 ≤ subtraction.1 := by
    intro packet inserted
    unfold packetSubtractions at inserted
    split at inserted
    · cases inserted
    · exact insertion _ inserted
  cases operation with
  | insertWire domain qtype wire status => exact insertion (.ofOctets wire) mem
  | insert domain qtype packet => exact packetInsertion packet mem
  | insertWithStatus domain qtype packet status => exact packetInsertion packet mem
  | remove domain =>
      simp only [subtractions] at mem
      split at mem
      · cases mem
      · rename_i typeMap found
        cases List.mem_singleton.mp mem
        have all := totalWeight_eq_add_erase TypeMap.len found
        rw [TypeMap.len] at all
        have count := counted.count
        rw [stored, all] at count
        dsimp only
        omega
  | clear => cases mem
  | lookupWire => cases mem
  | lookup => cases mem
  | lookupWithStatus => cases mem

/-- In every run from an empty cache, whatever the times of its operations,
nothing panics, the counter is the number of keys that hold an entry, no name
has an empty map, no subtraction from the counter underflows and the maximum is
kept.  An insertion next stores just its octets and removes other entries only
when the cache is full: expired ones, or the stalest one.  A message that does
not scan is ignored. -/
theorem applyAll_new (maxEntries : Nat) {minTtl maxTtl : UInt32} (ordered : minTtl ≤ maxTtl)
    (operations : List (Nat × Operation)) :
    ∃ cache, (new maxEntries minTtl maxTtl).applyAll toLowercase operations = some cache ∧
      cache.entryCount = cache.keys.card ∧
      (∀ domain typeMap, cache.entries.lookup domain = some typeMap → typeMap.entries ≠ []) ∧
      cache.len ≤ max maxEntries 1 ∧
      (∀ now operation, ∀ subtraction ∈ cache.subtractions toLowercase now operation,
        subtraction.2 ≤ subtraction.1) ∧
      ∀ now domain qtype octets status,
        ((scanTtlOffsets octets).isOk = false →
          cache.apply toLowercase now (.insertWire domain qtype octets status) = some cache) ∧
        ((scanTtlOffsets octets).isOk = true →
          ∃ after,
            cache.apply toLowercase now (.insertWire domain qtype octets status) = some after ∧
            (∃ entry, after.entry domain qtype = some entry ∧ entry.wire.octets = octets ∧
              entry.insertedAt = now ∧ entry.dnssecStatus = status) ∧
            ∃ victim, ∀ name type, (name, type) ≠ (domain, qtype) →
              after.entry name type = cache.entry name type ∨
                after.entry name type = none ∧ ∃ entry, cache.entry name type = some entry ∧
                  cache.Evictable now victim name type entry) := by
  obtain ⟨cache, ran, consistent, sameMax⟩ :=
    applyAll_consistent toLowercase (consistent_new maxEntries ordered) operations
  refine ⟨cache, ran, ?_, consistent.nonempty, ?_, ?_, ?_⟩
  · rw [card_keys, consistent.count]
  · have bounded := consistent.bounded
    rwa [sameMax] at bounded
  · intro now operation subtraction
    exact subtractions_le toLowercase consistent.toCounted
  · intro now domain qtype octets status
    refine ⟨fun fails => ?_, fun scans => ?_⟩
    · have inserted := insertWire_eq consistent.ordered now domain qtype (.ofOctets octets) status
      have notScans : ¬ (Wire.ofOctets octets).scans = true := by
        simpa [Wire.ofOctets] using fails
      rw [if_neg notScans] at inserted
      exact inserted
    · obtain ⟨after, inserted, stored, evicted⟩ := entry_insertWire_of_scans consistent now
        domain qtype (.ofOctets octets) status scans
      exact ⟨after, inserted, ⟨_, stored, rfl, rfl, rfl⟩, evicted⟩

end Operations

/-- A cache for one entry in which a second message replaces the first. -/
theorem applyAll_new_one :
    ∃ cache, (new 1 60 3600).applyAll Text.toLowercase
        [(0, .insertWire (text "a.test") .a (List.replicate 12 0) .secure),
          (5, .insertWire (text "b.test") .a (List.replicate 12 0) .insecure)] = some cache ∧
      cache.len ≤ 1 := by
  obtain ⟨cache, ran, _, _, bounded, _⟩ := applyAll_new Text.toLowercase 1
    (by decide : (60 : UInt32) ≤ 3600)
    [(0, .insertWire (text "a.test") .a (List.replicate 12 0) .secure),
      (5, .insertWire (text "b.test") .a (List.replicate 12 0) .insecure)]
  exact ⟨cache, ran, bounded⟩

end DnsCache

end Numa
