import Numa.NestedMap
import Numa.WireScan

/-!
# The cache

`DnsCache` of `cache.rs`.  It stores the octets of a message and patches the
identifier and the TTLs in the copy it returns.  Beside the octets of a stored
message the model keeps what the program gets out of them: whether
`scan_ttl_offsets` accepts them, the TTL that `min_ttl_from_wire` finds and the
packet that `from_buffer` reads.  Hash maps are association lists without
duplicate keys.
-/

namespace Numa

/-- `Duration::from_secs`.  Points in time and durations are in nanoseconds. -/
def fromSecs (secs : Nat) : Nat :=
  secs * 1000000000

inductive Freshness
  | fresh
  | nearExpiry
  | stale
  deriving DecidableEq

def Freshness.needsRefresh : Freshness → Bool
  | fresh => false
  | nearExpiry => true
  | stale => true

namespace DnsPacket

/-- `patch_ttls` with `patch_id`, as `from_buffer` reads the result. -/
def patch (id : UInt16) (ttl : UInt32) (packet : DnsPacket) : DnsPacket :=
  { packet with
    header := { packet.header with id := id }
    answers := packet.answers.map (DnsRecord.withTtl ttl)
    authorities := packet.authorities.map (DnsRecord.withTtl ttl)
    resources := packet.resources.map (DnsRecord.withTtl ttl) }

/-- `DnsPacket::query`. -/
def query (id : UInt16) (domain : Text) (qtype : QueryType) : DnsPacket where
  header := { id := id, recursionDesired := true }
  questions := [⟨domain, qtype⟩]

/-- `DnsPacket::response_from`. -/
def responseFrom (query : DnsPacket) (rescode : ResultCode) : DnsPacket where
  header :=
    { id := query.header.id
      response := true
      recursionDesired := query.header.recursionDesired
      recursionAvailable := true
      rescode := rescode }
  questions := query.questions

end DnsPacket

/-- A message, with what the program gets out of its octets. -/
structure Wire where
  octets : List UInt8
  /-- Does `scan_ttl_offsets` accept it? -/
  scans : Bool
  /-- `min_ttl_from_wire`. -/
  minTtl : Option UInt32
  /-- `DnsPacket::from_buffer`. -/
  packet : Option DnsPacket
  deriving DecidableEq

/-- The message of a packet that `DnsPacket::write` can serialize. -/
def Wire.ofPacket (packet : DnsPacket) : Wire where
  octets := (BytePacketBuffer.exec packet.write .new).2.filled
  scans := true
  minTtl := (packet.answers.map DnsRecord.ttl).min?
  packet := some packet

/-- The message that some octets are. -/
def Wire.ofOctets (octets : List UInt8) : Wire where
  octets := octets
  scans := (scanTtlOffsets octets).isOk
  minTtl := (scanTtlOffsets octets).toOption.bind (minTtlFromWire octets)
  packet := (BytePacketBuffer.exec DnsPacket.fromBuffer (.fromBytes octets)).1.toOption

/-- The records in a message. -/
def Wire.records (wire : Wire) : List DnsRecord :=
  (wire.packet.map DnsPacket.records).getD []

structure CacheEntry where
  wire : Wire
  insertedAt : Nat
  ttl : Nat
  dnssecStatus : DnssecStatus
  deriving DecidableEq

/-- `STALE_WINDOW`. -/
def staleWindow : Nat := fromSecs 3600

structure DnsCache where
  entries : AList fun _ : Text => AList fun _ : QueryType => CacheEntry
  entryCount : Nat
  maxEntries : Nat
  minTtl : UInt32
  maxTtl : UInt32

namespace DnsCache

def new (maxEntries : Nat) (minTtl maxTtl : UInt32) : DnsCache where
  entries := ∅
  entryCount := 0
  maxEntries := maxEntries
  minTtl := minTtl
  maxTtl := maxTtl

/-- The entry stored under a name and a type. -/
def entry (cache : DnsCache) (domain : Text) (qtype : QueryType) : Option CacheEntry := do
  let typeMap ← cache.entries.lookup domain
  typeMap.lookup qtype

/-- The TTL and the freshness an entry is served with, if it is. -/
def remaining (entry : CacheEntry) (now : Nat) : Option (UInt32 × Freshness) :=
  let elapsed := now - entry.insertedAt
  if elapsed < entry.ttl then
    let secs := ((entry.ttl - elapsed) / fromSecs 1).toUInt32
    let freshness := if entry.ttl * 9 ≤ elapsed * 10 then .nearExpiry else .fresh
    some (max secs 1, freshness)
  else if elapsed < entry.ttl + staleWindow then some (1, .stale)
  else none

/-- `lookup_wire`, with the packet that the patched octets hold. -/
def lookupWire (cache : DnsCache) (now : Nat) (domain : Text) (qtype : QueryType)
    (newId : UInt16) : Option (Option DnsPacket × DnssecStatus × Freshness) := do
  let entry ← cache.entry domain qtype
  let (ttl, freshness) ← remaining entry now
  some (entry.wire.packet.map (DnsPacket.patch newId ttl), entry.dnssecStatus, freshness)

def lookupWithStatus (cache : DnsCache) (now : Nat) (domain : Text) (qtype : QueryType) :
    Option (DnsPacket × DnssecStatus × Freshness) := do
  let (wire, status, freshness) ← cache.lookupWire now domain qtype 0
  let packet ← wire
  some (packet, status, freshness)

def lookup (cache : DnsCache) (now : Nat) (domain : Text) (qtype : QueryType) :
    Option DnsPacket :=
  (cache.lookupWithStatus now domain qtype).map Prod.fst

def evictExpired (cache : DnsCache) (now : Nat) : DnsCache :=
  let unexpired : QueryType → CacheEntry → Option CacheEntry := fun _ entry =>
    if now - entry.insertedAt < entry.ttl then some entry else none
  let entries := retain
    (fun _ typeMap =>
      let typeMap := retain unexpired typeMap
      if typeMap.entries = [] then none else some typeMap)
    cache.entries
  let count := (cache.entries.entries.map fun entry =>
    entry.2.entries.length - (retain unexpired entry.2).entries.length).sum
  { cache with entries := entries, entryCount := cache.entryCount - count }

/-- The search of `evict_stalest` for the entry with the least lifetime left,
the first one among equals. -/
def stalest (now : Nat) :
    List (Text × QueryType × CacheEntry) → Option (Text × QueryType × Nat) →
      Option (Text × QueryType × Nat)
  | [], worst => worst
  | (domain, qtype, entry) :: rest, worst =>
    let remaining := entry.ttl - (now - entry.insertedAt)
    match worst with
    | none => stalest now rest (some (domain, qtype, remaining))
    | some (_, _, least) =>
      if remaining < least then stalest now rest (some (domain, qtype, remaining))
      else stalest now rest worst

/-- All entries with their keys. -/
def allEntries (cache : DnsCache) : List (Text × QueryType × CacheEntry) :=
  cache.entries.entries.flatMap fun outer =>
    outer.2.entries.map fun inner => (outer.1, inner.1, inner.2)

def evictStalest (cache : DnsCache) (now : Nat) : DnsCache :=
  match stalest now cache.allEntries none with
  | none => cache
  | some (domain, qtype, _) =>
    match cache.entries.lookup domain with
    | none => cache
    | some typeMap =>
      let removed := if qtype ∈ typeMap then 1 else 0
      let typeMap := typeMap.erase qtype
      { cache with
        entries :=
          if typeMap.entries = [] then cache.entries.erase domain
          else cache.entries.insert domain typeMap
        entryCount := cache.entryCount - removed }

/-- Make room for one more entry. -/
def makeRoom (cache : DnsCache) (now : Nat) : DnsCache :=
  if cache.maxEntries ≤ cache.entryCount then
    let cache := cache.evictExpired now
    if cache.maxEntries ≤ cache.entryCount then cache.evictStalest now else cache
  else cache

/-- The lifetime given to a message. -/
def lifetime (cache : DnsCache) (wire : Wire) : Nat :=
  fromSecs (max cache.minTtl.toNat (min (wire.minTtl.getD cache.minTtl).toNat cache.maxTtl.toNat))

/-- `insert_wire`.  `none` is the panic of `clamp` when the bounds are in the
wrong order. -/
def insertWire (cache : DnsCache) (now : Nat) (domain : Text) (qtype : QueryType)
    (wire : Wire) (dnssecStatus : DnssecStatus) : Option DnsCache :=
  if !wire.scans then some cache
  else
    let cache := cache.makeRoom now
    if cache.maxTtl < cache.minTtl then none
    else
      let typeMap := (cache.entries.lookup domain).getD ∅
      let entry : CacheEntry :=
        { wire := wire
          insertedAt := now
          ttl := cache.lifetime wire
          dnssecStatus := dnssecStatus }
      some
        { cache with
          entries := cache.entries.insert domain (typeMap.insert qtype entry)
          entryCount := if qtype ∈ typeMap then cache.entryCount else cache.entryCount + 1 }

/-- `insert_with_status`, which drops a packet that cannot be serialized. -/
def insertWithStatus (cache : DnsCache) (now : Nat) (domain : Text) (qtype : QueryType)
    (packet : DnsPacket) (dnssecStatus : DnssecStatus) : Option DnsCache :=
  match BytePacketBuffer.exec packet.write .new with
  | (.error _, _) => some cache
  | (.ok _, buffer) =>
    cache.insertWire now domain qtype (.ofOctets buffer.filled) dnssecStatus

def insert (cache : DnsCache) (now : Nat) (domain : Text) (qtype : QueryType)
    (packet : DnsPacket) : Option DnsCache :=
  cache.insertWithStatus now domain qtype packet .indeterminate

def len (cache : DnsCache) : Nat :=
  cache.entryCount

def clear (cache : DnsCache) : DnsCache :=
  { cache with entries := ∅, entryCount := 0 }

/-- `remove`.  The name may be any string here, and `str::to_lowercase` follows
the Unicode tables, so the model takes it as a parameter. -/
def remove (toLowercase : Text → Text) (cache : DnsCache) (domain : Text) : DnsCache :=
  match cache.entries.lookup (toLowercase domain) with
  | none => cache
  | some typeMap =>
    { cache with
      entries := cache.entries.erase (toLowercase domain)
      entryCount := cache.entryCount - typeMap.entries.length }

/-! ## What the operations do to the entries -/

/-- Entries are only removed, and the bounds stay. -/
structure Shrinks (before after : DnsCache) : Prop where
  entry : ∀ domain qtype,
    after.entry domain qtype = before.entry domain qtype ∨ after.entry domain qtype = none
  minTtl : after.minTtl = before.minTtl
  maxTtl : after.maxTtl = before.maxTtl

theorem Shrinks.refl (cache : DnsCache) : Shrinks cache cache where
  entry := fun _ _ => .inl rfl
  minTtl := rfl
  maxTtl := rfl

theorem Shrinks.trans {first second third : DnsCache} (earlier : Shrinks first second)
    (later : Shrinks second third) : Shrinks first third where
  entry := by
    intro domain qtype
    rcases later.entry domain qtype with same | gone
    · rw [same]
      exact earlier.entry domain qtype
    · exact .inr gone
  minTtl := later.minTtl.trans earlier.minTtl
  maxTtl := later.maxTtl.trans earlier.maxTtl

theorem entry_eq_bind (cache : DnsCache) (domain : Text) (qtype : QueryType) :
    cache.entry domain qtype = (cache.entries.lookup domain).bind (AList.lookup qtype) :=
  rfl

theorem shrinks_evictExpired (cache : DnsCache) (now : Nat) :
    Shrinks cache (cache.evictExpired now) where
  entry := by
    intro domain qtype
    rw [entry_eq_bind, entry_eq_bind, evictExpired, lookup_retain]
    cases found : cache.entries.lookup domain with
    | none => exact .inl rfl
    | some typeMap =>
        rw [Option.bind_some, Option.bind_some]
        dsimp only
        split
        · exact .inr rfl
        · rw [Option.bind_some, lookup_retain]
          cases typeMap.lookup qtype with
          | none => exact .inl rfl
          | some entry =>
              rw [Option.bind_some]
              split
              · exact .inl rfl
              · exact .inr rfl
  minTtl := rfl
  maxTtl := rfl

theorem shrinks_evictStalest (cache : DnsCache) (now : Nat) :
    Shrinks cache (cache.evictStalest now) := by
  unfold evictStalest
  cases stalest now cache.allEntries none with
  | none => exact Shrinks.refl cache
  | some worst =>
      obtain ⟨domain, qtype, least⟩ := worst
      cases found : cache.entries.lookup domain with
      | none => simpa [found] using Shrinks.refl cache
      | some typeMap =>
          simp only [found]
          refine ⟨fun name type => ?_, rfl, rfl⟩
          rw [entry_eq_bind, entry_eq_bind]
          by_cases sameName : name = domain
          · subst sameName
            split
            · exact .inr (by simp)
            · rw [AList.lookup_insert, Option.bind_some, found, Option.bind_some]
              by_cases sameType : type = qtype
              · subst sameType
                exact .inr (by simp)
              · exact .inl (AList.lookup_erase_ne sameType)
          · left
            split
            · rw [AList.lookup_erase_ne sameName]
            · rw [AList.lookup_insert_ne sameName]

theorem shrinks_makeRoom (cache : DnsCache) (now : Nat) :
    Shrinks cache (cache.makeRoom now) := by
  unfold makeRoom
  split
  · simp only
    split
    · exact (shrinks_evictExpired cache now).trans (shrinks_evictStalest _ now)
    · exact shrinks_evictExpired cache now
  · exact Shrinks.refl cache

theorem lifetime_eq_of_shrinks {before after : DnsCache} (shrinks : Shrinks before after)
    (wire : Wire) : after.lifetime wire = before.lifetime wire := by
  rw [lifetime, lifetime, shrinks.minTtl, shrinks.maxTtl]

/-- An entry after an insertion is an old one or the one inserted. -/
theorem entry_insertWire {cache after : DnsCache} {now : Nat} {domain : Text}
    {qtype : QueryType} {wire : Wire} {status : DnssecStatus}
    (inserted : cache.insertWire now domain qtype wire status = some after) :
    after.maxTtl = cache.maxTtl ∧ after.minTtl = cache.minTtl ∧
      ∀ name type,
        after.entry name type = cache.entry name type ∨ after.entry name type = none ∨
          (name = domain ∧ type = qtype) ∧ wire.scans = true ∧ after.entry name type = some
            { wire := wire
              insertedAt := now
              ttl := cache.lifetime wire
              dnssecStatus := status } := by
  have shrinks := shrinks_makeRoom cache now
  unfold insertWire at inserted
  split at inserted
  · cases inserted
    exact ⟨rfl, rfl, fun _ _ => .inl rfl⟩
  · rename_i scans
    simp only at inserted
    split at inserted
    · cases inserted
    · cases inserted
      refine ⟨shrinks.maxTtl, shrinks.minTtl, fun name type => ?_⟩
      rw [entry_eq_bind]
      by_cases sameName : name = domain
      · subst sameName
        rw [AList.lookup_insert, Option.bind_some]
        by_cases sameType : type = qtype
        · subst sameType
          rw [AList.lookup_insert, lifetime_eq_of_shrinks shrinks]
          exact .inr (.inr ⟨⟨rfl, rfl⟩, by simpa using scans, rfl⟩)
        · rw [AList.lookup_insert_ne sameType]
          have kept := shrinks.entry name type
          rw [entry_eq_bind] at kept
          cases found : (cache.makeRoom now).entries.lookup name with
          | none => exact .inr (.inl (by simp))
          | some typeMap =>
              rw [found, Option.bind_some] at kept
              exact kept.elim .inl fun gone => .inr (.inl gone)
      · rw [AList.lookup_insert_ne sameName]
        exact (shrinks.entry name type).elim .inl fun gone => .inr (.inl gone)

theorem entry_remove (toLowercase : Text → Text) (cache : DnsCache) (domain name : Text)
    (type : QueryType) :
    (cache.remove toLowercase domain).entry name type = cache.entry name type ∨
      (cache.remove toLowercase domain).entry name type = none := by
  unfold remove
  split
  · exact .inl rfl
  · rw [entry_eq_bind, entry_eq_bind]
    by_cases sameName : name = toLowercase domain
    · subst sameName
      exact .inr (by simp)
    · left
      rw [AList.lookup_erase_ne sameName]

/-- A served packet is the one stored, patched, within its lifetime and the
stale window. -/
theorem lookupWithStatus_eq_some {cache : DnsCache} {now : Nat} {domain : Text}
    {qtype : QueryType} {packet : DnsPacket} {status : DnssecStatus} {freshness : Freshness}
    (found : cache.lookupWithStatus now domain qtype = some (packet, status, freshness)) :
    ∃ entry stored ttl, cache.entry domain qtype = some entry ∧
      entry.wire.packet = some stored ∧ packet = stored.patch 0 ttl ∧
      status = entry.dnssecStatus ∧ now < entry.insertedAt + entry.ttl + staleWindow := by
  simp only [lookupWithStatus, lookupWire, Option.bind_eq_bind, Option.bind_eq_some_iff] at found
  obtain ⟨⟨wire, _, _⟩, ⟨entry, isEntry, ⟨ttl, _⟩, served, result⟩, _, wireEq, same⟩ := found
  cases result
  cases same
  obtain ⟨stored, storedEq, rfl⟩ := Option.map_eq_some_iff.mp wireEq
  refine ⟨entry, stored, ttl, isEntry, storedEq, rfl, rfl, ?_⟩
  unfold remaining at served
  have : 0 < staleWindow := by decide
  simp only at served
  split at served
  · omega
  · split at served
    · omega
    · cases served

end DnsCache

end Numa
