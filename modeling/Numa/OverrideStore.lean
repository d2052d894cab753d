import Numa.AddressText
import Numa.Clock

/-!
# Overrides

`OverrideStore` of `override_store.rs`.  An entry keeps the time of its creation
and how long it is to last, and only a later look at it adds the two, which
panics when the sum is no point in time.
-/

namespace Numa

structure OverrideEntry where
  domain : Text
  target : Text
  record : DnsRecord
  queryType : QueryType
  ttl : UInt32
  createdAt : Nat
  durationSecs : Option UInt64
  deriving DecidableEq

namespace OverrideEntry

/-- `expires_at`.  `none` is its panic. -/
def expiresAt (entry : OverrideEntry) : Option (Option Nat) :=
  match entry.durationSecs with
  | none => some none
  | some secs => (addDuration entry.createdAt (fromSecs secs.toNat)).map some

/-- `is_expired`.  `none` is its panic. -/
def isExpired (entry : OverrideEntry) (now : Nat) : Option Bool :=
  entry.expiresAt.map fun expiry => (expiry.map fun exp => decide (exp ≤ now)).getD false

/-- `remaining_secs`.  The outer `none` is its panic. -/
def remainingSecs (entry : OverrideEntry) (now : Nat) : Option (Option Nat) :=
  entry.expiresAt.map fun expiry =>
    expiry.map fun exp => if exp ≤ now then 0 else (exp - now) / fromSecs 1

/-- The expiry of an entry is a point in time. -/
def Dated (entry : OverrideEntry) : Prop :=
  ∀ secs ∈ entry.durationSecs, entry.createdAt + fromSecs secs.toNat < instantEnd

instance (entry : OverrideEntry) : Decidable entry.Dated :=
  inferInstanceAs (Decidable (∀ secs ∈ entry.durationSecs, _))

theorem expiresAt_isSome {entry : OverrideEntry} :
    entry.expiresAt.isSome = true ↔ entry.Dated := by
  unfold expiresAt Dated
  cases entry.durationSecs with
  | none => simp
  | some secs => simp [addDuration_isSome]

theorem isExpired_isSome {entry : OverrideEntry} {now : Nat} :
    (entry.isExpired now).isSome = true ↔ entry.Dated := by
  rw [isExpired, Option.isSome_map, expiresAt_isSome]

theorem remainingSecs_isSome {entry : OverrideEntry} {now : Nat} :
    (entry.remainingSecs now).isSome = true ↔ entry.Dated := by
  rw [remainingSecs, Option.isSome_map, expiresAt_isSome]

end OverrideEntry

/-- `parse_target`, which does not fail: what is no address is a host name. -/
def parseTarget (domain target : Text) (ttl : UInt32) : QueryType × DnsRecord :=
  match parseIpv4 target with
  | some addr => (.a, .a domain addr ttl)
  | none =>
    match parseIpv6 target with
    | some addr => (.aaaa, .aaaa domain addr ttl)
    | none => (.cname, .cname domain target ttl)

structure OverrideStore where
  entries : AList fun _ : Text => OverrideEntry

namespace OverrideStore

def new : OverrideStore where
  entries := ∅

/-- The values of the map, in its order. -/
def values (store : OverrideStore) : List OverrideEntry :=
  store.entries.entries.map Sigma.snd

/-- `entries.retain(|_, e| !e.is_expired())`. -/
def retainUnexpired (store : OverrideStore) (now : Nat) : Option OverrideStore :=
  if ∀ entry ∈ store.values, (entry.isExpired now).isSome then
    some ⟨retain (fun _ entry => if entry.isExpired now = some true then none else some entry)
      store.entries⟩
  else none

/-- `insert`.  The name may be any string, and `str::to_lowercase` follows the
Unicode tables, so the model takes it as a parameter.  `none` is a panic. -/
def insert (toLowercase : Text → Text) (store : OverrideStore) (now : Nat) (domain target : Text)
    (ttl : UInt32) (durationSecs : Option UInt64) : Option (OverrideStore × QueryType) := do
  let store ← store.retainUnexpired now
  let domainLower := toLowercase domain
  let (qtype, record) := parseTarget domainLower target ttl
  let entry : OverrideEntry :=
    { domain := domainLower
      target := target
      record := record
      queryType := qtype
      ttl := ttl
      createdAt := now
      durationSecs := durationSecs }
  some (⟨store.entries.insert domainLower entry⟩, qtype)

/-- The entry under a key unless it has expired. -/
def unexpired (store : OverrideStore) (now : Nat) (key : Text) : Option (Option OverrideEntry) :=
  match store.entries.lookup key with
  | none => some none
  | some entry => (entry.isExpired now).map fun expired => if expired then none else some entry

/-- `lookup`, under a name in lower case.  The outer `none` is a panic. -/
def lookup (store : OverrideStore) (now : Nat) (domain : Text) : Option (Option DnsRecord) :=
  (store.unexpired now domain).map (Option.map OverrideEntry.record)

/-- `get`.  The outer `none` is a panic. -/
def get (toLowercase : Text → Text) (store : OverrideStore) (now : Nat) (domain : Text) :
    Option (Option OverrideEntry) :=
  store.unexpired now (toLowercase domain)

/-- `remove`, with whether there was an entry. -/
def remove (toLowercase : Text → Text) (store : OverrideStore) (domain : Text) :
    OverrideStore × Bool :=
  (⟨store.entries.erase (toLowercase domain)⟩, decide (toLowercase domain ∈ store.entries))

/-- `list`.  `none` is a panic. -/
def list (store : OverrideStore) (now : Nat) : Option (List OverrideEntry) :=
  store.values.filterM fun entry => (entry.isExpired now).map (!·)

def clear (_ : OverrideStore) : OverrideStore where
  entries := ∅

/-- `active_count`.  `none` is a panic. -/
def activeCount (store : OverrideStore) (now : Nat) : Option Nat :=
  (store.list now).map List.length

/-- What an insertion leaves under a key. -/
theorem lookup_insert {toLowercase : Text → Text} {store after : OverrideStore} {now : Nat}
    {domain target : Text} {ttl : UInt32} {durationSecs : Option UInt64} {qtype : QueryType}
    (inserted : store.insert toLowercase now domain target ttl durationSecs = some (after, qtype)) :
    after.entries.lookup (toLowercase domain) = some
      { domain := toLowercase domain
        target := target
        record := (parseTarget (toLowercase domain) target ttl).2
        queryType := (parseTarget (toLowercase domain) target ttl).1
        ttl := ttl
        createdAt := now
        durationSecs := durationSecs } := by
  obtain ⟨kept, -, result⟩ := Option.bind_eq_some_iff.mp inserted
  cases result
  exact AList.lookup_insert _

end OverrideStore

end Numa
