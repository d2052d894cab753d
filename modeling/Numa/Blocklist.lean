import Mathlib.Data.Finset.Card
import Numa.Clock

/-!
# The blocklist

`BlocklistStore` of `blocklist.rs` and `PersistedDomainList` of
`domain_list.rs`, without the files that the lists are persisted to.
-/

namespace Numa

section Normalize

/-! `str::to_lowercase` follows the Unicode tables, so the model takes it as a
parameter. -/

variable (toLowercase : Text → Text)

/-- `normalize`. -/
def normalize (domain : Text) : Text :=
  (toLowercase domain).trimEndDots

/-- What is left of a name behind each of its dots. -/
def behindDots : Text → List Text
  | [] => []
  | octet :: rest => if octet = dot then rest :: behindDots rest else behindDots rest

/-- `find_in_set`: the name itself or a parent of it. -/
def findInSet (domain : Text) (set : Finset Text) : Option Text :=
  (domain :: behindDots domain).find? (· ∈ set)

structure PersistedDomainList where
  config : Finset Text := ∅
  user : Finset Text := ∅

namespace PersistedDomainList

/-- `insert`, of a domain that the configuration does not have. -/
def insert (list : PersistedDomainList) (domain : Text) : PersistedDomainList :=
  let domain := normalize toLowercase domain
  if domain ∈ list.config then list else { list with user := Insert.insert domain list.user }

/-- `remove`, with whether there was such a runtime entry. -/
def remove (list : PersistedDomainList) (domain : Text) : PersistedDomainList × Bool :=
  let domain := normalize toLowercase domain
  ({ list with user := list.user.erase domain }, decide (domain ∈ list.user))

/-- `find_normalized`, of a domain that is normalized. -/
def findNormalized (list : PersistedDomainList) (domain : Text) : Option Text :=
  (findInSet domain list.config).or (findInSet domain list.user)

end PersistedDomainList

structure BlocklistStore where
  domains : Finset Text := ∅
  allowlist : PersistedDomainList := {}
  manual : PersistedDomainList := {}
  enabled : Bool := true
  pausedUntil : Option Nat := none
  listSources : List Text := []
  lastRefresh : Option Nat := none

structure BlockCheckResult where
  blocked : Bool
  reason : String
  matchedRule : Option Text
  deriving DecidableEq

structure BlocklistStats where
  enabled : Bool
  paused : Bool
  domainsLoaded : Nat
  allowlistSize : Nat
  listSources : List Text
  lastRefreshSecsAgo : Option Nat

namespace BlocklistStore

/-- `is_paused`. -/
def isPaused (store : BlocklistStore) (now : Nat) : Bool :=
  (store.pausedUntil.map fun resume => decide (now < resume)).getD false

/-- `is_blocked`. -/
def isBlocked (store : BlocklistStore) (now : Nat) (domain : Text) : Bool :=
  if store.enabled = false then false
  else if store.isPaused now then false
  else
    let domain := normalize toLowercase domain
    if (store.allowlist.findNormalized domain).isSome then false
    else (store.manual.findNormalized domain).isSome || (findInSet domain store.domains).isSome

def check (store : BlocklistStore) (now : Nat) (domain : Text) : BlockCheckResult :=
  if store.enabled = false ∨ store.isPaused now then ⟨false, "blocking is disabled", none⟩
  else
    let domain := normalize toLowercase domain
    match store.allowlist.findNormalized domain with
    | some rule =>
      ⟨false, if rule = domain then "exact match in allowlist" else "parent domain in allowlist",
        some rule⟩
    | none =>
      match store.manual.findNormalized domain with
      | some rule => ⟨true, "manually blocked", some rule⟩
      | none =>
        match findInSet domain store.domains with
        | some rule =>
          ⟨true, if rule = domain then "exact match in blocklist" else "parent domain in blocklist",
            some rule⟩
        | none => ⟨false, "not in blocklist", none⟩

def swapDomains (store : BlocklistStore) (now : Nat) (domains : Finset Text)
    (sources : List Text) : BlocklistStore :=
  { store with domains := domains, listSources := sources, lastRefresh := some now }

def setEnabled (store : BlocklistStore) (enabled : Bool) : BlocklistStore :=
  { store with enabled := enabled }

/-- `pause`.  `none` is a panic. -/
def pause (store : BlocklistStore) (now secs : Nat) : Option BlocklistStore :=
  (addDuration now (fromSecs secs)).map fun resume => { store with pausedUntil := some resume }

def unpause (store : BlocklistStore) : BlocklistStore :=
  { store with pausedUntil := none }

def addToAllowlist (store : BlocklistStore) (domain : Text) : BlocklistStore :=
  { store with allowlist := store.allowlist.insert toLowercase domain }

def removeFromAllowlist (store : BlocklistStore) (domain : Text) : BlocklistStore :=
  { store with allowlist := (store.allowlist.remove toLowercase domain).1 }

def addToBlocklist (store : BlocklistStore) (domain : Text) : BlocklistStore :=
  { store with manual := store.manual.insert toLowercase domain }

def removeFromBlocklist (store : BlocklistStore) (domain : Text) : BlocklistStore :=
  { store with manual := (store.manual.remove toLowercase domain).1 }

def stats (store : BlocklistStore) (now : Nat) : BlocklistStats where
  enabled := store.enabled
  paused := store.isPaused now
  domainsLoaded := store.domains.card
  allowlistSize := store.allowlist.config.card + store.allowlist.user.card
  listSources := store.listSources
  lastRefreshSecsAgo := store.lastRefresh.map fun refresh => (now - refresh) / fromSecs 1

end BlocklistStore

end Normalize

/-- The argument of `pause` in `blocking_pause`.  `none` is the overflow of the
product, which panics where overflow is checked and wraps where it is not. -/
def pauseSecs (minutes : UInt64) : Option Nat :=
  if minutes.toNat * 60 < 2 ^ 64 then some (minutes.toNat * 60) else none

end Numa
