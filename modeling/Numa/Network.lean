import Numa.CacheInvariant
import Numa.Server
import Numa.Lockstep

/-!
# One resolution in a network

The surroundings of a single resolution: a cache that only it uses and that has
room for what it stores, and nameservers that always answer.  Caches that agree
on everything but the DS records of some names give a resolution the same
answers.
-/

namespace Numa

/-- The nameservers of a tree of zones, with the answer that comes from the
first of some of them to answer.  Which one that is makes no difference, and a
referral leads down the tree. -/
structure Network where
  serve : List SocketAddr → Text → QueryType → DnsPacket
  serve_perm : ∀ {servers others : List SocketAddr}, servers.Perm others →
    serve servers = serve others
  descends : ∀ servers qname qtype, referralZone (serve servers qname qtype) ≠ some [dot]

/-! ## A cache with room -/

/-- One insertion into a cache that has room. -/
def storeOne (now : Nat) (cache : DnsCache) (item : Insertion) : DnsCache :=
  if item.wire.scans then
    cache.withEntry item.domain item.qtype (cache.newEntry now item.wire .indeterminate)
  else cache

def storeAll (now : Nat) (batch : List Insertion) (cache : DnsCache) : DnsCache :=
  batch.foldl (storeOne now) cache

@[simp]
theorem storeAll_nil (now : Nat) (cache : DnsCache) : storeAll now [] cache = cache :=
  rfl

@[simp]
theorem storeAll_cons (now : Nat) (item : Insertion) (batch : List Insertion) (cache : DnsCache) :
    storeAll now (item :: batch) cache = storeAll now batch (storeOne now cache item) :=
  rfl

@[simp]
theorem storeAll_append (now : Nat) (first second : List Insertion) (cache : DnsCache) :
    storeAll now (first ++ second) cache = storeAll now second (storeAll now first cache) :=
  List.foldl_append

@[simp]
theorem storeOne_bounds (now : Nat) (cache : DnsCache) (item : Insertion) :
    (storeOne now cache item).minTtl = cache.minTtl ∧
      (storeOne now cache item).maxTtl = cache.maxTtl ∧
      (storeOne now cache item).maxEntries = cache.maxEntries := by
  unfold storeOne
  split
  · exact ⟨rfl, rfl, rfl⟩
  · exact ⟨rfl, rfl, rfl⟩

theorem entryCount_storeOne_le (now : Nat) (cache : DnsCache) (item : Insertion) :
    (storeOne now cache item).entryCount ≤ cache.entryCount + 1 := by
  unfold storeOne
  split
  · simp only [DnsCache.withEntry]
    split <;> omega
  · omega

/-- What `insert_wire` does, one after the other, while there is room. -/
theorem insertBatch_of_room {now : Nat} {batch : List Insertion} {cache : DnsCache}
    (ordered : cache.minTtl ≤ cache.maxTtl)
    (room : cache.entryCount + batch.length ≤ cache.maxEntries) :
    insertBatch now batch cache = some (storeAll now batch cache) := by
  induction batch generalizing cache with
  | nil => rfl
  | cons item batch ih =>
      rw [List.length_cons] at room
      have notFull : ¬ cache.maxEntries ≤ cache.entryCount := by omega
      have stored : cache.insertWire now item.domain item.qtype item.wire .indeterminate =
          some (storeOne now cache item) := by
        rw [DnsCache.insertWire_eq ordered, DnsCache.makeRoom, if_neg notFull]
        rfl
      obtain ⟨sameMin, sameMax, sameEntries⟩ := storeOne_bounds now cache item
      have counted := entryCount_storeOne_le now cache item
      rw [insertBatch, stored, storeAll_cons]
      apply ih
      · rw [sameMin, sameMax]
        exact ordered
      · rw [sameEntries]
        omega

theorem entry_storeOne (now : Nat) (cache : DnsCache) (item : Insertion) (name : Text)
    (type : QueryType) :
    (storeOne now cache item).entry name type =
      if (name, type) = (item.domain, item.qtype) ∧ item.wire.scans = true then
        some (cache.newEntry now item.wire .indeterminate)
      else cache.entry name type := by
  unfold storeOne
  split
  · rename_i scans
    simp only [DnsCache.entry_withEntry, scans, and_true]
  · rename_i scans
    simp [scans]

/-! ## Alike caches -/

/-- The caches agree on everything but the DS records of the hidden names. -/
structure Alike (hidden : Text → Prop) (first second : DnsCache) : Prop where
  entry : ∀ name type, (type = .ds → ¬ hidden name) →
    first.entry name type = second.entry name type
  minTtl : first.minTtl = second.minTtl
  maxTtl : first.maxTtl = second.maxTtl

variable {hidden : Text → Prop} {first second : DnsCache} {now : Nat}

theorem Alike.refl (cache : DnsCache) : Alike hidden cache cache where
  entry := fun _ _ _ => rfl
  minTtl := rfl
  maxTtl := rfl

theorem Alike.newEntry (alike : Alike hidden first second) (wire : Wire)
    (status : DnssecStatus) :
    first.newEntry now wire status = second.newEntry now wire status := by
  simp only [DnsCache.newEntry, DnsCache.lifetime, alike.minTtl, alike.maxTtl]

theorem Alike.storeOne (alike : Alike hidden first second) (item : Insertion) :
    Alike hidden (storeOne now first item) (storeOne now second item) := by
  obtain ⟨firstMin, firstMax, -⟩ := storeOne_bounds now first item
  obtain ⟨secondMin, secondMax, -⟩ := storeOne_bounds now second item
  refine ⟨fun name type shown => ?_, ?_, ?_⟩
  · rw [entry_storeOne, entry_storeOne, alike.newEntry, alike.entry name type shown]
  · rw [firstMin, secondMin, alike.minTtl]
  · rw [firstMax, secondMax, alike.maxTtl]

/-- The same batch keeps the caches alike. -/
theorem Alike.storeAll (alike : Alike hidden first second) (batch : List Insertion) :
    Alike hidden (storeAll now batch first) (storeAll now batch second) := by
  induction batch generalizing first second with
  | nil => exact alike
  | cons item batch ih => exact ih (alike.storeOne item)

/-- DS records of hidden names make no difference. -/
theorem Alike.storeAll_hidden (alike : Alike hidden first second) {batch : List Insertion}
    (unseen : ∀ item ∈ batch, item.qtype = .ds ∧ hidden item.domain) :
    Alike hidden first (Numa.storeAll now batch second) := by
  induction batch generalizing second with
  | nil => exact alike
  | cons item batch ih =>
      obtain ⟨isDs, isHidden⟩ := unseen item (by simp)
      obtain ⟨sameMin, sameMax, -⟩ := storeOne_bounds now second item
      apply ih ⟨fun name type shown => ?_, alike.minTtl.trans sameMin.symm,
        alike.maxTtl.trans sameMax.symm⟩
      · exact fun later laterMem => unseen later (by simp [laterMem])
      · have different : ¬ ((name, type) = (item.domain, item.qtype) ∧ item.wire.scans = true) := by
          rintro ⟨same, -⟩
          obtain ⟨rfl, rfl⟩ := Prod.mk.injEq .. ▸ same
          exact shown isDs isHidden
        rw [entry_storeOne, if_neg different]
        exact alike.entry name type shown

theorem Alike.lookup (alike : Alike hidden first second) {name : Text} {type : QueryType}
    (shown : type = .ds → ¬ hidden name) :
    first.lookup now name type = second.lookup now name type := by
  simp only [DnsCache.lookup, DnsCache.lookupWithStatus, DnsCache.lookupWire,
    alike.entry name type shown]

/-! ## What is answered -/

namespace Network

variable (network : Network) (now : Nat)

/-- How the surroundings answer an effect at a point in time, and the cache
after it.  The round-trip times may put addresses into any order. -/
def moves (before : DnsCache) : (effect : Effect) → effect.Answer → DnsCache → Prop
  | .lookup _ qname qtype, found, after => found = before.lookup now qname qtype ∧ after = before
  | .readCache, view, after => view = before.lookup now ∧ after = before
  | .insertWires batch, _, after => after = storeAll now batch before
  | .sortByUdpRtt addrs, sorted, after => sorted.Perm addrs ∧ after = before
  | .sendQueryHedged qname qtype servers, answer, after =>
    answer = .ok (network.serve servers qname qtype) ∧ after = before
  | _, _, after => after = before

def protocol : Protocol Effect Effect.Answer DnsCache where
  allowed _ _ := True
  moves := network.moves now

/-- The resolution may return the result. -/
def Returns (cache : DnsCache) (resolution : Resolution)
    (result : Except ResolveError DnsPacket) : Prop :=
  ∃ after, resolution.Ends (network.protocol now) cache result after

theorem exists_moves (before : DnsCache) (effect : Effect) :
    ∃ answer after, (network.protocol now).moves before effect answer after := by
  cases effect with
  | lookup caller qname qtype => exact ⟨before.lookup now qname qtype, before, rfl, rfl⟩
  | lookupWithStatus qname qtype => exact ⟨none, before, rfl⟩
  | readCache => exact ⟨before.lookup now, before, rfl, rfl⟩
  | insertWires batch => exact ⟨(), _, rfl⟩
  | sortByUdpRtt addrs => exact ⟨addrs, before, .refl addrs, rfl⟩
  | sendQueryHedged qname qtype servers =>
      exact ⟨.ok (network.serve servers qname qtype), before, rfl, rfl⟩
  | forwardRaw => exact ⟨.error (), before, rfl⟩
  | markRefreshing key => exact ⟨true, before, rfl⟩
  | spawnRefresh key => exact ⟨(), before, rfl⟩
  | unmarkRefreshing key => exact ⟨(), before, rfl⟩
  | acquireInflight key => exact ⟨.leader, before, rfl⟩
  | releaseInflight key => exact ⟨(), before, rfl⟩
  | broadcast key result => exact ⟨(), before, rfl⟩
  | receive key => exact ⟨none, before, rfl⟩

/-- A resolution in a network always comes to its end. -/
theorem exists_returns (cache : DnsCache) (resolution : Resolution) :
    ∃ result, network.Returns now cache resolution result := by
  obtain ⟨result, after, ends⟩ :=
    Interaction.exists_ends (network.exists_moves now) resolution cache
  exact ⟨result, after, ends⟩

end Network

end Numa
