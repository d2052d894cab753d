import Numa.Blocklist
import Numa.Guarded
import Numa.StoreArithmetic

/-!
# The shared stores

The cache, the overrides and the blocklist are shared behind a lock each.  What
the API, the resolver and the background tasks do to them are the steps of a run;
those that bring in no time beyond the clock keep every lock sound.
-/

namespace Numa

structure OverrideRequest where
  domain : Text
  target : Text
  ttl : UInt32
  durationSecs : Option UInt64
  deriving DecidableEq

structure SharedStores where
  cache : Guarded DnsCache
  overrides : Guarded OverrideStore
  blocklist : Guarded BlocklistStore

/-- What is done to the stores under their locks. -/
inductive StoreOperation
  | createOverrides (requests : List OverrideRequest)
  | loadEnvironment (durationSecs : Option UInt64) (requests : List OverrideRequest)
  | listOverrides
  | getOverride (domain : Text)
  | removeOverride (domain : Text)
  | clearOverrides
  | lookupOverride (qname : Text)
  | countOverrides
  | isBlocked (domain : Text)
  | blockingCheck (domain : Text)
  | blockingPause (minutes : UInt64)
  | blockingUnpause
  | blockingToggle (enabled : Bool)
  | blockingStats
  | allowlistAdd (domain : Text)
  | allowlistRemove (domain : Text)
  | blocklistAdd (domain : Text)
  | blocklistRemove (domain : Text)
  | swapDomains (domains : Finset Text) (sources : List Text)
  | insertWire (domain : Text) (qtype : QueryType) (wire : List UInt8) (status : DnssecStatus)
  | insertPacket (domain : Text) (qtype : QueryType) (packet : DnsPacket) (status : DnssecStatus)
  | lookupCache (domain : Text) (qtype : QueryType)
  | needsWarm (domain : Text)
  | listCache
  | flushCache
  | flushCacheDomain (domain : Text)

namespace SharedStores

def new (maxEntries : Nat) (minTtl maxTtl : UInt32) (blocklist : BlocklistStore) :
    SharedStores where
  cache := ⟨.new maxEntries minTtl maxTtl, false⟩
  overrides := ⟨.new, false⟩
  blocklist := ⟨blocklist, false⟩

section Step

/-! Every step returns the stores after it and whether it went without a panic
and without an overflow. -/

variable (stores : SharedStores)

def writeCache (operation : DnsCache → Option DnsCache) : SharedStores × Bool :=
  let lock := stores.cache.write operation
  ({ stores with cache := lock }, !lock.poisoned)

def writeOverrides (operation : OverrideStore → Option OverrideStore) : SharedStores × Bool :=
  let lock := stores.overrides.write operation
  ({ stores with overrides := lock }, !lock.poisoned)

def writeBlocklist (operation : BlocklistStore → Option BlocklistStore) : SharedStores × Bool :=
  let lock := stores.blocklist.write operation
  ({ stores with blocklist := lock }, !lock.poisoned)

def readCache {β : Type} (operation : DnsCache → Option β) : SharedStores × Bool :=
  (stores, (stores.cache.read operation).isSome)

def readOverrides {β : Type} (operation : OverrideStore → Option β) : SharedStores × Bool :=
  (stores, (stores.overrides.read operation).isSome)

def readBlocklist {β : Type} (operation : BlocklistStore → Option β) : SharedStores × Bool :=
  (stores, (stores.blocklist.read operation).isSome)

end Step

section Run

variable (toLowercase : Text → Text)

/-- The loop of `create_overrides` and of `load_environment` under the lock. -/
def insertOverrides (now : Nat) (store : OverrideStore) (requests : List OverrideRequest) :
    Option OverrideStore :=
  requests.foldlM (fun store request =>
    (store.insert toLowercase now request.domain request.target request.ttl
      request.durationSecs).map Prod.fst) store

/-- The request with the domain in lower case. -/
def lowered (request : OverrideRequest) : OverrideRequest :=
  { request with domain := toLowercase request.domain }

/-- The request with the duration of its environment unless it has its own. -/
def lasting (durationSecs : Option UInt64) (request : OverrideRequest) : OverrideRequest :=
  { request with durationSecs := request.durationSecs.or durationSecs }

def step (stores : SharedStores) (now : Nat) : StoreOperation → SharedStores × Bool
  | .createOverrides requests =>
    stores.writeOverrides fun store =>
      insertOverrides toLowercase now store (requests.map (lowered toLowercase))
  | .loadEnvironment durationSecs requests =>
    stores.writeOverrides fun store =>
      insertOverrides toLowercase now store (requests.map (lasting durationSecs))
  | .listOverrides =>
    stores.readOverrides fun store => do
      let entries ← store.list now
      entries.mapM fun entry => entry.remainingSecs now
  | .getOverride domain =>
    stores.readOverrides fun store => do
      match ← store.get toLowercase now domain with
      | none => some none
      | some entry => (entry.remainingSecs now).map some
  | .removeOverride domain =>
    stores.writeOverrides fun store => some (store.remove toLowercase domain).1
  | .clearOverrides => stores.writeOverrides fun store => some store.clear
  | .lookupOverride qname => stores.readOverrides fun store => store.lookup now qname
  | .countOverrides => stores.readOverrides fun store => store.activeCount now
  | .isBlocked domain => stores.readBlocklist fun store => some (store.isBlocked toLowercase now domain)
  | .blockingCheck domain => stores.readBlocklist fun store => some (store.check toLowercase now domain)
  | .blockingPause minutes =>
    stores.writeBlocklist fun store => (pauseSecs minutes).bind (store.pause now)
  | .blockingUnpause => stores.writeBlocklist fun store => some store.unpause
  | .blockingToggle enabled => stores.writeBlocklist fun store => some (store.setEnabled enabled)
  | .blockingStats => stores.readBlocklist fun store => some (store.stats now)
  | .allowlistAdd domain =>
    stores.writeBlocklist fun store => some (store.addToAllowlist toLowercase domain)
  | .allowlistRemove domain =>
    stores.writeBlocklist fun store => some (store.removeFromAllowlist toLowercase domain)
  | .blocklistAdd domain =>
    stores.writeBlocklist fun store => some (store.addToBlocklist toLowercase domain)
  | .blocklistRemove domain =>
    stores.writeBlocklist fun store => some (store.removeFromBlocklist toLowercase domain)
  | .swapDomains domains sources =>
    stores.writeBlocklist fun store => some (store.swapDomains now domains sources)
  | .insertWire domain qtype wire status =>
    stores.writeCache fun cache => cache.insertWire now domain qtype (.ofOctets wire) status
  | .insertPacket domain qtype packet status =>
    stores.writeCache fun cache => cache.insertWithStatus now domain qtype packet status
  | .lookupCache domain qtype =>
    stores.readCache fun cache =>
      match cache.entry domain qtype with
      | none => some none
      | some entry => DnsCache.checkedRemaining entry now
  | .needsWarm domain => stores.readCache fun cache => cache.needsWarm now domain
  | .listCache => stores.readCache fun cache => cache.list now
  | .flushCache => stores.writeCache fun cache => some cache.clear
  | .flushCacheDomain domain => stores.writeCache fun cache => some (cache.remove toLowercase domain)

/-- The stores after operations at their times. -/
def run (stores : SharedStores) (operations : List (Nat × StoreOperation)) : SharedStores :=
  operations.foldl (fun stores timed => (stores.step toLowercase timed.1 timed.2).1) stores

end Run

end SharedStores

/-- A duration from now on ends at a point in time. -/
def Lasts (now : Nat) (durationSecs : Option UInt64) : Prop :=
  ∀ secs ∈ durationSecs, now + fromSecs secs.toNat < instantEnd

/-- The times that an operation brings in stay within the clock. -/
def StoreOperation.Admitted (now : Nat) : StoreOperation → Prop
  | .createOverrides requests => ∀ request ∈ requests, Lasts now request.durationSecs
  | .loadEnvironment durationSecs requests =>
    ∀ request ∈ requests, Lasts now (request.durationSecs.or durationSecs)
  | .blockingPause minutes =>
    minutes.toNat * 60 < 2 ^ 64 ∧ now + fromSecs (minutes.toNat * 60) < instantEnd
  | _ => True

namespace SharedStores

/-- No lock is poisoned, and what is behind the locks can be computed with. -/
structure Sound (stores : SharedStores) : Prop where
  cache : stores.cache.Sound DnsCache.InRange
  overrides : stores.overrides.Sound OverrideStore.Dated
  blocklist : stores.blocklist.poisoned = false

theorem sound_new (maxEntries : Nat) {minTtl maxTtl : UInt32} (ordered : minTtl ≤ maxTtl)
    (blocklist : BlocklistStore) : (new maxEntries minTtl maxTtl blocklist).Sound where
  cache := ⟨rfl, DnsCache.inRange_new maxEntries ordered⟩
  overrides := ⟨rfl, OverrideStore.dated_new⟩
  blocklist := rfl

/-- A step has gone well and leaves sound stores. -/
def GoesWell (outcome : SharedStores × Bool) : Prop :=
  outcome.1.Sound ∧ outcome.2 = true

section GoesWell

variable {stores : SharedStores} (sound : stores.Sound)

include sound

theorem Sound.writeCache {operation : DnsCache → Option DnsCache}
    (keeps : ∀ cache, cache.InRange → ∃ after, operation cache = some after ∧ after.InRange) :
    GoesWell (stores.writeCache operation) := by
  have written := sound.cache.write keeps
  exact ⟨⟨written, sound.overrides, sound.blocklist⟩, by simp [SharedStores.writeCache, written.unpoisoned]⟩

theorem Sound.writeOverrides {operation : OverrideStore → Option OverrideStore}
    (keeps : ∀ store, store.Dated → ∃ after, operation store = some after ∧ after.Dated) :
    GoesWell (stores.writeOverrides operation) := by
  have written := sound.overrides.write keeps
  exact ⟨⟨sound.cache, written, sound.blocklist⟩,
    by simp [SharedStores.writeOverrides, written.unpoisoned]⟩

theorem Sound.writeBlocklist {operation : BlocklistStore → Option BlocklistStore}
    (safe : ∀ store, ∃ after, operation store = some after) :
    GoesWell (stores.writeBlocklist operation) := by
  have lock : stores.blocklist.Sound fun _ => True := ⟨sound.blocklist, trivial⟩
  have written := lock.write fun store _ => (safe store).imp fun _ done => ⟨done, trivial⟩
  exact ⟨⟨sound.cache, sound.overrides, written.unpoisoned⟩,
    by simp [SharedStores.writeBlocklist, written.unpoisoned]⟩

theorem Sound.readCache {β : Type} {operation : DnsCache → Option β}
    (safe : ∀ cache, cache.InRange → (operation cache).isSome = true) :
    GoesWell (stores.readCache operation) :=
  ⟨sound, sound.cache.read safe⟩

theorem Sound.readOverrides {β : Type} {operation : OverrideStore → Option β}
    (safe : ∀ store, store.Dated → (operation store).isSome = true) :
    GoesWell (stores.readOverrides operation) :=
  ⟨sound, sound.overrides.read safe⟩

theorem Sound.readBlocklist {β : Type} {operation : BlocklistStore → Option β}
    (safe : ∀ store, (operation store).isSome = true) :
    GoesWell (stores.readBlocklist operation) := by
  have lock : stores.blocklist.Sound fun _ => True := ⟨sound.blocklist, trivial⟩
  exact ⟨sound, lock.read fun store _ => safe store⟩

end GoesWell

section Run

variable (toLowercase : Text → Text)

theorem insertOverrides_dated {now : Nat} {store : OverrideStore} (dated : store.Dated)
    {requests : List OverrideRequest}
    (last : ∀ request ∈ requests, Lasts now request.durationSecs) :
    ∃ after, insertOverrides toLowercase now store requests = some after ∧ after.Dated := by
  induction requests generalizing store with
  | nil => exact ⟨store, rfl, dated⟩
  | cons request requests ih =>
      obtain ⟨middle, qtype, inserted, middleDated⟩ := dated.insert toLowercase request.domain
        request.target request.ttl (last request (by simp))
      obtain ⟨after, done, afterDated⟩ :=
        ih middleDated fun other otherMem => last other (by simp [otherMem])
      refine ⟨after, ?_, afterDated⟩
      rw [insertOverrides, List.foldlM_cons, inserted]
      exact done

/-- An admitted step keeps the stores sound. -/
theorem step_goesWell {stores : SharedStores} (sound : stores.Sound) {now : Nat}
    {operation : StoreOperation} (admitted : operation.Admitted now) :
    GoesWell (stores.step toLowercase now operation) := by
  cases operation with
  | createOverrides requests =>
      refine sound.writeOverrides fun store dated =>
        insertOverrides_dated toLowercase dated fun request requestMem => ?_
      obtain ⟨original, originalMem, rfl⟩ := List.mem_map.mp requestMem
      exact admitted original originalMem
  | loadEnvironment durationSecs requests =>
      refine sound.writeOverrides fun store dated =>
        insertOverrides_dated toLowercase dated fun request requestMem => ?_
      obtain ⟨original, originalMem, rfl⟩ := List.mem_map.mp requestMem
      exact admitted original originalMem
  | listOverrides =>
      refine sound.readOverrides fun store dated => ?_
      obtain ⟨entries, listed, entriesDated⟩ := dated.list now
      rw [listed, Option.bind_eq_bind, Option.bind_some, mapM_isSome_iff]
      exact fun entry entryMem => OverrideEntry.remainingSecs_isSome.mpr (entriesDated entry entryMem)
  | getOverride domain =>
      refine sound.readOverrides fun store dated => ?_
      obtain ⟨held, found, heldDated⟩ := dated.unexpired now (toLowercase domain)
      rw [OverrideStore.get, found, Option.bind_eq_bind, Option.bind_some]
      cases held with
      | none => rfl
      | some entry =>
          rw [Option.isSome_map]
          exact OverrideEntry.remainingSecs_isSome.mpr (heldDated entry rfl)
  | removeOverride domain =>
      exact sound.writeOverrides fun store dated => ⟨_, rfl, dated.remove toLowercase domain⟩
  | clearOverrides =>
      exact sound.writeOverrides fun store _ => ⟨_, rfl, OverrideStore.dated_new⟩
  | lookupOverride qname =>
      refine sound.readOverrides fun store dated => ?_
      obtain ⟨held, found, -⟩ := dated.unexpired now qname
      rw [OverrideStore.lookup, found]
      rfl
  | countOverrides =>
      refine sound.readOverrides fun store dated => ?_
      obtain ⟨entries, listed, -⟩ := dated.list now
      rw [OverrideStore.activeCount, listed]
      rfl
  | isBlocked domain => exact sound.readBlocklist fun _ => rfl
  | blockingCheck domain => exact sound.readBlocklist fun _ => rfl
  | blockingPause minutes =>
      obtain ⟨small, ends⟩ := admitted
      refine sound.writeBlocklist fun store => ?_
      rw [pauseSecs, if_pos small, Option.bind_some, BlocklistStore.pause, addDuration, if_pos ends]
      exact ⟨_, rfl⟩
  | blockingUnpause => exact sound.writeBlocklist fun _ => ⟨_, rfl⟩
  | blockingToggle enabled => exact sound.writeBlocklist fun _ => ⟨_, rfl⟩
  | blockingStats => exact sound.readBlocklist fun _ => rfl
  | allowlistAdd domain => exact sound.writeBlocklist fun _ => ⟨_, rfl⟩
  | allowlistRemove domain => exact sound.writeBlocklist fun _ => ⟨_, rfl⟩
  | blocklistAdd domain => exact sound.writeBlocklist fun _ => ⟨_, rfl⟩
  | blocklistRemove domain => exact sound.writeBlocklist fun _ => ⟨_, rfl⟩
  | swapDomains domains sources => exact sound.writeBlocklist fun _ => ⟨_, rfl⟩
  | insertWire domain qtype wire status =>
      exact sound.writeCache fun cache inRange => inRange.insertWire now domain qtype _ status
  | insertPacket domain qtype packet status =>
      exact sound.writeCache fun cache inRange =>
        inRange.insertWithStatus now domain qtype packet status
  | lookupCache domain qtype =>
      refine sound.readCache fun cache inRange => ?_
      cases found : cache.entry domain qtype with
      | none => rfl
      | some entry =>
          simp only
          rw [DnsCache.checkedRemaining_eq (inRange.short _ _ _ found)]
          rfl
  | needsWarm domain => exact sound.readCache fun cache inRange => inRange.needsWarm_isSome now domain
  | listCache => exact sound.readCache fun cache inRange => inRange.list_isSome now
  | flushCache => exact sound.writeCache fun cache inRange => ⟨_, rfl, inRange.clear⟩
  | flushCacheDomain domain =>
      exact sound.writeCache fun cache inRange => ⟨_, rfl, inRange.remove toLowercase domain⟩

theorem run_sound {stores : SharedStores} (sound : stores.Sound)
    {operations : List (Nat × StoreOperation)}
    (admitted : ∀ timed ∈ operations, timed.2.Admitted timed.1) :
    (stores.run toLowercase operations).Sound := by
  induction operations generalizing stores with
  | nil => exact sound
  | cons timed operations ih =>
      have stepped := step_goesWell toLowercase sound (admitted timed (by simp))
      exact ih stepped.1 fun other otherMem => admitted other (by simp [otherMem])

/-! A time beyond the clock panics at once or stays in the overrides, where the
next look at all of them panics. -/

/-- There is no store, or one with an expiry that is no point in time. -/
def Spoiled (result : Option OverrideStore) : Prop :=
  ∀ store, result = some store → ¬ store.Dated

theorem spoiled_insertOverrides {now : Nat} {store : OverrideStore} (notDated : ¬ store.Dated)
    (requests : List OverrideRequest) : Spoiled (insertOverrides toLowercase now store requests) := by
  intro after inserted
  cases requests with
  | nil =>
      cases inserted
      exact notDated
  | cons request requests =>
      rw [insertOverrides, List.foldlM_cons, OverrideStore.insert,
        OverrideStore.retainUnexpired_of_not_dated notDated] at inserted
      cases inserted

theorem spoiled_of_not_lasts {now : Nat} {store : OverrideStore}
    {requests : List OverrideRequest} {request : OverrideRequest} (requestMem : request ∈ requests)
    (long : ¬ Lasts now request.durationSecs) :
    Spoiled (insertOverrides toLowercase now store requests) := by
  induction requests generalizing store with
  | nil => cases requestMem
  | cons first requests ih =>
      rw [insertOverrides, List.foldlM_cons]
      cases inserted : store.insert toLowercase now first.domain first.target first.ttl
          first.durationSecs with
      | none =>
          intro after done
          cases done
      | some result =>
          obtain ⟨middle, qtype⟩ := result
          rcases List.mem_cons.mp requestMem with rfl | later
          · have held := OverrideStore.lookup_insert inserted
            have notDated : ¬ middle.Dated := fun dated =>
              long (dated _ (OverrideStore.mem_values.mpr ⟨_, held⟩))
            exact spoiled_insertOverrides toLowercase notDated requests
          · exact ih later

/-- Something goes wrong in the step or in the next look at all overrides. -/
def EndsBadly (outcome : SharedStores × Bool) : Prop :=
  outcome.2 = true → ∀ later, (outcome.1.step toLowercase later .countOverrides).2 = false

theorem endsBadly_writeOverrides {stores : SharedStores} (sound : stores.Sound)
    {operation : OverrideStore → Option OverrideStore}
    (spoils : ∀ store, Spoiled (operation store)) :
    EndsBadly toLowercase (stores.writeOverrides operation) := by
  intro well later
  unfold SharedStores.writeOverrides at well ⊢
  have lock := sound.overrides.unpoisoned
  rw [Guarded.write, if_neg (by simp [lock])] at well ⊢
  cases done : operation stores.overrides.value with
  | none => simp [done] at well
  | some after =>
      have notDated := spoils _ after done
      simp [step, SharedStores.readOverrides, Guarded.read, lock, OverrideStore.activeCount,
        OverrideStore.list_of_not_dated notDated]

theorem endsBadly_of_not_admitted {stores : SharedStores} (sound : stores.Sound) {now : Nat}
    {operation : StoreOperation} (notAdmitted : ¬ operation.Admitted now) :
    EndsBadly toLowercase (stores.step toLowercase now operation) := by
  cases operation with
  | createOverrides requests =>
      obtain ⟨request, requestMem, long⟩ : ∃ request ∈ requests, ¬ Lasts now request.durationSecs := by
        simpa [StoreOperation.Admitted] using notAdmitted
      exact endsBadly_writeOverrides toLowercase sound fun store =>
        spoiled_of_not_lasts toLowercase (List.mem_map_of_mem requestMem) long
  | loadEnvironment durationSecs requests =>
      obtain ⟨request, requestMem, long⟩ : ∃ request ∈ requests,
          ¬ Lasts now (request.durationSecs.or durationSecs) := by
        simpa [StoreOperation.Admitted] using notAdmitted
      exact endsBadly_writeOverrides toLowercase sound fun store =>
        spoiled_of_not_lasts toLowercase (List.mem_map_of_mem requestMem) long
  | blockingPause minutes =>
      intro well
      have panics : ∀ store : BlocklistStore, (pauseSecs minutes).bind (store.pause now) = none := by
        intro store
        unfold pauseSecs
        split
        · rename_i small
          have late : ¬ now + fromSecs (minutes.toNat * 60) < instantEnd := fun ends =>
            notAdmitted ⟨small, ends⟩
          rw [Option.bind_some, BlocklistStore.pause, addDuration, if_neg late]
          rfl
        · rfl
      simp [step, SharedStores.writeBlocklist, Guarded.write, sound.blocklist, panics] at well
  | _ => exact absurd trivial notAdmitted

end Run

/-- In every run from empty stores whose operations bring in no time beyond the
clock, with the bounds of the cache in order, no lock is poisoned.  And just the
operations that bring in none go well and are followed by such that go well. -/
theorem run_new (toLowercase : Text → Text) (maxEntries : Nat) {minTtl maxTtl : UInt32}
    (ordered : minTtl ≤ maxTtl) (blocklist : BlocklistStore)
    {operations : List (Nat × StoreOperation)}
    (admitted : ∀ timed ∈ operations, timed.2.Admitted timed.1) :
    ∃ stores, (new maxEntries minTtl maxTtl blocklist).run toLowercase operations = stores ∧
      stores.cache.poisoned = false ∧ stores.overrides.poisoned = false ∧
      stores.blocklist.poisoned = false ∧
      ∀ now operation, operation.Admitted now ↔
        (stores.step toLowercase now operation).2 = true ∧
          ∀ later next, next.Admitted later →
            ((stores.step toLowercase now operation).1.step toLowercase later next).2 = true := by
  have sound := run_sound toLowercase (sound_new maxEntries ordered blocklist) admitted
  refine ⟨_, rfl, sound.cache.unpoisoned, sound.overrides.unpoisoned, sound.blocklist,
    fun now operation => ⟨fun isAdmitted => ?_, fun ⟨well, laterWell⟩ => ?_⟩⟩
  · obtain ⟨soundAfter, well⟩ := step_goesWell toLowercase sound isAdmitted
    exact ⟨well, fun later next nextAdmitted =>
      (step_goesWell toLowercase soundAfter nextAdmitted).2⟩
  · by_contra notAdmitted
    have bad := endsBadly_of_not_admitted toLowercase sound notAdmitted well 0
    rw [laterWell 0 .countOverrides trivial] at bad
    cases bad

/-- An override for a minute and a pause of five minutes. -/
theorem run_new_brief :
    ∃ stores, (new 100 60 3600 {}).run Text.toLowercase
        [(0, .createOverrides [⟨text "a.test", text "10.0.0.1", 60, some 60⟩]),
          (1, .blockingPause 5), (2, .lookupOverride (text "a.test"))] = stores ∧
      stores.overrides.poisoned = false := by
  have admitted : ∀ timed ∈ [(0, StoreOperation.createOverrides
      [⟨text "a.test", text "10.0.0.1", 60, some 60⟩]), (1, .blockingPause 5),
        (2, .lookupOverride (text "a.test"))], timed.2.Admitted timed.1 := by
    simp only [List.forall_mem_cons, StoreOperation.Admitted, Lasts]
    simp [fromSecs, instantEnd]
  obtain ⟨stores, ran, -, unpoisoned, -⟩ :=
    run_new Text.toLowercase 100 (by decide : (60 : UInt32) ≤ 3600) {} admitted
  exact ⟨stores, ran, unpoisoned⟩

/-- An override that is to last for the longest time that can be requested. -/
def endlessOverride : OverrideRequest :=
  ⟨text "a.test", text "10.0.0.1", 60, some 0xFFFFFFFFFFFFFFFF⟩

/-- The override is accepted, the next insertion poisons the lock, and then no
name can be looked up.  A pause for too many minutes does so at once, and with
the bounds of the cache in the wrong order the first message that is stored. -/
theorem endlessOverride_poisons :
    let stores := new 100 60 3600 {}
    let endless := stores.step Text.toLowercase 0 (.createOverrides [endlessOverride])
    let next := endless.1.step Text.toLowercase 1
      (.createOverrides [⟨text "b.test", text "10.0.0.2", 60, none⟩])
    let paused := stores.step Text.toLowercase 0 (.blockingPause 0xFFFFFFFFFFFFFFFF)
    let disordered := (new 100 10 5 {}).step Text.toLowercase 0
      (.insertWire (text "a.test") .a (List.replicate 12 0) .indeterminate)
    endless.2 = true ∧ (endless.1.step Text.toLowercase 1 (.lookupOverride (text "a.test"))).2 = false ∧
      next.2 = false ∧ next.1.overrides.poisoned = true ∧
      (next.1.step Text.toLowercase 2 (.lookupOverride (text "c.test"))).2 = false ∧
      paused.2 = false ∧ paused.1.blocklist.poisoned = true ∧
      (paused.1.step Text.toLowercase 1 (.isBlocked (text "c.test"))).2 = false ∧
      disordered.2 = false ∧ disordered.1.cache.poisoned = true ∧
      (disordered.1.step Text.toLowercase 1 (.lookupCache (text "c.test") .a)).2 = false := by
  decide +kernel

end SharedStores

end Numa
