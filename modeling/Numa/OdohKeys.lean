import Mathlib.Data.List.Infix
import Mathlib.Logic.Function.Basic
import Numa.Cache

/-!
# The key cache of ODoH

`OdohConfigCache` of `odoh.rs` keeps the configuration of one target and the
last failure to fetch it.  Its callers take their steps in any order, one step
for each access to shared data, each look at the clock and each await, and a
caller may be cancelled wherever it awaits.  The mutex is taken by one caller
at a time, in any order of those that wait.  A panic of `Instant + Duration`
ends a fetch like a cancellation.
-/

namespace Numa

/-- `DEFAULT_CONFIG_TTL`. -/
def defaultConfigTtl : Nat := fromSecs (24 * 60 * 60)

/-- `MAX_CONFIG_TTL`. -/
def maxConfigTtl : Nat := fromSecs (7 * 24 * 60 * 60)

/-- `REFRESH_BACKOFF`. -/
def refreshBackoff : Nat := fromSecs 60

/-- The contents are given by the octets that they were parsed from. -/
structure OdohTargetConfig where
  contents : List UInt8
  expiresAt : Nat
  /-- Kept for statements only. -/
  fetchedAt : Nat
  deriving DecidableEq

def OdohTargetConfig.isExpired (config : OdohTargetConfig) (now : Nat) : Bool :=
  config.expiresAt ≤ now

/-- `cache_control_ttl` of the numbers in the `max-age` directives. -/
def cacheControlTtl (maxAges : List Nat) : Option Nat :=
  (maxAges.find? (0 < ·)).map fromSecs

/-- `parse_odoh_config` of a body with a configuration. -/
def parseOdohConfig (now : Nat) (contents : List UInt8) (ttl : Nat) : OdohTargetConfig where
  contents := contents
  expiresAt := now + min ttl maxConfigTtl
  fetchedAt := now

/-- `fetch_odoh_config`, from the response of the target. -/
def fetchOdohConfig (now : Nat) (contents : List UInt8) (maxAges : List Nat) :
    OdohTargetConfig :=
  parseOdohConfig now contents ((cacheControlTtl maxAges).getD defaultConfigTtl)

/-! ## Callers -/

/-- Where a caller stands in `get`, which looks for a configuration and a failure
once before it has the lock and once after. -/
inductive GetStage
  | loadConfig (locked : Bool)
  | checkConfig (locked : Bool) (loaded : OdohTargetConfig)
  | loadFailure (locked : Bool)
  | checkFailure (locked : Bool) (failedAt : Nat)
  | awaitLock
  | beforeFetch
  | fetching
  | storeConfig (fresh : OdohTargetConfig)
  | clearFailure (fresh : OdohTargetConfig)
  | storeFailure (failedAt : Nat)
  /-- About to drop the guard, with a configuration or without. -/
  | unlock (hasConfig : Bool)

/-- Who calls `get`: a caller of the cache, or the first or second attempt of
`query_through_relay`. -/
inductive GetCaller
  | cache
  | attempt (second : Bool)

inductive OdohStage
  /-- The call has not started. -/
  | waiting
  | getting (caller : GetCaller) (stage : GetStage)
  /-- An attempt has a configuration to seal the query with. -/
  | sealing (second : Bool)
  | posting (second : Bool)
  /-- About to invalidate, for a caller or before the second attempt. -/
  | invalidating (retries : Bool)
  /-- Cancelled, with the guard. -/
  | unwinding
  | finished

inductive OdohCall
  | get
  | invalidate
  | queryThroughRelay

/-- How a request to the relay ends. -/
inductive PostOutcome
  | message
  | keyRotation
  | other
  deriving DecidableEq

inductive OdohEvent
  | tick (duration : Nat)
  | start (id : Nat) (call : OdohCall)
  /-- The next step of a caller that does not await anything but the lock. -/
  | proceed (id : Nat)
  /-- A query cannot be sealed. -/
  | failSeal (id : Nat)
  /-- The response of the target, unless there is none with a configuration. -/
  | fetched (id : Nat) (response : Option (List UInt8 × List Nat))
  | answered (id : Nat) (outcome : PostOutcome)
  | cancel (id : Nat)

/-- What an observer has seen. -/
inductive OdohEntry
  | fetchStarted (startedAt : Nat)
  | fetchFailed (failedAt : Nat)
  | fetchSucceeded
  /-- `get` returns a configuration, by its last look at the clock. -/
  | returned (id : Nat) (config : OdohTargetConfig) (lookedAt : Nat)
  | posted (id : Nat)
  | invalidated (id : Nat)
  deriving DecidableEq

/-- The shared data.  The text of the last failure is left out. -/
structure OdohCache where
  now : Nat
  current : Option OdohTargetConfig
  lastFailure : Option Nat
  refreshLock : Option Nat

structure OdohSystem where
  cache : OdohCache
  stages : Nat → OdohStage
  /-- The last entry comes first. -/
  log : List OdohEntry

/-- What a step of one caller does: where it stands then, the shared data, and
what can be seen of it. -/
abbrev OdohMove := OdohStage × OdohCache × List OdohEntry

/-- `get` ends with a configuration or with an error. -/
def afterGet (caller : GetCaller) (hasConfig : Bool) : OdohStage :=
  match caller, hasConfig with
  | .attempt second, true => .sealing second
  | _, _ => .finished

/-- A step of `get`; `none` while it awaits. -/
def GetStage.proceed (caller : GetCaller) (cache : OdohCache) (id : Nat) :
    GetStage → Option OdohMove
  | loadConfig locked =>
    match cache.current with
    | some loaded => some (.getting caller (.checkConfig locked loaded), cache, [])
    | none => some (.getting caller (.loadFailure locked), cache, [])
  | checkConfig locked loaded =>
    if loaded.isExpired cache.now then
      some (.getting caller (.loadFailure locked), cache, [])
    else
      some (if locked then .getting caller (.unlock true) else afterGet caller true, cache,
        [.returned id loaded cache.now])
  | loadFailure locked =>
    match cache.lastFailure with
    | some failedAt => some (.getting caller (.checkFailure locked failedAt), cache, [])
    | none => some (.getting caller (if locked then .beforeFetch else .awaitLock), cache, [])
  | checkFailure locked failedAt =>
    if cache.now - failedAt < refreshBackoff then
      some (if locked then .getting caller (.unlock false) else afterGet caller false, cache, [])
    else some (.getting caller (if locked then .beforeFetch else .awaitLock), cache, [])
  | awaitLock =>
    match cache.refreshLock with
    | none => some (.getting caller (.loadConfig true), { cache with refreshLock := some id }, [])
    | some _ => none
  | beforeFetch => some (.getting caller .fetching, cache, [.fetchStarted cache.now])
  | fetching => none
  | storeConfig fresh =>
    some (.getting caller (.clearFailure fresh), { cache with current := some fresh }, [])
  | clearFailure fresh =>
    some (.getting caller (.unlock true), { cache with lastFailure := none },
      [.returned id fresh fresh.fetchedAt, .fetchSucceeded])
  | storeFailure failedAt =>
    some (.getting caller (.unlock false), { cache with lastFailure := some failedAt },
      [.fetchFailed failedAt])
  | unlock hasConfig => some (afterGet caller hasConfig, { cache with refreshLock := none }, [])

/-- A step of a caller. -/
def OdohStage.proceed (cache : OdohCache) (id : Nat) : OdohStage → Option OdohMove
  | getting caller stage => stage.proceed caller cache id
  | sealing second => some (.posting second, cache, [.posted id])
  | invalidating retries =>
    some (if retries then .getting (.attempt true) (.loadConfig false) else .finished,
      { cache with current := none }, [.invalidated id])
  | unwinding => some (.finished, { cache with refreshLock := none }, [])
  | _ => none

def OdohStage.start : OdohCall → OdohStage
  | .get => .getting .cache (.loadConfig false)
  | .invalidate => .invalidating false
  | .queryThroughRelay => .getting (.attempt false) (.loadConfig false)

/-- The end of a fetch. -/
def OdohStage.fetched (now : Nat) (response : Option (List UInt8 × List Nat)) :
    OdohStage → Option OdohStage
  | getting caller .fetching =>
    match response with
    | some (contents, maxAges) =>
      some (.getting caller (.storeConfig (fetchOdohConfig now contents maxAges)))
    | none => some (.getting caller (.storeFailure now))
  | _ => none

/-- The end of a request to the relay. -/
def OdohStage.answered (outcome : PostOutcome) : OdohStage → Option OdohStage
  | posting second =>
    some (if outcome = .keyRotation ∧ second = false then .invalidating true else .finished)
  | _ => none

/-- Cancellation at an await. -/
def OdohStage.cancel : OdohStage → Option OdohStage
  | getting _ .awaitLock => some .finished
  | getting _ .fetching => some .unwinding
  | posting _ => some .finished
  | _ => none

namespace OdohSystem

def init (now : Nat) : OdohSystem where
  cache := ⟨now, none, none, none⟩
  stages _ := .waiting
  log := []

/-- The system after a step of one caller. -/
def advance (system : OdohSystem) (id : Nat) (move : OdohMove) : OdohSystem where
  cache := move.2.1
  stages := Function.update system.stages id move.1
  log := move.2.2 ++ system.log

/-- The same, where the caller alone is affected. -/
def relabel (system : OdohSystem) (id : Nat) (stage : OdohStage) : OdohSystem :=
  system.advance id (stage, system.cache, [])

/-- One step; `none` if the caller is not at that point. -/
def step (system : OdohSystem) : OdohEvent → Option OdohSystem
  | .tick duration =>
    some { system with cache := { system.cache with now := system.cache.now + duration } }
  | .start id call =>
    match system.stages id with
    | .waiting => some (system.relabel id (.start call))
    | _ => none
  | .proceed id => ((system.stages id).proceed system.cache id).map (system.advance id)
  | .failSeal id =>
    match system.stages id with
    | .sealing _ => some (system.relabel id .finished)
    | _ => none
  | .fetched id response =>
    ((system.stages id).fetched system.cache.now response).map (system.relabel id)
  | .answered id outcome => ((system.stages id).answered outcome).map (system.relabel id)
  | .cancel id => (system.stages id).cancel.map (system.relabel id)

/-- The state after some steps. -/
def run : OdohSystem → List OdohEvent → Option OdohSystem
  | system, [] => some system
  | system, event :: events => do
    let after ← system.step event
    after.run events

end OdohSystem

/-! ## What holds at all times -/

/-- The configuration has been fetched, and expires in time. -/
def OdohTargetConfig.Dated (now : Nat) (config : OdohTargetConfig) : Prop :=
  config.fetchedAt ≤ now ∧ config.fetchedAt < config.expiresAt ∧
    config.expiresAt ≤ config.fetchedAt + maxConfigTtl

/-- The caller has the lock. -/
def GetStage.holds : GetStage → Bool
  | loadConfig locked => locked
  | checkConfig locked _ => locked
  | loadFailure locked => locked
  | checkFailure locked _ => locked
  | awaitLock => false
  | _ => true

def OdohStage.holds : OdohStage → Bool
  | getting _ stage => stage.holds
  | unwinding => true
  | _ => false

/-- What a caller in `get` knows. -/
def GetStage.Knows (cache : OdohCache) : GetStage → Prop
  | checkConfig _ loaded => loaded.Dated cache.now
  | checkFailure locked failedAt => locked = true → cache.lastFailure = some failedAt
  | beforeFetch => ∀ failedAt, cache.lastFailure = some failedAt →
      failedAt + refreshBackoff ≤ cache.now
  | storeConfig fresh => fresh.Dated cache.now
  | clearFailure fresh => fresh.Dated cache.now
  | _ => True

def OdohStage.Knows (cache : OdohCache) : OdohStage → Prop
  | getting _ stage => stage.Knows cache
  | _ => True

/-- The last fetch that was recorded, if it failed. -/
def lastRecorded : List OdohEntry → Option Nat
  | [] => none
  | .fetchFailed failedAt :: _ => some failedAt
  | .fetchSucceeded :: _ => none
  | _ :: log => lastRecorded log

/-- The entry may follow the earlier ones. -/
def OdohEntry.Follows (earlier : List OdohEntry) : OdohEntry → Prop
  | fetchStarted startedAt => ∀ failedAt, lastRecorded earlier = some failedAt →
      failedAt + refreshBackoff ≤ startedAt
  | returned _ config lookedAt => lookedAt < config.expiresAt ∧ config.fetchedAt ≤ lookedAt ∧
      lookedAt ≤ config.fetchedAt + maxConfigTtl
  | _ => True

/-- Every entry may follow those before it. -/
def LawfulLog : List OdohEntry → Prop
  | [] => True
  | entry :: earlier => entry.Follows earlier ∧ LawfulLog earlier

inductive OdohDeed
  | post
  | invalidate
  deriving DecidableEq

/-- What a caller has done outside, the last deed first. -/
def OdohEntry.deedOf (id : Nat) : OdohEntry → Option OdohDeed
  | posted other => if other = id then some .post else none
  | invalidated other => if other = id then some .invalidate else none
  | _ => none

def deeds (log : List OdohEntry) (id : Nat) : List OdohDeed :=
  log.filterMap (OdohEntry.deedOf id)

/-- What a call does at most. -/
def Allowed (done : List OdohDeed) : Prop :=
  done <:+ [.post, .invalidate, .post] ∨ done = [.invalidate]

/-- What an attempt has done before. -/
def beforeAttempt (second : Bool) : List OdohDeed :=
  if second then [.invalidate, .post] else []

/-- What a caller at this point has done. -/
def OdohStage.HasDone (done : List OdohDeed) : OdohStage → Prop
  | waiting => done = []
  | getting .cache _ => done = []
  | getting (.attempt second) _ => done = beforeAttempt second
  | sealing second => done = beforeAttempt second
  | posting second => done = .post :: beforeAttempt second
  | invalidating retries => done = if retries then [.post] else []
  | unwinding => Allowed done
  | finished => Allowed done

namespace OdohSystem

structure Coherent (system : OdohSystem) : Prop where
  locked : ∀ id, system.cache.refreshLock = some id ↔ (system.stages id).holds = true
  knows : ∀ id, (system.stages id).Knows system.cache
  current : ∀ config, system.cache.current = some config → config.Dated system.cache.now
  recorded : system.cache.lastFailure = lastRecorded system.log
  lawful : LawfulLog system.log
  hasDone : ∀ id, (system.stages id).HasDone (deeds system.log id)

end OdohSystem

theorem OdohTargetConfig.Dated.later {config : OdohTargetConfig} {now later : Nat}
    (dated : config.Dated now) (passed : now ≤ later) : config.Dated later :=
  ⟨dated.1.trans passed, dated.2⟩

theorem dated_fetchOdohConfig (now : Nat) (contents : List UInt8) (maxAges : List Nat) :
    (fetchOdohConfig now contents maxAges).Dated now := by
  have longest : 0 < maxConfigTtl := by decide
  have positive : 0 < (cacheControlTtl maxAges).getD defaultConfigTtl := by
    cases found : maxAges.find? (0 < ·) with
    | none =>
        rw [cacheControlTtl, found]
        decide
    | some secs =>
        have isPositive : 0 < secs := by simpa using List.find?_some found
        rw [cacheControlTtl, found]
        exact Nat.mul_pos isPositive (by decide)
  refine ⟨le_refl now, ?_, ?_⟩
  · simp only [fetchOdohConfig, parseOdohConfig]
    omega
  · simp only [fetchOdohConfig, parseOdohConfig]
    omega

/-- What a caller knows without the lock does not depend on the last failure. -/
theorem GetStage.Knows.later {stage : GetStage} {before after : OdohCache}
    (knows : stage.Knows before) (passed : before.now ≤ after.now)
    (kept : stage.holds = true → after.lastFailure = before.lastFailure) :
    stage.Knows after := by
  cases stage with
  | checkConfig locked loaded => exact OdohTargetConfig.Dated.later knows passed
  | checkFailure locked failedAt =>
      intro isLocked
      rw [kept isLocked]
      exact knows isLocked
  | beforeFetch =>
      intro failedAt failed
      rw [kept rfl] at failed
      exact (knows failedAt failed).trans passed
  | storeConfig fresh => exact OdohTargetConfig.Dated.later knows passed
  | clearFailure fresh => exact OdohTargetConfig.Dated.later knows passed
  | _ => trivial

theorem OdohStage.Knows.later {stage : OdohStage} {before after : OdohCache}
    (knows : stage.Knows before) (passed : before.now ≤ after.now)
    (kept : stage.holds = true → after.lastFailure = before.lastFailure) :
    stage.Knows after := by
  cases stage with
  | getting caller stage => exact GetStage.Knows.later knows passed kept
  | _ => trivial

/-! ## The moves -/

/-- How the lock goes with a move of a caller from a stage. -/
inductive LockMove (id : Nat) (held : Bool) (before : Option Nat) : Bool → Option Nat → Prop
  | keeps : LockMove id held before held before
  | takes (free : before = none) : LockMove id held before true (some id)
  | drops (has : held = true) : LockMove id held before false none

/-- A move that keeps a coherent system coherent. -/
structure SoundMove (system : OdohSystem) (id : Nat) (move : OdohMove) : Prop where
  now : move.2.1.now = system.cache.now
  lock : LockMove id (system.stages id).holds system.cache.refreshLock move.1.holds
    move.2.1.refreshLock
  failure : (system.stages id).holds = false → move.2.1.lastFailure = system.cache.lastFailure
  knows : move.1.Knows move.2.1
  current : ∀ config, move.2.1.current = some config → config.Dated system.cache.now
  recorded : move.2.1.lastFailure = lastRecorded (move.2.2 ++ system.log)
  lawful : LawfulLog (move.2.2 ++ system.log)
  hasDone : move.1.HasDone (deeds (move.2.2 ++ system.log) id)
  own : ∀ other, other ≠ id → deeds move.2.2 other = []

namespace OdohSystem

variable {system : OdohSystem} {id : Nat}

theorem Coherent.holder (coherent : system.Coherent) {other : Nat}
    (holds : (system.stages id).holds = true) (otherHolds : (system.stages other).holds = true) :
    other = id := by
  have first := (coherent.locked id).mpr holds
  have second := (coherent.locked other).mpr otherHolds
  rw [first] at second
  exact (Option.some.inj second).symm

theorem Coherent.locked_advance (coherent : system.Coherent) {holds : Bool} {after : Option Nat}
    (lock : LockMove id (system.stages id).holds system.cache.refreshLock holds after)
    (other : Nat) :
    after = some other ↔ (if other = id then holds else (system.stages other).holds) = true := by
  have isLocked := coherent.locked other
  cases lock with
  | keeps =>
      split
      · rename_i same
        rw [← same]
        exact isLocked
      · exact isLocked
  | takes free =>
      split
      · rename_i same
        simp [same]
      · rename_i different
        rw [free] at isLocked
        simpa [Ne.symm different] using isLocked
  | drops has =>
      split
      · simp
      · rename_i different
        have notHeld : (system.stages other).holds ≠ true :=
          fun held => different (coherent.holder has held)
        simp [notHeld]

/-- A sound move of one caller keeps the system coherent. -/
theorem Coherent.advance (coherent : system.Coherent) {move : OdohMove}
    (sound : SoundMove system id move) : (system.advance id move).Coherent := by
  constructor
  · intro other
    simp only [OdohSystem.advance, Function.update_apply, apply_ite OdohStage.holds]
    exact coherent.locked_advance sound.lock other
  · intro other
    simp only [OdohSystem.advance, Function.update_apply]
    split
    · exact sound.knows
    · rename_i different
      apply (coherent.knows other).later (le_of_eq sound.now.symm)
      intro otherHolds
      apply sound.failure
      cases held : (system.stages id).holds with
      | false => rfl
      | true => exact absurd (coherent.holder held otherHolds) different
  · intro config isCurrent
    rw [OdohSystem.advance, sound.now]
    exact sound.current config isCurrent
  · exact sound.recorded
  · exact sound.lawful
  · intro other
    simp only [OdohSystem.advance, Function.update_apply]
    split
    · rename_i same
      rw [same]
      exact sound.hasDone
    · rename_i different
      rw [deeds, List.filterMap_append, ← deeds, ← deeds, sound.own other different]
      exact coherent.hasDone other

/-- A move that touches nothing but the stage of a caller. -/
theorem Coherent.soundMove_relabel (coherent : system.Coherent) {stage : OdohStage}
    (held : stage.holds = (system.stages id).holds) (knows : stage.Knows system.cache)
    (hasDone : stage.HasDone (deeds system.log id)) :
    SoundMove system id (stage, system.cache, []) where
  now := rfl
  lock := by
    rw [held]
    exact .keeps
  failure _ := rfl
  knows := knows
  current := coherent.current
  recorded := coherent.recorded
  lawful := coherent.lawful
  hasDone := hasDone
  own _ _ := rfl

end OdohSystem

theorem deeds_append (later earlier : List OdohEntry) (id : Nat) :
    deeds (later ++ earlier) id = deeds later id ++ deeds earlier id :=
  List.filterMap_append

theorem deeds_posted (id : Nat) : deeds [.posted id] id = [.post] := by
  simp [deeds, OdohEntry.deedOf]

theorem deeds_invalidated (id : Nat) : deeds [.invalidated id] id = [.invalidate] := by
  simp [deeds, OdohEntry.deedOf]

theorem allowed_beforeAttempt (second : Bool) : Allowed (beforeAttempt second) := by
  cases second <;> exact .inl (by decide)

/-- What a caller in `get` has done does not change there. -/
theorem OdohStage.hasDone_getting {caller : GetCaller} {stage other : GetStage}
    {done : List OdohDeed} (hasDone : (OdohStage.getting caller stage).HasDone done) :
    (OdohStage.getting caller other).HasDone done := by
  cases caller with
  | cache => exact hasDone
  | attempt second => exact hasDone

theorem allowed_of_getting {caller : GetCaller} {stage : GetStage} {done : List OdohDeed}
    (hasDone : (OdohStage.getting caller stage).HasDone done) : Allowed done := by
  cases caller with
  | cache =>
      cases hasDone
      exact .inl (by decide)
  | attempt second =>
      cases hasDone
      exact allowed_beforeAttempt second

theorem hasDone_afterGet {caller : GetCaller} {stage : GetStage} {done : List OdohDeed}
    (hasDone : (OdohStage.getting caller stage).HasDone done) (hasConfig : Bool) :
    (afterGet caller hasConfig).HasDone done := by
  cases caller with
  | cache =>
      obtain rfl : done = [] := hasDone
      exact .inl (by decide)
  | attempt second =>
      obtain rfl : done = beforeAttempt second := hasDone
      cases hasConfig with
      | false => exact allowed_beforeAttempt second
      | true => rfl

@[simp]
theorem holds_afterGet (caller : GetCaller) (hasConfig : Bool) :
    (afterGet caller hasConfig).holds = false := by
  cases caller <;> cases hasConfig <;> rfl

theorem knows_afterGet (caller : GetCaller) (hasConfig : Bool) (cache : OdohCache) :
    (afterGet caller hasConfig).Knows cache := by
  cases caller <;> cases hasConfig <;> trivial

namespace OdohSystem

variable {system : OdohSystem} {id : Nat} {caller : GetCaller}

/-- A move within `get` that touches nothing else. -/
theorem Coherent.soundMove_getting (coherent : system.Coherent) {stage : GetStage}
    (next : GetStage) (isAt : system.stages id = .getting caller stage) (held : next.holds = stage.holds)
    (knows : next.Knows system.cache) :
    SoundMove system id (.getting caller next, system.cache, []) := by
  have hasDone := coherent.hasDone id
  rw [isAt] at hasDone
  apply coherent.soundMove_relabel
  · rw [isAt]
    exact held
  · exact knows
  · exact OdohStage.hasDone_getting hasDone

theorem Coherent.sound_loadConfig (coherent : system.Coherent) {locked : Bool} {move : OdohMove}
    (isAt : system.stages id = .getting caller (.loadConfig locked))
    (moves : (GetStage.loadConfig locked).proceed caller system.cache id = some move) :
    SoundMove system id move := by
  simp only [GetStage.proceed] at moves
  split at moves
  · rename_i loaded isCurrent
    cases moves
    exact coherent.soundMove_getting _ isAt rfl (coherent.current loaded isCurrent)
  · cases moves
    exact coherent.soundMove_getting _ isAt rfl trivial

/-- A configuration that has not expired is returned. -/
theorem Coherent.sound_checkConfig (coherent : system.Coherent) {locked : Bool}
    {loaded : OdohTargetConfig} {move : OdohMove}
    (isAt : system.stages id = .getting caller (.checkConfig locked loaded))
    (moves : (GetStage.checkConfig locked loaded).proceed caller system.cache id = some move) :
    SoundMove system id move := by
  have dated : loaded.Dated system.cache.now := by
    have knows := coherent.knows id
    rw [isAt] at knows
    exact knows
  have hasDone := coherent.hasDone id
  rw [isAt] at hasDone
  simp only [GetStage.proceed] at moves
  split at moves
  · cases moves
    exact coherent.soundMove_getting _ isAt rfl trivial
  · rename_i fresh
    have notExpired : system.cache.now < loaded.expiresAt := by
      simpa [OdohTargetConfig.isExpired] using fresh
    cases moves
    obtain ⟨fetched, -, bounded⟩ := dated
    constructor
    · rfl
    · rw [isAt]
      cases locked with
      | false =>
          simp only [Bool.false_eq_true, if_false, holds_afterGet]
          exact .keeps
      | true => exact .keeps
    · exact fun _ => rfl
    · cases locked with
      | false => exact knows_afterGet caller true system.cache
      | true => trivial
    · exact coherent.current
    · exact coherent.recorded
    · exact ⟨⟨notExpired, fetched, by omega⟩, coherent.lawful⟩
    · cases locked with
      | false => exact hasDone_afterGet hasDone true
      | true => exact OdohStage.hasDone_getting hasDone
    · exact fun _ _ => rfl

theorem Coherent.sound_loadFailure (coherent : system.Coherent) {locked : Bool} {move : OdohMove}
    (isAt : system.stages id = .getting caller (.loadFailure locked))
    (moves : (GetStage.loadFailure locked).proceed caller system.cache id = some move) :
    SoundMove system id move := by
  simp only [GetStage.proceed] at moves
  split at moves
  · rename_i failedAt isFailure
    cases moves
    exact coherent.soundMove_getting _ isAt rfl fun _ => isFailure
  · rename_i noFailure
    cases moves
    cases locked with
    | false => exact coherent.soundMove_getting _ isAt rfl trivial
    | true =>
        have knows : GetStage.beforeFetch.Knows system.cache := by
          intro failedAt isFailure
          rw [noFailure] at isFailure
          cases isFailure
        have sound := coherent.soundMove_getting .beforeFetch isAt rfl knows
        exact sound

/-- The lock keeps the last failure as it was loaded. -/
theorem Coherent.sound_checkFailure (coherent : system.Coherent) {locked : Bool} {failedAt : Nat}
    {move : OdohMove}
    (isAt : system.stages id = .getting caller (.checkFailure locked failedAt))
    (moves : (GetStage.checkFailure locked failedAt).proceed caller system.cache id = some move) :
    SoundMove system id move := by
  have loaded : locked = true → system.cache.lastFailure = some failedAt := by
    have knows := coherent.knows id
    rw [isAt] at knows
    exact knows
  have hasDone := coherent.hasDone id
  rw [isAt] at hasDone
  simp only [GetStage.proceed] at moves
  split at moves
  · cases moves
    cases locked with
    | false =>
        apply coherent.soundMove_relabel
        · rw [isAt]
          exact holds_afterGet caller false
        · exact knows_afterGet caller false system.cache
        · exact hasDone_afterGet hasDone false
    | true => exact coherent.soundMove_getting _ isAt rfl trivial
  · rename_i passed
    cases moves
    cases locked with
    | false => exact coherent.soundMove_getting _ isAt rfl trivial
    | true =>
        have knows : GetStage.beforeFetch.Knows system.cache := by
          intro other isFailure
          rw [loaded rfl] at isFailure
          cases isFailure
          have positive : 0 < refreshBackoff := by decide
          omega
        have sound := coherent.soundMove_getting .beforeFetch isAt rfl knows
        exact sound

theorem Coherent.sound_awaitLock (coherent : system.Coherent) {move : OdohMove}
    (isAt : system.stages id = .getting caller .awaitLock)
    (moves : GetStage.awaitLock.proceed caller system.cache id = some move) :
    SoundMove system id move := by
  have hasDone := coherent.hasDone id
  rw [isAt] at hasDone
  simp only [GetStage.proceed] at moves
  split at moves
  · rename_i free
    cases moves
    exact
      { now := rfl
        lock := .takes free
        failure := fun _ => rfl
        knows := trivial
        current := coherent.current
        recorded := coherent.recorded
        lawful := coherent.lawful
        hasDone := OdohStage.hasDone_getting hasDone
        own := fun _ _ => rfl }
  · cases moves

/-- A move of the holder of the lock, who keeps it. -/
theorem Coherent.sound_holding (coherent : system.Coherent) {stage : GetStage}
    (next : GetStage) (cache : OdohCache) (entries : List OdohEntry)
    (isAt : system.stages id = .getting caller stage) (holds : stage.holds = true)
    (nextHolds : next.holds = true) (now : cache.now = system.cache.now)
    (lock : cache.refreshLock = system.cache.refreshLock) (knows : next.Knows cache)
    (current : ∀ config, cache.current = some config → config.Dated system.cache.now)
    (recorded : cache.lastFailure = lastRecorded (entries ++ system.log))
    (lawful : LawfulLog (entries ++ system.log)) (idle : ∀ other, deeds entries other = []) :
    SoundMove system id (.getting caller next, cache, entries) where
  now := now
  lock := by
    have same : (OdohStage.getting caller next).holds = (system.stages id).holds := by
      rw [isAt]
      exact nextHolds.trans holds.symm
    rw [same, lock]
    exact .keeps
  failure notHeld := by
    rw [isAt, OdohStage.holds, holds] at notHeld
    cases notHeld
  knows := knows
  current := current
  recorded := recorded
  lawful := lawful
  hasDone := by
    have hasDone := coherent.hasDone id
    rw [isAt] at hasDone
    rw [deeds_append, idle, List.nil_append]
    exact OdohStage.hasDone_getting hasDone
  own other _ := idle other

/-- Every step of `get` is sound. -/
theorem Coherent.sound_getProceed (coherent : system.Coherent) {stage : GetStage}
    {move : OdohMove} (isAt : system.stages id = .getting caller stage)
    (moves : stage.proceed caller system.cache id = some move) : SoundMove system id move := by
  have knows := coherent.knows id
  have hasDone := coherent.hasDone id
  rw [isAt] at knows hasDone
  cases stage with
  | loadConfig locked => exact coherent.sound_loadConfig isAt moves
  | checkConfig locked loaded => exact coherent.sound_checkConfig isAt moves
  | loadFailure locked => exact coherent.sound_loadFailure isAt moves
  | checkFailure locked failedAt => exact coherent.sound_checkFailure isAt moves
  | awaitLock => exact coherent.sound_awaitLock isAt moves
  | beforeFetch =>
      cases moves
      have follows : (OdohEntry.fetchStarted system.cache.now).Follows system.log :=
        fun failedAt isFailure => knows failedAt (coherent.recorded.trans isFailure)
      exact coherent.sound_holding .fetching system.cache [.fetchStarted system.cache.now] isAt rfl
        rfl rfl rfl trivial coherent.current coherent.recorded ⟨follows, coherent.lawful⟩
        fun _ => rfl
  | fetching => cases moves
  | storeConfig fresh =>
      cases moves
      have current : ∀ config, some fresh = some config → config.Dated system.cache.now := by
        intro config isFresh
        cases isFresh
        exact knows
      exact coherent.sound_holding (.clearFailure fresh) { system.cache with current := some fresh }
        [] isAt rfl rfl rfl rfl knows current coherent.recorded coherent.lawful fun _ => rfl
  | clearFailure fresh =>
      cases moves
      obtain ⟨-, lasting, bounded⟩ := knows
      exact coherent.sound_holding (.unlock true) { system.cache with lastFailure := none }
        [.returned id fresh fresh.fetchedAt, .fetchSucceeded] isAt rfl rfl rfl rfl trivial
        coherent.current rfl
        ⟨⟨lasting, le_refl _, Nat.le_add_right _ _⟩, trivial, coherent.lawful⟩ fun _ => rfl
  | storeFailure failedAt =>
      cases moves
      exact coherent.sound_holding (.unlock false)
        { system.cache with lastFailure := some failedAt } [.fetchFailed failedAt] isAt rfl rfl rfl
        rfl trivial coherent.current rfl ⟨trivial, coherent.lawful⟩ fun _ => rfl
  | unlock hasConfig =>
      cases moves
      exact
        { now := rfl
          lock := by
            rw [holds_afterGet, isAt]
            exact .drops rfl
          failure := fun _ => rfl
          knows := knows_afterGet caller hasConfig _
          current := coherent.current
          recorded := coherent.recorded
          lawful := coherent.lawful
          hasDone := hasDone_afterGet hasDone hasConfig
          own := fun _ _ => rfl }

/-- Every step of a caller is sound. -/
theorem Coherent.sound_proceed (coherent : system.Coherent) {move : OdohMove}
    (moves : (system.stages id).proceed system.cache id = some move) :
    SoundMove system id move := by
  have hasDone := coherent.hasDone id
  cases isAt : system.stages id with
  | getting caller stage =>
      rw [isAt] at moves
      exact coherent.sound_getProceed isAt moves
  | sealing second =>
      rw [isAt] at moves hasDone
      cases moves
      have did : deeds system.log id = beforeAttempt second := hasDone
      exact
        { now := rfl
          lock := by
            rw [isAt]
            exact .keeps
          failure := fun _ => rfl
          knows := trivial
          current := coherent.current
          recorded := coherent.recorded
          lawful := ⟨trivial, coherent.lawful⟩
          hasDone := by
            rw [deeds_append, did, deeds_posted]
            rfl
          own := fun other different => by simp [deeds, OdohEntry.deedOf, different.symm] }
  | invalidating retries =>
      rw [isAt] at moves hasDone
      cases moves
      exact
        { now := rfl
          lock := by
            rw [isAt]
            cases retries <;> exact .keeps
          failure := fun _ => rfl
          knows := by cases retries <;> trivial
          current := fun config isCurrent => by cases isCurrent
          recorded := coherent.recorded
          lawful := ⟨trivial, coherent.lawful⟩
          hasDone := by
            rw [deeds_append, deeds_invalidated]
            cases retries with
            | false =>
                have did : deeds system.log id = [] := hasDone
                rw [did]
                exact .inr rfl
            | true =>
                have did : deeds system.log id = [.post] := hasDone
                rw [did]
                rfl
          own := fun other different => by simp [deeds, OdohEntry.deedOf, different.symm] }
  | unwinding =>
      rw [isAt] at moves hasDone
      cases moves
      exact
        { now := rfl
          lock := by
            rw [isAt]
            exact .drops rfl
          failure := fun _ => rfl
          knows := trivial
          current := coherent.current
          recorded := coherent.recorded
          lawful := coherent.lawful
          hasDone := hasDone
          own := fun _ _ => rfl }
  | waiting =>
      rw [isAt] at moves
      cases moves
  | posting second =>
      rw [isAt] at moves
      cases moves
  | finished =>
      rw [isAt] at moves
      cases moves

theorem Coherent.sound_start (coherent : system.Coherent) (call : OdohCall)
    (isAt : system.stages id = .waiting) :
    SoundMove system id (.start call, system.cache, []) := by
  have hasDone := coherent.hasDone id
  rw [isAt] at hasDone
  apply coherent.soundMove_relabel
  · rw [isAt]
    cases call <;> rfl
  · cases call <;> trivial
  · cases call <;> exact hasDone

theorem Coherent.sound_fetched (coherent : system.Coherent)
    {response : Option (List UInt8 × List Nat)} {stage : OdohStage}
    (ends : (system.stages id).fetched system.cache.now response = some stage) :
    SoundMove system id (stage, system.cache, []) := by
  cases isAt : system.stages id with
  | getting caller inner =>
      rw [isAt] at ends
      cases inner with
      | fetching =>
          cases response with
          | none =>
              cases ends
              exact coherent.soundMove_getting _ isAt rfl trivial
          | some answer =>
              cases ends
              exact coherent.soundMove_getting (.storeConfig _) isAt rfl
                (dated_fetchOdohConfig system.cache.now answer.1 answer.2)
      | _ => cases ends
  | _ =>
      rw [isAt] at ends
      cases ends

theorem Coherent.sound_answered (coherent : system.Coherent) {outcome : PostOutcome}
    {stage : OdohStage} (ends : (system.stages id).answered outcome = some stage) :
    SoundMove system id (stage, system.cache, []) := by
  have hasDone := coherent.hasDone id
  cases isAt : system.stages id with
  | posting second =>
      rw [isAt] at ends hasDone
      have did : deeds system.log id = .post :: beforeAttempt second := hasDone
      cases ends
      apply coherent.soundMove_relabel
      · rw [isAt]
        split <;> rfl
      · split <;> trivial
      · rw [did]
        split
        · rename_i retries
          rw [retries.2]
          rfl
        · cases second <;> exact .inl (by decide)
  | _ =>
      rw [isAt] at ends
      cases ends

theorem Coherent.sound_cancel (coherent : system.Coherent) {stage : OdohStage}
    (ends : (system.stages id).cancel = some stage) :
    SoundMove system id (stage, system.cache, []) := by
  have hasDone := coherent.hasDone id
  cases isAt : system.stages id with
  | getting caller inner =>
      rw [isAt] at ends hasDone
      have allowed : Allowed (deeds system.log id) := allowed_of_getting hasDone
      cases inner with
      | awaitLock =>
          cases ends
          apply coherent.soundMove_relabel
          · rw [isAt]
            rfl
          · trivial
          · exact allowed
      | fetching =>
          cases ends
          apply coherent.soundMove_relabel
          · rw [isAt]
            rfl
          · trivial
          · exact allowed
      | _ => cases ends
  | posting second =>
      rw [isAt] at ends hasDone
      have did : deeds system.log id = .post :: beforeAttempt second := hasDone
      cases ends
      apply coherent.soundMove_relabel
      · rw [isAt]
        rfl
      · trivial
      · rw [did]
        cases second <;> exact .inl (by decide)
  | _ =>
      rw [isAt] at ends
      cases ends

theorem Coherent.tick (coherent : system.Coherent) (duration : Nat) :
    OdohSystem.Coherent
      { system with cache := { system.cache with now := system.cache.now + duration } } where
  locked := coherent.locked
  knows id := (coherent.knows id).later (Nat.le_add_right _ _) fun _ => rfl
  current config isCurrent := (coherent.current config isCurrent).later (Nat.le_add_right _ _)
  recorded := coherent.recorded
  lawful := coherent.lawful
  hasDone := coherent.hasDone

theorem coherent_init (now : Nat) : (init now).Coherent where
  locked id := by
    constructor
    · intro locked
      cases locked
    · intro holds
      cases holds
  knows _ := trivial
  current config isCurrent := by cases isCurrent
  recorded := rfl
  lawful := trivial
  hasDone _ := rfl

/-- One step. -/
theorem Coherent.step (coherent : system.Coherent) {event : OdohEvent} {after : OdohSystem}
    (steps : system.step event = some after) : after.Coherent := by
  cases event with
  | tick duration =>
      cases steps
      exact coherent.tick duration
  | start id call =>
      simp only [OdohSystem.step] at steps
      split at steps
      · rename_i isAt
        cases steps
        exact coherent.advance (coherent.sound_start call isAt)
      · cases steps
  | proceed id =>
      obtain ⟨move, moves, rfl⟩ := Option.map_eq_some_iff.mp steps
      exact coherent.advance (coherent.sound_proceed moves)
  | failSeal id =>
      simp only [OdohSystem.step] at steps
      split at steps
      · rename_i second isAt
        cases steps
        have hasDone := coherent.hasDone id
        rw [isAt] at hasDone
        have did : deeds system.log id = beforeAttempt second := hasDone
        apply coherent.advance
        apply coherent.soundMove_relabel
        · rw [isAt]
          rfl
        · trivial
        · rw [did]
          exact allowed_beforeAttempt second
      · cases steps
  | fetched id response =>
      obtain ⟨stage, ends, rfl⟩ := Option.map_eq_some_iff.mp steps
      exact coherent.advance (coherent.sound_fetched ends)
  | answered id outcome =>
      obtain ⟨stage, ends, rfl⟩ := Option.map_eq_some_iff.mp steps
      exact coherent.advance (coherent.sound_answered ends)
  | cancel id =>
      obtain ⟨stage, ends, rfl⟩ := Option.map_eq_some_iff.mp steps
      exact coherent.advance (coherent.sound_cancel ends)

/-- A whole run. -/
theorem Coherent.run (coherent : system.Coherent) {events : List OdohEvent} {after : OdohSystem}
    (runs : system.run events = some after) : after.Coherent := by
  induction events generalizing system with
  | nil =>
      cases runs
      exact coherent
  | cons event events ih =>
      obtain ⟨between, steps, rest⟩ := Option.bind_eq_some_iff.mp runs
      exact ih (coherent.step steps) rest

end OdohSystem

theorem LawfulLog.follows {later : List OdohEntry} {entry : OdohEntry} {earlier : List OdohEntry}
    (lawful : LawfulLog (later ++ entry :: earlier)) : entry.Follows earlier := by
  induction later with
  | nil => exact lawful.1
  | cons last later ih => exact ih lawful.2

/-- Every caller has done what a call may do. -/
theorem OdohStage.HasDone.allowed {stage : OdohStage} {done : List OdohDeed}
    (hasDone : stage.HasDone done) : Allowed done := by
  cases stage with
  | waiting =>
      cases hasDone
      exact .inl (by decide)
  | getting caller inner => exact allowed_of_getting hasDone
  | sealing second =>
      cases hasDone
      exact allowed_beforeAttempt second
  | posting second =>
      cases hasDone
      cases second <;> exact .inl (by decide)
  | invalidating retries =>
      cases hasDone
      cases retries <;> exact .inl (by decide)
  | unwinding => exact hasDone
  | finished => exact hasDone

/-- A caller that fetches has the lock. -/
theorem OdohSystem.Coherent.fetches {system : OdohSystem} (coherent : system.Coherent)
    {id : Nat} {caller : GetCaller} (isAt : system.stages id = .getting caller .fetching) :
    system.cache.refreshLock = some id := by
  apply (coherent.locked id).mpr
  rw [isAt]
  rfl

/-- In every run of the callers, one fetch is in flight at most, no fetch starts within the
backoff of the last one if that has failed, no configuration is returned that has expired or
is too old, and a query is posted twice at most, the second time after an invalidation. -/
theorem odoh_keys_guarded (now : Nat) (events : List OdohEvent) (system : OdohSystem)
    (runs : (OdohSystem.init now).run events = some system) :
    (∀ id other caller otherCaller, system.stages id = .getting caller .fetching →
      system.stages other = .getting otherCaller .fetching → id = other) ∧
    (∀ later startedAt earlier failedAt, system.log = later ++ .fetchStarted startedAt :: earlier →
      lastRecorded earlier = some failedAt → failedAt + refreshBackoff ≤ startedAt) ∧
    (∀ id config lookedAt, .returned id config lookedAt ∈ system.log →
      lookedAt < config.expiresAt ∧ config.fetchedAt ≤ lookedAt ∧
        lookedAt ≤ config.fetchedAt + maxConfigTtl) ∧
    ∀ id, deeds system.log id <:+ [.post, .invalidate, .post] ∨
      deeds system.log id = [.invalidate] := by
  have coherent : system.Coherent := (OdohSystem.coherent_init now).run runs
  refine ⟨?_, ?_, ?_, fun id => (coherent.hasDone id).allowed⟩
  · intro id other caller otherCaller fetches otherFetches
    have first := coherent.fetches fetches
    have second := coherent.fetches otherFetches
    rw [first] at second
    exact Option.some.inj second
  · intro later startedAt earlier failedAt isLog failed
    have lawful := coherent.lawful
    rw [isLog] at lawful
    exact lawful.follows failedAt failed
  · intro id config lookedAt isReturned
    obtain ⟨later, earlier, isLog⟩ := List.append_of_mem isReturned
    have lawful := coherent.lawful
    rw [isLog] at lawful
    exact lawful.follows

/-- Two queries while the target has no configuration: the first fetches, and the second gets
the recorded failure. -/
def failingQueries : List OdohEvent :=
  [.start 0 .queryThroughRelay, .start 1 .queryThroughRelay, .proceed 0, .proceed 0, .proceed 1,
    .proceed 1, .proceed 0, .proceed 0, .proceed 0, .proceed 0, .tick 5, .fetched 0 none,
    .proceed 0, .proceed 0, .proceed 1, .proceed 1, .proceed 1, .proceed 1, .proceed 1]

theorem odoh_keys_guarded_failingQueries :
    ∃ system, (OdohSystem.init 0).run failingQueries = some system ∧
      system.log = [.fetchFailed 5, .fetchStarted 0] ∧
      ∀ id, deeds system.log id <:+ [.post, .invalidate, .post] ∨
        deeds system.log id = [.invalidate] :=
  ⟨_, rfl, rfl, (odoh_keys_guarded 0 failingQueries _ rfl).2.2.2⟩

end Numa
