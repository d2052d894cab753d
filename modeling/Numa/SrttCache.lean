import Mathlib.Data.List.AList
import Mathlib.Logic.Function.Iterate
import Numa.Forward
import Numa.Svcb

/-!
# Smoothed round trip times

`SrttCache` of `srtt.rs`.  Hash maps are association lists without duplicate
keys; which of some entries of the same age is evicted first is unspecified
there.
-/

namespace Numa

inductive UpstreamTransport
  | udp
  | tcp
  | doh
  | dot
  | odoh
  deriving DecidableEq

def SocketAddr.ip : SocketAddr → IpAddr
  | v4 addr _ => .v4 addr
  | v6 addr _ => .v6 addr

structure SrttEntry where
  srttMs : Nat
  updatedAt : Nat
  deriving DecidableEq

/-- A path to a server. -/
abbrev SrttKey := IpAddr × UpstreamTransport

structure SrttCache where
  entries : AList fun _ : SrttKey => SrttEntry
  enabled : Bool

namespace SrttCache

/-- `INITIAL_SRTT_MS`. -/
def initialSrttMs : Nat := 200

/-- `FAILURE_PENALTY_MS`. -/
def failurePenaltyMs : Nat := 5000

/-- `DECAY_AFTER_SECS`. -/
def decayAfterSecs : Nat := 300

/-- `MAX_ENTRIES`. -/
def maxEntries : Nat := 4096

/-- `EVICT_BATCH`. -/
def evictBatch : Nat := 64

def new (enabled : Bool) : SrttCache where
  entries := ∅
  enabled := enabled

def decayForAge (srttMs ageSecs : Nat) : Nat :=
  if decayAfterSecs < ageSecs then
    let periods := min (ageSecs / decayAfterSecs) 8
    (fun srtt => (srtt + initialSrttMs) / 2)^[periods] srttMs
  else srttMs

def decayedSrtt (now : Nat) (entry : SrttEntry) : Nat :=
  decayForAge entry.srttMs ((now - entry.updatedAt) / fromSecs 1)

def get (cache : SrttCache) (now : Nat) (key : SrttKey) : Nat :=
  match cache.entries.lookup key with
  | some entry => decayedSrtt now entry
  | none => initialSrttMs

def maybeEvict (cache : SrttCache) : SrttCache :=
  if cache.entries.entries.length < maxEntries then cache
  else
    let byAge := cache.entries.entries.mergeSort fun first second =>
      first.2.updatedAt ≤ second.2.updatedAt
    { cache with
      entries := (byAge.take evictBatch).foldl (fun entries entry => entries.erase entry.1)
        cache.entries }

def recordRtt (cache : SrttCache) (now : Nat) (key : SrttKey) (rttMs : Nat) : SrttCache :=
  if cache.enabled then
    let evicted := cache.maybeEvict
    let entry := (evicted.entries.lookup key).getD ⟨rttMs, now⟩
    let base := decayedSrtt now entry
    { evicted with entries := evicted.entries.insert key ⟨(base * 7 + rttMs) / 8, now⟩ }
  else cache

def recordFailure (cache : SrttCache) (now : Nat) (key : SrttKey) : SrttCache :=
  if cache.enabled then
    let evicted := cache.maybeEvict
    { evicted with entries := evicted.entries.insert key ⟨failurePenaltyMs, now⟩ }
  else cache

theorem get_recordFailure {cache : SrttCache} (enabled : cache.enabled = true) {failedAt now : Nat}
    (key : SrttKey) (soon : (now - failedAt) / fromSecs 1 ≤ decayAfterSecs) :
    (cache.recordFailure failedAt key).get now key = failurePenaltyMs := by
  rw [recordFailure, if_pos enabled, get]
  simp only [AList.lookup_insert]
  rw [decayedSrtt, decayForAge, if_neg (Nat.not_lt.mpr soon)]

/-- One failure opens the circuit breaker for a while. -/
theorem primarySkipSrttMs_le_get_recordFailure {cache : SrttCache} (enabled : cache.enabled = true)
    {failedAt now : Nat} (key : SrttKey) (soon : (now - failedAt) / fromSecs 1 ≤ decayAfterSecs) :
    primarySkipSrttMs ≤ (cache.recordFailure failedAt key).get now key := by
  rw [get_recordFailure enabled key soon]
  decide

end SrttCache

end Numa
