import Numa.Cache

/-!
# Points in time

`Instant` and `Duration` have bounds, and their arithmetic panics beyond them.
-/

namespace Numa

/-- The seconds of an `Instant` are an `i64`. -/
def instantEnd : Nat := fromSecs (2 ^ 63)

/-- The seconds of a `Duration` are a `u64`. -/
def durationEnd : Nat := fromSecs (2 ^ 64)

/-- `Instant + Duration`.  `none` is its panic. -/
def addDuration (instant duration : Nat) : Option Nat :=
  if instant + duration < instantEnd then some (instant + duration) else none

/-- A `Duration` that an operator yields.  `none` is the panic of the operator. -/
def durationOf (duration : Nat) : Option Nat :=
  if duration < durationEnd then some duration else none

theorem addDuration_isSome {instant duration : Nat} :
    (addDuration instant duration).isSome = true ↔ instant + duration < instantEnd := by
  unfold addDuration
  split <;> simp [*]

theorem durationOf_of_lt {duration : Nat} (inside : duration < durationEnd) :
    durationOf duration = some duration :=
  if_pos inside

end Numa
