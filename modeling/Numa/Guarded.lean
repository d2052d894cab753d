import Mathlib.Tactic.Common

/-!
# Values behind a lock

An `RwLock` that is unwrapped at every access: a panic under a write guard
poisons it, and from then on every access panics.
-/

namespace Numa

structure Guarded (α : Type) where
  value : α
  poisoned : Bool := false

namespace Guarded

variable {α β : Type}

/-- `lock.read().unwrap()` with what is done under the guard.  `none` is a panic. -/
def read (lock : Guarded α) (operation : α → Option β) : Option β :=
  if lock.poisoned then none else operation lock.value

/-- `lock.write().unwrap()` with what is done under the guard: a panic there
poisons the lock. -/
def write (lock : Guarded α) (operation : α → Option α) : Guarded α :=
  if lock.poisoned then lock
  else
    match operation lock.value with
    | some value => { lock with value := value }
    | none => { lock with poisoned := true }

/-- The lock is not poisoned, and the value behind it keeps an invariant. -/
structure Sound (invariant : α → Prop) (lock : Guarded α) : Prop where
  unpoisoned : lock.poisoned = false
  keeps : invariant lock.value

variable {invariant : α → Prop} {lock : Guarded α}

theorem Sound.read (sound : lock.Sound invariant) {operation : α → Option β}
    (safe : ∀ value, invariant value → (operation value).isSome = true) :
    (lock.read operation).isSome = true := by
  rw [Guarded.read, if_neg (by simp [sound.unpoisoned])]
  exact safe lock.value sound.keeps

theorem Sound.write (sound : lock.Sound invariant) {operation : α → Option α}
    (keeps : ∀ value, invariant value → ∃ after, operation value = some after ∧ invariant after) :
    (lock.write operation).Sound invariant := by
  obtain ⟨after, done, kept⟩ := keeps lock.value sound.keeps
  rw [Guarded.write, if_neg (by simp [sound.unpoisoned]), done]
  exact ⟨sound.unpoisoned, kept⟩

end Guarded

end Numa
