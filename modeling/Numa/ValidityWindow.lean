import Mathlib.Tactic.Common
import Numa.SignedData

/-!
# The validity window of a signature

The times of an RRSIG are serial numbers: they are compared around a circle, and
of two numbers the one that is less than half the circle ahead is the later one.
`is_rrsig_time_valid` compares the inception with the fudged clock as plain
numbers.
-/

namespace Numa

/-- One serial number is before another: it is less and not by half the circle,
or it is greater by more than that. -/
def SerialBefore (bits first second : Nat) : Prop :=
  (first < second ∧ second - first < 2 ^ (bits - 1)) ∨
    (second < first ∧ 2 ^ (bits - 1) < first - second)

instance (bits first second : Nat) : Decidable (SerialBefore bits first second) :=
  inferInstanceAs (Decidable (_ ∨ _))

/-- In 32 bits the difference that wraps decides. -/
theorem serialBefore_iff {first second : UInt32} :
    SerialBefore 32 first.toNat second.toNat ↔
      first ≠ second ∧ (second - first).toNat < 2 ^ 31 := by
  have firstBound := first.toNat_lt
  have secondBound := second.toNat_lt
  rw [SerialBefore, UInt32.toNat_sub, Ne, ← UInt32.toNat_inj]
  omega

/-- The check accepts only signatures that have not expired and do not begin
later than the fudged clock. -/
def AcceptsInWindow (now expiration inception : UInt32) : Prop :=
  isRrsigTimeValid now expiration inception = true →
    ¬ SerialBefore 32 expiration.toNat now.toNat ∧
      ¬ SerialBefore 32 (now + fudge).toNat inception.toNat

instance (now expiration inception : UInt32) : Decidable (AcceptsInWindow now expiration inception) :=
  inferInstanceAs (Decidable (_ → _))

/-- As a plain number the inception is not less than the latest start by more
than half the circle, and the fudge does not make half the circle of it. -/
def ComparesPlainly (start inception : UInt32) : Prop :=
  start.toNat ≤ inception.toNat + 2 ^ 31 ∧
    (inception.toNat ≤ start.toNat + (2 ^ 31 - fudge.toNat) ∨
      start.toNat + 2 ^ 31 ≤ inception.toNat)

/-- What the check accepts. -/
theorem isRrsigTimeValid_iff {now expiration inception : UInt32} :
    isRrsigTimeValid now expiration inception = true ↔
      ((now - inception).toNat < 2 ^ 31 ∨ inception.toNat ≤ (now + fudge).toNat) ∧
        (expiration - now).toNat < 2 ^ 31 := by
  simp [isRrsigTimeValid, UInt32.lt_iff_toNat_lt, UInt32.le_iff_toNat_le]

/-- A time that the check takes for an expiration ahead is not before the clock. -/
theorem not_serialBefore_of_ahead {now expiration : UInt32}
    (ahead : (expiration - now).toNat < 2 ^ 31) : ¬ SerialBefore 32 expiration.toNat now.toNat := by
  rw [serialBefore_iff]
  rintro ⟨different, behind⟩
  rw [Ne, ← UInt32.toNat_inj] at different
  rw [UInt32.toNat_sub] at ahead behind
  have nowBound := now.toNat_lt
  have expirationBound := expiration.toNat_lt
  omega

/-- An inception that the check takes for one in the window. -/
theorem inception_iff {now inception : UInt32} :
    ((now - inception).toNat < 2 ^ 31 ∨ inception.toNat ≤ (now + fudge).toNat →
        ¬ SerialBefore 32 (now + fudge).toNat inception.toNat) ↔
      ComparesPlainly (now + fudge) inception := by
  have fudgeEq : fudge.toNat = 300 := rfl
  have nowBound := now.toNat_lt
  have inceptionBound := inception.toNat_lt
  rw [SerialBefore, ComparesPlainly, UInt32.toNat_sub, UInt32.toNat_add, fudgeEq]
  omega

/-- The check accepts in the window only iff the expiration is not ahead of the
clock or the inception compares like a plain number. -/
theorem acceptsInWindow_iff (now expiration inception : UInt32) :
    AcceptsInWindow now expiration inception ↔
      2 ^ 31 ≤ (expiration - now).toNat ∨ ComparesPlainly (now + fudge) inception := by
  rw [AcceptsInWindow, isRrsigTimeValid_iff, ← inception_iff]
  by_cases ahead : (expiration - now).toNat < 2 ^ 31
  · have unexpired := not_serialBefore_of_ahead ahead
    have notBehind : ¬ 2 ^ 31 ≤ (expiration - now).toNat := by omega
    simp only [ahead, and_true, unexpired, not_false_eq_true, true_and, notBehind, false_or]
  · have behind : 2 ^ 31 ≤ (expiration - now).toNat := by omega
    simp only [ahead, and_false, false_implies, behind, true_or]

/-- A signature that begins in seventeen years is accepted near the end of the
circle. -/
theorem not_all_acceptsInWindow :
    ¬ ∀ now expiration inception : UInt32, AcceptsInWindow now expiration inception := by
  intro all
  exact absurd (all 0xF0000000 0xF0000001 0x10000000) (by decide)

end Numa
