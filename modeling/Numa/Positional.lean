import Mathlib.Data.Nat.Digits.Defs
import Mathlib.Tactic.Ring

/-!
# Regrouping digits

Numbers by their digits, the most significant one first.  A reader of digits of
a few bits each puts them together to larger digits: as it goes on it keeps the
bits that do not fill a large digit yet, and no bit is lost.  Where the small
digits spell large ones, filled up with zeros, the reader returns these.
-/

namespace Numa

namespace Positional

/-- The number with these digits, the most significant one first. -/
def value (base : Nat) (digits : List Nat) : Nat :=
  Nat.ofDigits base digits.reverse

theorem value_append (base : Nat) (front back : List Nat) :
    value base (front ++ back) = value base front * base ^ back.length + value base back := by
  rw [value, List.reverse_append, Nat.ofDigits_append, List.length_reverse, Nat.add_comm,
    Nat.mul_comm]
  rfl

@[simp]
theorem value_nil (base : Nat) : value base [] = 0 :=
  rfl

@[simp]
theorem value_singleton (base digit : Nat) : value base [digit] = digit :=
  Nat.ofDigits_singleton

theorem value_cons (base digit : Nat) (digits : List Nat) :
    value base (digit :: digits) = digit * base ^ digits.length + value base digits := by
  rw [← List.singleton_append, value_append, value_singleton]

/-- Digits are known by their number and their value. -/
theorem eq_of_value_eq {base : Nat} (large : 1 < base) {first second : List Nat}
    (length : first.length = second.length) (firstLt : ∀ digit ∈ first, digit < base)
    (secondLt : ∀ digit ∈ second, digit < base)
    (same : value base first = value base second) : first = second := by
  apply List.reverse_inj.mp
  exact Nat.ofDigits_inj_of_len_eq large (by simpa using length) (by simpa using firstLt)
    (by simpa using secondLt) same

/-- The digits of `low` bits are read as the digits of `high` bits, and `count`
bits are pending. -/
structure Regrouped (low high : Nat) (digits groups : List Nat) (count pending : Nat) :
    Prop where
  groups_lt : ∀ group ∈ groups, group < 2 ^ high
  length : low * digits.length = high * groups.length + count
  count_lt : count < high
  pending_lt : pending < 2 ^ count
  value_eq : value (2 ^ low) digits = value (2 ^ high) groups * 2 ^ count + pending

/-- The digits of `low` bits spell those of `high` bits, the last one filled up
with zeros. -/
structure Spells (low high : Nat) (digits groups : List Nat) : Prop where
  groups_lt : ∀ group ∈ groups, group < 2 ^ high
  padded : ∃ pad < low, low * digits.length = high * groups.length + pad ∧
    value (2 ^ low) digits = value (2 ^ high) groups * 2 ^ pad

variable {low high count pending digit : Nat} {digits groups : List Nat}

theorem regrouped_nil (positive : 0 < high) : Regrouped low high [] [] 0 0 where
  groups_lt := by simp
  length := by simp
  count_lt := positive
  pending_lt := Nat.one_pos
  value_eq := by simp

namespace Regrouped

theorem value_push (regrouped : Regrouped low high digits groups count pending) :
    value (2 ^ low) (digits ++ [digit]) =
      value (2 ^ high) groups * 2 ^ (count + low) + (pending * 2 ^ low + digit) := by
  rw [value_append, regrouped.value_eq, value_singleton, List.length_singleton, Nat.pow_one,
    Nat.pow_add]
  ring

theorem push_lt (regrouped : Regrouped low high digits groups count pending)
    (digitLt : digit < 2 ^ low) : pending * 2 ^ low + digit < 2 ^ (count + low) := by
  have pendingLt := regrouped.pending_lt
  calc
    pending * 2 ^ low + digit < (pending + 1) * 2 ^ low := by
      rw [Nat.add_mul, Nat.one_mul]
      omega
    _ ≤ 2 ^ count * 2 ^ low := Nat.mul_le_mul_right _ pendingLt
    _ = 2 ^ (count + low) := (Nat.pow_add 2 count low).symm

/-- A digit that does not fill a group. -/
theorem push (regrouped : Regrouped low high digits groups count pending)
    (digitLt : digit < 2 ^ low) (fits : count + low < high) :
    Regrouped low high (digits ++ [digit]) groups (count + low) (pending * 2 ^ low + digit) where
  groups_lt := regrouped.groups_lt
  length := by
    have length := regrouped.length
    rw [List.length_append, List.length_singleton, Nat.mul_add]
    omega
  count_lt := fits
  pending_lt := regrouped.push_lt digitLt
  value_eq := regrouped.value_push

/-- A digit that fills a group. -/
theorem pushFull (regrouped : Regrouped low high digits groups count pending)
    (digitLt : digit < 2 ^ low) (narrow : low ≤ high) {left : Nat} (fills : count + low = high + left) :
    Regrouped low high (digits ++ [digit])
      (groups ++ [(pending * 2 ^ low + digit) / 2 ^ left]) left
      ((pending * 2 ^ low + digit) % 2 ^ left) where
  groups_lt := by
    intro group groupMem
    rcases List.mem_append.mp groupMem with old | new
    · exact regrouped.groups_lt group old
    · obtain rfl := List.mem_singleton.mp new
      have numberLt := regrouped.push_lt digitLt
      rw [fills, Nat.pow_add] at numberLt
      exact (Nat.div_lt_iff_lt_mul (Nat.two_pow_pos left)).mpr numberLt
  length := by
    have length := regrouped.length
    rw [List.length_append, List.length_append, List.length_singleton, List.length_singleton,
      Nat.mul_add, Nat.mul_add]
    omega
  count_lt := by
    have countLt := regrouped.count_lt
    omega
  pending_lt := Nat.mod_lt _ (Nat.two_pow_pos left)
  value_eq := by
    rw [regrouped.value_push, value_append, value_singleton, List.length_singleton, Nat.pow_one,
      fills, Nat.pow_add, Nat.add_mul, Nat.add_assoc, Nat.div_add_mod', Nat.mul_assoc]

/-- Digits that spell groups are read as these groups. -/
theorem groups_eq {others : List Nat} (regrouped : Regrouped low high digits groups count pending)
    (spells : Spells low high digits others) (narrow : low ≤ high) : groups = others := by
  obtain ⟨pad, padLt, lengthEq, valueEq⟩ := spells.padded
  have length := regrouped.length
  have countLt := regrouped.count_lt
  have bits : high * groups.length + count = high * others.length + pad :=
    length.symm.trans lengthEq
  have sameLength : groups.length = others.length := by
    have divided := congrArg (· / high) bits
    have positive : 0 < high := by omega
    simpa only [Nat.mul_add_div positive, Nat.div_eq_of_lt countLt,
      Nat.div_eq_of_lt (Nat.lt_of_lt_of_le padLt narrow), Nat.add_zero] using divided
  have samePad : count = pad := by
    rw [sameLength] at bits
    exact Nat.add_left_cancel bits
  have large : 1 < 2 ^ high := Nat.one_lt_two_pow (by omega)
  apply eq_of_value_eq large sameLength regrouped.groups_lt spells.groups_lt
  have sameValue := regrouped.value_eq.symm.trans valueEq
  have divided := congrArg (· / 2 ^ count) sameValue
  simp only [← samePad, Nat.mul_div_cancel _ (Nat.two_pow_pos count)] at divided
  rwa [Nat.mul_comm, Nat.mul_add_div (Nat.two_pow_pos count),
    Nat.div_eq_of_lt regrouped.pending_lt, Nat.add_zero] at divided

end Regrouped

end Positional

end Numa
