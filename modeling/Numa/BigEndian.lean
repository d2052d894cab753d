import Mathlib.Algebra.GroupWithZero.Nat
import Mathlib.Tactic.Common

/-!
# Big-endian numbers

Numbers of two and four octets in network order, and the shifts that take them
apart and put them together again.
-/

namespace Numa

/-- `u16::to_be_bytes`. -/
def beBytes16 (value : UInt16) : List UInt8 :=
  [(value >>> 8).toUInt8, value.toUInt8]

/-- `u32::to_be_bytes`. -/
def beBytes32 (value : UInt32) : List UInt8 :=
  [(value >>> 24).toUInt8, (value >>> 16).toUInt8, (value >>> 8).toUInt8,
    value.toUInt8]

/-- Bits that do not overlap are added. -/
theorem mul_two_pow_or_eq_add (high : Nat) {low bits : Nat} (small : low < 2 ^ bits) :
    high * 2 ^ bits ||| low = high * 2 ^ bits + low := by
  rw [Nat.mul_comm, ← Nat.two_pow_add_eq_or_of_lt small]

theorem toNat_join16 (high low : UInt8) :
    (high.toUInt16 <<< 8 ||| low.toUInt16).toNat = high.toNat * 2 ^ 8 + low.toNat := by
  have highBound := high.toNat_lt
  have lowBound := low.toNat_lt
  rw [← mul_two_pow_or_eq_add high.toNat lowBound]
  simp only [UInt16.toNat_or, UInt16.toNat_shiftLeft, UInt8.toNat_toUInt16, Nat.shiftLeft_eq]
  congr 1
  exact Nat.mod_eq_of_lt (by simp; omega)

/-- An octet shifted by up to three octets keeps its bits. -/
theorem toNat_shiftLeft32 (octet : UInt8) (bits : UInt32) (small : bits.toNat ≤ 24) :
    (octet.toUInt32 <<< bits).toNat = octet.toNat * 2 ^ bits.toNat := by
  have octetBound := octet.toNat_lt
  rw [UInt32.toNat_shiftLeft, UInt8.toNat_toUInt32, Nat.shiftLeft_eq,
    Nat.mod_eq_of_lt (by omega : bits.toNat < 32)]
  apply Nat.mod_eq_of_lt
  calc octet.toNat * 2 ^ bits.toNat
      < 2 ^ 8 * 2 ^ bits.toNat := Nat.mul_lt_mul_of_pos_right octetBound (Nat.two_pow_pos _)
    _ = 2 ^ (8 + bits.toNat) := by rw [Nat.pow_add]
    _ ≤ 2 ^ 32 := Nat.pow_le_pow_right (by decide) (by omega)

theorem toNat_join32 (first second third fourth : UInt8) :
    (first.toUInt32 <<< 24 ||| second.toUInt32 <<< 16 ||| third.toUInt32 <<< 8 |||
      fourth.toUInt32).toNat =
        ((first.toNat * 2 ^ 8 + second.toNat) * 2 ^ 8 + third.toNat) * 2 ^ 8 +
          fourth.toNat := by
  have secondBound := second.toNat_lt
  have thirdBound := third.toNat_lt
  have fourthBound := fourth.toNat_lt
  have two : first.toNat * 2 ^ 24 ||| second.toNat * 2 ^ 16 =
      (first.toNat * 2 ^ 8 + second.toNat) * 2 ^ 16 := by
    rw [mul_two_pow_or_eq_add first.toNat (by omega : second.toNat * 2 ^ 16 < 2 ^ 24)]
    omega
  have three : (first.toNat * 2 ^ 8 + second.toNat) * 2 ^ 16 ||| third.toNat * 2 ^ 8 =
      ((first.toNat * 2 ^ 8 + second.toNat) * 2 ^ 8 + third.toNat) * 2 ^ 8 := by
    rw [mul_two_pow_or_eq_add _ (by omega : third.toNat * 2 ^ 8 < 2 ^ 16)]
    omega
  rw [UInt32.toNat_or, UInt32.toNat_or, UInt32.toNat_or, toNat_shiftLeft32 first 24 (by decide),
    toNat_shiftLeft32 second 16 (by decide), toNat_shiftLeft32 third 8 (by decide),
    UInt8.toNat_toUInt32]
  simp only [UInt32.reduceToNat]
  rw [two, three, mul_two_pow_or_eq_add _ fourthBound]

theorem toUInt8_and_mask16 (value : UInt16) : (value &&& 0xFF).toUInt8 = value.toUInt8 := by
  apply UInt8.toNat_inj.mp
  have masked : value.toNat &&& 255 = value.toNat % 2 ^ 8 :=
    Nat.and_two_pow_sub_one_eq_mod value.toNat 8
  rw [UInt16.toNat_toUInt8, UInt16.toNat_and, UInt16.toNat_toUInt8]
  simp only [UInt16.reduceToNat]
  omega

theorem toUInt8_and_mask32 (value : UInt32) : (value &&& 0xFF).toUInt8 = value.toUInt8 := by
  apply UInt8.toNat_inj.mp
  have masked : value.toNat &&& 255 = value.toNat % 2 ^ 8 :=
    Nat.and_two_pow_sub_one_eq_mod value.toNat 8
  rw [UInt32.toNat_toUInt8, UInt32.toNat_and, UInt32.toNat_toUInt8]
  simp only [UInt32.reduceToNat]
  omega

/-- The octets of a number put together again. -/
theorem join_beBytes16 (value : UInt16) :
    (value >>> 8).toUInt8.toUInt16 <<< 8 ||| value.toUInt8.toUInt16 = value := by
  apply UInt16.toNat_inj.mp
  have bound := value.toNat_lt
  rw [toNat_join16]
  simp only [UInt16.toNat_toUInt8, UInt16.toNat_shiftRight, UInt16.reduceToNat,
    Nat.reduceMod, Nat.shiftRight_eq_div_pow]
  omega

theorem beBytes16_inj {first second : UInt16} (same : beBytes16 first = beBytes16 second) :
    first = second := by
  obtain ⟨high, rest⟩ := List.cons.inj same
  obtain ⟨low, -⟩ := List.cons.inj rest
  rw [← join_beBytes16 first, high, low, join_beBytes16]

theorem join_beBytes32 (value : UInt32) :
    (value >>> 24).toUInt8.toUInt32 <<< 24 ||| (value >>> 16).toUInt8.toUInt32 <<< 16 |||
      (value >>> 8).toUInt8.toUInt32 <<< 8 ||| value.toUInt8.toUInt32 = value := by
  apply UInt32.toNat_inj.mp
  have bound := value.toNat_lt
  rw [toNat_join32]
  simp only [UInt32.toNat_toUInt8, UInt32.toNat_shiftRight, UInt32.reduceToNat,
    Nat.reduceMod, Nat.shiftRight_eq_div_pow]
  omega

/-- The numbers put together from two octets have these octets. -/
theorem beBytes16_join (high low : UInt8) :
    beBytes16 (high.toUInt16 <<< 8 ||| low.toUInt16) = [high, low] := by
  have highBound := high.toNat_lt
  have lowBound := low.toNat_lt
  have joined := toNat_join16 high low
  rw [beBytes16]
  congr 2
  · apply UInt8.toNat_inj.mp
    rw [UInt16.toNat_toUInt8, UInt16.toNat_shiftRight, joined]
    simp only [UInt16.reduceToNat, Nat.reduceMod, Nat.shiftRight_eq_div_pow]
    omega
  · apply UInt8.toNat_inj.mp
    rw [UInt16.toNat_toUInt8, joined]
    omega

theorem beBytes32_join (first second third fourth : UInt8) :
    beBytes32 (first.toUInt32 <<< 24 ||| second.toUInt32 <<< 16 ||| third.toUInt32 <<< 8 |||
      fourth.toUInt32) = [first, second, third, fourth] := by
  have firstBound := first.toNat_lt
  have secondBound := second.toNat_lt
  have thirdBound := third.toNat_lt
  have fourthBound := fourth.toNat_lt
  have joined := toNat_join32 first second third fourth
  generalize first.toUInt32 <<< 24 ||| second.toUInt32 <<< 16 ||| third.toUInt32 <<< 8 |||
    fourth.toUInt32 = value at joined
  have octet : ∀ (shifted : UInt32) (expected : UInt8),
      shifted.toNat % 2 ^ 8 = expected.toNat → shifted.toUInt8 = expected := by
    intro shifted expected same
    apply UInt8.toNat_inj.mp
    rw [UInt32.toNat_toUInt8, same]
  rw [beBytes32, octet (value >>> 24) first, octet (value >>> 16) second,
    octet (value >>> 8) third, octet value fourth]
  · omega
  all_goals
    simp only [UInt32.toNat_shiftRight, UInt32.reduceToNat, Nat.reduceMod,
      Nat.shiftRight_eq_div_pow]
    omega

/-- Any four octets are those of a number. -/
theorem exists_beBytes32 (first second third fourth : UInt8) :
    ∃ value, beBytes32 value = [first, second, third, fourth] :=
  ⟨_, beBytes32_join first second third fourth⟩

/-- The two halves of a number. -/
theorem beBytes16_halves (value : UInt32) :
    beBytes16 (value >>> 16 &&& 0xFFFF).toUInt16 ++ beBytes16 (value &&& 0xFFFF).toUInt16 =
      beBytes32 value := by
  have masked : ∀ half : UInt32, (half &&& 0xFFFF).toUInt16.toNat = half.toNat % 2 ^ 16 := by
    intro half
    have mask : half.toNat &&& 65535 = half.toNat % 2 ^ 16 :=
      Nat.and_two_pow_sub_one_eq_mod half.toNat 16
    rw [UInt32.toNat_toUInt16, UInt32.toNat_and]
    simp only [UInt32.reduceToNat]
    omega
  have bound := value.toNat_lt
  have octet : ∀ (half : UInt16) (whole : UInt32), half.toNat % 2 ^ 8 = whole.toNat % 2 ^ 8 →
      half.toUInt8 = whole.toUInt8 := by
    intro half whole same
    apply UInt8.toNat_inj.mp
    rw [UInt16.toNat_toUInt8, UInt32.toNat_toUInt8, same]
  rw [beBytes16, beBytes16, beBytes32, octet _ (value >>> 24), octet _ (value >>> 16),
    octet _ (value >>> 8), octet _ value]
  · rfl
  all_goals
    simp only [UInt16.toNat_shiftRight, UInt16.reduceToNat, UInt32.toNat_shiftRight,
      UInt32.reduceToNat, Nat.reduceMod, Nat.shiftRight_eq_div_pow, masked]
    omega

end Numa
