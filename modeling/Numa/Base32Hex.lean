import Numa.BigEndian
import Numa.Denial
import Numa.Loops
import Numa.Positional

/-!
# Hashed owner labels

The owner name of an NSEC3 record starts with a hash in the base32hex encoding
of RFC 4648, without padding.  The loop of `base32hex_decode` keeps at most
seven pending bits in its accumulator and loses none, so it inverts the
encoding.
-/

namespace Numa

/-- The digit of a value below 32, in the case `read_qname` shows. -/
def base32hexDigit (value : Nat) : UInt8 :=
  if value < 10 then 0x30 + value.toUInt8 else 0x57 + value.toUInt8

/-- The digits of the octets after `bitCount` bits of the value `bits` that
belong to the next digit.  The last digit is filled up with zeros. -/
def base32hexEncodeFrom (bits bitCount : Nat) : List UInt8 → Text
  | [] => if bitCount = 0 then [] else [base32hexDigit (bits * 2 ^ (5 - bitCount))]
  | octet :: rest =>
    let bits := bits * 256 + octet.toNat
    let bitCount := bitCount + 3
    base32hexDigit (bits / 2 ^ bitCount) ::
      if bitCount < 5 then base32hexEncodeFrom (bits % 2 ^ bitCount) bitCount rest
      else
        base32hexDigit (bits % 2 ^ bitCount / 2 ^ (bitCount - 5)) ::
          base32hexEncodeFrom (bits % 2 ^ (bitCount - 5)) (bitCount - 5) rest

def base32hexEncode (octets : List UInt8) : Text :=
  base32hexEncodeFrom 0 0 octets

/-! ## What the digits spell -/

/-- The digits spell some bits of a number and octets behind them, filled up
with zeros. -/
def SpellsFrom (bits bitCount : Nat) (octets : List UInt8) (chars : Text) : Prop :=
  ∃ digits pad, chars = digits.map base32hexDigit ∧ (∀ digit ∈ digits, digit < 32) ∧
    pad < 5 ∧ 5 * digits.length = bitCount + 8 * octets.length + pad ∧
    Positional.value 32 digits =
      (bits * 256 ^ octets.length + Positional.value 256 (octets.map UInt8.toNat)) * 2 ^ pad

/-- One more digit in front. -/
theorem SpellsFrom.digit {bits bitCount : Nat} {octets : List UInt8} {chars : Text}
    (small : bits < 2 ^ (bitCount + 5))
    (spells : SpellsFrom (bits % 2 ^ bitCount) bitCount octets chars) :
    SpellsFrom bits (bitCount + 5) octets (base32hexDigit (bits / 2 ^ bitCount) :: chars) := by
  obtain ⟨digits, pad, rfl, digitsLt, padLt, length, valueEq⟩ := spells
  have first : bits / 2 ^ bitCount < 32 := by
    rw [Nat.pow_add] at small
    rw [Nat.div_lt_iff_lt_mul (Nat.two_pow_pos bitCount), Nat.mul_comm]
    exact small
  have power : 32 ^ digits.length = 2 ^ bitCount * (256 ^ octets.length * 2 ^ pad) := by
    rw [show 32 = 2 ^ 5 from rfl, show 256 = 2 ^ 8 from rfl, ← Nat.pow_mul, ← Nat.pow_mul, length,
      Nat.pow_add, Nat.pow_add, Nat.mul_assoc]
  refine ⟨bits / 2 ^ bitCount :: digits, pad, rfl, ?_, padLt, ?_, ?_⟩
  · intro digit digitMem
    rcases List.mem_cons.mp digitMem with rfl | later
    · exact first
    · exact digitsLt digit later
  · rw [List.length_cons]
    omega
  · rw [Positional.value_cons, valueEq, power]
    calc
      bits / 2 ^ bitCount * (2 ^ bitCount * (256 ^ octets.length * 2 ^ pad)) +
            (bits % 2 ^ bitCount * 256 ^ octets.length +
              Positional.value 256 (octets.map UInt8.toNat)) * 2 ^ pad =
          ((bits / 2 ^ bitCount * 2 ^ bitCount + bits % 2 ^ bitCount) * 256 ^ octets.length +
            Positional.value 256 (octets.map UInt8.toNat)) * 2 ^ pad := by
        ring
      _ = (bits * 256 ^ octets.length + Positional.value 256 (octets.map UInt8.toNat)) *
            2 ^ pad := by
        rw [Nat.div_add_mod']

/-- The next octet behind the bits. -/
theorem SpellsFrom.octet {bits bitCount : Nat} {octet : UInt8} {octets : List UInt8}
    {chars : Text}
    (spells : SpellsFrom (bits * 256 + octet.toNat) (bitCount + 8) octets chars) :
    SpellsFrom bits bitCount (octet :: octets) chars := by
  obtain ⟨digits, pad, charsEq, digitsLt, padLt, length, valueEq⟩ := spells
  refine ⟨digits, pad, charsEq, digitsLt, padLt, ?_, ?_⟩
  · rw [List.length_cons]
    omega
  · rw [valueEq, List.map_cons, Positional.value_cons, List.length_map, List.length_cons, pow_succ]
    ring

theorem spellsFrom_encodeFrom {bits bitCount : Nat} (count : bitCount < 5)
    (bitsLt : bits < 2 ^ bitCount) (octets : List UInt8) :
    SpellsFrom bits bitCount octets (base32hexEncodeFrom bits bitCount octets) := by
  induction octets generalizing bits bitCount with
  | nil =>
      rw [base32hexEncodeFrom]
      by_cases aligned : bitCount = 0
      · subst aligned
        obtain rfl : bits = 0 := by omega
        exact ⟨[], 0, rfl, by simp, by omega, rfl, rfl⟩
      · have digitLt : bits * 2 ^ (5 - bitCount) < 32 := by
          calc
            bits * 2 ^ (5 - bitCount) < 2 ^ bitCount * 2 ^ (5 - bitCount) :=
              Nat.mul_lt_mul_of_pos_right bitsLt (Nat.two_pow_pos _)
            _ = 2 ^ 5 := by rw [← Nat.pow_add, show bitCount + (5 - bitCount) = 5 by omega]
        rw [if_neg aligned]
        refine ⟨[bits * 2 ^ (5 - bitCount)], 5 - bitCount, rfl, by simpa using digitLt, by omega,
          ?_, by simp⟩
        simp only [List.length_singleton, List.length_nil]
        omega
  | cons octet octets ih =>
      have octetLt : octet.toNat < 256 := octet.toNat_lt
      have widened : bits * 256 + octet.toNat < 2 ^ (bitCount + 3 + 5) := by
        rw [show bitCount + 3 + 5 = bitCount + 8 by omega, Nat.pow_add]
        omega
      rw [base32hexEncodeFrom]
      apply SpellsFrom.octet
      apply SpellsFrom.digit widened
      by_cases short : bitCount + 3 < 5
      · rw [if_pos short]
        exact ih short (Nat.mod_lt _ (Nat.two_pow_pos _))
      · rw [if_neg short]
        obtain ⟨left, leftEq⟩ : ∃ left, bitCount + 3 = left + 5 := ⟨bitCount - 2, by omega⟩
        have remaining : (bits * 256 + octet.toNat) % 2 ^ (left + 5) % 2 ^ left =
            (bits * 256 + octet.toNat) % 2 ^ left :=
          Nat.mod_mod_of_dvd _ (Nat.pow_dvd_pow 2 (Nat.le_add_right left 5))
        rw [leftEq, Nat.add_sub_cancel]
        apply SpellsFrom.digit (Nat.mod_lt _ (Nat.two_pow_pos _))
        rw [remaining]
        exact ih (by omega) (Nat.mod_lt _ (Nat.two_pow_pos _))

/-- The digits of an encoding have the value of the octets. -/
theorem exists_digits_encode (octets : List UInt8) :
    ∃ digits, base32hexEncode octets = digits.map base32hexDigit ∧
      (∀ digit ∈ digits, digit < 32) ∧
      Positional.Spells 5 8 digits (octets.map UInt8.toNat) := by
  have spells : SpellsFrom 0 0 octets (base32hexEncode octets) :=
    spellsFrom_encodeFrom (by omega) Nat.one_pos octets
  obtain ⟨digits, pad, charsEq, digitsLt, padLt, length, valueEq⟩ := spells
  refine ⟨digits, charsEq, digitsLt, ?_, pad, padLt, ?_, ?_⟩
  · intro value valueMem
    obtain ⟨octet, -, rfl⟩ := List.mem_map.mp valueMem
    exact octet.toNat_lt
  · rw [length, List.length_map, Nat.zero_add]
  · rw [Nat.zero_mul, Nat.zero_add] at valueEq
    exact valueEq

/-! ## The loop -/

namespace Base32Hex

/-- The entries of a table from a value on. -/
def assign (table : List UInt8) : Text → UInt8 → List UInt8
  | [], _ => table
  | ch :: chars, val => assign (table.set ch.toNat val) chars (val + 1)

/-- `LUT`. -/
def lut : List UInt8 :=
  let digits := assign (List.replicate 128 0xFF) (text "0123456789") 0
  let uppercase := assign digits (text "ABCDEFGHIJKLMNOPQRSTUV") 10
  assign uppercase (text "abcdefghijklmnopqrstuv") 10

/-- `+`, which panics on overflow. -/
def checkedAdd (first second : UInt8) : Option UInt8 :=
  if 256 ≤ first.toNat + second.toNat then none else some (first + second)

/-- `-`, which panics on underflow. -/
def checkedSub (first second : UInt8) : Option UInt8 :=
  if first < second then none else some (first - second)

/-- `<<`, which panics when all bits are shifted out. -/
def checkedShl (bits : UInt64) (count : UInt8) : Option UInt64 :=
  if 64 ≤ count then none else some (bits <<< count.toUInt64)

def checkedShr (bits : UInt64) (count : UInt8) : Option UInt64 :=
  if 64 ≤ count then none else some (bits >>> count.toUInt64)

/-- The variables of the loop, with the input that is left. -/
structure Decoder where
  rest : Text
  bits : UInt64
  bitCount : UInt8
  output : List UInt8

/-- A turn of the loop of `base32hex_decode`. -/
def turn (state : Decoder) : Option (Turn Decoder (Option (List UInt8))) :=
  match state.rest with
  | [] => some (.leave (some state.output))
  | ch :: rest =>
    if ch = 0x3D then some (.leave (some state.output))
    else if 128 ≤ ch then some (.leave none)
    else do
      let val ← lut[ch.toNat]?
      if val = 0xFF then some (.leave none)
      else do
        let bits ← checkedShl state.bits 5
        let bits := bits ||| val.toUInt64
        let bitCount ← checkedAdd state.bitCount 5
        if 8 ≤ bitCount then do
          let bitCount ← checkedSub bitCount 8
          let octet ← checkedShr bits bitCount
          -- A power is at least 1.
          let power ← checkedShl 1 bitCount
          some (.again ⟨rest, bits &&& (power - 1), bitCount, state.output ++ [octet.toUInt8]⟩)
        else some (.again ⟨rest, bits, bitCount, state.output⟩)

def start (input : Text) : Decoder :=
  ⟨input, 0, 0, []⟩

/-- `base32hex_decode`.  `none` is a panic, and also a loop that does not end
in time. -/
def base32hexDecode (input : Text) : Option (Option (List UInt8)) :=
  Loop.run turn (input.length + 1) (start input)

theorem lut_eq {ch : UInt8} (ascii : ch < 128) :
    lut[ch.toNat]? = some (((base32hexValue ch).map Nat.toUInt8).getD 0xFF) := by
  have table : ∀ index : Fin 128, lut[index.val]? =
      some (((base32hexValue index.val.toUInt8).map Nat.toUInt8).getD 0xFF) := by
    decide +kernel
  have found : lut[ch.toNat]? =
      some (((base32hexValue ch.toNat.toUInt8).map Nat.toUInt8).getD 0xFF) :=
    table ⟨ch.toNat, ascii⟩
  have same : ch.toNat.toUInt8 = ch := UInt8.ofNat_toNat
  rwa [same] at found

/-- A digit is an ASCII character with a value below 32. -/
theorem base32hexValue_eq_some {ch : UInt8} {val : Nat}
    (isDigit : base32hexValue ch = some val) : val < 32 ∧ ch < 128 ∧ ch ≠ 0x3D := by
  have table : ∀ index : Fin 256, ∀ val, base32hexValue (.ofFin index) = some val →
      val < 32 ∧ UInt8.ofFin index < 128 ∧ UInt8.ofFin index ≠ 0x3D := by
    have checked : ∀ index : Fin 256, ((base32hexValue (.ofFin index)).all fun val =>
        decide (val < 32 ∧ UInt8.ofFin index < 128 ∧ UInt8.ofFin index ≠ 0x3D)) = true := by
      decide +kernel
    intro index val found
    simpa [found] using checked index
  exact table ch.toFin val isDigit

/-! ## A turn -/

/-- The digit is put behind the pending bits. -/
theorem toNat_joined {bits : UInt64} {val : Nat} (small : bits.toNat < 128) (valLt : val < 32) :
    (bits <<< (5 : UInt8).toUInt64 ||| val.toUInt8.toUInt64).toNat = bits.toNat * 2 ^ 5 + val := by
  have valEq : val.toUInt8.toNat = val := by
    rw [UInt8.toNat_ofNat']
    exact Nat.mod_eq_of_lt (by omega)
  have shifted : (bits <<< (5 : UInt8).toUInt64).toNat = bits.toNat * 2 ^ 5 := by
    rw [UInt64.toNat_shiftLeft, show (5 : UInt8).toUInt64.toNat % 64 = 5 from rfl,
      Nat.shiftLeft_eq]
    exact Nat.mod_eq_of_lt (by omega)
  rw [UInt64.toNat_or, shifted, UInt8.toNat_toUInt64, valEq, mul_two_pow_or_eq_add]
  exact valLt

theorem toNat_shifted {bits : UInt64} {count : UInt8} (few : count.toNat < 8) :
    (bits >>> count.toUInt64).toNat = bits.toNat / 2 ^ count.toNat := by
  rw [UInt64.toNat_shiftRight, UInt8.toNat_toUInt64, Nat.mod_eq_of_lt (by omega),
    Nat.shiftRight_eq_div_pow]

/-- The bits that are still pending. -/
theorem toNat_masked {bits : UInt64} {count : UInt8} (few : count.toNat < 8) :
    (bits &&& (1 <<< count.toUInt64 - 1)).toNat = bits.toNat % 2 ^ count.toNat := by
  have small : 2 ^ count.toNat ≤ 2 ^ 7 := Nat.pow_le_pow_right (by omega) (by omega)
  have power : ((1 : UInt64) <<< count.toUInt64).toNat = 2 ^ count.toNat := by
    have inside : count.toNat % 64 = count.toNat := Nat.mod_eq_of_lt (by omega)
    rw [UInt64.toNat_shiftLeft, UInt8.toNat_toUInt64, inside, Nat.shiftLeft_eq, UInt64.toNat_one,
      Nat.one_mul]
    exact Nat.mod_eq_of_lt (by omega)
  have positive : (1 : UInt64) ≤ 1 <<< count.toUInt64 := by
    rw [UInt64.le_iff_toNat_le, power]
    exact Nat.two_pow_pos _
  rw [UInt64.toNat_and, UInt64.toNat_sub_of_le _ _ positive, power]
  exact Nat.and_two_pow_sub_one_eq_mod _ _

/-- A turn that reads a digit. -/
theorem turn_digit {state : Decoder} {ch : UInt8} {rest : Text} {val : Nat}
    (restEq : state.rest = ch :: rest) (isDigit : base32hexValue ch = some val)
    (few : state.bitCount.toNat < 8) (small : state.bits.toNat < 2 ^ state.bitCount.toNat) :
    ∃ next, turn state = some (.again next) ∧ next.rest = rest ∧
      ((state.bitCount.toNat + 5 < 8 ∧ next.bitCount.toNat = state.bitCount.toNat + 5 ∧
          next.bits.toNat = state.bits.toNat * 2 ^ 5 + val ∧ next.output = state.output) ∨
        (state.bitCount.toNat + 5 = 8 + next.bitCount.toNat ∧
          next.bits.toNat = (state.bits.toNat * 2 ^ 5 + val) % 2 ^ next.bitCount.toNat ∧
          next.output = state.output ++
            [((state.bits.toNat * 2 ^ 5 + val) / 2 ^ next.bitCount.toNat).toUInt8])) := by
  obtain ⟨valLt, ascii, notPad⟩ := base32hexValue_eq_some isDigit
  have bitsSmall : state.bits.toNat < 128 := by
    calc
      state.bits.toNat < 2 ^ state.bitCount.toNat := small
      _ ≤ 2 ^ 7 := Nat.pow_le_pow_right (by omega) (by omega)
  have notInvalid : val.toUInt8 ≠ 0xFF := by
    have table : ∀ index : Fin 32, index.val.toUInt8 ≠ 0xFF := by decide
    exact table ⟨val, valLt⟩
  have shl : checkedShl state.bits 5 = some (state.bits <<< (5 : UInt8).toUInt64) := by
    rw [checkedShl, if_neg (by decide)]
  have sum : (state.bitCount + 5).toNat = state.bitCount.toNat + 5 := by
    rw [UInt8.toNat_add]
    exact Nat.mod_eq_of_lt (by simp; omega)
  have add : checkedAdd state.bitCount 5 = some (state.bitCount + 5) := by
    rw [checkedAdd, if_neg (by simp; omega)]
  have joined := toNat_joined bitsSmall valLt
  simp only [turn, restEq, if_neg notPad, if_neg (UInt8.not_le.mpr ascii), lut_eq ascii, isDigit,
    Option.map_some, Option.getD_some, Option.bind_eq_bind, Option.bind_some, if_neg notInvalid,
    shl, add]
  by_cases short : state.bitCount.toNat + 5 < 8
  · have notFull : ¬ 8 ≤ state.bitCount + 5 := by
      rw [UInt8.le_iff_toNat_le, sum]
      exact Nat.not_le_of_lt short
    rw [if_neg notFull]
    exact ⟨_, rfl, rfl, .inl ⟨short, sum, joined, rfl⟩⟩
  · have full : 8 ≤ state.bitCount + 5 := by
      rw [UInt8.le_iff_toNat_le, sum]
      exact Nat.le_of_not_lt short
    have left : (state.bitCount + 5 - 8).toNat = state.bitCount.toNat + 5 - 8 := by
      rw [UInt8.toNat_sub_of_le _ _ full, sum]
      rfl
    have leftFew : (state.bitCount + 5 - 8).toNat < 8 := by omega
    have notAll : ¬ 64 ≤ state.bitCount + 5 - 8 := by
      rw [UInt8.le_iff_toNat_le]
      exact Nat.not_le_of_lt (by simp; omega)
    simp only [if_pos full, checkedSub, if_neg (UInt8.not_lt.mpr full), checkedShr, checkedShl,
      if_neg notAll, Option.bind_some]
    refine ⟨_, rfl, rfl, .inr ⟨by simp only; omega, ?_, ?_⟩⟩
    · rw [toNat_masked leftFew, joined]
    · simp only
      rw [← joined, ← toNat_shifted leftFew]
      rfl

/-- Any other character but `=` is rejected. -/
theorem turn_invalid {state : Decoder} {ch : UInt8} {rest : Text}
    (restEq : state.rest = ch :: rest) (notPad : ch ≠ 0x3D) (noDigit : base32hexValue ch = none) :
    turn state = some (.leave none) := by
  by_cases ascii : ch < 128
  · simp [turn, restEq, notPad, UInt8.not_le.mpr ascii, lut_eq ascii, noDigit]
  · simp [turn, restEq, notPad, UInt8.not_lt.mp ascii]

theorem base32hexDecodeFrom_digit_of_lt {bits bitCount val : Nat} {ch : UInt8}
    (isDigit : base32hexValue ch = some val) (small : bits < 2 ^ bitCount)
    (short : bitCount + 5 < 8) (rest : Text) :
    base32hexDecodeFrom bits bitCount (ch :: rest) =
      base32hexDecodeFrom (bits * 2 ^ 5 + val) (bitCount + 5) rest := by
  obtain ⟨valLt, -, notPad⟩ := base32hexValue_eq_some isDigit
  have wide : 2 ^ bitCount ≤ 2 ^ 7 := Nat.pow_le_pow_right (by omega) (by omega)
  have fits : (bits * 32 + val) % 2 ^ 64 = bits * 32 + val := Nat.mod_eq_of_lt (by omega)
  rw [base32hexDecodeFrom, if_neg notPad, isDigit]
  simp only [Option.bind_eq_bind, Option.bind_some, fits, if_neg (Nat.not_le_of_lt short)]
  rfl

theorem base32hexDecodeFrom_digit_of_eq {bits bitCount val left : Nat} {ch : UInt8}
    (isDigit : base32hexValue ch = some val) (small : bits < 2 ^ bitCount) (few : bitCount < 8)
    (full : bitCount + 5 = 8 + left) (rest : Text) :
    base32hexDecodeFrom bits bitCount (ch :: rest) =
      (base32hexDecodeFrom ((bits * 2 ^ 5 + val) % 2 ^ left) left rest).map
        (((bits * 2 ^ 5 + val) / 2 ^ left).toUInt8 :: ·) := by
  obtain ⟨valLt, -, notPad⟩ := base32hexValue_eq_some isDigit
  have wide : 2 ^ bitCount ≤ 2 ^ 7 := Nat.pow_le_pow_right (by omega) (by omega)
  have fits : (bits * 32 + val) % 2 ^ 64 = bits * 32 + val := Nat.mod_eq_of_lt (by omega)
  have leftEq : bitCount + 5 - 8 = left := by omega
  rw [base32hexDecodeFrom, if_neg notPad, isDigit]
  simp only [Option.bind_eq_bind, Option.bind_some, fits, if_pos (by omega : 8 ≤ bitCount + 5),
    leftEq]
  cases base32hexDecodeFrom ((bits * 32 + val) % 2 ^ left) left rest <;> rfl

/-! ## A run -/

/-- The text has been read up to the rest of the state: its digits are the
octets of the output and the pending bits in the accumulator. -/
def HasRead (input : Text) (state : Decoder) : Prop :=
  ∃ chars digits, input = chars ++ state.rest ∧ chars.map base32hexValue = digits.map some ∧
    Positional.Regrouped 5 8 digits (state.output.map UInt8.toNat) state.bitCount.toNat
      state.bits.toNat

/-- The decoder of the rest completes the output. -/
structure Decoding (input : Text) (state : Decoder) : Prop where
  hasRead : HasRead input state
  completes : (base32hexDecodeFrom state.bits.toNat state.bitCount.toNat state.rest).map
    (state.output ++ ·) = Numa.base32hexDecode input

/-- The characters before the first `=`. -/
def unpadded (input : Text) : Text :=
  input.takeWhile (· != 0x3D)

/-- All digits are read, or there is a character that is none. -/
def Describes (input : Text) : Option (List UInt8) → Prop
  | some output => ∃ digits count pending,
      (unpadded input).map base32hexValue = digits.map some ∧
        Positional.Regrouped 5 8 digits (output.map UInt8.toNat) count pending
  | none => ∃ ch ∈ unpadded input, base32hexValue ch = none

theorem exists_value_of_mem {chars : Text} {digits : List Nat}
    (areDigits : chars.map base32hexValue = digits.map some) {ch : UInt8} (chMem : ch ∈ chars) :
    ∃ val, base32hexValue ch = some val := by
  have valueMem : base32hexValue ch ∈ digits.map some := by
    rw [← areDigits]
    exact List.mem_map_of_mem chMem
  obtain ⟨val, -, valEq⟩ := List.mem_map.mp valueMem
  exact ⟨val, valEq.symm⟩

theorem unpadded_append {chars : Text} {digits : List Nat}
    (areDigits : chars.map base32hexValue = digits.map some) (rest : Text) :
    unpadded (chars ++ rest) = chars ++ unpadded rest := by
  refine List.takeWhile_append_of_pos fun ch chMem => ?_
  obtain ⟨val, isDigit⟩ := exists_value_of_mem areDigits chMem
  simpa using (base32hexValue_eq_some isDigit).2.2

theorem Decoding.digit {input : Text} {state next : Decoder} {ch : UInt8} {val : Nat}
    (decoding : Decoding input state) (restEq : state.rest = ch :: next.rest)
    (isDigit : base32hexValue ch = some val)
    (goesOn : (state.bitCount.toNat + 5 < 8 ∧ next.bitCount.toNat = state.bitCount.toNat + 5 ∧
          next.bits.toNat = state.bits.toNat * 2 ^ 5 + val ∧ next.output = state.output) ∨
        (state.bitCount.toNat + 5 = 8 + next.bitCount.toNat ∧
          next.bits.toNat = (state.bits.toNat * 2 ^ 5 + val) % 2 ^ next.bitCount.toNat ∧
          next.output = state.output ++
            [((state.bits.toNat * 2 ^ 5 + val) / 2 ^ next.bitCount.toNat).toUInt8])) :
    Decoding input next := by
  obtain ⟨⟨chars, digits, inputEq, areDigits, regrouped⟩, completes⟩ := decoding
  have valLt := (base32hexValue_eq_some isDigit).1
  have inputEq' : input = chars ++ [ch] ++ next.rest := by
    rw [inputEq, restEq, List.append_assoc]
    rfl
  have areDigits' : (chars ++ [ch]).map base32hexValue = (digits ++ [val]).map some := by
    rw [List.map_append, List.map_append, areDigits, List.map_singleton, isDigit]
    rfl
  rw [restEq] at completes
  rcases goesOn with ⟨short, countEq, bitsEq, outputEq⟩ | ⟨full, bitsEq, outputEq⟩
  · refine ⟨⟨_, _, inputEq', areDigits', ?_⟩, ?_⟩
    · rw [countEq, bitsEq, outputEq]
      exact regrouped.push valLt short
    · rw [countEq, bitsEq, outputEq, ← completes,
        base32hexDecodeFrom_digit_of_lt isDigit regrouped.pending_lt short]
  · have pushed := regrouped.pushFull valLt (by omega) full
    have octetLt : (state.bits.toNat * 2 ^ 5 + val) / 2 ^ next.bitCount.toNat < 256 :=
      pushed.groups_lt _ (by simp)
    refine ⟨⟨_, _, inputEq', areDigits', ?_⟩, ?_⟩
    · rw [bitsEq, outputEq, List.map_append, List.map_singleton, UInt8.toNat_ofNat',
        Nat.mod_eq_of_lt octetLt]
      exact pushed
    · rw [bitsEq, outputEq, ← completes,
        base32hexDecodeFrom_digit_of_eq isDigit regrouped.pending_lt regrouped.count_lt full,
        Option.map_map]
      congr 1
      funext output
      simp

theorem keeps_turn (input : Text) :
    Loop.Keeps turn (Decoding input) (fun state => state.rest.length)
      (fun result => Describes input result ∧ result = Numa.base32hexDecode input) := by
  intro state decoding
  obtain ⟨⟨chars, digits, inputEq, areDigits, regrouped⟩, completes⟩ := id decoding
  rcases restEq : state.rest with _ | ⟨ch, rest⟩
  · refine ⟨.leave (some state.output), by simp [turn, restEq], ?_, ?_⟩
    · refine ⟨digits, _, _, ?_, regrouped⟩
      rw [inputEq, unpadded_append areDigits, restEq]
      simpa [unpadded] using areDigits
    · rw [← completes, restEq]
      simp [base32hexDecodeFrom]
  · by_cases isPad : ch = 0x3D
    · refine ⟨.leave (some state.output), by simp [turn, restEq, isPad], ?_, ?_⟩
      · refine ⟨digits, _, _, ?_, regrouped⟩
        rw [inputEq, unpadded_append areDigits, restEq, isPad]
        simpa [unpadded] using areDigits
      · rw [← completes, restEq, isPad]
        simp [base32hexDecodeFrom]
    · cases isDigit : base32hexValue ch with
      | none =>
          refine ⟨.leave none, turn_invalid restEq isPad isDigit, ⟨ch, ?_, isDigit⟩, ?_⟩
          · rw [inputEq, unpadded_append areDigits, restEq]
            simp [unpadded, isPad]
          · rw [← completes, restEq, base32hexDecodeFrom, if_neg isPad, isDigit]
            rfl
      | some val =>
          obtain ⟨next, ran, rfl, goesOn⟩ :=
            turn_digit restEq isDigit regrouped.count_lt regrouped.pending_lt
          exact ⟨.again next, ran, decoding.digit restEq isDigit goesOn, by simp [restEq]⟩

theorem decoding_start (input : Text) : Decoding input (start input) where
  hasRead := ⟨[], [], rfl, rfl, Positional.regrouped_nil (by omega)⟩
  completes := by
    change (base32hexDecodeFrom 0 0 input).map ([] ++ ·) = base32hexDecodeFrom 0 0 input
    simp

/-- The loop ends without an overflow, and its result is known. -/
theorem base32hexDecode_describes (input : Text) :
    base32hexDecode input = some (Numa.base32hexDecode input) ∧
      Describes input (Numa.base32hexDecode input) := by
  obtain ⟨result, ran, described, rfl⟩ :=
    (keeps_turn input).exists_run (decoding_start input) (Nat.lt_succ_self _)
  exact ⟨ran, described⟩

/-! ## What is decoded -/

theorem base32hexDecode_eq_none_iff {input : Text} :
    Numa.base32hexDecode input = none ↔ ∃ ch ∈ unpadded input, base32hexValue ch = none := by
  have described := (base32hexDecode_describes input).2
  cases decoded : Numa.base32hexDecode input with
  | none =>
      rw [decoded] at described
      exact ⟨fun _ => described, fun _ => rfl⟩
  | some output =>
      rw [decoded] at described
      obtain ⟨digits, _, _, areDigits, -⟩ := described
      refine ⟨fun impossible => (Option.some_ne_none _ impossible).elim, ?_⟩
      rintro ⟨ch, chMem, noDigit⟩
      obtain ⟨val, isDigit⟩ := exists_value_of_mem areDigits chMem
      exact absurd (noDigit.symm.trans isDigit) (Option.some_ne_none val).symm

/-- Digits that spell octets are decoded as these. -/
theorem base32hexDecode_of_spells {input : Text} {digits : List Nat} {octets : List UInt8}
    (areDigits : (unpadded input).map base32hexValue = digits.map some)
    (spells : Positional.Spells 5 8 digits (octets.map UInt8.toNat)) :
    Numa.base32hexDecode input = some octets := by
  have described := (base32hexDecode_describes input).2
  cases decoded : Numa.base32hexDecode input with
  | none =>
      obtain ⟨ch, chMem, noDigit⟩ := base32hexDecode_eq_none_iff.mp decoded
      obtain ⟨val, isDigit⟩ := exists_value_of_mem areDigits chMem
      exact absurd (noDigit.symm.trans isDigit) (Option.some_ne_none val).symm
  | some output =>
      rw [decoded] at described
      obtain ⟨others, _, _, areOthers, regrouped⟩ := described
      have same : others = digits :=
        List.map_injective_iff.mpr (Option.some_injective Nat) (areOthers.symm.trans areDigits)
      rw [same] at regrouped
      have values := regrouped.groups_eq spells (by omega)
      have injective : Function.Injective UInt8.toNat := fun _ _ => UInt8.toNat_inj.mp
      exact congrArg some (List.map_injective_iff.mpr injective values)

end Base32Hex

theorem base32hexValue_digit : ∀ value < 32, base32hexValue (base32hexDigit value) = some value := by
  decide +kernel

theorem map_base32hexValue_digits {digits : List Nat} (digitsLt : ∀ digit ∈ digits, digit < 32) :
    (digits.map base32hexDigit).map base32hexValue = digits.map some := by
  rw [List.map_map]
  exact List.map_congr_left fun digit digitMem => base32hexValue_digit digit (digitsLt digit digitMem)

/-- Every character of an encoding is a digit. -/
theorem exists_digit_of_mem_encode {octets : List UInt8} {ch : UInt8}
    (chMem : ch ∈ base32hexEncode octets) : ∃ value < 32, ch = base32hexDigit value := by
  obtain ⟨digits, charsEq, digitsLt, -⟩ := exists_digits_encode octets
  rw [charsEq] at chMem
  obtain ⟨value, valueMem, rfl⟩ := List.mem_map.mp chMem
  exact ⟨value, digitsLt value valueMem, rfl⟩

theorem base32hexDecode_encode (octets : List UInt8) :
    base32hexDecode (base32hexEncode octets) = some octets := by
  obtain ⟨digits, charsEq, digitsLt, spells⟩ := exists_digits_encode octets
  have areDigits := map_base32hexValue_digits digitsLt
  have whole := Base32Hex.unpadded_append areDigits []
  rw [List.append_nil, ← charsEq] at whole
  refine Base32Hex.base32hexDecode_of_spells ?_ spells
  rw [whole, charsEq]
  simpa [Base32Hex.unpadded] using areDigits

end Numa
