import Mathlib.Data.List.Induction
import Mathlib.Tactic.Ring

/-!
# Distinguished encoding of numbers

Tags, lengths and contents of definite length, each with its shortest form, and
integers that are not negative, in two's complement without a superfluous octet.
-/

namespace Numa

namespace Der

/-! ## Values -/

/-- The number with these octets, the most significant one first. -/
def value (octets : List UInt8) : Nat :=
  octets.foldl (fun value octet => value * 256 + octet.toNat) 0

theorem value_append (front back : List UInt8) :
    value (front ++ back) = value front * 256 ^ back.length + value back := by
  induction back using List.reverseRecOn with
  | nil => simp [value]
  | append_singleton back octet ih =>
      have step : ∀ octets, value (octets ++ [octet]) = value octets * 256 + octet.toNat := by
        simp [value]
      rw [← List.append_assoc, step, step, ih, List.length_append, List.length_singleton, pow_succ]
      ring

theorem value_singleton (octet : UInt8) : value [octet] = octet.toNat := by
  simp [value]

theorem value_cons (octet : UInt8) (octets : List UInt8) :
    value (octet :: octets) = octet.toNat * 256 ^ octets.length + value octets := by
  rw [← List.singleton_append, value_append, value_singleton]

/-- Zeros in front do not count. -/
theorem value_dropWhile (octets : List UInt8) :
    value (octets.dropWhile (· == 0)) = value octets := by
  induction octets with
  | nil => rfl
  | cons octet octets ih =>
      by_cases zero : octet = 0
      · subst zero
        rw [List.dropWhile_cons_of_pos (by simp), ih, value_cons]
        simp
      · rw [List.dropWhile_cons_of_neg (by simpa using zero)]

/-! ## Decoding -/

/-- A definite length in its shortest form, and what is behind it. -/
def decodeLength : List UInt8 → Option (Nat × List UInt8)
  | [] => none
  | first :: rest =>
    if first < 0x80 then some (first.toNat, rest)
    else
      let count := first.toNat - 0x80
      let length := value (rest.take count)
      if count = 127 ∨ rest.length < count ∨ length < 0x80 ∨ length < 256 ^ (count - 1) then none
      else some (length, rest.drop count)

/-- The contents behind a tag and a length, and what is behind them. -/
def decodeElement (tag : UInt8) : List UInt8 → Option (List UInt8 × List UInt8)
  | [] => none
  | first :: rest =>
    if first = tag then do
      let (length, rest) ← decodeLength rest
      if rest.length < length then none else some (rest.take length, rest.drop length)
    else none

/-- The contents of an integer that is not negative, in its shortest form. -/
def decodeNatural : List UInt8 → Option Nat
  | [] => none
  | first :: rest =>
    if 0x80 ≤ first then none
    else if first = 0 ∧ ∃ second ∈ rest.head?, second < 0x80 then none
    else some (value (first :: rest))

def integerTag : UInt8 := 0x02

def sequenceTag : UInt8 := 0x30

def decodeInteger (octets : List UInt8) : Option (Nat × List UInt8) := do
  let (contents, rest) ← decodeElement integerTag octets
  let number ← decodeNatural contents
  some (number, rest)

/-- A sequence of two integers with nothing behind it. -/
def decodePair (octets : List UInt8) : Option (Nat × Nat) := do
  let (contents, rest) ← decodeElement sequenceTag octets
  let (first, contents) ← decodeInteger contents
  let (second, contents) ← decodeInteger contents
  if rest = [] ∧ contents = [] then some (first, second) else none

/-! ## What is decoded -/

theorem decodeLength_short {length : Nat} (small : length < 0x80) (rest : List UInt8) :
    decodeLength (length.toUInt8 :: rest) = some (length, rest) := by
  have lengthEq : length.toUInt8.toNat = length := by
    simp
    omega
  rw [decodeLength, if_pos, lengthEq]
  rw [UInt8.lt_iff_toNat_lt, lengthEq]
  exact small

/-- A length in some octets of which the first one is not zero. -/
theorem decodeLength_long {octets : List UInt8} (few : octets.length < 127)
    (large : 0x80 ≤ value octets) (shortest : 256 ^ (octets.length - 1) ≤ value octets)
    (rest : List UInt8) :
    decodeLength ((0x80 + octets.length).toUInt8 :: (octets ++ rest)) =
      some (value octets, rest) := by
  have firstEq : (0x80 + octets.length).toUInt8.toNat = 0x80 + octets.length := by
    simp
    omega
  have notShort : ¬ (0x80 + octets.length).toUInt8 < 0x80 := by
    rw [UInt8.lt_iff_toNat_lt, firstEq]
    simp
  have count : (0x80 + octets.length).toUInt8.toNat - 0x80 = octets.length := by omega
  rw [decodeLength, if_neg notShort]
  simp only [count, List.take_left, List.drop_left, List.length_append]
  rw [if_neg (by omega)]

theorem decodeElement_of_length {tag : UInt8} {header contents rest : List UInt8}
    (decoded : decodeLength (header ++ (contents ++ rest)) =
      some (contents.length, contents ++ rest)) :
    decodeElement tag (tag :: (header ++ contents) ++ rest) = some (contents, rest) := by
  rw [List.cons_append, List.append_assoc, decodeElement, if_pos rfl, decoded]
  simp

/-- A number whose first octet would be taken for a sign. -/
theorem decodeNatural_zero_cons {first : UInt8} (high : 0x80 ≤ first) (rest : List UInt8) :
    decodeNatural (0 :: first :: rest) = some (value (first :: rest)) := by
  have notSmall : ¬ first < 0x80 := UInt8.not_lt.mpr high
  rw [decodeNatural, if_neg (by decide), if_neg (by simpa using notSmall), value_cons]
  simp

theorem decodeNatural_of_small {first : UInt8} {rest : List UInt8} (small : first < 0x80)
    (shortest : first = 0 → rest = []) :
    decodeNatural (first :: rest) = some (value (first :: rest)) := by
  rw [decodeNatural, if_neg (UInt8.not_le.mpr small), if_neg]
  rintro ⟨zero, second, isSecond, -⟩
  rw [shortest zero] at isSecond
  cases isSecond

theorem decodeInteger_of_length {header contents rest : List UInt8} {number : Nat}
    (decoded : decodeLength (header ++ (contents ++ rest)) =
      some (contents.length, contents ++ rest))
    (isNumber : decodeNatural contents = some number) :
    decodeInteger (integerTag :: (header ++ contents) ++ rest) = some (number, rest) := by
  rw [decodeInteger, decodeElement_of_length decoded]
  simp [isNumber]

theorem decodePair_of_length {header first second : List UInt8} {number other : Nat}
    (decoded : decodeLength (header ++ (first ++ second)) =
      some ((first ++ second).length, first ++ second))
    (isFirst : decodeInteger (first ++ second) = some (number, second))
    (isSecond : decodeInteger second = some (other, [])) :
    decodePair (sequenceTag :: (header ++ (first ++ second))) = some (number, other) := by
  have decodedAlone : decodeLength (header ++ ((first ++ second) ++ [])) =
      some ((first ++ second).length, (first ++ second) ++ []) := by
    rwa [List.append_nil]
  have contents : decodeElement sequenceTag (sequenceTag :: (header ++ (first ++ second))) =
      some (first ++ second, []) := by
    rw [← List.append_nil (sequenceTag :: (header ++ (first ++ second)))]
    exact decodeElement_of_length decodedAlone
  rw [decodePair, contents]
  simp [isFirst, isSecond]

end Der

end Numa
