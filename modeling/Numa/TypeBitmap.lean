import Numa.Denial

/-!
# Type bitmaps

The type bitmap of RFC 4034: windows of 256 types in increasing order, each
with its number, the length of its bitmap and the octets of the bitmap, the
highest bit first.  `type_bitmap_contains` finds exactly the types set in it.
-/

namespace Numa

/-- A window block of a type bitmap. -/
structure TypeWindow where
  number : UInt8
  octets : List UInt8
  nonempty : 0 < octets.length
  bounded : octets.length ≤ 32

/-- Is the bit of the index set, counted from the highest bit of the first
octet? -/
def bitAt (octets : List UInt8) (index : Nat) : Bool :=
  (octets.getD (index / 8) 0).toNat.testBit (7 - index % 8)

def TypeWindow.encode (window : TypeWindow) : List UInt8 :=
  window.number :: window.octets.length.toUInt8 :: window.octets

/-- Does the window have the type? -/
def TypeWindow.has (window : TypeWindow) (qtype : UInt16) : Bool :=
  window.number.toNat == qtype.toNat / 256 && bitAt window.octets (qtype.toNat % 256)

/-- The octets are a type bitmap with exactly these types. -/
def EncodesTypes (bitmap : List UInt8) (types : List UInt16) : Prop :=
  ∃ windows : List TypeWindow,
    (windows.Pairwise fun first second => first.number < second.number) ∧
    bitmap = windows.flatMap TypeWindow.encode ∧
    ∀ qtype, qtype ∈ types ↔ windows.any (·.has qtype) = true

theorem maskedBit : ∀ (octet : UInt8) (index : Fin 8),
    decide (octet &&& (0x80 >>> UInt8.ofNat index) ≠ 0) =
      octet.toNat.testBit (7 - index) := by
  have table : ∀ (octet : Fin 256) (index : Fin 8),
      decide (UInt8.ofFin octet &&& (0x80 >>> UInt8.ofNat index) ≠ 0) =
        (UInt8.ofFin octet).toNat.testBit (7 - index) := by
    decide +kernel
  intro octet index
  simpa using table octet.toFin index

theorem scanWindows_skip (targetWindow : UInt8) (byteOffset : Nat) (bitMask : UInt8)
    (octets rest : List UInt8) :
    scanWindows targetWindow byteOffset bitMask octets.length (octets ++ rest) =
      scanWindows targetWindow byteOffset bitMask 0 rest := by
  induction octets with
  | nil => rfl
  | cons octet octets ih => exact ih

/-- The scan of well-formed windows stops at the window of the type. -/
theorem scanWindows_encode {windows : List TypeWindow}
    (increasing : windows.Pairwise fun first second => first.number < second.number)
    (targetWindow : UInt8) (index : Nat) (bitMask : UInt8)
    (masked : ∀ octet : UInt8,
      decide (octet &&& bitMask ≠ 0) = octet.toNat.testBit (7 - index % 8)) :
    scanWindows targetWindow (index / 8) bitMask 0 (windows.flatMap TypeWindow.encode) =
      windows.any fun window => window.number == targetWindow && bitAt window.octets index := by
  induction windows with
  | nil => rfl
  | cons window windows ih =>
      obtain ⟨later, laterIncreasing⟩ := List.pairwise_cons.mp increasing
      have bounded := window.bounded
      have length : window.octets.length.toUInt8.toNat = window.octets.length := by
        rw [UInt8.toNat_ofNat']
        exact Nat.mod_eq_of_lt (by omega)
      rw [List.flatMap_cons, TypeWindow.encode, List.cons_append, List.cons_append, scanWindows,
        length, List.any_cons]
      rw [if_neg (by simp)]
      by_cases found : window.number = targetWindow
      · have others : (windows.any fun window =>
            window.number == targetWindow && bitAt window.octets index) = false := by
          rw [List.any_eq_false]
          intro other otherMem
          have different : other.number ≠ targetWindow := by
            rw [← found]
            exact (UInt8.ne_of_lt (later other otherMem)).symm
          simp [different]
        by_cases inside : index / 8 < window.octets.length
        · rw [if_pos ⟨found, inside⟩, masked, others]
          simp [found, bitAt, List.getElem?_append_left inside]
        · rw [if_neg (by simp [inside]), scanWindows_skip, ih laterIncreasing, others]
          simp [bitAt, List.getElem?_eq_none (Nat.le_of_not_lt inside)]
      · rw [if_neg (by simp [found]), scanWindows_skip, ih laterIncreasing]
        simp [found]

/-- The program finds exactly the types of a bitmap. -/
theorem EncodesTypes.typeBitmapContains_iff {bitmap : List UInt8} {types : List UInt16}
    (encodes : EncodesTypes bitmap types) (qtype : UInt16) :
    typeBitmapContains bitmap qtype = true ↔ qtype ∈ types := by
  obtain ⟨windows, increasing, rfl, memIff⟩ := encodes
  have windowNumber : (qtype / 256).toUInt8.toNat = qtype.toNat / 256 := by
    have := qtype.toNat_lt
    simp
    omega
  have typeIndex : (qtype % 256).toUInt8.toNat = qtype.toNat % 256 := by
    simp
  have masked : ∀ octet : UInt8,
      decide (octet &&& (0x80 >>> ((qtype % 256).toUInt8 % 8)) ≠ 0) =
        octet.toNat.testBit (7 - (qtype % 256).toUInt8.toNat % 8) := by
    intro octet
    have bit := maskedBit octet ⟨(qtype % 256).toUInt8.toNat % 8, by omega⟩
    have index : UInt8.ofNat ((qtype % 256).toUInt8.toNat % 8) = (qtype % 256).toUInt8 % 8 := by
      rw [← UInt8.toNat_inj, UInt8.toNat_mod, UInt8.toNat_ofNat']
      exact Nat.mod_eq_of_lt (by omega)
    rw [← index]
    exact bit
  have offset : ((qtype % 256).toUInt8 / 8).toNat = (qtype % 256).toUInt8.toNat / 8 := by
    simp
  rw [memIff, typeBitmapContains, offset, scanWindows_encode increasing _ _ _ masked, typeIndex]
  have sameNumber : ∀ window : TypeWindow,
      (window.number == (qtype / 256).toUInt8) = (window.number.toNat == qtype.toNat / 256) := by
    intro window
    rw [Bool.eq_iff_iff, beq_iff_eq, beq_iff_eq, ← windowNumber, UInt8.toNat_inj]
  simp only [sameNumber]
  exact Iff.rfl

/-- A bitmap of the first window, by its bits. -/
theorem encodesTypes_of_window {octets : List UInt8} {types : List UInt16}
    (nonempty : 0 < octets.length) (bounded : octets.length ≤ 32)
    (small : ∀ qtype ∈ types, qtype.toNat < 8 * octets.length)
    (bits : ∀ index < 8 * octets.length,
      bitAt octets index = true ↔ UInt16.ofNat index ∈ types) :
    EncodesTypes (0 :: octets.length.toUInt8 :: octets) types := by
  refine ⟨[⟨0, octets, nonempty, bounded⟩], List.pairwise_singleton _ _,
    by simp [TypeWindow.encode], fun qtype => ?_⟩
  simp only [List.any_cons, List.any_nil, Bool.or_false, TypeWindow.has, Bool.and_eq_true,
    beq_iff_eq]
  have zero : (0 : UInt8).toNat = 0 := rfl
  rw [zero]
  by_cases inside : qtype.toNat < 8 * octets.length
  · have index : qtype.toNat % 256 = qtype.toNat := Nat.mod_eq_of_lt (by omega)
    have first : 0 = qtype.toNat / 256 := (Nat.div_eq_of_lt (by omega)).symm
    rw [index, bits qtype.toNat inside, UInt16.ofNat_toNat]
    exact ⟨fun has => ⟨first, has⟩, And.right⟩
  · constructor
    · exact fun has => absurd (small qtype has) inside
    · rintro ⟨first, isSet⟩
      have outside : octets.length ≤ qtype.toNat % 256 / 8 := by omega
      simp [bitAt, List.getElem?_eq_none outside] at isSet

end Numa
