import Mathlib.Data.Finset.Basic
import Mathlib.Data.List.DropRight
import Numa.Loops
import Numa.TypeBitmap

/-!
# The scan of type bitmaps

`type_bitmap_contains` with the indices that it takes into the bitmap, and the
bitmap of a set of types: the windows in increasing order, without empty ones
and without zeros at the end of a window.  On this bitmap the scan finds the
types of the set, and on no octets whatever does it panic.
-/

namespace Numa

namespace BitmapScan

/-! ## The loop -/

/-- A turn of the loop of `type_bitmap_contains` at a position. -/
def turn (bitmap : List UInt8) (qtype : UInt16) (pos : Nat) : Option (Turn Nat Bool) :=
  let targetWindow := (qtype / 256).toUInt8
  let targetBit := (qtype % 256).toUInt8
  let byteOffset := (targetBit / 8).toNat
  let bitMask := 0x80 >>> (targetBit % 8)
  if pos + 2 ≤ bitmap.length then do
    let window ← bitmap[pos]?
    let bmapLen ← bitmap[pos + 1]?
    if bitmap.length < pos + 2 + bmapLen.toNat then some (.leave false)
    else if window = targetWindow ∧ byteOffset < bmapLen.toNat then do
      let octet ← bitmap[pos + 2 + byteOffset]?
      some (.leave (decide (octet &&& bitMask ≠ 0)))
    else some (.again (pos + 2 + bmapLen.toNat))
  else some (.leave false)

/-- `type_bitmap_contains`.  `none` is a panic, and also a loop that does not
end in time. -/
def typeBitmapContains (bitmap : List UInt8) (qtype : UInt16) : Option Bool :=
  Loop.run (turn bitmap qtype) (bitmap.length + 1) 0

/-- The scan passes over octets by dropping them. -/
theorem scanWindows_drop {targetWindow : UInt8} {byteOffset skip : Nat} {bitMask : UInt8}
    {octets : List UInt8} (enough : skip ≤ octets.length) :
    scanWindows targetWindow byteOffset bitMask skip octets =
      scanWindows targetWindow byteOffset bitMask 0 (octets.drop skip) := by
  have skipped := scanWindows_skip targetWindow byteOffset bitMask (octets.take skip)
    (octets.drop skip)
  rwa [List.take_append_drop, List.length_take, Nat.min_eq_left enough] at skipped

/-- The rest of the bitmap from the position on decides. -/
structure AtWindow (bitmap : List UInt8) (qtype : UInt16) (pos : Nat) : Prop where
  inside : pos ≤ bitmap.length
  scans : scanWindows (qtype / 256).toUInt8 ((qtype % 256).toUInt8 / 8).toNat
    (0x80 >>> ((qtype % 256).toUInt8 % 8)) 0 (bitmap.drop pos) =
      Numa.typeBitmapContains bitmap qtype

theorem keeps_turn (bitmap : List UInt8) (qtype : UInt16) :
    Loop.Keeps (turn bitmap qtype) (AtWindow bitmap qtype) (fun pos => bitmap.length - pos)
      (· = Numa.typeBitmapContains bitmap qtype) := by
  intro pos atWindow
  have scans := atWindow.scans
  have inside := atWindow.inside
  rw [turn]
  by_cases header : pos + 2 ≤ bitmap.length
  · have firstInside : pos < bitmap.length := by omega
    have secondInside : pos + 1 < bitmap.length := by omega
    rw [List.drop_eq_getElem_cons firstInside, List.drop_eq_getElem_cons secondInside,
      scanWindows] at scans
    simp only [if_pos header, List.getElem?_eq_getElem firstInside,
      List.getElem?_eq_getElem secondInside, Option.bind_eq_bind, Option.bind_some]
    set bmapLen := bitmap[pos + 1]
    have rest : (bitmap.drop (pos + 1 + 1)).length = bitmap.length - (pos + 2) :=
      List.length_drop
    by_cases short : bitmap.length < pos + 2 + bmapLen.toNat
    · rw [if_pos short]
      rw [if_pos (by omega)] at scans
      exact ⟨_, rfl, scans⟩
    · rw [if_neg short]
      rw [if_neg (by omega)] at scans
      by_cases found : bitmap[pos] = (qtype / 256).toUInt8 ∧
          ((qtype % 256).toUInt8 / 8).toNat < bmapLen.toNat
      · have octetInside : pos + 2 + ((qtype % 256).toUInt8 / 8).toNat < bitmap.length := by omega
        rw [if_pos found]
        rw [if_pos found, List.getD_eq_getElem?_getD, List.getElem?_drop] at scans
        rw [List.getElem?_eq_getElem octetInside, Option.bind_some]
        rw [List.getElem?_eq_getElem octetInside, Option.getD_some] at scans
        exact ⟨_, rfl, scans⟩
      · rw [if_neg found]
        rw [if_neg found] at scans
        refine ⟨_, rfl, ⟨by omega, ?_⟩, by omega⟩
        rw [scanWindows_drop (by omega), List.drop_drop] at scans
        exact scans
  · rw [if_neg header]
    refine ⟨_, rfl, ?_⟩
    rcases ended : bitmap.drop pos with _ | ⟨window, _ | ⟨bmapLen, later⟩⟩
    · rw [← scans, ended]
      rfl
    · rw [← scans, ended]
      rfl
    · have lengths := congrArg List.length ended
      rw [List.length_drop, List.length_cons, List.length_cons] at lengths
      omega

/-- The loop ends within the bitmap and returns what the scan of the octets
one by one returns. -/
theorem typeBitmapContains_eq (bitmap : List UInt8) (qtype : UInt16) :
    typeBitmapContains bitmap qtype = some (Numa.typeBitmapContains bitmap qtype) := by
  have atStart : AtWindow bitmap qtype 0 := ⟨Nat.zero_le _, rfl⟩
  obtain ⟨result, ran, rfl⟩ :=
    (keeps_turn bitmap qtype).exists_run atStart (Nat.lt_succ_of_le (Nat.sub_le _ _))
  exact ran

/-! ## The bitmap of a set of types -/

/-- The octet with these bits, the highest one first. -/
def octetOfBits (bits : List Bool) : UInt8 :=
  bits.foldl (fun octet bit => 2 * octet + bit.toUInt8) 0

/-- The octet of a window for eight successive types. -/
def typeOctet (types : Finset UInt16) (number index : Nat) : UInt8 :=
  octetOfBits ((List.range 8).map fun bit =>
    decide (UInt16.ofNat (256 * number + 8 * index + bit) ∈ types))

/-- The octets of a window, up to the last one with a type of the set. -/
def windowOctets (types : Finset UInt16) (number : Nat) : List UInt8 :=
  ((List.range 32).map (typeOctet types number)).rdropWhile (· == 0)

theorem length_windowOctets_le (types : Finset UInt16) (number : Nat) :
    (windowOctets types number).length ≤ 32 := by
  have shorter := (List.rdropWhile_prefix (· == 0)
    ((List.range 32).map (typeOctet types number))).length_le
  rwa [List.length_map, List.length_range] at shorter

/-- The window of the set with the number, unless it is empty. -/
def typeWindow (types : Finset UInt16) (number : Nat) : Option TypeWindow :=
  if nonempty : 0 < (windowOctets types number).length then
    some
      { number := number.toUInt8
        octets := windowOctets types number
        nonempty := nonempty
        bounded := length_windowOctets_le types number }
  else none

def typeWindows (types : Finset UInt16) : List TypeWindow :=
  (List.range 256).filterMap (typeWindow types)

/-- The type bitmap of a set of types. -/
def encodeTypes (types : Finset UInt16) : List UInt8 :=
  (typeWindows types).flatMap TypeWindow.encode

theorem testBit_octetOfBits (f : Nat → Bool) (index : Fin 8) :
    (octetOfBits ((List.range 8).map f)).toNat.testBit (7 - index) = f index := by
  have table : ∀ a b c d e f g h : Bool, ∀ index : Fin 8,
      (octetOfBits [a, b, c, d, e, f, g, h]).toNat.testBit (7 - index) =
        [a, b, c, d, e, f, g, h].getD index false := by
    decide +kernel
  have bits : (octetOfBits ((List.range 8).map f)).toNat.testBit (7 - index) =
      ((List.range 8).map f).getD index false :=
    table (f 0) (f 1) (f 2) (f 3) (f 4) (f 5) (f 6) (f 7) index
  rw [bits, List.getD_eq_getElem?_getD, List.getElem?_map, List.getElem?_range index.isLt]
  rfl

/-- Zeros at the end of a window say nothing. -/
theorem bitAt_append_zeros {octets zeros : List UInt8} (areZeros : ∀ octet ∈ zeros, octet = 0)
    (index : Nat) : bitAt (octets ++ zeros) index = bitAt octets index := by
  by_cases inside : index / 8 < octets.length
  · simp [bitAt, List.getElem?_append_left inside]
  · have zero : (zeros[index / 8 - octets.length]?).getD 0 = 0 := by
      cases found : zeros[index / 8 - octets.length]? with
      | none => rfl
      | some octet => exact areZeros octet (List.mem_of_getElem? found)
    rw [bitAt, bitAt, List.getD_eq_getElem?_getD, List.getD_eq_getElem?_getD,
      List.getElem?_append_right (Nat.le_of_not_lt inside), zero,
      List.getElem?_eq_none (Nat.le_of_not_lt inside)]
    rfl

theorem bitAt_typeOctets (types : Finset UInt16) (number : Nat) {index : Nat}
    (inside : index < 256) :
    bitAt ((List.range 32).map (typeOctet types number)) index =
      decide (UInt16.ofNat (256 * number + index) ∈ types) := by
  have octet : index / 8 < 32 := by omega
  rw [bitAt, List.getD_eq_getElem?_getD, List.getElem?_map, List.getElem?_range octet,
    Option.map_some, Option.getD_some, typeOctet, testBit_octetOfBits _ ⟨index % 8, by omega⟩]
  congr 3
  simp only
  omega

theorem bitAt_windowOctets (types : Finset UInt16) (number : Nat) {index : Nat}
    (inside : index < 256) :
    bitAt (windowOctets types number) index =
      decide (UInt16.ofNat (256 * number + index) ∈ types) := by
  have zeros : ∀ octet ∈ ((List.range 32).map (typeOctet types number)).rtakeWhile (· == 0),
      octet = 0 :=
    fun octet octetMem => by simpa using List.mem_rtakeWhile_imp octetMem
  rw [windowOctets, ← bitAt_append_zeros zeros, List.rdropWhile_append_rtakeWhile,
    bitAt_typeOctets types number inside]

theorem typeWindow_eq_some {types : Finset UInt16} {number : Nat} {window : TypeWindow}
    (isWindow : typeWindow types number = some window) :
    window.number = number.toUInt8 ∧ window.octets = windowOctets types number := by
  rw [typeWindow] at isWindow
  split at isWindow
  · cases isWindow
    exact ⟨rfl, rfl⟩
  · cases isWindow

/-- A window of a set has the types of the set. -/
theorem has_of_typeWindow {types : Finset UInt16} {number : Nat} {window : TypeWindow}
    (small : number < 256) (isWindow : typeWindow types number = some window) (qtype : UInt16) :
    window.has qtype = true ↔ number = qtype.toNat / 256 ∧ qtype ∈ types := by
  obtain ⟨numberEq, octetsEq⟩ := typeWindow_eq_some isWindow
  have numberValue : window.number.toNat = number := by
    rw [numberEq, UInt8.toNat_ofNat']
    exact Nat.mod_eq_of_lt small
  rw [TypeWindow.has, Bool.and_eq_true, beq_iff_eq, numberValue, octetsEq,
    bitAt_windowOctets types number (Nat.mod_lt _ (by decide)), decide_eq_true_eq]
  constructor
  · rintro ⟨rfl, typeMem⟩
    rw [Nat.div_add_mod, UInt16.ofNat_toNat] at typeMem
    exact ⟨rfl, typeMem⟩
  · rintro ⟨rfl, typeMem⟩
    rw [Nat.div_add_mod, UInt16.ofNat_toNat]
    exact ⟨rfl, typeMem⟩

/-- The window of every type of the set is there. -/
theorem exists_typeWindow {types : Finset UInt16} {qtype : UInt16} (typeMem : qtype ∈ types) :
    ∃ window, typeWindow types (qtype.toNat / 256) = some window := by
  have bit : bitAt (windowOctets types (qtype.toNat / 256)) (qtype.toNat % 256) = true := by
    rw [bitAt_windowOctets _ _ (Nat.mod_lt _ (by decide)), Nat.div_add_mod, UInt16.ofNat_toNat]
    simpa using typeMem
  have nonempty : 0 < (windowOctets types (qtype.toNat / 256)).length := by
    rw [List.length_pos_iff]
    intro empty
    rw [empty] at bit
    simp [bitAt] at bit
  exact ⟨_, dif_pos nonempty⟩

theorem mem_typeWindows {types : Finset UInt16} {window : TypeWindow} :
    window ∈ typeWindows types ↔ ∃ number < 256, typeWindow types number = some window := by
  simp [typeWindows]

theorem pairwise_typeWindows (types : Finset UInt16) :
    (typeWindows types).Pairwise fun first second => first.number < second.number := by
  rw [typeWindows, List.pairwise_filterMap]
  apply List.pairwise_lt_range.imp_of_mem
  intro first second firstMem secondMem earlier window isWindow other isOther
  rw [(typeWindow_eq_some isWindow).1, (typeWindow_eq_some isOther).1, UInt8.lt_iff_toNat_lt,
    UInt8.toNat_ofNat', UInt8.toNat_ofNat', Nat.mod_eq_of_lt (List.mem_range.mp firstMem),
    Nat.mod_eq_of_lt (List.mem_range.mp secondMem)]
  exact earlier

theorem mem_iff_typeWindows {types : Finset UInt16} (qtype : UInt16) :
    qtype ∈ types ↔ ∃ window ∈ typeWindows types, window.has qtype = true := by
  have small := qtype.toNat_lt
  constructor
  · intro typeMem
    obtain ⟨window, isWindow⟩ := exists_typeWindow typeMem
    exact ⟨window, mem_typeWindows.mpr ⟨_, by omega, isWindow⟩,
      (has_of_typeWindow (by omega) isWindow qtype).mpr ⟨rfl, typeMem⟩⟩
  · rintro ⟨window, windowMem, has⟩
    obtain ⟨number, numberLt, isWindow⟩ := mem_typeWindows.mp windowMem
    exact ((has_of_typeWindow numberLt isWindow qtype).mp has).2

/-- The bitmap of a set has exactly its types. -/
theorem encodesTypes_encodeTypes (types : Finset UInt16) :
    EncodesTypes (encodeTypes types) types.toList := by
  refine ⟨typeWindows types, pairwise_typeWindows types, rfl, fun qtype => ?_⟩
  rw [Finset.mem_toList, List.any_eq_true]
  exact mem_iff_typeWindows qtype

/-! ## Its only form -/

/-- The octets are windows in increasing order, none of them empty or with zeros
at its end, with exactly the types of the set. -/
def IsTypeBitmap (types : Finset UInt16) (bitmap : List UInt8) : Prop :=
  ∃ windows : List TypeWindow,
    (windows.Pairwise fun first second => first.number < second.number) ∧
    (∀ window ∈ windows, window.octets.getLast? ≠ some 0) ∧
    bitmap = windows.flatMap TypeWindow.encode ∧
    ∀ qtype, qtype ∈ types ↔ ∃ window ∈ windows, window.has qtype = true

/-- Octets are known by their bits. -/
theorem eq_of_bitAt {first second : List UInt8} (length : first.length = second.length)
    (bits : ∀ index < 8 * first.length, bitAt first index = bitAt second index) :
    first = second := by
  apply List.ext_getElem length
  intro index inFirst inSecond
  rw [← UInt8.toNat_inj]
  apply Nat.eq_of_testBit_eq
  intro bit
  by_cases low : bit < 8
  · have same := bits (8 * index + (7 - bit)) (by omega)
    have octet : (8 * index + (7 - bit)) / 8 = index := by omega
    have place : 7 - (8 * index + (7 - bit)) % 8 = bit := by omega
    rw [bitAt, bitAt, octet, place] at same
    simpa [inFirst, inSecond] using same
  · have wide : 2 ^ 8 ≤ 2 ^ bit := Nat.pow_le_pow_right (by decide) (Nat.le_of_not_lt low)
    rw [Nat.testBit_lt_two_pow (lt_of_lt_of_le first[index].toNat_lt wide),
      Nat.testBit_lt_two_pow (lt_of_lt_of_le second[index].toNat_lt wide)]

theorem rdropWhile_append_zeros {octets : List UInt8} (noZeros : octets.getLast? ≠ some 0)
    (count : Nat) : (octets ++ List.replicate count 0).rdropWhile (· == 0) = octets := by
  have kept : octets.rdropWhile (· == 0) = octets := by
    rw [List.rdropWhile_eq_self_iff]
    intro nonempty isZero
    rw [List.getLast?_eq_some_getLast nonempty] at noZeros
    exact noZeros (congrArg some (beq_iff_eq.mp isZero))
  induction count with
  | zero => simpa using kept
  | succ count ih =>
      rw [List.replicate_succ', ← List.append_assoc, List.rdropWhile_concat_pos _ _ _ (by simp)]
      exact ih

section Unique

variable {types : Finset UInt16} {windows : List TypeWindow} {window : TypeWindow}

theorem eq_of_number_eq
    (increasing : windows.Pairwise fun first second => first.number < second.number)
    {other : TypeWindow} (otherMem : other ∈ windows) (windowMem : window ∈ windows)
    (sameNumber : other.number = window.number) : other = window := by
  have distinct : (windows.map TypeWindow.number).Nodup :=
    List.pairwise_map.mpr (increasing.imp UInt8.ne_of_lt)
  exact List.inj_on_of_nodup_map distinct otherMem windowMem sameNumber

/-- The bits of a window of the bitmap are those of the set. -/
theorem bitAt_of_mem
    (increasing : windows.Pairwise fun first second => first.number < second.number)
    (memIff : ∀ qtype, qtype ∈ types ↔ ∃ window ∈ windows, window.has qtype = true)
    (windowMem : window ∈ windows) {index : Nat} (inside : index < 256) :
    bitAt window.octets index =
      decide (UInt16.ofNat (256 * window.number.toNat + index) ∈ types) := by
  have numberLt := window.number.toNat_lt
  set qtype := UInt16.ofNat (256 * window.number.toNat + index)
  have qtypeValue : qtype.toNat = 256 * window.number.toNat + index := by
    rw [UInt16.toNat_ofNat']
    exact Nat.mod_eq_of_lt (by omega)
  have number : qtype.toNat / 256 = window.number.toNat := by omega
  have place : qtype.toNat % 256 = index := by omega
  have hasIff : window.has qtype = bitAt window.octets index := by
    rw [TypeWindow.has, number, place, beq_self_eq_true, Bool.true_and]
  rw [← hasIff, Bool.eq_iff_iff, decide_eq_true_eq, memIff]
  constructor
  · exact fun has => ⟨window, windowMem, has⟩
  · rintro ⟨other, otherMem, has⟩
    have sameNumber : other.number = window.number := by
      rw [TypeWindow.has, number, Bool.and_eq_true, beq_iff_eq] at has
      exact UInt8.toNat_inj.mp has.1
    have same := eq_of_number_eq increasing otherMem windowMem sameNumber
    rwa [same] at has

/-- The windows of the bitmap are those of the set. -/
theorem typeWindow_of_mem
    (increasing : windows.Pairwise fun first second => first.number < second.number)
    (noZeros : ∀ window ∈ windows, window.octets.getLast? ≠ some 0)
    (memIff : ∀ qtype, qtype ∈ types ↔ ∃ window ∈ windows, window.has qtype = true)
    (windowMem : window ∈ windows) :
    typeWindow types window.number.toNat = some window := by
  have bounded := window.bounded
  have zeros : ∀ octet ∈ List.replicate (32 - window.octets.length) (0 : UInt8), octet = 0 :=
    fun _ octetMem => List.eq_of_mem_replicate octetMem
  have filled : window.octets ++ List.replicate (32 - window.octets.length) 0 =
      (List.range 32).map (typeOctet types window.number.toNat) := by
    apply eq_of_bitAt
    · rw [List.length_append, List.length_replicate, List.length_map, List.length_range]
      omega
    · intro index inside
      rw [List.length_append, List.length_replicate] at inside
      rw [bitAt_append_zeros zeros, bitAt_of_mem increasing memIff windowMem (by omega),
        bitAt_typeOctets types window.number.toNat (by omega)]
  have octetsEq : windowOctets types window.number.toNat = window.octets := by
    rw [windowOctets, ← filled]
    exact rdropWhile_append_zeros (noZeros window windowMem) _
  have nonempty : 0 < (windowOctets types window.number.toNat).length := by
    rw [octetsEq]
    exact window.nonempty
  rw [typeWindow, dif_pos nonempty]
  cases window
  simp only at octetsEq
  simp only [Option.some.injEq, TypeWindow.mk.injEq]
  exact ⟨UInt8.ofNat_toNat, octetsEq⟩

/-- A window without zeros at its end has a type. -/
theorem exists_has (noZero : window.octets.getLast? ≠ some 0) :
    ∃ qtype, window.has qtype = true := by
  have bounded := window.bounded
  have numberLt := window.number.toNat_lt
  by_contra noType
  have noBits : window.octets = List.replicate window.octets.length 0 := by
    apply eq_of_bitAt List.length_replicate.symm
    intro index inside
    have value : (UInt16.ofNat (256 * window.number.toNat + index)).toNat =
        256 * window.number.toNat + index := by
      rw [UInt16.toNat_ofNat']
      exact Nat.mod_eq_of_lt (by omega)
    have bit : bitAt window.octets index = false := by
      rw [Bool.eq_false_iff]
      intro isSet
      refine noType ⟨UInt16.ofNat (256 * window.number.toNat + index), ?_⟩
      rw [TypeWindow.has, value, Bool.and_eq_true, beq_iff_eq]
      have number : (256 * window.number.toNat + index) / 256 = window.number.toNat := by omega
      have place : (256 * window.number.toNat + index) % 256 = index := by omega
      rw [number, place]
      exact ⟨rfl, isSet⟩
    rw [bit, ← List.nil_append (List.replicate _ 0),
      bitAt_append_zeros fun _ octetMem => List.eq_of_mem_replicate octetMem]
    simp [bitAt]
  apply noZero
  rw [noBits, List.getLast?_replicate, if_neg (Nat.pos_iff_ne_zero.mp window.nonempty)]

theorem getLast?_ne_zero (windowMem : window ∈ typeWindows types) :
    window.octets.getLast? ≠ some 0 := by
  obtain ⟨number, -, isWindow⟩ := mem_typeWindows.mp windowMem
  have nonempty : window.octets ≠ [] := List.ne_nil_of_length_pos window.nonempty
  have octetsEq := (typeWindow_eq_some isWindow).2
  rw [octetsEq, windowOctets] at nonempty ⊢
  rw [List.getLast?_eq_some_getLast nonempty]
  intro isZero
  exact List.rdropWhile_last_not _ _ nonempty (beq_iff_eq.mpr (Option.some.inj isZero))

/-- A set has one bitmap. -/
theorem isTypeBitmap_iff {bitmap : List UInt8} :
    IsTypeBitmap types bitmap ↔ bitmap = encodeTypes types := by
  constructor
  · rintro ⟨windows, increasing, noZeros, rfl, memIff⟩
    have inSet : ∀ window ∈ windows, window ∈ typeWindows types := fun window windowMem =>
      mem_typeWindows.mpr ⟨_, window.number.toNat_lt,
        typeWindow_of_mem increasing noZeros memIff windowMem⟩
    have inBitmap : ∀ window ∈ typeWindows types, window ∈ windows := by
      intro window windowMem
      obtain ⟨qtype, has⟩ := exists_has (getLast?_ne_zero windowMem)
      have typeMem := (mem_iff_typeWindows qtype).mpr ⟨window, windowMem, has⟩
      obtain ⟨other, otherMem, otherHas⟩ := (memIff qtype).mp typeMem
      rw [TypeWindow.has, Bool.and_eq_true, beq_iff_eq] at has otherHas
      have same := eq_of_number_eq (pairwise_typeWindows types) (inSet other otherMem) windowMem
        (UInt8.toNat_inj.mp (otherHas.1.trans has.1.symm))
      rwa [← same]
    have distinct : ∀ {list : List TypeWindow},
        (list.Pairwise fun first second => first.number < second.number) → list.Nodup :=
      fun sorted => sorted.imp fun less same => UInt8.ne_of_lt less (congrArg _ same)
    have permuted := (List.perm_ext_iff_of_nodup (distinct increasing)
      (distinct (pairwise_typeWindows types))).mpr fun window =>
        ⟨inSet window, inBitmap window⟩
    rw [permuted.eq_of_pairwise (fun _ _ _ _ less more => absurd more (UInt8.lt_asymm less))
      increasing (pairwise_typeWindows types)]
    rfl
  · rintro rfl
    exact ⟨typeWindows types, pairwise_typeWindows types, fun _ => getLast?_ne_zero, rfl,
      mem_iff_typeWindows⟩

end Unique

/-- On the bitmap of a set the program finds exactly the types of the set, and
on all octets it ends without an index out of bounds. -/
theorem typeBitmapContains_correct (qtype : UInt16) :
    (∀ types : Finset UInt16,
      typeBitmapContains (encodeTypes types) qtype = some (decide (qtype ∈ types))) ∧
    ∀ bitmap : List UInt8, ∃ contained, typeBitmapContains bitmap qtype = some contained := by
  refine ⟨fun types => ?_, fun bitmap => ⟨_, typeBitmapContains_eq bitmap qtype⟩⟩
  have found : Numa.typeBitmapContains (encodeTypes types) qtype = true ↔ qtype ∈ types :=
    ((encodesTypes_encodeTypes types).typeBitmapContains_iff qtype).trans Finset.mem_toList
  rw [typeBitmapContains_eq, Option.some.injEq, Bool.eq_iff_iff, decide_eq_true_eq]
  exact found

/-- The last type is in the second octet, and the octets behind it are left out. -/
example : windowOctets {1, 6, 15} 0 = [0x42, 0x01] := by
  decide +kernel

end BitmapScan

end Numa
