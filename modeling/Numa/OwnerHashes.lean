import Numa.DenotedName
import Numa.Nsec3Denial

/-!
# Hashes of owner names

A base32hex text in any case, with or without padding, decodes to the octets
that it encodes.  As `read_qname` folds the case of the labels, the hash in the
owner name of an NSEC3 record is found again in whatever case it is sent.
-/

namespace Numa

namespace Base32Hex

open BytePacketBuffer

/-- The characters that fill the last eight of an encoding. -/
def padding (length : Nat) : Text :=
  List.replicate ((8 - length % 8) % 8) 0x3D

/-- The text is the encoding of the octets in any case, with padding or
without. -/
def Encodes (octets : List UInt8) (chars : Text) : Prop :=
  let digits := base32hexEncode octets
  chars.toLowercase = digits ∨ chars.toLowercase = digits ++ padding digits.length

instance (octets : List UInt8) (chars : Text) : Decidable (Encodes octets chars) :=
  inferInstanceAs (Decidable (_ ∨ _))

def alphabet : Text :=
  text "0123456789ABCDEFGHIJKLMNOPQRSTUVabcdefghijklmnopqrstuv"

/-- `nsec3_owner_hash`, with the panics of the decoder. -/
def nsec3OwnerHash (domain : Text) : Option (Option (List UInt8)) :=
  base32hexDecode ((domain.splitOn dot).headD [])

/-- The accumulator and the bit count have room for another digit, and all that
has been read is in the output or pending. -/
structure NothingLost (input : Text) (state : Decoder) : Prop where
  hasRead : HasRead input state
  goesOn : (turn state).isSome = true
  few : state.bitCount.toNat ≤ 7
  pending : state.bits.toNat < 2 ^ state.bitCount.toNat
  shifted : (state.bits <<< 5).toNat = state.bits.toNat * 2 ^ 5

/-- The alphabet lists the octets with a value in their order. -/
theorem alphabet_eq_filter : alphabet =
    ((List.finRange 256).map UInt8.ofFin).filter fun ch => (base32hexValue ch).isSome := by
  decide +kernel

theorem base32hexValue_eq_none_iff {ch : UInt8} : base32hexValue ch = none ↔ ch ∉ alphabet := by
  have isOctet : ch ∈ (List.finRange 256).map UInt8.ofFin :=
    List.mem_map.mpr ⟨ch.toFin, List.mem_finRange _, rfl⟩
  rw [alphabet_eq_filter, List.mem_filter, not_and, Bool.not_eq_true, Option.isSome_eq_false_iff,
    Option.isNone_iff_eq_none]
  exact ⟨fun noValue _ => noValue, fun outside => outside isOctet⟩

/-- The value of a digit and the end of the digits do not depend on the case. -/
theorem base32hexValue_toAsciiLowercase (ch : UInt8) :
    base32hexValue (toAsciiLowercase ch) = base32hexValue ch ∧
      (toAsciiLowercase ch != 0x3D) = (ch != 0x3D) := by
  have table : ∀ index : Fin 256,
      base32hexValue (toAsciiLowercase (.ofFin index)) = base32hexValue (.ofFin index) ∧
        (toAsciiLowercase (.ofFin index) != 0x3D) = (UInt8.ofFin index != 0x3D) := by
    decide +kernel
  exact table ch.toFin

theorem map_base32hexValue_unpadded (chars : Text) :
    (unpadded chars.toLowercase).map base32hexValue = (unpadded chars).map base32hexValue := by
  have sameEnd : (fun ch : UInt8 => toAsciiLowercase ch != 0x3D) = (· != 0x3D) :=
    funext fun ch => (base32hexValue_toAsciiLowercase ch).2
  have sameValue : base32hexValue ∘ toAsciiLowercase = base32hexValue :=
    funext fun ch => (base32hexValue_toAsciiLowercase ch).1
  rw [unpadded, Text.toLowercase, List.takeWhile_map, List.map_map, sameValue]
  exact congrArg (fun isDigit => (chars.takeWhile isDigit).map base32hexValue) sameEnd

/-- A text decodes to the octets that it encodes. -/
theorem base32hexDecode_of_encodes {octets : List UInt8} {chars : Text}
    (encodes : Encodes octets chars) : Numa.base32hexDecode chars = some octets := by
  obtain ⟨digits, charsEq, digitsLt, spells⟩ := exists_digits_encode octets
  have areDigits := map_base32hexValue_digits digitsLt
  have padded : ∀ count, unpadded (base32hexEncode octets ++ List.replicate count 0x3D) =
      base32hexEncode octets := by
    intro count
    rw [charsEq, unpadded_append areDigits]
    cases count <;> simp [unpadded, List.replicate_succ]
  have unpaddedEq : unpadded chars.toLowercase = base32hexEncode octets := by
    rcases encodes with plain | filled
    · rw [plain]
      simpa using padded 0
    · rw [filled]
      exact padded _
  refine base32hexDecode_of_spells ?_ spells
  rw [← map_base32hexValue_unpadded, unpaddedEq, charsEq]
  exact areDigits

/-- The first label that `read_qname` returns is shown without escapes. -/
theorem isPlainOctet_of_encodes {octets : List UInt8} {label : List UInt8}
    (encodes : Encodes octets label) :
    ∀ ch ∈ label.map toAsciiLowercase, isPlainOctet ch = true := by
  intro ch chMem
  rcases encodes with plain | filled
  · rw [Text.toLowercase] at plain
    rw [plain] at chMem
    exact isPlainOctet_of_mem_base32hexEncode chMem
  · rw [Text.toLowercase] at filled
    rw [filled] at chMem
    rcases List.mem_append.mp chMem with digit | pad
    · exact isPlainOctet_of_mem_base32hexEncode digit
    · rw [List.eq_of_mem_replicate pad]
      decide

theorem encodes_toLowercase {octets : List UInt8} {label : List UInt8}
    (encodes : Encodes octets label) : Encodes octets (label.map toAsciiLowercase) := by
  have same : Text.toLowercase (label.map toAsciiLowercase) = Text.toLowercase label := by
    simp [Text.toLowercase, toAsciiLowercase_toAsciiLowercase]
  rwa [Encodes, same]

/-- The hash in the first label of a name is found in the name that is read. -/
theorem nsec3OwnerHash_of_read {buffer after : BytePacketBuffer} {name : Text} {jumps : Nat}
    {label : List UInt8} {apex : List (List UInt8)} {octets : List UInt8}
    (ran : exec readQname buffer = (.ok name, after))
    (named : NameAt buffer.buf jumps buffer.pos (label.map toAsciiLowercase :: apex))
    (encodes : Encodes octets label) : nsec3OwnerHash name = some (some octets) := by
  obtain ⟨_, labels, -, read, -, rfl⟩ := nameAt_of_exec_readQname ran
  obtain ⟨rfl, -⟩ := read.unique named
  rw [nsec3OwnerHash, firstLabel_nameText (isPlainOctet_of_encodes encodes),
    (base32hexDecode_describes _).1, base32hexDecode_of_encodes (encodes_toLowercase encodes)]

theorem nothingLost_of_reaches {input : Text} {state : Decoder}
    (reaches : Loop.Reaches turn (start input) state) : NothingLost input state := by
  have decoding := (keeps_turn input).invariant_of_reaches (decoding_start input) reaches
  obtain ⟨chars, digits, inputEq, areDigits, regrouped⟩ := id decoding.hasRead
  have few := regrouped.count_lt
  have pending := regrouped.pending_lt
  have small : 2 ^ state.bitCount.toNat ≤ 2 ^ 7 := Nat.pow_le_pow_right (by omega) (by omega)
  refine ⟨decoding.hasRead, (keeps_turn input).isSome_of_reaches (decoding_start input) reaches,
    by omega, pending, ?_⟩
  rw [UInt64.toNat_shiftLeft, show (5 : UInt64).toNat % 64 = 5 from rfl, Nat.shiftLeft_eq]
  exact Nat.mod_eq_of_lt (by omega)

/-- Every encoding is decoded, also as the first label of a name that is read;
no bit is lost on the way, and only a character outside of the alphabet before
the padding is rejected. -/
theorem base32hexDecode_correct :
    (∀ octets chars, Encodes octets chars → base32hexDecode chars = some (some octets)) ∧
    (∀ (buffer after : BytePacketBuffer) (name : Text) (jumps : Nat) (label : List UInt8)
        (apex : List (List UInt8)) (octets : List UInt8),
      exec readQname buffer = (.ok name, after) →
      NameAt buffer.buf jumps buffer.pos (label.map toAsciiLowercase :: apex) →
      Encodes octets label → nsec3OwnerHash name = some (some octets)) ∧
    (∀ input state, Loop.Reaches turn (start input) state → NothingLost input state) ∧
    ∀ input, (∃ result, base32hexDecode input = some result) ∧
      (base32hexDecode input = some none ↔ ∃ ch ∈ unpadded input, ch ∉ alphabet) := by
  refine ⟨fun octets chars encodes => ?_, fun _ _ _ _ _ _ _ => nsec3OwnerHash_of_read,
    fun _ _ => nothingLost_of_reaches, fun input => ⟨⟨_, (base32hexDecode_describes input).1⟩, ?_⟩⟩
  · rw [(base32hexDecode_describes chars).1, base32hexDecode_of_encodes encodes]
  · rw [(base32hexDecode_describes input).1, Option.some.injEq, base32hexDecode_eq_none_iff]
    simp only [base32hexValue_eq_none_iff]

/-- The owner name of a hash in capitals, in a zone that a pointer leads to. -/
def hashedOwner : BytePacketBuffer :=
  { fromBytes ([1, 0x7A, 0, 10] ++ text "CPNMUOJ1E8" ++ [0xC0, 0]) with pos := 3 }

theorem base32hexDecode_correct_sample :
    base32hexDecode (text "CPNMUOJ1E8======") = some (some (text "foobar")) ∧
      nsec3OwnerHash (text "cpnmuoj1e8.z") = some (some (text "foobar")) ∧
      base32hexDecode (text "CPNMW") = some none := by
  obtain ⟨decodes, recovers, -, rejects⟩ := base32hexDecode_correct
  have ran : (exec readQname hashedOwner).1 = .ok (text "cpnmuoj1e8.z") := by decide +kernel
  have target : NameAt hashedOwner.buf 0 0 [[0x7A]] :=
    .label (by decide +kernel : hashedOwner.buf[0]? = some 1) (by decide) (by decide)
      (by decide +kernel) (.root (by decide +kernel))
  have named : NameAt hashedOwner.buf 1 hashedOwner.pos
      [(text "CPNMUOJ1E8").map toAsciiLowercase, [0x7A]] :=
    .label (by decide +kernel : hashedOwner.buf[3]? = some 10) (by decide) (by decide)
      (by decide +kernel)
      (.pointer (by decide +kernel : hashedOwner.buf[14]? = some 0xC0) (by decide)
        (by decide +kernel : hashedOwner.buf[15]? = some 0) target)
  refine ⟨decodes _ _ (by decide +kernel),
    recovers hashedOwner _ _ _ _ _ _ (exec_eq_of_fst ran) named (by decide +kernel), ?_⟩
  exact (rejects _).2.mpr ⟨0x57, by decide +kernel, by decide +kernel⟩

end Base32Hex

end Numa
