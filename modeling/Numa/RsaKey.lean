import Numa.Der
import Numa.SignedData
import Numa.SvcbIndices

/-!
# RSA keys

`rsa_dnskey_to_der` of `dnssec.rs` takes the key of a DNSKEY record apart, a
length of the exponent in one octet or behind a zero in two, and puts it
together as a DER sequence of the modulus and the exponent.  Here the indices
that it takes are followed, so `none` is the panic of one out of bounds.
-/

namespace Numa

open Svcb (slice slice_of_le)

namespace RsaKey

/-- `asn1_integer`. -/
def asn1Integer (bytes : List UInt8) : Option (List UInt8) := do
  let stripped ←
    match bytes.findIdx? (· != 0) with
    | some pos => slice bytes pos bytes.length
    | none => some [0]
  let needsPad := (← stripped[0]?) &&& 0x80 != 0
  let len := stripped.length + if needsPad then 1 else 0
  some (0x02 :: (asn1Length len ++ (if needsPad then [0x00] else []) ++ stripped))

/-- The length of the exponent, and where it begins. -/
def exponentPlace (publicKey : List UInt8) (first : UInt8) : Option (Nat × Nat) :=
  if first = 0 then do
    let high ← publicKey[1]?
    let low ← publicKey[2]?
    some ((high.toUInt16 <<< 8 ||| low.toUInt16).toNat, 3)
  else some (first.toNat, 1)

/-- The key as DER, with the exponent at its place. -/
def derFrom (publicKey : List UInt8) (expLen expStart : Nat) : Option (Option (List UInt8)) :=
  if publicKey.length < expStart + expLen then some none
  else do
    let exponent ← slice publicKey expStart (expStart + expLen)
    let modulus ← slice publicKey (expStart + expLen) publicKey.length
    if modulus = [] then some none
    else do
      let modDer ← asn1Integer modulus
      let expDer ← asn1Integer exponent
      let seqContentLen := modDer.length + expDer.length
      some (some (0x30 :: (asn1Length seqContentLen ++ (modDer ++ expDer))))

/-- `rsa_dnskey_to_der`. -/
def rsaDnskeyToDer (publicKey : List UInt8) : Option (Option (List UInt8)) := do
  if publicKey = [] then some none
  else
    let first ← publicKey[0]?
    if first = 0 ∧ publicKey.length < 3 then some none
    else
      let (expLen, expStart) ← exponentPlace publicKey first
      derFrom publicKey expLen expStart

/-! ## Lengths and integers -/

theorem decodeLength_asn1Length {len : Nat} (small : len < 2 ^ 16) (rest : List UInt8) :
    Der.decodeLength (asn1Length len ++ rest) = some (len, rest) := by
  unfold asn1Length
  split
  · rename_i short
    exact Der.decodeLength_short short rest
  · rename_i notShort
    split
    · rename_i oneOctet
      have valueEq : Der.value [len.toUInt8] = len := by
        rw [Der.value_singleton]
        simp
        omega
      have decoded := Der.decodeLength_long (by simp : [len.toUInt8].length < 127)
        (by omega) (by rw [valueEq, List.length_singleton]; omega) rest
      rwa [valueEq] at decoded
    · rename_i large
      have high : (len / 256).toUInt8.toNat = len / 256 := by
        simp
        omega
      have low : len.toUInt8.toNat = len % 256 := by
        simp
      have valueEq : Der.value [(len / 256).toUInt8, len.toUInt8] = len := by
        rw [Der.value_cons, Der.value_singleton, high, low]
        simp
        omega
      have decoded := Der.decodeLength_long
        (by simp : [(len / 256).toUInt8, len.toUInt8].length < 127) (by omega)
        (by rw [valueEq]; simp; omega) rest
      rwa [valueEq] at decoded

theorem signBit_iff {octet : UInt8} : octet &&& 0x80 = 0 ↔ octet < 0x80 := by
  have table : ∀ index : Fin 256, UInt8.ofFin index &&& 0x80 = 0 ↔ UInt8.ofFin index < 0x80 := by
    decide +kernel
  exact table octet.toFin

/-- The octets of a number from the first one that is not zero on. -/
theorem strip_eq (bytes : List UInt8) :
    (∃ first rest, first ≠ 0 ∧ bytes.dropWhile (· == 0) = first :: rest ∧
      ∃ pos, bytes.findIdx? (· != 0) = some pos ∧ pos ≤ bytes.length ∧
        bytes.drop pos = first :: rest) ∨
    bytes.dropWhile (· == 0) = [] ∧ bytes.findIdx? (· != 0) = none := by
  have dropped : bytes.dropWhile (· == 0) = bytes.drop (bytes.findIdx (· != 0)) :=
    List.dropWhile_eq_drop_findIdx_not
  cases found : bytes.findIdx? (· != 0) with
  | none =>
      refine .inr ⟨List.dropWhile_eq_nil_iff.mpr fun octet octetMem => ?_, rfl⟩
      simpa using List.findIdx?_eq_none_iff.mp found octet octetMem
  | some pos =>
      obtain ⟨inside, posEq⟩ := List.findIdx?_eq_some_iff_findIdx_eq.mp found
      have notZero : (bytes[pos] != 0) = true := by
        subst posEq
        exact List.findIdx_getElem (w := inside)
      refine .inl ⟨bytes[pos], bytes.drop (pos + 1), by simpa using notZero, ?_, pos, rfl, by omega,
        List.drop_eq_getElem_cons inside⟩
      rw [dropped, posEq, List.drop_eq_getElem_cons inside]

/-- An integer has the value of its octets. -/
theorem asn1Integer_eq (bytes : List UInt8) :
    ∃ contents, asn1Integer bytes = some (0x02 :: (asn1Length contents.length ++ contents)) ∧
      Der.decodeNatural contents = some (Der.value bytes) ∧
      contents.length ≤ bytes.length + 1 := by
  rcases strip_eq bytes with
    ⟨first, rest, notZero, stripped, pos, found, inside, dropped⟩ | ⟨allZero, found⟩
  · have sameValue : Der.value bytes = Der.value (first :: rest) := by
      rw [← Der.value_dropWhile, stripped]
    have shorter : (first :: rest).length ≤ bytes.length := by
      rw [← dropped, List.length_drop]
      omega
    have sliced : slice bytes pos bytes.length = some (first :: rest) := by
      rw [slice_of_le inside le_rfl, dropped, ← dropped, ← List.length_drop, List.take_length]
    by_cases small : first < 0x80
    · refine ⟨first :: rest, ?_, ?_, by omega⟩
      · simp [asn1Integer, found, sliced, signBit_iff.mpr small]
      · rw [sameValue, Der.decodeNatural_of_small small fun zero => absurd zero notZero]
    · have signed : first &&& 0x80 ≠ 0 := mt signBit_iff.mp small
      refine ⟨0 :: first :: rest, ?_, ?_, by simpa using shorter⟩
      · simp [asn1Integer, found, sliced, signed]
      · rw [sameValue, Der.decodeNatural_zero_cons (UInt8.not_lt.mp small)]
  · have zeroValue : Der.value bytes = 0 := by
      rw [← Der.value_dropWhile, allZero]
      rfl
    refine ⟨[0], ?_, ?_, by simp⟩
    · simp [asn1Integer, found]
    · rw [zeroValue]
      rfl

/-- A short integer decodes. -/
theorem decodeInteger_asn1Integer {bytes : List UInt8} (short : bytes.length < 2 ^ 16 - 1)
    {integer : List UInt8} (encoded : asn1Integer bytes = some integer) (rest : List UInt8) :
    Der.decodeInteger (integer ++ rest) = some (Der.value bytes, rest) := by
  obtain ⟨contents, isEncoded, isNumber, length⟩ := asn1Integer_eq bytes
  obtain rfl := Option.some.inj (encoded.symm.trans isEncoded)
  exact Der.decodeInteger_of_length (decodeLength_asn1Length (by omega) _) isNumber

theorem length_asn1Length_le (len : Nat) : (asn1Length len).length ≤ 3 := by
  unfold asn1Length
  split
  · simp
  · split <;> simp

theorem exists_asn1Integer (bytes : List UInt8) :
    ∃ integer, asn1Integer bytes = some integer ∧ integer.length ≤ bytes.length + 5 := by
  obtain ⟨contents, isEncoded, -, length⟩ := asn1Integer_eq bytes
  refine ⟨_, isEncoded, ?_⟩
  have lengths := length_asn1Length_le contents.length
  simp only [List.length_cons, List.length_append]
  omega

/-! ## Keys -/

/-- A key with the octets of its exponent and of its modulus. -/
inductive IsFramed : List UInt8 → List UInt8 → List UInt8 → Prop
  | oneOctet {first : UInt8} {exponent modulus : List UInt8} (notZero : first ≠ 0)
      (length : exponent.length = first.toNat) (nonempty : modulus ≠ []) :
      IsFramed (first :: (exponent ++ modulus)) exponent modulus
  | twoOctets {high low : UInt8} {exponent modulus : List UInt8}
      (length : exponent.length = high.toNat * 2 ^ 8 + low.toNat) (nonempty : modulus ≠ []) :
      IsFramed (0 :: high :: low :: (exponent ++ modulus)) exponent modulus

theorem derFrom_of_short {header rest : List UInt8} {expLen : Nat} (short : rest.length ≤ expLen) :
    derFrom (header ++ rest) expLen header.length = some none := by
  unfold derFrom
  split
  · rfl
  · rename_i inside
    rw [List.length_append] at inside
    have whole : (header ++ rest).length = header.length + expLen := by
      rw [List.length_append]
      omega
    rw [slice_of_le (Nat.le_add_right _ _) whole.ge, slice_of_le whole.ge le_rfl, whole,
      Nat.sub_self]
    rfl

/-- The DER of a key decodes to its modulus and its exponent. -/
theorem decodePair_of_derFrom {header exponent modulus : List UInt8} (nonempty : modulus ≠ [])
    (short : exponent.length + modulus.length < 2 ^ 15) :
    ∃ octets, derFrom (header ++ (exponent ++ modulus)) exponent.length header.length =
        some (some octets) ∧
      Der.decodePair octets = some (Der.value modulus, Der.value exponent) := by
  obtain ⟨modDer, modEncoded, modLength⟩ := exists_asn1Integer modulus
  obtain ⟨expDer, expEncoded, expLength⟩ := exists_asn1Integer exponent
  have lengthEq : (header ++ (exponent ++ modulus)).length =
      header.length + exponent.length + modulus.length := by
    simp only [List.length_append]
    omega
  have isExponent : slice (header ++ (exponent ++ modulus)) header.length
      (header.length + exponent.length) = some exponent := by
    rw [slice_of_le (Nat.le_add_right _ _) (by omega), List.drop_left, Nat.add_sub_cancel_left,
      List.take_left]
  have isModulus : slice (header ++ (exponent ++ modulus)) (header.length + exponent.length)
      (header ++ (exponent ++ modulus)).length = some modulus := by
    rw [slice_of_le (by omega) le_rfl, ← List.drop_drop, List.drop_left, List.drop_left, lengthEq,
      Nat.add_sub_cancel_left, List.take_length]
  refine ⟨0x30 :: (asn1Length (modDer.length + expDer.length) ++ (modDer ++ expDer)), ?_, ?_⟩
  · rw [derFrom, if_neg (by omega), isExponent, isModulus]
    simp [nonempty, modEncoded, expEncoded]
  · apply Der.decodePair_of_length
    · rw [decodeLength_asn1Length (by omega), List.length_append]
    · exact decodeInteger_asn1Integer (by omega) modEncoded expDer
    · have decoded := decodeInteger_asn1Integer (by omega) expEncoded []
      rwa [List.append_nil] at decoded

theorem rsaDnskeyToDer_oneOctet {first : UInt8} (notZero : first ≠ 0) (rest : List UInt8) :
    rsaDnskeyToDer (first :: rest) = derFrom ([first] ++ rest) first.toNat [first].length := by
  simp [rsaDnskeyToDer, exponentPlace, notZero]

theorem rsaDnskeyToDer_twoOctets (high low : UInt8) (rest : List UInt8) :
    rsaDnskeyToDer (0 :: high :: low :: rest) =
      derFrom ([0, high, low] ++ rest) (high.toNat * 2 ^ 8 + low.toNat) [0, high, low].length := by
  rw [← toNat_join16]
  simp [rsaDnskeyToDer, exponentPlace]

/-- What is behind the length is an exponent and a modulus, unless it is too short. -/
theorem exists_parts {rest : List UInt8} {expLen : Nat} (long : expLen < rest.length) :
    ∃ exponent modulus, rest = exponent ++ modulus ∧ exponent.length = expLen ∧ modulus ≠ [] := by
  refine ⟨rest.take expLen, rest.drop expLen, (List.take_append_drop _ _).symm, ?_, ?_⟩
  · rw [List.length_take]
    omega
  · rw [Ne, List.drop_eq_nil_iff]
    omega

/-- Other octets are no key. -/
theorem rsaDnskeyToDer_of_not_framed {publicKey : List UInt8}
    (unframed : ∀ exponent modulus, ¬ IsFramed publicKey exponent modulus) :
    rsaDnskeyToDer publicKey = some none := by
  cases publicKey with
  | nil => rfl
  | cons first rest =>
      by_cases zero : first = 0
      · subst zero
        rcases rest with _ | ⟨high, _ | ⟨low, rest⟩⟩
        · rfl
        · rfl
        · rw [rsaDnskeyToDer_twoOctets]
          apply derFrom_of_short
          by_contra long
          obtain ⟨exponent, modulus, rfl, length, nonempty⟩ := exists_parts (not_le.mp long)
          exact unframed exponent modulus (.twoOctets length nonempty)
      · rw [rsaDnskeyToDer_oneOctet zero]
        apply derFrom_of_short
        by_contra long
        obtain ⟨exponent, modulus, rfl, length, nonempty⟩ := exists_parts (not_le.mp long)
        exact unframed exponent modulus (.oneOctet zero length nonempty)

/-- A key of the two forms becomes a DER that decodes to its numbers. -/
theorem IsFramed.exists_der {publicKey exponent modulus : List UInt8}
    (framed : IsFramed publicKey exponent modulus) (short : publicKey.length < 2 ^ 15) :
    ∃ octets, rsaDnskeyToDer publicKey = some (some octets) ∧
      Der.decodePair octets = some (Der.value modulus, Der.value exponent) := by
  cases framed with
  | @oneOctet first exponent modulus notZero length nonempty =>
      rw [rsaDnskeyToDer_oneOctet notZero, ← length]
      simp only [List.length_cons, List.length_append] at short
      exact decodePair_of_derFrom nonempty (by omega)
  | @twoOctets high low exponent modulus length nonempty =>
      rw [rsaDnskeyToDer_twoOctets, ← length]
      simp only [List.length_cons, List.length_append] at short
      exact decodePair_of_derFrom nonempty (by omega)

/-! ## Without indices -/

theorem asn1Integer_eq_some (bytes : List UInt8) :
    asn1Integer bytes = some (Numa.asn1Integer bytes) := by
  rcases strip_eq bytes with
    ⟨first, rest, -, stripped, pos, found, inside, dropped⟩ | ⟨allZero, found⟩
  · have sliced : slice bytes pos bytes.length = some (first :: rest) := by
      rw [slice_of_le inside le_rfl, dropped, ← dropped, ← List.length_drop, List.take_length]
    by_cases small : first < 0x80
    · simp [asn1Integer, Numa.asn1Integer, found, sliced, stripped, signBit_iff.mpr small,
        UInt8.not_le.mpr small]
    · have signed : first &&& 0x80 ≠ 0 := mt signBit_iff.mp small
      simp [asn1Integer, Numa.asn1Integer, found, sliced, stripped, signed, UInt8.not_lt.mp small]
  · simp [asn1Integer, Numa.asn1Integer, found, allZero]

theorem rsaDnskeyToDer_eq_some (publicKey : List UInt8) :
    rsaDnskeyToDer publicKey = some (Numa.rsaDnskeyToDer publicKey) := by
  have der : ∀ expLen expStart, Numa.rsaExponent publicKey = some (expLen, expStart) →
      derFrom publicKey expLen expStart = some (Numa.rsaDnskeyToDer publicKey) := by
    intro expLen expStart place
    rw [derFrom, Numa.rsaDnskeyToDer, place]
    dsimp only
    split
    · rfl
    · rename_i inside
      rw [slice_of_le (Nat.le_add_right _ _) (not_lt.mp inside),
        slice_of_le (not_lt.mp inside) le_rfl, ← List.length_drop, List.take_length,
        Nat.add_sub_cancel_left]
      by_cases empty : publicKey.drop (expStart + expLen) = []
      · simp [empty]
      · simp [empty, asn1Integer_eq_some]
  cases publicKey with
  | nil => rfl
  | cons first rest =>
      by_cases zero : first = 0
      · subst zero
        rcases rest with _ | ⟨high, _ | ⟨low, rest⟩⟩
        · rfl
        · rfl
        · rw [rsaDnskeyToDer_twoOctets]
          refine der _ _ ?_
          simp [Numa.rsaExponent]
      · rw [rsaDnskeyToDer_oneOctet zero]
        refine der _ _ ?_
        simp [Numa.rsaExponent, zero]

/-- No index is out of bounds: a key is converted to a DER of its numbers, and
other octets are rejected. -/
theorem rsaDnskeyToDer_correct {publicKey : List UInt8} (short : publicKey.length ≤ 4096) :
    rsaDnskeyToDer publicKey = some (Numa.rsaDnskeyToDer publicKey) ∧
    (∀ exponent modulus, IsFramed publicKey exponent modulus →
      ∃ octets, Numa.rsaDnskeyToDer publicKey = some octets ∧
        Der.decodePair octets = some (Der.value modulus, Der.value exponent)) ∧
    ((∀ exponent modulus, ¬ IsFramed publicKey exponent modulus) →
      Numa.rsaDnskeyToDer publicKey = none) := by
  have same := rsaDnskeyToDer_eq_some publicKey
  refine ⟨same, fun exponent modulus framed => ?_, fun unframed => ?_⟩
  · obtain ⟨octets, converted, decoded⟩ := framed.exists_der (by omega)
    exact ⟨octets, Option.some.inj (same.symm.trans converted), decoded⟩
  · exact Option.some.inj (same.symm.trans (rsaDnskeyToDer_of_not_framed unframed))

/-- The exponent 65537 with a modulus whose first octet has its sign bit set. -/
theorem rsaDnskeyToDer_correct_sample :
    ∃ octets, Numa.rsaDnskeyToDer [3, 1, 0, 1, 0xC0, 0x01] = some octets ∧
      Der.decodePair octets = some (0xC001, 65537) := by
  have framed : IsFramed (3 :: ([1, 0, 1] ++ [0xC0, 0x01])) [1, 0, 1] [0xC0, 0x01] :=
    .oneOctet (by decide) rfl (by decide)
  exact (rsaDnskeyToDer_correct (by decide)).2.1 _ _ framed

end RsaKey

end Numa
