import Mathlib.Algebra.GroupWithZero.Nat
import Mathlib.Algebra.BigOperators.Group.List.Basic
import Mathlib.Algebra.Order.BigOperators.Group.List
import Mathlib.Data.List.Flatten
import Numa.AddressText

/-!
# Service lists as text

A peer announces its services as `name:port` entries between commas.  This file
reads such a text back, and shows that no shorter text reads as the same list.
-/

namespace Numa

/-- `format!("{}:{}", name, port)`. -/
def serviceText (service : String × UInt16) : String :=
  service.1 ++ ":" ++ toString service.2.toNat

/-- The services of an announcement, joined by commas. -/
def servicesText (services : List (String × UInt16)) : String :=
  ",".intercalate (services.map serviceText)

/-- The part of a text behind the first colon is the port. -/
def readService (entry : List Char) : Option (String × UInt16) :=
  match entry.dropWhile (· ≠ ':') with
  | [] => none
  | _ :: port =>
    (parseU16 (text (String.ofList port))).map fun port =>
      (String.ofList (entry.takeWhile (· ≠ ':')), port)

/-- The entries between commas that are a name and a port. -/
def readServices (val : String) : List (String × UInt16) :=
  (val.toList.splitOn ',').filterMap readService

/-! ## The octets of a text -/

theorem text_ofList (chars : List Char) :
    text (String.ofList chars) = chars.flatMap String.utf8EncodeChar := by
  rw [text, String.toUTF8_eq_toByteArray, String.toByteArray_ofList, List.utf8Encode,
    List.data_toByteArray]

theorem text_eq_flatMap (val : String) : text val = val.toList.flatMap String.utf8EncodeChar := by
  rw [← text_ofList, String.ofList_toList]

theorem isDigit_of_mem_toDigits {char : Char} {number : Nat}
    (charMem : char ∈ Nat.toDigits 10 number) : char.isDigit = true :=
  Nat.isDigit_of_mem_toDigits (by decide) (by decide) charMem

theorem not_mem_toDigits {char : Char} (notDigit : char.isDigit = false) (number : Nat) :
    char ∉ Nat.toDigits 10 number := by
  intro charMem
  rw [isDigit_of_mem_toDigits charMem] at notDigit
  cases notDigit

/-- A digit takes one octet, which is read as its value. -/
theorem octet_of_isDigit {char : Char} (isDigit : char.isDigit = true) :
    String.utf8EncodeChar char = [char.toNat.toUInt8] ∧
      toDigit 10 char.toNat.toUInt8 = some (char.toNat - '0'.toNat) ∧
      char.toNat.toUInt8 ≠ 0x2B := by
  have bounds := Char.isDigit_iff_toNat.mp isDigit
  have low : '0'.toNat = 48 := rfl
  have high : '9'.toNat = 57 := rfl
  have small : char.toNat.toUInt8.toNat = char.toNat :=
    Nat.mod_eq_of_lt (by omega : char.toNat < 256)
  refine ⟨?_, ?_, ?_⟩
  · have ascii : char.val ≤ 127 := by
      rw [UInt32.le_iff_toNat_le]
      exact bounds.2.trans (by decide)
    rw [String.utf8EncodeChar_eq_singleton (Char.utf8Size_eq_one_iff.mpr ascii)]
    rfl
  · have inRange : 0x30 ≤ char.toNat.toUInt8 ∧ char.toNat.toUInt8 ≤ 0x39 := by
      rw [UInt8.le_iff_toNat_le, UInt8.le_iff_toNat_le, small]
      exact ⟨bounds.1, bounds.2⟩
    simp only [toDigit, if_pos inRange, small]
    rw [if_pos (by omega)]
    rfl
  · intro sign
    have same := congrArg UInt8.toNat sign
    rw [small] at same
    have signValue : (0x2B : UInt8).toNat = 43 := rfl
    omega

theorem text_digits {digits : List Char} (areDigits : ∀ char ∈ digits, char.isDigit = true) :
    text (String.ofList digits) = digits.map fun char => char.toNat.toUInt8 := by
  rw [text_ofList, ← List.flatMap_singleton' (l := digits.map _), List.flatMap_map]
  apply List.flatMap_congr
  intro char charMem
  exact (octet_of_isDigit (areDigits char charMem)).1

/-! ## What is written reads back -/

theorem digitsValue_toDigits (number : Nat) :
    digitsValue 10 ((Nat.toDigits 10 number).map fun char => char.toNat - '0'.toNat) = number := by
  have value : Nat.ofDigitChars 10 (Nat.toDigits 10 number) 0 = number :=
    Nat.ofDigitChars_ten_toDigits
  conv_rhs => rw [← value]
  rw [digitsValue, Nat.ofDigitChars_eq_foldl, List.foldl_map]
  simp only [Nat.mul_comm]

theorem mapM_toDigit {digits : List Char} (areDigits : ∀ char ∈ digits, char.isDigit = true) :
    (digits.map fun char => char.toNat.toUInt8).mapM (toDigit 10) =
      some (digits.map fun char => char.toNat - '0'.toNat) := by
  induction digits with
  | nil => rfl
  | cons digit digits ih =>
      have first := (octet_of_isDigit (areDigits digit (by simp))).2.1
      have rest := ih fun char charMem => areDigits char (by simp [charMem])
      rw [List.map_cons, List.mapM_cons, first, rest]
      rfl

theorem parseU16_toDigits (port : UInt16) :
    parseU16 (text (String.ofList (Nat.toDigits 10 port.toNat))) = some port := by
  have areDigits : ∀ char ∈ Nat.toDigits 10 port.toNat, char.isDigit = true :=
    fun _ => isDigit_of_mem_toDigits
  have unsigned : ((Nat.toDigits 10 port.toNat).map fun char => char.toNat.toUInt8).head? ≠
      some 0x2B := by
    intro sign
    obtain ⟨char, charMem, isSign⟩ := List.mem_map.mp (List.mem_of_head? sign)
    exact (octet_of_isDigit (areDigits char charMem)).2.2 isSign
  have small := port.toNat_lt
  rw [text_digits areDigits, parseU16]
  simp only [if_neg unsigned, mapM_toDigit areDigits, Option.bind_eq_bind, Option.bind_some]
  rw [digitsValue_toDigits, if_neg]
  · exact congrArg some (UInt16.ofNat_toNat)
  · simp [Nat.toDigits_ne_nil]
    omega

theorem toList_toString (port : UInt16) :
    (toString port.toNat).toList = Nat.toDigits 10 port.toNat := by
  rw [Nat.toString_eq_ofList_toDigits, String.toList_ofList]

theorem toList_serviceText (service : String × UInt16) :
    (serviceText service).toList =
      service.1.toList ++ ':' :: Nat.toDigits 10 service.2.toNat := by
  simp [serviceText, toList_toString, -Nat.toString_eq_repr]

theorem readService_serviceText {service : String × UInt16} (noColon : ':' ∉ service.1.toList) :
    readService (serviceText service).toList = some service := by
  have kept : ∀ char ∈ service.1.toList, decide (char ≠ ':') = true := by
    intro char charMem
    rw [decide_eq_true_eq]
    rintro rfl
    exact noColon charMem
  simp only [readService, toList_serviceText]
  rw [List.dropWhile_append_of_pos kept, List.takeWhile_append_of_pos kept]
  simp [parseU16_toDigits]

/-- A list of services reads back from its text. -/
theorem readServices_servicesText {services : List (String × UInt16)} (nonempty : services ≠ [])
    (plain : ∀ service ∈ services, ',' ∉ service.1.toList ∧ ':' ∉ service.1.toList) :
    readServices (servicesText services) = services := by
  have entries : (servicesText services).toList.splitOn ',' =
      (services.map serviceText).map String.toList := by
    rw [servicesText, String.toList_intercalate]
    apply List.splitOn_intercalate
    · intro entry entryMem comma
      obtain ⟨_, serviceMem, rfl⟩ := List.mem_map.mp entryMem
      obtain ⟨service, isService, rfl⟩ := List.mem_map.mp serviceMem
      rw [toList_serviceText, List.mem_append, List.mem_cons] at comma
      rcases comma with inName | isColon | inPort
      · exact (plain service isService).1 inName
      · exact absurd isColon (by decide)
      · exact not_mem_toDigits rfl _ inPort
    · simpa using nonempty
  rw [readServices, entries, List.map_map, List.filterMap_map]
  conv_rhs => rw [← List.filterMap_some (l := services)]
  apply List.filterMap_congr
  intro service serviceMem
  exact readService_serviceText (plain service serviceMem).2

/-! ## No shorter text reads as the same list -/

/-- The number of octets of a text. -/
def octetCount (chars : List Char) : Nat :=
  (text (String.ofList chars)).length

@[simp]
theorem octetCount_nil : octetCount [] = 0 :=
  rfl

@[simp]
theorem octetCount_cons (char : Char) (chars : List Char) :
    octetCount (char :: chars) = char.utf8Size + octetCount chars := by
  simp [octetCount, text_ofList, -String.ofList_cons]

@[simp]
theorem octetCount_append (first second : List Char) :
    octetCount (first ++ second) = octetCount first + octetCount second := by
  simp [octetCount, text_ofList, -String.ofList_append]

theorem length_text (val : String) : (text val).length = octetCount val.toList := by
  rw [octetCount, String.ofList_toList]

theorem octetCount_toDigits (number : Nat) :
    octetCount (Nat.toDigits 10 number) = (Nat.toDigits 10 number).length := by
  rw [octetCount, text_digits fun _ => isDigit_of_mem_toDigits, List.length_map]

theorem digitsValue_lt {digits : List Nat} (areDigits : ∀ digit ∈ digits, digit < 10) :
    digitsValue 10 digits < 10 ^ digits.length := by
  induction digits using List.reverseRecOn with
  | nil => simp [digitsValue]
  | append_singleton digits digit ih =>
      have earlier := ih fun other otherMem => areDigits other (by simp [otherMem])
      have last := areDigits digit (by simp)
      rw [digitsValue, List.foldl_append, List.length_append, List.length_singleton, pow_succ]
      simp only [List.foldl_cons, List.foldl_nil]
      rw [← digitsValue]
      omega

theorem digits_of_mapM {octets : Text} {digits : List Nat}
    (read : octets.mapM (toDigit 10) = some digits) :
    digits.length = octets.length ∧ ∀ digit ∈ digits, digit < 10 := by
  induction octets generalizing digits with
  | nil =>
      cases read
      simp
  | cons octet octets ih =>
      rw [List.mapM_cons] at read
      obtain ⟨digit, readFirst, readRest⟩ := Option.bind_eq_some_iff.mp read
      obtain ⟨rest, readLater, isDigits⟩ := Option.bind_eq_some_iff.mp readRest
      obtain ⟨sameLength, areDigits⟩ := ih readLater
      cases isDigits
      have small : digit < 10 := by
        simp only [toDigit, Option.ite_none_right_eq_some] at readFirst
        exact Option.some.inj readFirst.2 ▸ readFirst.1
      exact ⟨by simp [sameLength], by simpa [small] using areDigits⟩

/-- A number is not written shorter than without leading zeros. -/
theorem length_toDigits_le_of_parseU16 {octets : Text} {port : UInt16}
    (parsed : parseU16 octets = some port) :
    (Nat.toDigits 10 port.toNat).length ≤ octets.length := by
  obtain ⟨digits, read, parsedDigits⟩ := Option.bind_eq_some_iff.mp parsed
  dsimp only at parsedDigits
  split at parsedDigits
  · cases parsedDigits
  · rename_i bounded
    cases parsedDigits
    rw [not_or, not_lt] at bounded
    obtain ⟨nonempty, small⟩ := bounded
    obtain ⟨sameLength, areDigits⟩ := digits_of_mapM read
    have unsigned : (if octets.head? = some 0x2B then octets.tail else octets).length ≤
        octets.length := by
      split
      · simp
      · exact le_refl _
    have isNumber : (digitsValue 10 digits).toUInt16.toNat = digitsValue 10 digits :=
      UInt16.toNat_ofNat_of_lt' (Nat.lt_succ_of_le small)
    refine le_trans ?_ (sameLength.trans_le unsigned)
    rw [isNumber, Nat.length_toDigits_le_iff (by decide) (List.length_pos_of_ne_nil nonempty)]
    exact digitsValue_lt areDigits

theorem octetCount_le_of_readService {entry : List Char} {service : String × UInt16}
    (isService : readService entry = some service) :
    octetCount (serviceText service).toList ≤ octetCount entry := by
  unfold readService at isService
  split at isService
  · cases isService
  · rename_i colon port split
    obtain ⟨number, parsed, rfl⟩ := Option.map_eq_some_iff.mp isService
    have isColon : colon = ':' := by
      have stopped := List.head?_dropWhile_not (· ≠ ':') entry
      rw [split] at stopped
      simpa using stopped
    conv_rhs => rw [← List.takeWhile_append_dropWhile (p := (· ≠ ':')) (l := entry)]
    have short := length_toDigits_le_of_parseU16 parsed
    rw [← octetCount] at short
    rw [toList_serviceText, split, isColon, String.toList_ofList, octetCount_append,
      octetCount_append, octetCount_cons, octetCount_cons, octetCount_toDigits]
    dsimp only
    omega

theorem octetCount_intercalate (entries : List (List Char)) :
    octetCount ([','].intercalate entries) =
      (entries.map octetCount).sum + (entries.length - 1) := by
  induction entries with
  | nil => rfl
  | cons entry entries ih =>
      cases entries with
      | nil => simp [List.intercalate]
      | cons next entries =>
          have comma : ','.utf8Size = 1 := rfl
          have split : [','].intercalate (entry :: next :: entries) =
              entry ++ ',' :: [','].intercalate (next :: entries) := by
            simp [List.intercalate]
          rw [split, octetCount_append, octetCount_cons, ih, comma]
          simp only [List.map_cons, List.sum_cons, List.length_cons]
          omega

/-- The entries of a list that is read are as long as the list is written. -/
theorem sum_octetCount_le (entries : List (List Char)) :
    ((entries.filterMap readService).map fun service =>
        octetCount (serviceText service).toList).sum ≤ (entries.map octetCount).sum := by
  induction entries with
  | nil => exact le_refl 0
  | cons entry entries ih =>
      cases isService : readService entry with
      | none =>
          rw [List.filterMap_cons_none isService, List.map_cons, List.sum_cons]
          omega
      | some service =>
          have longer := octetCount_le_of_readService isService
          rw [List.filterMap_cons_some isService, List.map_cons, List.sum_cons, List.map_cons,
            List.sum_cons]
          omega

/-- A text that reads as a list of services is not shorter than the one that is
written for it. -/
theorem length_servicesText_le (val : String) :
    (text (servicesText (readServices val))).length ≤ (text val).length := by
  have fewer : (readServices val).length ≤ (val.toList.splitOn ',').length :=
    List.length_filterMap_le _ _
  have written : octetCount (servicesText (readServices val)).toList =
      ((readServices val).map fun service => octetCount (serviceText service).toList).sum +
        ((readServices val).length - 1) := by
    rw [servicesText, String.toList_intercalate]
    exact (octetCount_intercalate _).trans (by simp [Function.comp_def])
  have read : octetCount val.toList =
      ((val.toList.splitOn ',').map octetCount).sum + ((val.toList.splitOn ',').length - 1) := by
    rw [← octetCount_intercalate, List.intercalate_splitOn]
  have entries := sum_octetCount_le (val.toList.splitOn ',')
  rw [length_text, length_text, written, read]
  rw [← readServices] at entries
  omega

end Numa
