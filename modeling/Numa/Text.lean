import Mathlib.Data.List.Basic
import Mathlib.Data.List.DropRight
import Mathlib.Tactic.Common

/-!
# Name texts

The program keeps domain names as Rust strings in presentation form.  A text
is modelled by its octets, since every operation on names in the source works
on ASCII octets: splitting at dots, searching a dot, and comparing or folding
letter case.  The texts read from packets are ASCII, where `to_lowercase`
coincides with `to_ascii_lowercase`.
-/

namespace Numa

/-- The octets of a string of the source. -/
abbrev Text := List UInt8

/-- The octets of a literal. -/
def text (literal : String) : Text :=
  literal.toUTF8.data.toList

/-- The octet of `.`. -/
def dot : UInt8 := 0x2E

/-- The octet of `\`. -/
def backslash : UInt8 := 0x5C

/-- `u8::to_ascii_lowercase`. -/
def toAsciiLowercase (octet : UInt8) : UInt8 :=
  if 0x41 ≤ octet ∧ octet ≤ 0x5A then octet + 0x20 else octet

theorem toAsciiLowercase_toAsciiLowercase (octet : UInt8) :
    toAsciiLowercase (toAsciiLowercase octet) = toAsciiLowercase octet := by
  have table : ∀ index : Fin 256,
      toAsciiLowercase (toAsciiLowercase (.ofFin index)) = toAsciiLowercase (.ofFin index) := by
    decide +kernel
  exact table octet.toFin

/-- `u8::to_ascii_uppercase`. -/
def toAsciiUppercase (octet : UInt8) : UInt8 :=
  if 0x61 ≤ octet ∧ octet ≤ 0x7A then octet - 0x20 else octet

/-- `u8::is_ascii_digit`. -/
def isAsciiDigit (octet : UInt8) : Bool :=
  0x30 ≤ octet && octet ≤ 0x39

namespace Text

def toLowercase (name : Text) : Text :=
  name.map toAsciiLowercase

def eqIgnoreAsciiCase (first second : Text) : Bool :=
  first.toLowercase == second.toLowercase

/-- `trim_end_matches('.')`. -/
def trimEndDots (name : Text) : Text :=
  name.rdropWhile (· == dot)

/-- `name.split('.').filter(|l| !l.is_empty()).collect()`. -/
def labels (name : Text) : List Text :=
  (name.splitOn dot).filter fun label => !label.isEmpty

/-- `labels.join(".")`. -/
def join (labels : List Text) : Text :=
  [dot].intercalate labels

/-- `format!("*.{}", name)`. -/
def wildcard (name : Text) : Text :=
  0x2A :: dot :: name

theorem eqIgnoreAsciiCase_iff {first second : Text} :
    first.eqIgnoreAsciiCase second = true ↔
      first.toLowercase = second.toLowercase := by
  simp [eqIgnoreAsciiCase]

@[simp]
theorem eqIgnoreAsciiCase_refl (name : Text) :
    name.eqIgnoreAsciiCase name = true := by
  simp [eqIgnoreAsciiCase]

@[simp]
theorem join_nil : join [] = [] :=
  rfl

@[simp]
theorem join_singleton (label : Text) : join [label] = label := by
  simp [join, List.intercalate]

theorem join_cons_cons (first second : Text) (rest : List Text) :
    join (first :: second :: rest) = first ++ dot :: join (second :: rest) := by
  simp [join, List.intercalate, List.intersperse]

end Text

/-- The name one label up, `.` for a single label and for the root itself. -/
def parentZone (zone : Text) : Text :=
  if zone = [dot] ∨ zone = [] then [dot]
  else
    match zone.dropWhile (· != dot) with
    | [] => [dot]
    | _ :: parent => if parent = [] then [dot] else parent

end Numa
