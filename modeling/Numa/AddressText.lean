import Mathlib.Data.Vector.Basic
import Numa.Record

/-!
# Numbers and addresses in texts

`str::parse` for the types that the stores read from texts: the address parser
of the standard library with its groups and separators, and `u16`.
-/

namespace Numa

/-- `char::to_digit`. -/
def toDigit (radix : Nat) (octet : UInt8) : Option Nat :=
  let value :=
    if 0x30 ≤ octet ∧ octet ≤ 0x39 then octet.toNat - 0x30
    else if 0x61 ≤ octet ∧ octet ≤ 0x7A then octet.toNat - 0x61 + 10
    else if 0x41 ≤ octet ∧ octet ≤ 0x5A then octet.toNat - 0x41 + 10
    else radix
  if value < radix then some value else none

/-- The value of digits. -/
def digitsValue (radix : Nat) (digits : List Nat) : Nat :=
  digits.foldl (fun value digit => value * radix + digit) 0

/-- `u16::from_str`, which takes a plus sign. -/
def parseU16 (octets : Text) : Option UInt16 := do
  let digits := if octets.head? = some 0x2B then octets.tail else octets
  let digits ← digits.mapM (toDigit 10)
  let value := digitsValue 10 digits
  if digits = [] ∨ 0xFFFF < value then none else some value.toUInt16

namespace AddressParser

/-- `read_number`: all digits that stand here, if there are neither none nor
too many of them. -/
def readNumber (radix maxDigits bound : Nat) (zeroPrefix : Bool) (octets : Text) :
    Option (Nat × Text) :=
  let isDigit := fun octet => (toDigit radix octet).isSome
  let digits := octets.takeWhile isDigit
  let value := digitsValue radix (digits.filterMap (toDigit radix))
  if digits = [] ∨ maxDigits < digits.length ∨ bound < value then none
  else if zeroPrefix = false ∧ digits.head? = some 0x30 ∧ 1 < digits.length then none
  else some (value, octets.dropWhile isDigit)

/-- `read_given_char`. -/
def readGivenChar (expected : UInt8) : Text → Option Text
  | [] => none
  | octet :: rest => if octet = expected then some rest else none

/-- `read_separator`: a separator stands before every part but the first. -/
def readSeparator {α : Type} (separator : UInt8) (index : Nat)
    (readPart : Text → Option (α × Text)) (octets : Text) : Option (α × Text) :=
  if index = 0 then readPart octets
  else (readGivenChar separator octets).bind readPart

def readOctet (index : Nat) : Text → Option (Nat × Text) :=
  readSeparator dot index (readNumber 10 3 0xFF false)

/-- `read_ipv4_addr`. -/
def readIpv4Addr (octets : Text) : Option (Ipv4Addr × Text) := do
  let (first, rest) ← readOctet 0 octets
  let (second, rest) ← readOctet 1 rest
  let (third, rest) ← readOctet 2 rest
  let (fourth, rest) ← readOctet 3 rest
  some (#v[first.toUInt8, second.toUInt8, third.toUInt8, fourth.toUInt8], rest)

/-- `:`, between the groups of an IPv6 address. -/
def colon : UInt8 := 0x3A

/-- `read_groups`: at most `limit` groups of two octets, and whether the last
two are an IPv4 address. -/
def readGroups : (limit index : Nat) → Text → List UInt8 × Bool × Text
  | 0, _, octets => ([], false, octets)
  | limit + 1, index, octets =>
    match if limit = 0 then none else readSeparator colon index readIpv4Addr octets with
    | some (addr, rest) => (addr.toList, true, rest)
    | none =>
      match readSeparator colon index (readNumber 16 4 0xFFFF true) octets with
      | none => ([], false, octets)
      | some (group, rest) =>
        let (groups, isIpv4, rest) := readGroups limit (index + 1) rest
        ((group / 256).toUInt8 :: group.toUInt8 :: groups, isIpv4, rest)

/-- The address with these octets at its two ends. -/
def filledAddr (head tail : List UInt8) : Ipv6Addr :=
  Vector.ofFn fun index =>
    (head ++ List.replicate (16 - head.length - tail.length) 0 ++ tail).getD index 0

/-- `read_ipv6_addr`. -/
def readIpv6Addr (octets : Text) : Option (Ipv6Addr × Text) :=
  let (head, isIpv4, rest) := readGroups 8 0 octets
  if head.length = 16 then some (filledAddr head [], rest)
  else if isIpv4 then none
  else do
    let rest ← readGivenChar colon rest
    let rest ← readGivenChar colon rest
    let (tail, _, rest) := readGroups (7 - head.length / 2) 0 rest
    some (filledAddr head tail, rest)

/-- `parse_with`: nothing may be left. -/
def parseWith {α : Type} (readAddr : Text → Option (α × Text)) (octets : Text) : Option α :=
  match readAddr octets with
  | some (addr, []) => some addr
  | _ => none

end AddressParser

open AddressParser

/-- `Ipv4Addr::from_str`. -/
def parseIpv4 (octets : Text) : Option Ipv4Addr :=
  if 15 < octets.length then none else parseWith readIpv4Addr octets

/-- `Ipv6Addr::from_str`. -/
def parseIpv6 (octets : Text) : Option Ipv6Addr :=
  parseWith readIpv6Addr octets

example : parseIpv4 (text "192.168.0.1") = some #v[192, 168, 0, 1] ∧
    parseIpv4 (text "192.168.00.1") = none := by decide +kernel

example : parseIpv6 (text "2001:DB8::1") =
    some #v[0x20, 0x01, 0x0D, 0xB8, 0, 0, 0, 0, 0, 0, 0, 0, 0, 0, 0, 1] := by decide +kernel

end Numa
