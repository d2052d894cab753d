import Numa.BigEndian
import Numa.Record

/-!
# SVCB and HTTPS record data

`svcb.rs` edits the parameters of an SVCB or HTTPS record: the data are a
priority, an uncompressed target name and parameters, each a key, a length and
a value.  A parser takes the octets that are left, and the number of octets
left bounds its rounds.
-/

namespace Numa

inductive IpAddr
  | v4 (addr : Ipv4Addr)
  | v6 (addr : Ipv6Addr)
  deriving DecidableEq

/-- `IPV4_HINT_KEY`. -/
def ipv4HintKey : UInt16 := 4

/-- `IPV6_HINT_KEY`. -/
def ipv6HintKey : UInt16 := 6

/-- The octets behind the target name. -/
def skipTargetName : (left : Nat) → List UInt8 → Option (List UInt8)
  | 0, _ => none
  | _ + 1, [] => none
  | left + 1, len :: rest =>
    if len = 0 then some rest
    else if len &&& 0xC0 ≠ 0 then none
    else if rest.length < len.toNat then none
    else skipTargetName left (rest.drop len.toNat)

def hintStride (key : UInt16) : Option Nat :=
  if key = ipv4HintKey then some 4
  else if key = ipv6HintKey then some 16
  else none

def hintAddr (chunk : List UInt8) : IpAddr :=
  if chunk.length = 4 then .v4 (Vector.ofFn fun index => chunk.getD index 0)
  else .v6 (Vector.ofFn fun index => chunk.getD index 0)

/-- The addresses of a hint that are not private, in their order. -/
def filterHint (stride : Nat) (isPrivate : IpAddr → Bool) : (left : Nat) → List UInt8 → List UInt8
  | 0, _ => []
  | left + 1, value =>
    if value.length < stride then []
    else
      let chunk := value.take stride
      let kept := filterHint stride isPrivate left (value.drop stride)
      if isPrivate (hintAddr chunk) then kept else chunk ++ kept

/-- A parameter, and the octets behind it. -/
def readParam : List UInt8 → Option ((UInt16 × List UInt8) × List UInt8)
  | key1 :: key2 :: len1 :: len2 :: rest =>
    let key := key1.toUInt16 <<< 8 ||| key2.toUInt16
    let vlen := (len1.toUInt16 <<< 8 ||| len2.toUInt16).toNat
    if rest.length < vlen then none
    else some ((key, rest.take vlen), rest.drop vlen)
  | _ => none

/-- The parameters up to the end of the record data. -/
def readParams : (left : Nat) → List UInt8 → Option (List (UInt16 × List UInt8))
  | _, [] => some []
  | 0, _ :: _ => none
  | left + 1, octet :: rest => do
    let (param, rest) ← readParam (octet :: rest)
    let params ← readParams left rest
    some (param :: params)

inductive Edit
  | keep
  /-- Another value; an empty one drops the parameter. -/
  | rewrite (value : List UInt8)
  deriving DecidableEq

def writeParam (param : UInt16 × List UInt8) : List UInt8 :=
  beBytes16 param.1 ++ beBytes16 param.2.length.toUInt16 ++ param.2

/-- The octets of a parameter after its edit. -/
def writeEdited (param : UInt16 × List UInt8) : Edit → List UInt8
  | .keep => writeParam param
  | .rewrite value => if value = [] then [] else writeParam (param.1, value)

/-- Edit each parameter.  `none` when nothing changes or the data do not
parse. -/
def editSvcparams (rdata : List UInt8) (edit : UInt16 → List UInt8 → Option Edit) :
    Option (List UInt8) :=
  if rdata.length < 2 then none
  else do
    let rest ← skipTargetName rdata.length (rdata.drop 2)
    let params ← readParams rest.length rest
    let edits ← params.mapM fun param => edit param.1 param.2
    if edits.all (· == .keep) then none
    else
      some (rdata.take (rdata.length - rest.length) ++
        (params.zip edits).flatMap fun (param, change) => writeEdited param change)

/-- Strip the private addresses from the address hints. -/
def stripPrivateHints (rdata : List UInt8) (isPrivate : IpAddr → Bool) : Option (List UInt8) :=
  editSvcparams rdata fun key value =>
    match hintStride key with
    | some stride =>
      if value.length % stride ≠ 0 then none
      else
        let kept := filterHint stride isPrivate value.length value
        some (if kept.length = value.length then .keep else .rewrite kept)
    | none => some .keep

/-- Strip the `ipv6hint` parameter. -/
def stripIpv6hint (rdata : List UInt8) : Option (List UInt8) :=
  editSvcparams rdata fun key _ => some (if key = ipv6HintKey then .rewrite [] else .keep)

end Numa
