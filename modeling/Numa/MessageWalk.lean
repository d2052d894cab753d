import Numa.WireScan
import Numa.DenotedName

/-!
# Walking over a message

The buffer does not know how long the message in it is.  The walks of this file
go over the octets of the message alone, the way the parser goes over those of
the buffer, and stop where an octet of the message is missing.
-/

namespace Numa

open BytePacketBuffer

/-- Why a walk stops. -/
inductive WalkStop
  /-- The cursor passes the end of the message. -/
  | pastEnd
  /-- A compression pointer leads past the end of the message. -/
  | pointedPastEnd
  /-- The parser rejects the message, whatever stands behind it. -/
  | malformed
  deriving DecidableEq

/-- A walk from a position of a message. -/
def Traversal (α : Type) := List UInt8 → Nat → Except WalkStop (α × Nat)

namespace Traversal

instance : Monad Traversal where
  pure value := fun _ pos => .ok (value, pos)
  bind walk next := fun message pos =>
    match walk message pos with
    | .ok (value, pos) => next value message pos
    | .error stop => .error stop

/-- A range of octets of the message. -/
def octetsIn (message : List UInt8) (stop : WalkStop) (start len : Nat) :
    Except WalkStop (List UInt8) :=
  if start + len ≤ message.length then .ok ((message.drop start).take len)
  else if bufSize < start + len then .error .malformed
  else .error stop

/-- The next octets. -/
def octets (len : Nat) : Traversal (List UInt8) := fun message pos =>
  (octetsIn message .pastEnd pos len).map fun found => (found, pos + len)

/-- The next two octets as a number. -/
def number : Traversal UInt16 := do
  let found ← octets 2
  pure (wireU16 found 0)

def malformed {α : Type} : Traversal α := fun _ _ => .error .malformed

def cursor : Traversal Nat := fun _ pos => .ok (pos, pos)

/-- The labels from a position up to the end of the name or to a pointer, which
is returned with where it stands. -/
def labels (message : List UInt8) (stop : WalkStop) : (left pos : Nat) →
    Except WalkStop (Nat × UInt8)
  | 0, _ => .error .malformed
  | left + 1, pos => do
    let first ← octetsIn message stop pos 1
    let len := first.getD 0 0
    if len &&& 0xC0 = 0xC0 then .ok (pos, len)
    else if len &&& 0xC0 ≠ 0 then .error .malformed
    else if len = 0 then .ok (pos + 1, len)
    else
      let _ ← octetsIn message stop (pos + 1) len.toNat
      labels message stop left (pos + 1 + len.toNat)

/-- The part of a name that a pointer leads to. -/
def pointed (message : List UInt8) : (jumps pos : Nat) → Except WalkStop Unit
  | 0, _ => .error .malformed
  | jumps + 1, pos => do
    let (stop, len) ← labels message .pointedPastEnd bufSize pos
    if len &&& 0xC0 = 0xC0 then
      let low ← octetsIn message .pointedPastEnd (stop + 1) 1
      pointed message jumps (pointerTarget len (low.getD 0 0))
    else .ok ()

/-- A name, with the parts that its pointers lead to. -/
def qname : Traversal Unit := fun message pos => do
  let (stop, len) ← labels message .pastEnd bufSize pos
  if len &&& 0xC0 = 0xC0 then
    let low ← octetsIn message .pastEnd (stop + 1) 1
    let _ ← pointed message maxJumps (pointerTarget len (low.getD 0 0))
    .ok ((), stop + 2)
  else .ok ((), stop)

def question : Traversal Unit := do
  qname
  let _ ← octets 2
  let _ ← octets 2

/-- A part of the data of a record. -/
inductive RdataField
  | fixed (len : Nat)
  | name
  /-- Octets behind an octet with their number. -/
  | counted
  /-- The octets up to where the length of the data says they end. -/
  | rest
  /-- As many octets as the length of the data says. -/
  | whole

/-- The parts of the data of a type, as the parser reads them. -/
def rdataFields : QueryType → List RdataField
  | .a => [.fixed 4]
  | .aaaa => [.fixed 4, .fixed 4, .fixed 4, .fixed 4]
  | .ns | .cname | .ptr => [.name]
  | .mx => [.fixed 2, .name]
  | .dnskey | .ds => [.fixed 2, .fixed 1, .fixed 1, .rest]
  | .rrsig => [.fixed 2, .fixed 1, .fixed 1, .fixed 4, .fixed 4, .fixed 4, .fixed 2, .name, .rest]
  | .nsec => [.name, .rest]
  | .nsec3 => [.fixed 1, .fixed 1, .fixed 2, .counted, .counted, .rest]
  | .soa => [.name, .name, .fixed 4, .fixed 4, .fixed 4, .fixed 4, .fixed 4]
  | _ => [.whole]

def rdataField (rdataStart dataLen : Nat) : RdataField → Traversal Unit
  | .fixed len => do
    let _ ← octets len
  | .name => qname
  | .counted => do
    let count ← octets 1
    let _ ← octets (count.getD 0 0).toNat
  | .rest => do
    let pos ← cursor
    if rdataStart + dataLen < pos then malformed
    else
      let _ ← octets (rdataStart + dataLen - pos)
  | .whole => do
    let _ ← octets dataLen

def rdata (rdataStart dataLen : Nat) : List RdataField → Traversal Unit
  | [] => pure ()
  | field :: fields => do
    rdataField rdataStart dataLen field
    rdata rdataStart dataLen fields

def record : Traversal Unit := do
  qname
  let qtypeNum ← number
  let _ ← octets 2
  let _ ← octets 4
  let dataLen ← number
  let rdataStart ← cursor
  rdata rdataStart dataLen.toNat (rdataFields (.fromNum qtypeNum))

def many (item : Traversal Unit) : Nat → Traversal Unit
  | 0 => pure ()
  | count + 1 => do
    item
    many item count

/-- The peek at the name and the type of a record of the additional section. -/
def isOpt : Traversal Bool := fun message pos => do
  let name ← octetsIn message .pastEnd pos 1
  if name.getD 0 0 = 0 then
    let high ← octetsIn message .pastEnd (pos + 1) 1
    let low ← octetsIn message .pastEnd (pos + 2) 1
    .ok ((high.getD 0 0).toUInt16 <<< 8 ||| (low.getD 0 0).toUInt16 == 41, pos)
  else .ok (false, pos)

/-- The octet of the name of an OPT record, which the peek has seen. -/
def stepOver : Traversal Unit := fun message pos =>
  if pos + 1 ≤ message.length then .ok ((), pos + 1) else .error .pastEnd

def edns : Traversal Unit := do
  stepOver
  let _ ← octets 2
  let _ ← octets 2
  let _ ← octets 4
  let rdlength ← number
  let _ ← octets rdlength.toNat

def resources : Nat → Traversal Unit
  | 0 => pure ()
  | count + 1 => do
    let opt ← isOpt
    if opt then edns else record
    resources count

/-- The header, with the numbers of questions and of records in each section. -/
def header : Traversal (UInt16 × UInt16 × UInt16 × UInt16) := do
  let _ ← octets 2
  let _ ← octets 2
  let questions ← number
  let answers ← number
  let authoritativeEntries ← number
  let resourceEntries ← number
  pure (questions, answers, authoritativeEntries, resourceEntries)

/-- The whole message. -/
def message : Traversal Unit := do
  let counts ← header
  many question counts.1.toNat
  many record counts.2.1.toNat
  many record counts.2.2.1.toNat
  resources counts.2.2.2.toNat

end Traversal

/-- How the walk over a message that starts at its first octet ends. -/
def walkOutcome (message : List UInt8) : Except WalkStop Nat :=
  (Traversal.message message 0).map Prod.snd

end Numa
