import Numa.Packet

/-!
# Scanning the octets of a message

`wire.rs` finds the TTL fields of a message without parsing its records.  The
position that the scan carries along is a result of each step.
-/

namespace Numa

inductive WireError
  /-- "wire too short for DNS header" -/
  | tooShortForHeader
  /-- "wire truncated in question section" -/
  | truncatedInQuestion
  /-- "wire truncated in resource record" -/
  | truncatedInRecord
  /-- "wire truncated in resource record RDATA" -/
  | truncatedInRdata
  /-- "wire truncated skipping name" -/
  | truncatedInName
  deriving DecidableEq

structure WireMeta where
  /-- The positions of the TTL fields of all records but OPT records. -/
  ttlOffsets : List Nat
  /-- How many of them are in the answer section. -/
  answerCount : Nat
  deriving DecidableEq

section Scan

variable (wire : List UInt8)

def wireOctet (pos : Nat) : UInt8 :=
  wire.getD pos 0

/-- `u16::from_be_bytes` of the octets at a position. -/
def wireU16 (pos : Nat) : UInt16 :=
  (wireOctet wire pos).toUInt16 <<< 8 ||| (wireOctet wire (pos + 1)).toUInt16

/-- `u32::from_be_bytes` of the octets at a position. -/
def wireU32 (pos : Nat) : UInt32 :=
  (wireOctet wire pos).toUInt32 <<< 24 ||| (wireOctet wire (pos + 1)).toUInt32 <<< 16 |||
    (wireOctet wire (pos + 2)).toUInt32 <<< 8 ||| (wireOctet wire (pos + 3)).toUInt32

/-- The loop of `skip_wire_name`.  Each round moves the position, so after as
many rounds as there are octets it is past them. -/
def skipLabels : Nat → Nat → Except WireError Nat
  | 0, _ => .error .truncatedInName
  | rounds + 1, pos =>
    if wire.length ≤ pos then .error .truncatedInName
    else
      let len := (wireOctet wire pos).toNat
      if len &&& 0xC0 = 0xC0 then .ok (pos + 2)
      else if len = 0 then .ok (pos + 1)
      else skipLabels rounds (pos + 1 + len)

def skipWireName (pos : Nat) : Except WireError Nat :=
  skipLabels wire (wire.length + 1) pos

/-- The position behind some questions. -/
def skipQuestions : Nat → Nat → Except WireError Nat
  | 0, pos => .ok pos
  | count + 1, pos => do
    let pos ← skipWireName wire pos
    if wire.length < pos + 4 then .error .truncatedInQuestion
    else skipQuestions count (pos + 4)

/-- Does an OPT record start at the position? -/
def isOptRecord (pos : Nat) : Bool :=
  decide (pos < wire.length) && wireOctet wire pos == 0 && decide (pos + 3 ≤ wire.length) &&
    wireU16 wire (pos + 1) == 41

/-- The TTL field of a record, unless it is an OPT record, and the position
behind the record. -/
def scanRecord (start : Nat) : Except WireError (List Nat × Nat) := do
  let pos ← skipWireName wire start
  if wire.length < pos + 10 then .error .truncatedInRecord
  else
    let next := pos + 10 + (wireU16 wire (pos + 8)).toNat
    if wire.length < next then .error .truncatedInRdata
    else .ok (if isOptRecord wire start then [] else [pos + 4], next)

/-- The TTL fields of some records and the position behind them. -/
def scanRecords : Nat → Nat → Except WireError (List Nat × Nat)
  | 0, pos => .ok ([], pos)
  | count + 1, pos => do
    let (first, pos) ← scanRecord wire pos
    let (rest, pos) ← scanRecords count pos
    .ok (first ++ rest, pos)

def scanTtlOffsets : Except WireError WireMeta :=
  if wire.length < 12 then .error .tooShortForHeader
  else do
    let pos ← skipQuestions wire (wireU16 wire 4).toNat 12
    let (answers, pos) ← scanRecords wire (wireU16 wire 6).toNat pos
    let (authorities, pos) ← scanRecords wire (wireU16 wire 8).toNat pos
    let (additionals, _) ← scanRecords wire (wireU16 wire 10).toNat pos
    .ok
      { ttlOffsets := answers ++ authorities ++ additionals
        answerCount := answers.length }

def minTtlFromWire (scanned : WireMeta) : Option UInt32 :=
  ((scanned.ttlOffsets.take scanned.answerCount).filterMap fun pos =>
    if pos + 4 ≤ wire.length then some (wireU32 wire pos) else none).min?

end Scan

end Numa
