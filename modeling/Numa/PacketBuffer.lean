import Numa.BigEndian
import Numa.NameText
import Numa.QueryType

/-!
# The packet buffer

`BytePacketBuffer` is a fixed array of `BUF_SIZE` octets with a cursor.  Its
operations can fail, and the octets and the overflow flag written before a
failure stay, so they run in an exception monad over the buffer state.
-/

namespace Numa

/-- `BUF_SIZE`. -/
def bufSize : Nat := 4096

structure BytePacketBuffer where
  buf : List UInt8
  pos : Nat
  overflow : Bool
  size_eq : buf.length = bufSize

/-- The errors the buffer operations return. -/
inductive BufferError
  | endOfBuffer
  | trailingBackslash
  | invalidDecimalEscape
  | decimalEscapeOutOfRange (val : Nat)
  | labelTooLong
  /-- "Limit of {} jumps exceeded" -/
  | jumpLimitExceeded
  | reservedLabelBits (len : UInt8)
  /-- "{} data_len too short for ..." of the types with a tail of octets. -/
  | dataLenTooShort (qtype : QueryType)
  deriving DecidableEq

abbrev BufferM := ExceptT BufferError (StateM BytePacketBuffer)

namespace BytePacketBuffer

def new : BytePacketBuffer where
  buf := List.replicate bufSize 0
  pos := 0
  overflow := false
  size_eq := List.length_replicate

/-- `from_bytes`: octets past the size of the buffer are dropped. -/
def fromBytes (data : List UInt8) : BytePacketBuffer where
  buf := data.take bufSize ++ List.replicate (bufSize - data.length) 0
  pos := 0
  overflow := false
  size_eq := by
    rw [List.length_append, List.length_take, List.length_replicate]
    omega

/-- The octets before the cursor. -/
def filled (buffer : BytePacketBuffer) : List UInt8 :=
  buffer.buf.take buffer.pos

/-- Run an operation on a buffer, keeping its state on failure. -/
def exec {α : Type} (action : BufferM α) (buffer : BytePacketBuffer) :
    Except BufferError α × BytePacketBuffer :=
  action.run buffer

def step (steps : Nat) : BufferM Unit :=
  modify fun buffer => { buffer with pos := buffer.pos + steps }

def seek (pos : Nat) : BufferM Unit :=
  modify fun buffer => { buffer with pos := pos }

def read : BufferM UInt8 := do
  let buffer ← get
  if bufSize ≤ buffer.pos then throw .endOfBuffer
  else
    set { buffer with pos := buffer.pos + 1 }
    pure (buffer.buf.getD buffer.pos 0)

/-- `get`: read one octet without moving the cursor. -/
def getAt (pos : Nat) : BufferM UInt8 := do
  let buffer ← get
  if bufSize ≤ pos then throw .endOfBuffer
  else pure (buffer.buf.getD pos 0)

def getRange (start len : Nat) : BufferM (List UInt8) := do
  let buffer ← get
  if bufSize < start + len then throw .endOfBuffer
  else pure ((buffer.buf.drop start).take len)

/-- The octets of a range from the cursor on, which is moved past them. -/
def readOctets (len : Nat) : BufferM (List UInt8) := do
  let octets ← getRange (← get).pos len
  step len
  pure octets

def readU16 : BufferM UInt16 := do
  let high ← read
  let low ← read
  pure (high.toUInt16 <<< 8 ||| low.toUInt16)

def readU32 : BufferM UInt32 := do
  let first ← read
  let second ← read
  let third ← read
  let fourth ← read
  pure (first.toUInt32 <<< 24 ||| second.toUInt32 <<< 16 ||| third.toUInt32 <<< 8 |||
    fourth.toUInt32)

/-- Where `read_qname` stands: its position, the delimiter of the next label
and the text so far. -/
structure NameCursor where
  pos : Nat
  delim : Text
  outstr : Text

/-- The labels from the cursor on, up to the root label or a pointer, whose
first octet is returned.  Every label takes an octet at least, so a name that
uses up `left` has run past the end of the buffer. -/
def readLabels : (left : Nat) → NameCursor → BufferM (NameCursor × UInt8)
  | 0, _ => throw .endOfBuffer
  | left + 1, cursor => do
    let len ← getAt cursor.pos
    if len &&& 0xC0 = 0xC0 then pure (cursor, len)
    else if len &&& 0xC0 ≠ 0 then throw (.reservedLabelBits len)
    else if len = 0 then pure ({ cursor with pos := cursor.pos + 1 }, len)
    else
      let label ← getRange (cursor.pos + 1) len.toNat
      readLabels left
        { pos := cursor.pos + 1 + len.toNat
          delim := [dot]
          outstr := cursor.outstr ++ cursor.delim ++ labelText label }

/-- Leave the cursor of the buffer behind the name, unless a jump has done so
already. -/
def seekUnless (jumped : Bool) (pos : Nat) : BufferM Unit :=
  if jumped then pure () else seek pos

/-- The loop of `read_qname`, with the number of pointers it may still meet
plus one. -/
def readName : (jumps : Nat) → (jumped : Bool) → NameCursor → BufferM Text
  | 0, _, _ => throw .jumpLimitExceeded
  | jumps + 1, jumped, cursor => do
    let (cursor, len) ← readLabels bufSize cursor
    if len &&& 0xC0 = 0xC0 then
      seekUnless jumped (cursor.pos + 2)
      let second ← getAt (cursor.pos + 1)
      let offset := (len.toUInt16 ^^^ 0xC0) <<< 8 ||| second.toUInt16
      readName jumps true { cursor with pos := offset.toNat }
    else
      seekUnless jumped cursor.pos
      pure cursor.outstr

/-- `max_jumps` of `read_qname`. -/
def maxJumps : Nat := 5

def readQname : BufferM Text := do
  let buffer ← get
  readName (maxJumps + 1) false ⟨buffer.pos, [], []⟩

def write (val : UInt8) : BufferM Unit := do
  let buffer ← get
  if bufSize ≤ buffer.pos then
    set { buffer with overflow := true }
    throw .endOfBuffer
  else
    set { buffer with
      buf := buffer.buf.set buffer.pos val
      pos := buffer.pos + 1
      size_eq := by rw [List.length_set, buffer.size_eq] }

def writeU16 (val : UInt16) : BufferM Unit := do
  write (val >>> 8).toUInt8
  write (val &&& 0xFF).toUInt8

def writeU32 (val : UInt32) : BufferM Unit := do
  write (val >>> 24 &&& 0xFF).toUInt8
  write (val >>> 16 &&& 0xFF).toUInt8
  write (val >>> 8 &&& 0xFF).toUInt8
  write (val &&& 0xFF).toUInt8

def writeBytes (data : List UInt8) : BufferM Unit := do
  let buffer ← get
  if fits : buffer.pos + data.length ≤ bufSize then
    set { buffer with
      buf := buffer.buf.take buffer.pos ++ data ++ buffer.buf.drop (buffer.pos + data.length)
      pos := buffer.pos + data.length
      size_eq := by
        simp only [List.length_append, List.length_take, List.length_drop, buffer.size_eq]
        omega }
  else
    set { buffer with overflow := true }
    throw .endOfBuffer

/-- `set`: overwrite one octet without moving the cursor. -/
def setAt (pos : Nat) (val : UInt8) : BufferM Unit := do
  let buffer ← get
  if bufSize ≤ pos then throw .endOfBuffer
  else
    set { buffer with
      buf := buffer.buf.set pos val
      size_eq := by rw [List.length_set, buffer.size_eq] }

def setU16 (pos : Nat) (val : UInt16) : BufferM Unit := do
  setAt pos (val >>> 8).toUInt8
  setAt (pos + 1) (val &&& 0xFF).toUInt8

/-- The length check `write_qname` makes after every octet of a label. -/
def checkLabel (bodyStart : Nat) : BufferM Unit := do
  let buffer ← get
  if buffer.pos - bodyStart > 0x3F then throw .labelTooLong

/-- The end of a label: its length is patched into the placeholder, and an
empty label before a dot is rolled back. -/
def closeLabel (lenPos bodyStart : Nat) (atEnd : Bool) : BufferM Unit := do
  let buffer ← get
  let labelLen := buffer.pos - bodyStart
  if labelLen = 0 ∧ atEnd = false then
    set { buffer with pos := lenPos }
  else
    setAt lenPos labelLen.toUInt8

/-- The two nested loops of `write_qname` over the remaining octets of the
name, inside the label whose length octet stands at `lenPos`. -/
def writeLabels (lenPos bodyStart : Nat) : Text → BufferM Unit
  | [] => closeLabel lenPos bodyStart true
  | octet :: rest =>
    if octet = dot then do
      closeLabel lenPos bodyStart false
      if rest = [] then pure ()
      else
        let lenPos := (← get).pos
        write 0
        writeLabels lenPos (← get).pos rest
    else if octet = backslash then
      match rest with
      | [] => throw .trailingBackslash
      | first :: rest =>
        if isAsciiDigit first then
          match rest with
          | second :: third :: rest =>
            if isAsciiDigit second && isAsciiDigit third then
              let val := (first - 0x30).toNat * 100 +
                (second - 0x30).toNat * 10 + (third - 0x30).toNat
              if val > 255 then throw (.decimalEscapeOutOfRange val)
              else do
                write val.toUInt8
                checkLabel bodyStart
                writeLabels lenPos bodyStart rest
            else throw .invalidDecimalEscape
          | _ => throw .invalidDecimalEscape
        else do
          write first
          checkLabel bodyStart
          writeLabels lenPos bodyStart rest
    else do
      write octet
      checkLabel bodyStart
      writeLabels lenPos bodyStart rest

/-- Write a name in wire form, resolving the escapes `\DDD` and `\X` of its
text. -/
def writeQname (qname : Text) : BufferM Unit :=
  if qname = [] ∨ qname = [dot] then write 0
  else do
    let lenPos := (← get).pos
    write 0
    writeLabels lenPos (← get).pos qname
    write 0

end BytePacketBuffer

/-- The in-place lowercasing loop of `name_to_wire`, inside a label with
`remaining` octets to go. -/
def lowercaseLabels : Nat → List UInt8 → List UInt8
  | _, [] => []
  | 0, len :: rest =>
    if len = 0 then len :: rest else len :: lowercaseLabels len.toNat rest
  | remaining + 1, octet :: rest =>
    toAsciiLowercase octet :: lowercaseLabels remaining rest

/-- The canonical wire form of a name.  `none` is the panic of the `expect` on
a text that `write_qname` rejects. -/
def nameToWire (name : Text) : Option (List UInt8) :=
  match BytePacketBuffer.exec (BytePacketBuffer.writeQname name) .new with
  | (.ok _, buffer) => some (lowercaseLabels 0 buffer.filled)
  | (.error _, _) => none

/-- The labels of an uncompressed wire name: `remaining` octets of the label
`label` are still to come. -/
def wireLabelsFrom : Nat → Text → List UInt8 → List Text
  | _, _, [] => []
  | 0, _, len :: rest => if len = 0 then [] else wireLabelsFrom len.toNat [] rest
  | 1, label, octet :: rest => (label ++ [octet]) :: wireLabelsFrom 0 [] rest
  | remaining + 2, label, octet :: rest =>
    wireLabelsFrom (remaining + 1) (label ++ [octet]) rest

/-- The labels of the name a text denotes, lowercased, if it denotes one. -/
def wireLabels (name : Text) : Option (List Text) :=
  (nameToWire name).map (wireLabelsFrom 0 [])

end Numa
