import Numa.NameWriter

/-!
# The name at a position of a message

Which labels a reader meets that starts at a position of a message and follows
its compression pointers.  `read_qname` returns the text of these labels.
-/

namespace Numa

open BytePacketBuffer

/-- Where a compression pointer leads. -/
def pointerTarget (high low : UInt8) : Nat :=
  ((high.toUInt16 ^^^ 0xC0) <<< 8 ||| low.toUInt16).toNat

/-- The name at a position has these labels, in lower case, and is read with
this number of jumps. -/
inductive NameAt (octets : List UInt8) : (jumps pos : Nat) → List (List UInt8) → Prop
  | root {pos : Nat} (first : octets[pos]? = some 0) : NameAt octets 0 pos []
  | label {jumps pos : Nat} {len : UInt8} {labels : List (List UInt8)}
      (first : octets[pos]? = some len) (plain : len &&& 0xC0 = 0) (nonempty : len ≠ 0)
      (inside : pos + 1 + len.toNat ≤ octets.length)
      (rest : NameAt octets jumps (pos + 1 + len.toNat) labels) :
      NameAt octets jumps pos
        (((octets.drop (pos + 1)).take len.toNat).map toAsciiLowercase :: labels)
  | pointer {jumps pos : Nat} {high low : UInt8} {labels : List (List UInt8)}
      (first : octets[pos]? = some high) (isPointer : high &&& 0xC0 = 0xC0)
      (second : octets[pos + 1]? = some low)
      (target : NameAt octets jumps (pointerTarget high low) labels) :
      NameAt octets (jumps + 1) pos labels

namespace NameAt

variable {octets : List UInt8} {jumps pos : Nat} {labels : List (List UInt8)}

/-- The octets denote at most one name at a position. -/
theorem unique {others : List (List UInt8)} {otherJumps : Nat}
    (first : NameAt octets jumps pos labels) (second : NameAt octets otherJumps pos others) :
    labels = others ∧ jumps = otherJumps := by
  induction first generalizing others otherJumps with
  | root zero =>
      cases second with
      | root _ => exact ⟨rfl, rfl⟩
      | label other _ nonempty => exact absurd (Option.some.inj (zero.symm.trans other)) nonempty.symm
      | pointer other isPointer =>
          obtain rfl := Option.some.inj (zero.symm.trans other)
          cases isPointer
  | label len plain nonempty inside rest ih =>
      cases second with
      | root other => exact absurd (Option.some.inj (len.symm.trans other)) nonempty
      | label other _ _ _ otherRest =>
          obtain rfl := Option.some.inj (len.symm.trans other)
          obtain ⟨rfl, rfl⟩ := ih otherRest
          exact ⟨rfl, rfl⟩
      | pointer other isPointer =>
          obtain rfl := Option.some.inj (len.symm.trans other)
          rw [plain] at isPointer
          cases isPointer
  | pointer high isPointer low target ih =>
      cases second with
      | root other =>
          obtain rfl := Option.some.inj (high.symm.trans other)
          cases isPointer
      | label other plain =>
          obtain rfl := Option.some.inj (high.symm.trans other)
          rw [plain] at isPointer
          cases isPointer
      | pointer other _ otherLow otherTarget =>
          obtain rfl := Option.some.inj (high.symm.trans other)
          obtain rfl := Option.some.inj (low.symm.trans otherLow)
          obtain ⟨rfl, rfl⟩ := ih otherTarget
          exact ⟨rfl, rfl⟩

end NameAt

/-! ## What the reader makes of it -/

section Reader

variable {buffer after : BytePacketBuffer}

theorem getElem?_of_exec_getAt {pos : Nat} {octet : UInt8}
    (got : exec (getAt pos) buffer = (.ok octet, after)) :
    buffer.buf[pos]? = some octet ∧ after = buffer := by
  obtain ⟨inside, rfl, rfl⟩ := exec_getAt_eq_ok.mp got
  have bound : pos < after.buf.length := by
    rw [after.size_eq]
    exact inside
  exact ⟨by simp [List.getD, bound], rfl⟩

/-- The labels up to the end of a name or to a pointer, with the names that
they begin. -/
theorem BytePacketBuffer.LabelsRead.nameAt {left : Nat} {cursor stop : NameCursor} {len : UInt8}
    {labels : List (List UInt8)} (labelsRead : LabelsRead buffer left cursor stop len)
    (holds : cursor.Holds labels) :
    ∃ further, stop.Holds (labels ++ further) ∧
      (len &&& 0xC0 = 0xC0 → buffer.buf[stop.pos]? = some len ∧
        ∀ jumps rest, NameAt buffer.buf jumps stop.pos rest →
          NameAt buffer.buf jumps cursor.pos (further ++ rest)) ∧
      (len &&& 0xC0 ≠ 0xC0 → NameAt buffer.buf 0 cursor.pos further) := by
  induction labelsRead generalizing labels with
  | pointer got isPointer =>
      have first := (getElem?_of_exec_getAt got).1
      exact ⟨[], by simpa using holds, fun _ => ⟨first, fun _ _ named => named⟩,
        fun notPointer => absurd isPointer notPointer⟩
  | root got =>
      have first := (getElem?_of_exec_getAt got).1
      refine ⟨[], ?_, fun isPointer => absurd isPointer (by decide), fun _ => .root first⟩
      exact ⟨by simpa using holds.areLabels, by simpa using holds.outstr,
        by simpa using holds.delim⟩
  | @label left cursor stop octet len label got plain notRoot gotLabel later ih =>
      have first := (getElem?_of_exec_getAt got).1
      obtain ⟨inside, labelEq, -⟩ := exec_getRange_eq_ok.mp gotLabel
      have size := buffer.size_eq
      obtain ⟨nonempty, short⟩ := isLabel_of_exec_getRange plain notRoot gotLabel
      obtain ⟨further, stopHolds, toPointer, toRoot⟩ := ih (holds.push nonempty short _)
      have longer : ∀ {jumps rest}, NameAt buffer.buf jumps (cursor.pos + 1 + octet.toNat) rest →
          NameAt buffer.buf jumps cursor.pos (label.map toAsciiLowercase :: rest) := by
        intro jumps rest named
        rw [labelEq]
        exact .label first plain notRoot (by omega) named
      refine ⟨label.map toAsciiLowercase :: further, by simpa using stopHolds,
        fun isPointer => ?_, fun notPointer => longer (toRoot notPointer)⟩
      obtain ⟨atStop, before⟩ := toPointer isPointer
      exact ⟨atStop, fun jumps rest named => longer (before jumps rest named)⟩

theorem buf_of_exec_seekUnless {jumped : Bool} {pos : Nat} {result : Except BufferError Unit}
    (ran : exec (seekUnless jumped pos) buffer = (result, after)) : after.buf = buffer.buf := by
  cases jumped <;> · cases ran; rfl

theorem nameAt_of_exec_readName {left : Nat} {jumped : Bool} {cursor : NameCursor} {name : Text}
    {labels : List (List UInt8)} (holds : cursor.Holds labels)
    (ran : exec (readName left jumped cursor) buffer = (.ok name, after)) :
    ∃ jumps further, jumps < left ∧ NameAt buffer.buf jumps cursor.pos further ∧
      (∀ label ∈ labels ++ further, IsWireLabel label) ∧ name = nameText (labels ++ further) := by
  induction left generalizing jumped cursor labels buffer with
  | zero => simp [readName] at ran
  | succ left ih =>
      rw [readName, exec_bind_eq_ok] at ran
      obtain ⟨⟨stop, len⟩, middle, ranLabels, ran⟩ := ran
      obtain ⟨rfl, labelsRead⟩ := exec_readLabels_eq_ok.mp ranLabels
      obtain ⟨further, stopHolds, toPointer, toRoot⟩ := labelsRead.nameAt holds
      simp only at ran
      split at ran
      · rename_i isPointer
        obtain ⟨first, before⟩ := toPointer isPointer
        obtain ⟨_, sought, ranSeek, ran⟩ := exec_bind_eq_ok.mp ran
        obtain ⟨low, last, got, ranTarget⟩ := exec_bind_eq_ok.mp ran
        obtain ⟨second, rfl⟩ := getElem?_of_exec_getAt got
        have same := buf_of_exec_seekUnless ranSeek
        have jumpHolds : ∀ pos, NameCursor.Holds ⟨pos, stop.delim, stop.outstr⟩
            (labels ++ further) := fun _ => ⟨stopHolds.areLabels, stopHolds.outstr, stopHolds.delim⟩
        obtain ⟨jumps, rest, few, target, areLabels, nameEq⟩ := ih (jumpHolds _) ranTarget
        rw [same] at second target
        refine ⟨jumps + 1, further ++ rest, by omega, ?_, by simpa using areLabels,
          by simpa using nameEq⟩
        exact before _ _ (.pointer first isPointer second target)
      · rename_i notPointer
        obtain ⟨_, _, -, ran⟩ := exec_bind_eq_ok.mp ran
        cases ran
        exact ⟨0, further, by omega, toRoot notPointer, stopHolds.areLabels, stopHolds.outstr⟩

/-- `read_qname` returns the text of the name at the cursor. -/
theorem nameAt_of_exec_readQname {name : Text}
    (ran : exec readQname buffer = (.ok name, after)) :
    ∃ jumps labels, jumps ≤ maxJumps ∧ NameAt buffer.buf jumps buffer.pos labels ∧
      (∀ label ∈ labels, IsWireLabel label) ∧ name = nameText labels := by
  rw [readQname, exec_get_bind] at ran
  have empty : NameCursor.Holds ⟨buffer.pos, [], []⟩ [] := ⟨by simp, rfl, rfl⟩
  obtain ⟨jumps, labels, few, named, areLabels, nameEq⟩ := nameAt_of_exec_readName empty ran
  exact ⟨jumps, labels, by omega, named, areLabels, nameEq⟩

/-- What a writer has put at its cursor is ahead of a reader there. -/
theorem BytePacketBuffer.Extends.ahead {target : BytePacketBuffer} {octets : List UInt8}
    (extended : Extends target octets after) (fits : target.pos + octets.length ≤ bufSize) :
    Ahead { after with pos := target.pos } target.pos octets where
  inside := fits
  isPrefix := by
    have before : (target.buf.take target.pos).length = target.pos := by
      have size := target.size_eq
      rw [List.length_take]
      omega
    change octets <+: after.buf.drop target.pos
    rw [extended.buf, List.append_assoc, List.drop_left' before]
    exact List.prefix_append octets _

/-- A name that is read from any message and written to another buffer that has
room for it stands there without pointers and in lower case, and reads back as
the same text. -/
theorem readQname_writeQname {name : Text} (ran : exec readQname buffer = (.ok name, after)) :
    ∃ jumps labels, NameAt buffer.buf jumps buffer.pos labels ∧
      (∀ label ∈ labels, IsWireLabel label) ∧
      ∀ target : BytePacketBuffer, target.pos + (wireName labels).length ≤ bufSize →
        ∃ written, exec (writeQname name) target = (.ok (), written) ∧
          Extends target (wireName labels) written ∧
          exec readQname { written with pos := target.pos } = (.ok name, written) := by
  obtain ⟨jumps, labels, -, named, areLabels, rfl⟩ := nameAt_of_exec_readQname ran
  refine ⟨jumps, labels, named, areLabels, fun target fits => ?_⟩
  obtain ⟨⟨⟩, written, wrote, extended⟩ := (writes_writeQname areLabels target (by omega)).1 fits
  refine ⟨written, wrote, extended, ?_⟩
  rw [readsAt_readQname areLabels _ rfl (extended.ahead fits)]
  have stop : target.pos + (wireName labels).length = written.pos := extended.pos.symm
  simp only [stop]

end Reader

/-- A label with a letter in upper case, a dot and a zero octet, and a pointer
to the label behind which it stands. -/
def pointedBuffer : BytePacketBuffer :=
  { fromBytes [1, 0x62, 0, 3, 0x41, 0x2E, 0, 0xC0, 0] with pos := 3 }

theorem nameAt_pointedBuffer :
    NameAt pointedBuffer.buf 1 pointedBuffer.pos [[0x61, 0x2E, 0], [0x62]] := by
  have first : pointedBuffer.buf[3]? = some 3 := by decide +kernel
  have high : pointedBuffer.buf[7]? = some 0xC0 := by decide +kernel
  have low : pointedBuffer.buf[8]? = some 0 := by decide +kernel
  have behind : pointedBuffer.buf[0]? = some 1 := by decide +kernel
  have target : NameAt pointedBuffer.buf 0 0 [[0x62]] :=
    .label behind (by decide) (by decide) (by decide +kernel) (.root (by decide +kernel))
  exact .label first (by decide) (by decide) (by decide +kernel) (.pointer high (by decide) low target)

theorem readQname_writeQname_pointedBuffer :
    ∃ written, exec (writeQname (text "a\\.\\000.b")) .new = (.ok (), written) ∧
      written.filled = [3, 0x61, 0x2E, 0, 1, 0x62, 0] ∧
      exec readQname { written with pos := 0 } = (.ok (text "a\\.\\000.b"), written) := by
  have ran : (exec readQname pointedBuffer).1 = .ok (text "a\\.\\000.b") := by decide +kernel
  obtain ⟨jumps, labels, named, -, writes⟩ := readQname_writeQname (exec_eq_of_fst ran)
  obtain ⟨rfl, rfl⟩ := named.unique nameAt_pointedBuffer
  obtain ⟨written, wrote, extended, reread⟩ := writes .new (by decide)
  exact ⟨written, wrote, extended.filled (Nat.zero_le _), reread⟩

end Numa
