import Numa.DenotedName
import Numa.Loops
import Numa.ReaderRules
import Numa.SvcbIndices

/-!
# The reader of names

The loop of `read_qname` with the indices that it takes into the buffer.  It
follows at most six pointers and moves forward between them, so it ends
wherever the pointers lead, and it leaves the cursor behind the part of the
name that stands at the start.
-/

namespace Numa

namespace QnameReader

open BytePacketBuffer (NameCursor exec movedTo readLabels readName seekUnless maxJumps)
open Svcb (slice slice_of_le)

/-! ## The loop -/

/-- `get`.  `none` is a panic. -/
def get (buf : List UInt8) (pos : Nat) : Option (Except BufferError UInt8) :=
  if bufSize ≤ pos then some (.error .endOfBuffer)
  else do
    let octet ← buf[pos]?
    some (.ok octet)

/-- `get_range`.  `none` is a panic. -/
def getRange (buf : List UInt8) (start len : Nat) : Option (Except BufferError (List UInt8)) :=
  if bufSize < start + len then some (.error .endOfBuffer)
  else do
    let octets ← slice buf start (start + len)
    some (.ok octets)

/-- The variables of `read_qname`, with the cursor of the buffer. -/
structure State where
  cursor : Nat
  pos : Nat
  jumped : Bool
  jumpsPerformed : Nat
  delim : Text
  outstr : Text

/-- What `read_qname` returns, and where it leaves the cursor. -/
abbrev Result := Except BufferError Text × Nat

/-- The state behind a pointer to the target. -/
def State.jump (state : State) (target : Nat) : State :=
  { state with
    cursor := if state.jumped then state.cursor else state.pos + 2
    pos := target
    jumped := true
    jumpsPerformed := state.jumpsPerformed + 1 }

/-- The state behind a label. -/
def State.push (state : State) (len : UInt8) (strBuffer : List UInt8) : State :=
  { state with
    pos := state.pos + 1 + len.toNat
    delim := [dot]
    outstr := state.outstr ++ state.delim ++ labelText strBuffer }

/-- What a turn of the loop does with a length octet. -/
def turnAt (buf : List UInt8) (state : State) (len : UInt8) : Option (Turn State Result) := do
  if len &&& 0xC0 = 0xC0 then
    match ← get buf (state.pos + 1) with
    | .error error =>
      some (.leave (.error error, if state.jumped then state.cursor else state.pos + 2))
    | .ok b2 => some (.again (state.jump (pointerTarget len b2)))
  else if len &&& 0xC0 ≠ 0 then some (.leave (.error (.reservedLabelBits len), state.cursor))
  else if len = 0 then
    some (.leave (.ok state.outstr, if state.jumped then state.cursor else state.pos + 1))
  else
    match ← getRange buf (state.pos + 1) len.toNat with
    | .error error => some (.leave (.error error, state.cursor))
    | .ok strBuffer => some (.again (state.push len strBuffer))

/-- A turn of the loop of `read_qname`. -/
def turn (buf : List UInt8) (state : State) : Option (Turn State Result) := do
  if maxJumps < state.jumpsPerformed then some (.leave (.error .jumpLimitExceeded, state.cursor))
  else
    match ← get buf state.pos with
    | .error error => some (.leave (.error error, state.cursor))
    | .ok len => turnAt buf state len

def start (pos : Nat) : State :=
  ⟨pos, pos, false, 0, [], []⟩

/-- The turns left for the pointers that may still come and for the octets up
to the end of the buffer. -/
def turnsLeft (state : State) : Nat :=
  (maxJumps + 1 - state.jumpsPerformed) * (bufSize + 1) + (bufSize - state.pos)

/-- `read_qname`.  `none` is a panic, and also a loop that does not end in
time. -/
def readQname (buffer : BytePacketBuffer) : Option Result :=
  Loop.run (turn buffer.buf) (turnsLeft (start buffer.pos) + 1) (start buffer.pos)

/-- The part of a name that stands at a position ends at another one, behind
the root label or behind a pointer. -/
inductive EndsAt (octets : List UInt8) : (pos stop : Nat) → Prop
  | root {pos : Nat} (first : octets[pos]? = some 0) : EndsAt octets pos (pos + 1)
  | pointer {pos : Nat} {high : UInt8} (first : octets[pos]? = some high)
      (isPointer : high &&& 0xC0 = 0xC0) : EndsAt octets pos (pos + 2)
  | label {pos stop : Nat} {len : UInt8} (first : octets[pos]? = some len)
      (plain : len &&& 0xC0 = 0) (nonempty : len ≠ 0)
      (rest : EndsAt octets (pos + 1 + len.toNat) stop) : EndsAt octets pos stop

/-- A name ends in one place, wherever its pointers lead. -/
theorem EndsAt.unique {octets : List UInt8} {pos stop other : Nat} (ends : EndsAt octets pos stop)
    (others : EndsAt octets pos other) : stop = other := by
  induction ends with
  | root first =>
      cases others with
      | root _ => rfl
      | pointer second isPointer =>
          obtain rfl := Option.some.inj (first.symm.trans second)
          cases isPointer
      | label second _ nonempty => exact absurd (Option.some.inj (first.symm.trans second)).symm nonempty
  | pointer first isPointer =>
      cases others with
      | root second =>
          obtain rfl := Option.some.inj (first.symm.trans second)
          cases isPointer
      | pointer _ _ => rfl
      | label second plain =>
          obtain rfl := Option.some.inj (first.symm.trans second)
          rw [plain] at isPointer
          cases isPointer
  | label first plain nonempty _ ih =>
      cases others with
      | root second => exact absurd (Option.some.inj (first.symm.trans second)) nonempty
      | pointer second isPointer =>
          obtain rfl := Option.some.inj (first.symm.trans second)
          rw [plain] at isPointer
          cases isPointer
      | label second _ _ rest =>
          obtain rfl := Option.some.inj (first.symm.trans second)
          exact ih rest

/-! ## The reader of the packet model -/

/-- What `readName` does behind the labels. -/
def finish (jumps : Nat) (jumped : Bool) (found : NameCursor × UInt8) : BufferM Text := do
  let (cursor, len) := found
  if len &&& 0xC0 = 0xC0 then
    seekUnless jumped (cursor.pos + 2)
    let second ← BytePacketBuffer.getAt (cursor.pos + 1)
    readName jumps true { cursor with pos := pointerTarget len second }
  else
    seekUnless jumped cursor.pos
    pure cursor.outstr

theorem readName_succ (jumps : Nat) (jumped : Bool) (cursor : NameCursor) :
    readName (jumps + 1) jumped cursor = readLabels bufSize cursor >>= finish jumps jumped :=
  rfl

/-- The rest of `readName` from a state of the loop on, with this many labels
left. -/
def resume (left : Nat) (state : State) : BufferM Text :=
  if maxJumps < state.jumpsPerformed then throw .jumpLimitExceeded
  else
    readLabels left ⟨state.pos, state.delim, state.outstr⟩ >>=
      finish (maxJumps - state.jumpsPerformed) state.jumped

theorem resume_jump {state : State} {jumps : Nat}
    (performed : maxJumps = state.jumpsPerformed + (jumps + 1)) (target : Nat) :
    resume bufSize (state.jump target) =
      readLabels bufSize ⟨target, state.delim, state.outstr⟩ >>= finish jumps true := by
  have fewer : maxJumps - (state.jump target).jumpsPerformed = jumps := by
    simp only [State.jump]
    omega
  rw [resume, if_neg (by simp only [State.jump]; omega), fewer]
  simp only [State.jump]

/-- Behind a pointer the reader starts anew. -/
theorem readName_eq_resume {state : State} {jumps : Nat}
    (performed : maxJumps = state.jumpsPerformed + jumps) (target : Nat) :
    readName jumps true ⟨target, state.delim, state.outstr⟩ =
      resume bufSize (state.jump target) := by
  cases jumps with
  | zero =>
      have exceeded : maxJumps < (state.jump target).jumpsPerformed := by
        simp only [State.jump]
        omega
      rw [resume, if_pos exceeded, readName]
  | succ jumps => rw [readName_succ, resume_jump performed]

/-- An octet is read as in the packet model, within the buffer. -/
theorem get_cases (buffer : BytePacketBuffer) (pos : Nat) :
    (get buffer.buf pos = some (.error .endOfBuffer) ∧ bufSize ≤ pos ∧
      exec (BytePacketBuffer.getAt pos) buffer = (.error .endOfBuffer, buffer)) ∨
    ∃ octet, get buffer.buf pos = some (.ok octet) ∧ pos < bufSize ∧
      buffer.buf[pos]? = some octet ∧
      exec (BytePacketBuffer.getAt pos) buffer = (.ok octet, buffer) := by
  have size := buffer.size_eq
  by_cases beyond : bufSize ≤ pos
  · refine .inl ⟨if_pos beyond, beyond, ?_⟩
    rw [BytePacketBuffer.getAt, BytePacketBuffer.exec_get_bind, if_pos beyond,
      BytePacketBuffer.exec_throw]
  · have inside : pos < buffer.buf.length := by omega
    have found := List.getElem?_eq_getElem inside
    refine .inr ⟨buffer.buf[pos], ?_, by omega, found, ?_⟩
    · rw [get, if_neg beyond, found]
      rfl
    · exact BytePacketBuffer.exec_getAt_eq_ok.mpr ⟨by omega, by simp [found], rfl⟩

theorem exists_getRange (buffer : BytePacketBuffer) (pos len : Nat) :
    ∃ result, getRange buffer.buf pos len = some result ∧
      exec (BytePacketBuffer.getRange pos len) buffer = (result, buffer) := by
  have size := buffer.size_eq
  by_cases beyond : bufSize < pos + len
  · refine ⟨.error .endOfBuffer, if_pos beyond, ?_⟩
    simp [BytePacketBuffer.getRange, beyond]
  · refine ⟨.ok ((buffer.buf.drop pos).take len), ?_, ?_⟩
    · rw [getRange, if_neg beyond, slice_of_le (Nat.le_add_right pos len) (by omega),
        Nat.add_sub_cancel_left]
      rfl
    · exact BytePacketBuffer.exec_getRange_eq_ok.mpr ⟨by omega, rfl, rfl⟩

/-! ## A turn -/

/-- In this state of the loop the packet model has the same before it, and the
cursor stands behind the part of the name at the start if a pointer has been
met. -/
structure Reading (buffer : BytePacketBuffer) (state : State) : Prop where
  jumps_le : state.jumpsPerformed ≤ maxJumps + 1
  resumes : ∃ left, bufSize ≤ state.pos + left ∧
    exec (resume left state) (buffer.movedTo state.cursor) = exec BytePacketBuffer.readQname buffer
  inPlace : if state.jumped then EndsAt buffer.buf buffer.pos state.cursor
    else ∀ stop, EndsAt buffer.buf state.pos stop → EndsAt buffer.buf buffer.pos stop

/-- What the loop returns is what the packet model returns. -/
structure Returns (buffer : BytePacketBuffer) (result : Result) : Prop where
  same : exec BytePacketBuffer.readQname buffer = (result.1, buffer.movedTo result.2)
  endsAt : ∀ name, result.1 = .ok name → EndsAt buffer.buf buffer.pos result.2

theorem reading_start (buffer : BytePacketBuffer) : Reading buffer (start buffer.pos) where
  jumps_le := Nat.zero_le _
  resumes := by
    refine ⟨bufSize, Nat.le_add_left _ _, ?_⟩
    have notExceeded : ¬ maxJumps < (start buffer.pos).jumpsPerformed := Nat.not_lt_zero _
    rw [BytePacketBuffer.readQname, BytePacketBuffer.exec_get_bind, readName_succ, resume,
      if_neg notExceeded]
    simp only [start, Nat.sub_zero, BytePacketBuffer.movedTo_self]
  inPlace := fun _ => id

theorem Reading.endsAt {buffer : BytePacketBuffer} {state : State} (reading : Reading buffer state)
    {stop : Nat} (ends : EndsAt buffer.buf state.pos stop) :
    EndsAt buffer.buf buffer.pos (if state.jumped then state.cursor else stop) := by
  have inPlace := reading.inPlace
  split
  · rename_i jumped
    rwa [if_pos jumped] at inPlace
  · rename_i notJumped
    rw [if_neg notJumped] at inPlace
    exact inPlace stop ends

theorem exec_seekUnless (jumped : Bool) (pos : Nat) (buffer : BytePacketBuffer) (cursor : Nat) :
    exec (seekUnless jumped pos) (buffer.movedTo cursor) =
      (.ok (), buffer.movedTo (if jumped then cursor else pos)) := by
  cases jumped <;> rfl

/-- The loop goes on along a pointer. -/
theorem Reading.jump {buffer : BytePacketBuffer} {state : State} {len : UInt8}
    (reading : Reading buffer state) (few : state.jumpsPerformed ≤ maxJumps)
    (first : buffer.buf[state.pos]? = some len) (isPointer : len &&& 0xC0 = 0xC0) {target : Nat}
    (resumes : exec (resume bufSize (state.jump target))
      (buffer.movedTo (state.jump target).cursor) = exec BytePacketBuffer.readQname buffer) :
    Reading buffer (state.jump target) where
  jumps_le := Nat.succ_le_succ few
  resumes := ⟨bufSize, Nat.le_add_left _ _, resumes⟩
  inPlace := reading.endsAt (.pointer first isPointer)

/-- The loop goes on behind a label. -/
theorem Reading.push {buffer : BytePacketBuffer} {state : State} {len : UInt8} {left : Nat}
    {strBuffer : List UInt8} (reading : Reading buffer state)
    (first : buffer.buf[state.pos]? = some len) (plain : len &&& 0xC0 = 0) (nonempty : len ≠ 0)
    (enough : bufSize ≤ state.pos + (left + 1))
    (resumes : exec (resume left (state.push len strBuffer)) (buffer.movedTo state.cursor) =
      exec BytePacketBuffer.readQname buffer) :
    Reading buffer (state.push len strBuffer) where
  jumps_le := reading.jumps_le
  resumes := ⟨left, by simp only [State.push]; omega, resumes⟩
  inPlace := by
    have inPlace := reading.inPlace
    change if state.jumped then EndsAt buffer.buf buffer.pos state.cursor
      else ∀ stop, EndsAt buffer.buf (state.pos + 1 + len.toNat) stop →
        EndsAt buffer.buf buffer.pos stop
    split
    · rename_i jumped
      rwa [if_pos jumped] at inPlace
    · rename_i notJumped
      rw [if_neg notJumped] at inPlace
      exact fun stop ends => inPlace stop (.label first plain nonempty ends)

theorem exec_readLabels_beyond {buffer : BytePacketBuffer} {cursor : NameCursor}
    (beyond : bufSize ≤ cursor.pos) (left : Nat) :
    exec (readLabels left cursor) buffer = (.error .endOfBuffer, buffer) := by
  cases left with
  | zero => rw [readLabels, BytePacketBuffer.exec_throw]
  | succ left =>
      have failed : exec (BytePacketBuffer.getAt cursor.pos) buffer =
          (.error .endOfBuffer, buffer) := by
        rw [BytePacketBuffer.getAt, BytePacketBuffer.exec_get_bind, if_pos beyond,
          BytePacketBuffer.exec_throw]
      rw [readLabels, BytePacketBuffer.exec_bind_error failed]

theorem turnsLeft_jump {state : State} (few : state.jumpsPerformed ≤ maxJumps) (target : Nat) :
    turnsLeft (state.jump target) < turnsLeft state := by
  obtain ⟨left, leftEq⟩ : ∃ left, maxJumps = state.jumpsPerformed + left :=
    ⟨maxJumps - state.jumpsPerformed, by omega⟩
  have before : maxJumps + 1 - state.jumpsPerformed = left + 1 := by omega
  have after : maxJumps + 1 - (state.jumpsPerformed + 1) = left := by omega
  simp only [turnsLeft, State.jump, before, after, Nat.add_mul, Nat.one_mul]
  omega

theorem turnsLeft_push {state : State} (inside : state.pos < bufSize) (len : UInt8)
    (strBuffer : List UInt8) : turnsLeft (state.push len strBuffer) < turnsLeft state := by
  simp only [turnsLeft, State.push]
  omega

theorem returns_error {buffer : BytePacketBuffer} {error : BufferError} {cursor : Nat}
    (same : exec BytePacketBuffer.readQname buffer = (.error error, buffer.movedTo cursor)) :
    Returns buffer (.error error, cursor) where
  same := same
  endsAt := fun name impossible => by cases impossible

/-- A turn in which a pointer is met. -/
theorem turnAt_pointer {buffer : BytePacketBuffer} {state : State} {len : UInt8}
    (reading : Reading buffer state) (few : state.jumpsPerformed ≤ maxJumps)
    (first : buffer.buf[state.pos]? = some len) (isPointer : len &&& 0xC0 = 0xC0)
    (resumes : exec (finish (maxJumps - state.jumpsPerformed) state.jumped
        (⟨state.pos, state.delim, state.outstr⟩, len)) (buffer.movedTo state.cursor) =
      exec BytePacketBuffer.readQname buffer) :
    ∃ turn, turnAt buffer.buf state len = some turn ∧
      turn.Meets (fun next => Reading buffer next ∧ turnsLeft next < turnsLeft state)
        (Returns buffer) := by
  simp only [finish, if_pos isPointer] at resumes
  rw [BytePacketBuffer.exec_bind_ok (exec_seekUnless _ _ _ _)] at resumes
  rw [turnAt, if_pos isPointer]
  rcases get_cases (buffer.movedTo (if state.jumped then state.cursor else state.pos + 2))
    (state.pos + 1) with ⟨got, -, ran⟩ | ⟨b2, got, -, -, ran⟩
  · rw [BytePacketBuffer.movedTo_buf] at got
    rw [BytePacketBuffer.exec_bind_error ran] at resumes
    exact Turn.exists_leave (by rw [got]; rfl) (returns_error resumes.symm)
  · rw [BytePacketBuffer.movedTo_buf] at got
    rw [BytePacketBuffer.exec_bind_ok ran, readName_eq_resume (by omega)] at resumes
    exact Turn.exists_again (by rw [got]; rfl)
      ⟨reading.jump few first isPointer resumes, turnsLeft_jump few _⟩

/-- A turn in which a label is met. -/
theorem turnAt_label {buffer : BytePacketBuffer} {state : State} {len : UInt8} {left : Nat}
    (reading : Reading buffer state) (few : ¬ maxJumps < state.jumpsPerformed)
    (inside : state.pos < bufSize) (first : buffer.buf[state.pos]? = some len)
    (plain : len &&& 0xC0 = 0) (notPointer : len &&& 0xC0 ≠ 0xC0) (nonempty : len ≠ 0)
    (enough : bufSize ≤ state.pos + (left + 1))
    (resumes : exec ((BytePacketBuffer.getRange (state.pos + 1) len.toNat >>= fun label =>
          readLabels left ⟨state.pos + 1 + len.toNat, [dot],
            state.outstr ++ state.delim ++ labelText label⟩) >>=
        finish (maxJumps - state.jumpsPerformed) state.jumped) (buffer.movedTo state.cursor) =
      exec BytePacketBuffer.readQname buffer) :
    ∃ turn, turnAt buffer.buf state len = some turn ∧
      turn.Meets (fun next => Reading buffer next ∧ turnsLeft next < turnsLeft state)
        (Returns buffer) := by
  rw [turnAt, if_neg notPointer, if_neg (not_not.mpr plain), if_neg nonempty]
  obtain ⟨found, got, ran⟩ :=
    exists_getRange (buffer.movedTo state.cursor) (state.pos + 1) len.toNat
  rw [BytePacketBuffer.movedTo_buf] at got
  rw [bind_assoc] at resumes
  cases found with
  | error error =>
      rw [BytePacketBuffer.exec_bind_error ran] at resumes
      exact Turn.exists_leave (by rw [got]; rfl) (returns_error resumes.symm)
  | ok strBuffer =>
      rw [BytePacketBuffer.exec_bind_ok ran] at resumes
      have notExceeded : ¬ maxJumps < (state.push len strBuffer).jumpsPerformed := few
      have resumed : exec (resume left (state.push len strBuffer)) (buffer.movedTo state.cursor) =
          exec BytePacketBuffer.readQname buffer := by
        rw [resume, if_neg notExceeded]
        exact resumes
      exact Turn.exists_again (by rw [got]; rfl)
        ⟨reading.push first plain nonempty enough resumed, turnsLeft_push inside len strBuffer⟩

theorem keeps_turn (buffer : BytePacketBuffer) :
    Loop.Keeps (turn buffer.buf) (Reading buffer) turnsLeft (Returns buffer) := by
  intro state reading
  obtain ⟨left, enough, resumes⟩ := reading.resumes
  by_cases exceeded : maxJumps < state.jumpsPerformed
  · rw [resume, if_pos exceeded] at resumes
    exact Turn.exists_leave (by rw [turn, if_pos exceeded]) (returns_error resumes.symm)
  · have few : state.jumpsPerformed ≤ maxJumps := Nat.le_of_not_lt exceeded
    rw [resume, if_neg exceeded] at resumes
    rw [turn, if_neg exceeded]
    rcases get_cases (buffer.movedTo state.cursor) state.pos with
      ⟨got, beyond, -⟩ | ⟨len, got, inside, first, ran⟩
    · rw [BytePacketBuffer.movedTo_buf] at got
      rw [BytePacketBuffer.exec_bind_error (exec_readLabels_beyond beyond left)] at resumes
      exact Turn.exists_leave (by rw [got]; rfl) (returns_error resumes.symm)
    · rw [BytePacketBuffer.movedTo_buf] at got first
      obtain ⟨more, rfl⟩ : ∃ more, left = more + 1 := ⟨left - 1, by omega⟩
      rw [got]
      simp only [Option.bind_eq_bind, Option.bind_some]
      rw [readLabels, bind_assoc, BytePacketBuffer.exec_bind_ok ran] at resumes
      by_cases isPointer : len &&& 0xC0 = 0xC0
      · rw [if_pos isPointer, pure_bind] at resumes
        exact turnAt_pointer reading few first isPointer resumes
      · rw [if_neg isPointer] at resumes
        by_cases reserved : len &&& 0xC0 ≠ 0
        · rw [if_pos reserved] at resumes
          exact Turn.exists_leave (by rw [turnAt, if_neg isPointer, if_pos reserved])
            (returns_error resumes.symm)
        · rw [if_neg reserved] at resumes
          have plain := not_not.mp reserved
          by_cases isRoot : len = 0
          · rw [if_pos isRoot, pure_bind] at resumes
            simp only [finish, if_neg isPointer] at resumes
            rw [BytePacketBuffer.exec_bind_ok (exec_seekUnless _ _ _ _)] at resumes
            refine Turn.exists_leave
              (by rw [turnAt, if_neg isPointer, if_neg reserved, if_pos isRoot])
              ⟨resumes.symm, fun _ _ => reading.endsAt (.root (isRoot ▸ first))⟩
          · rw [if_neg isRoot] at resumes
            exact turnAt_label reading exceeded inside first plain isPointer isRoot enough resumes

/-- The loop ends with what the packet model returns. -/
theorem exists_readQname (buffer : BytePacketBuffer) :
    ∃ result, readQname buffer = some result ∧ Returns buffer result :=
  (keeps_turn buffer).exists_run (reading_start buffer) (Nat.lt_succ_self _)

/-! ## Reading is total and local -/

/-- A turn follows a pointer or moves forward. -/
theorem turn_again {buf : List UInt8} {before after : State}
    (goes : turn buf before = some (.again after)) :
    (after.jumpsPerformed = before.jumpsPerformed ∧ before.pos < after.pos) ∨
      after.jumpsPerformed = before.jumpsPerformed + 1 := by
  rw [turn] at goes
  split at goes
  · cases goes
  · obtain ⟨found, -, goes⟩ := Option.bind_eq_some_iff.mp goes
    cases found with
    | error error => cases goes
    | ok len =>
        simp only [turnAt] at goes
        split at goes
        · obtain ⟨low, -, goes⟩ := Option.bind_eq_some_iff.mp goes
          cases low with
          | error error => cases goes
          | ok b2 =>
              cases goes
              exact .inr rfl
        · split at goes
          · cases goes
          · split at goes
            · cases goes
            · obtain ⟨label, -, goes⟩ := Option.bind_eq_some_iff.mp goes
              cases label with
              | error error => cases goes
              | ok strBuffer =>
                  cases goes
                  refine .inl ⟨rfl, ?_⟩
                  simp only [State.push]
                  omega

/-- The labels of a name in wire form have their lengths in six bits, and the
cursor is left behind the part of the name that stands at the start. -/
structure Accepts (buffer : BytePacketBuffer) (name : Text) (stop : Nat) : Prop where
  endsAt : EndsAt buffer.buf buffer.pos stop
  onlyEnd : ∀ other, EndsAt buffer.buf buffer.pos other → other = stop
  labels : ∃ jumps labels, jumps ≤ maxJumps ∧ NameAt buffer.buf jumps buffer.pos labels ∧
    (∀ label ∈ labels, 1 ≤ label.length ∧ label.length ≤ 63) ∧ name = nameText labels

/-- Whatever the octets are, the loop ends without an index out of bounds and
with the result of the packet model. -/
structure TotalAndLocal (buffer : BytePacketBuffer) : Prop where
  ends : ∃ result stop, readQname buffer = some (result, stop) ∧
    exec BytePacketBuffer.readQname buffer = (result, buffer.movedTo stop)
  inside : ∀ state, Loop.Reaches (turn buffer.buf) (start buffer.pos) state →
    (turn buffer.buf state).isSome = true
  jumps : ∀ state, Loop.Reaches (turn buffer.buf) (start buffer.pos) state →
    state.jumpsPerformed ≤ 6
  advances : ∀ before after, Loop.Reaches (turn buffer.buf) (start buffer.pos) before →
    turn buffer.buf before = some (.again after) →
      (after.jumpsPerformed = before.jumpsPerformed ∧ before.pos < after.pos) ∨
        after.jumpsPerformed = before.jumpsPerformed + 1
  accepts : ∀ name stop, readQname buffer = some (.ok name, stop) → Accepts buffer name stop

/-- `read_qname` is total and local, for all contents of the buffer and all
positions of its cursor. -/
theorem readQname_totalAndLocal (buffer : BytePacketBuffer) : TotalAndLocal buffer := by
  obtain ⟨⟨result, stop⟩, ran, returns⟩ := exists_readQname buffer
  have keeps := keeps_turn buffer
  have atStart := reading_start buffer
  refine ⟨⟨result, stop, ran, returns.same⟩, fun _ => keeps.isSome_of_reaches atStart,
    fun _ reaches => (keeps.invariant_of_reaches atStart reaches).jumps_le,
    fun _ _ _ => turn_again, fun name other accepted => ?_⟩
  obtain ⟨rfl, rfl⟩ := Prod.mk.inj (Option.some.inj (ran.symm.trans accepted))
  have endsAt := returns.endsAt name rfl
  obtain ⟨jumps, labels, few, named, areLabels, nameEq⟩ := nameAt_of_exec_readQname returns.same
  refine ⟨endsAt, fun _ others => others.unique endsAt, jumps, labels, few, named, ?_, nameEq⟩
  intro label labelMem
  obtain ⟨nonempty, short, -⟩ := areLabels label labelMem
  exact ⟨List.length_pos_of_ne_nil nonempty, short⟩

/-- A pointer to itself is followed six times. -/
example : readQname (.fromBytes [0xC0, 0]) = some (.error .jumpLimitExceeded, 2) := by
  decide +kernel

end QnameReader

end Numa
