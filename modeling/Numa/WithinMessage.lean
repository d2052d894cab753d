import Numa.MessageWalk
import Numa.ReaderRules

/-!
# Reading within the message

The parser runs side by side on two buffers that hold the same message and
differ behind it.  While the walk over the message finds its octets, both runs
take the same steps.
-/

namespace Numa

open BytePacketBuffer

variable {α β γ δ : Type} {message : List UInt8} {first second buffer after : BytePacketBuffer}

/-- Both buffers start with the message. -/
structure SameMessage (message : List UInt8) (first second : BytePacketBuffer) : Prop where
  fits : message.length ≤ bufSize
  first : first.buf.take message.length = message
  second : second.buf.take message.length = message

namespace SameMessage

theorem movedTo (same : SameMessage message first second) (firstPos secondPos : Nat) :
    SameMessage message (first.movedTo firstPos) (second.movedTo secondPos) :=
  ⟨same.fits, same.first, same.second⟩

theorem symm (same : SameMessage message first second) : SameMessage message second first :=
  ⟨same.fits, same.second, same.first⟩

/-- The octets of the message are those of the first buffer. -/
theorem octetsAt_eq (same : SameMessage message first second) {start len : Nat}
    (inside : start + len ≤ message.length) :
    octetsAt first.buf start len = (message.drop start).take len := by
  have front := congrArg (fun octets => (octets.drop start).take len) same.first
  simp only [List.drop_take, List.take_take] at front
  rw [octetsAt, ← front, Nat.min_eq_left (by omega)]

theorem wireOctet_eq (same : SameMessage message first second) {pos : Nat}
    (inside : pos + 1 ≤ message.length) :
    wireOctet first.buf pos = ((message.drop pos).take 1).getD 0 0 := by
  rw [← same.octetsAt_eq inside, wireOctet]
  simp [octetsAt, List.getD_eq_getElem?_getD]

theorem exec_getAt (same : SameMessage message first second) {pos : Nat}
    (inside : pos + 1 ≤ message.length) :
    exec (getAt pos) first = (.ok (((message.drop pos).take 1).getD 0 0), first) := by
  have fits := same.fits
  exact exec_getAt_eq_ok.mpr ⟨by omega, (same.wireOctet_eq inside).symm, rfl⟩

theorem exec_getRange (same : SameMessage message first second) {start len : Nat}
    (inside : start + len ≤ message.length) :
    exec (getRange start len) first = (.ok ((message.drop start).take len), first) := by
  have fits := same.fits
  exact exec_getRange_eq_ok.mpr ⟨by omega, (same.octetsAt_eq inside).symm, rfl⟩

end SameMessage

theorem exec_getAt_error {pos : Nat} (outside : bufSize ≤ pos) :
    exec (getAt pos) buffer = (.error .endOfBuffer, buffer) := by
  simp only [getAt, exec_get_bind, if_pos outside]
  rfl

theorem exec_getRange_error {start len : Nat} (outside : bufSize < start + len) :
    exec (getRange start len) buffer = (.error .endOfBuffer, buffer) := by
  simp only [getRange, exec_get_bind, if_pos outside]
  rfl

/-- A range is in the message, or no buffer has it, or the message ends in it. -/
theorem octetsIn_cases (message : List UInt8) (stop : WalkStop) (start len : Nat) :
    (start + len ≤ message.length ∧
      Traversal.octetsIn message stop start len = .ok ((message.drop start).take len)) ∨
    (bufSize < start + len ∧ Traversal.octetsIn message stop start len = .error .malformed) ∨
    (message.length < start + len ∧ Traversal.octetsIn message stop start len = .error stop) := by
  unfold Traversal.octetsIn
  split
  · exact .inl ⟨‹_›, rfl⟩
  · split
    · exact .inr (.inl ⟨‹_›, rfl⟩)
    · exact .inr (.inr ⟨by omega, rfl⟩)

/-! ## Names -/

/-- Both runs end with the same error. -/
def BothFail (first second : Except BufferError α × BytePacketBuffer) : Prop :=
  ∃ error, first.1 = .error error ∧ second.1 = .error error

theorem bothFail_bind {action : BufferM α} {next : α → BufferM β}
    (fail : BothFail (exec action first) (exec action second)) :
    BothFail (exec (action >>= next) first) (exec (action >>= next) second) := by
  obtain ⟨error, firstFails, secondFails⟩ := fail
  refine ⟨error, ?_, ?_⟩
  · rw [exec_bind_error (Prod.ext firstFails rfl : exec action first = (.error error, _))]
  · rw [exec_bind_error (Prod.ext secondFails rfl : exec action second = (.error error, _))]

/-- What the labels of a walk say about the reader. -/
structure LabelsTracked (message : List UInt8) (stop : WalkStop) (left : Nat) (cursor : NameCursor)
    (first second : BytePacketBuffer) : Prop where
  found : ∀ {last len}, Traversal.labels message stop left cursor.pos = .ok (last, len) →
    ∃ reached, exec (readLabels left cursor) first = (.ok (reached, len), first) ∧
      exec (readLabels left cursor) second = (.ok (reached, len), second) ∧
      reached.pos = last ∧ cursor.pos ≤ last ∧ last ≤ message.length
  malformed : Traversal.labels message stop left cursor.pos = .error .malformed →
    BothFail (exec (readLabels left cursor) first) (exec (readLabels left cursor) second)
  missing : Traversal.labels message stop left cursor.pos = .error stop →
    ∀ {reached len after}, exec (readLabels left cursor) first = (.ok (reached, len), after) →
      after = first ∧ message.length ≤ reached.pos ∧
        (len &&& 0xC0 ≠ 0xC0 → message.length < reached.pos)

theorem labels_succ (message : List UInt8) (stop : WalkStop) (left pos : Nat) :
    Traversal.labels message stop (left + 1) pos =
      match Traversal.octetsIn message stop pos 1 with
      | .error stop => .error stop
      | .ok first =>
        if first.getD 0 0 &&& 0xC0 = 0xC0 then .ok (pos, first.getD 0 0)
        else if first.getD 0 0 &&& 0xC0 ≠ 0 then .error .malformed
        else if first.getD 0 0 = 0 then .ok (pos + 1, first.getD 0 0)
        else
          match Traversal.octetsIn message stop (pos + 1) (first.getD 0 0).toNat with
          | .error stop => .error stop
          | .ok _ => Traversal.labels message stop left (pos + 1 + (first.getD 0 0).toNat) := by
  rw [Traversal.labels]
  cases Traversal.octetsIn message stop pos 1 with
  | error stop => rfl
  | ok first =>
      simp only [bind, Except.bind]
      split
      · rfl
      · split
        · rfl
        · split
          · rfl
          · cases Traversal.octetsIn message stop (pos + 1) (first.getD 0 0).toNat <;> rfl

section ReadLabels

variable {left : Nat} {cursor : NameCursor} {octet : UInt8}

/-- One round of the reader. -/
theorem exec_readLabels_succ (got : exec (getAt cursor.pos) buffer = (.ok octet, buffer)) :
    exec (readLabels (left + 1) cursor) buffer =
      if octet &&& 0xC0 = 0xC0 then (.ok (cursor, octet), buffer)
      else if octet &&& 0xC0 ≠ 0 then (.error (.reservedLabelBits octet), buffer)
      else if octet = 0 then (.ok ({ cursor with pos := cursor.pos + 1 }, octet), buffer)
      else exec (getRange (cursor.pos + 1) octet.toNat >>= fun label =>
        readLabels left ⟨cursor.pos + 1 + octet.toNat, [dot],
          cursor.outstr ++ cursor.delim ++ labelText label⟩) buffer := by
  rw [readLabels, exec_bind_ok got]
  split
  · rfl
  · split
    · rfl
    · split <;> rfl

/-- Where the labels end that a reader has read. -/
theorem BytePacketBuffer.LabelsRead.pos_le {reached : NameCursor} {len : UInt8}
    (labelsRead : LabelsRead buffer left cursor reached len) :
    cursor.pos ≤ reached.pos ∧ (len &&& 0xC0 ≠ 0xC0 → cursor.pos < reached.pos) := by
  induction labelsRead with
  | pointer got isPointer => exact ⟨le_refl _, fun notPointer => absurd isPointer notPointer⟩
  | root got => exact ⟨Nat.le_succ _, fun _ => Nat.lt_succ_self _⟩
  | label got plain notRoot gotLabel later ih =>
      obtain ⟨further, -⟩ := ih
      simp only at further
      exact ⟨by omega, fun _ => by omega⟩

theorem LabelsTracked.of_found {stop : WalkStop} {last : Nat} {len : UInt8} {reached : NameCursor}
    (eq : Traversal.labels message stop left cursor.pos = .ok (last, len))
    (ranFirst : exec (readLabels left cursor) first = (.ok (reached, len), first))
    (ranSecond : exec (readLabels left cursor) second = (.ok (reached, len), second))
    (posEq : reached.pos = last) (forward : cursor.pos ≤ last) (within : last ≤ message.length) :
    LabelsTracked message stop left cursor first second where
  found := by
    intro other otherLen found
    cases eq.symm.trans found
    exact ⟨reached, ranFirst, ranSecond, posEq, forward, within⟩
  malformed := fun malformed => by cases eq.symm.trans malformed
  missing := fun missing => by cases eq.symm.trans missing

theorem LabelsTracked.of_malformed {stop : WalkStop} (isMissing : stop ≠ .malformed)
    (eq : Traversal.labels message stop left cursor.pos = .error .malformed)
    (fail : BothFail (exec (readLabels left cursor) first) (exec (readLabels left cursor) second)) :
    LabelsTracked message stop left cursor first second where
  found := fun found => by cases eq.symm.trans found
  malformed := fun _ => fail
  missing := fun missing => by
    cases eq.symm.trans missing
    exact absurd rfl isMissing

theorem LabelsTracked.of_missing {stop : WalkStop} (isMissing : stop ≠ .malformed)
    (eq : Traversal.labels message stop left cursor.pos = .error stop)
    (beyond : ∀ {reached len after}, exec (readLabels left cursor) first =
      (.ok (reached, len), after) → after = first ∧ message.length ≤ reached.pos ∧
        (len &&& 0xC0 ≠ 0xC0 → message.length < reached.pos)) :
    LabelsTracked message stop left cursor first second where
  found := fun found => by cases eq.symm.trans found
  malformed := fun malformed => by
    cases eq.symm.trans malformed
    exact absurd rfl isMissing
  missing := fun _ => beyond

end ReadLabels

theorem labelsTracked {stop : WalkStop} (isMissing : stop ≠ .malformed)
    (same : SameMessage message first second) (left : Nat) (cursor : NameCursor) :
    LabelsTracked message stop left cursor first second := by
  induction left generalizing cursor with
  | zero => exact .of_malformed isMissing rfl ⟨_, rfl, rfl⟩
  | succ left ih =>
      have eq := labels_succ message stop left cursor.pos
      rcases octetsIn_cases message stop cursor.pos 1 with
        ⟨within, octetEq⟩ | ⟨outside, octetEq⟩ | ⟨beyond, octetEq⟩
      · rw [octetEq] at eq
        have gotFirst := same.exec_getAt within
        have gotSecond := same.symm.exec_getAt within
        simp only at eq
        generalize ((message.drop cursor.pos).take 1).getD 0 0 = octet at eq gotFirst gotSecond
        have ranFirst : exec (readLabels (left + 1) cursor) first = _ := exec_readLabels_succ gotFirst
        have ranSecond : exec (readLabels (left + 1) cursor) second = _ :=
          exec_readLabels_succ gotSecond
        by_cases isPointer : octet &&& 0xC0 = 0xC0
        · rw [if_pos isPointer] at eq ranFirst ranSecond
          exact .of_found eq ranFirst ranSecond rfl (le_refl _) (by omega)
        rw [if_neg isPointer] at eq ranFirst ranSecond
        by_cases reserved : octet &&& 0xC0 ≠ 0
        · rw [if_pos reserved] at eq ranFirst ranSecond
          exact .of_malformed isMissing eq ⟨_, congrArg Prod.fst ranFirst, congrArg Prod.fst ranSecond⟩
        rw [if_neg reserved] at eq ranFirst ranSecond
        by_cases root : octet = 0
        · rw [if_pos root] at eq ranFirst ranSecond
          exact .of_found eq ranFirst ranSecond rfl (Nat.le_succ _) within
        rw [if_neg root] at eq ranFirst ranSecond
        rcases octetsIn_cases message stop (cursor.pos + 1) octet.toNat with
          ⟨labelWithin, labelEq⟩ | ⟨labelOutside, labelEq⟩ | ⟨labelBeyond, labelEq⟩
        · rw [labelEq] at eq
          rw [exec_bind_ok (same.exec_getRange labelWithin)] at ranFirst
          rw [exec_bind_ok (same.symm.exec_getRange labelWithin)] at ranSecond
          have later := ih ⟨cursor.pos + 1 + octet.toNat, [dot], cursor.outstr ++ cursor.delim ++
            labelText ((message.drop (cursor.pos + 1)).take octet.toNat)⟩
          refine ⟨fun {last len} found => ?_, fun malformed => ?_, fun missing {reached len after} ran => ?_⟩
          · obtain ⟨reached, laterFirst, laterSecond, posEq, forward, lastWithin⟩ :=
              later.found (eq.symm.trans found)
            simp only at forward
            exact ⟨reached, ranFirst.trans laterFirst, ranSecond.trans laterSecond, posEq,
              by omega, lastWithin⟩
          · rw [ranFirst, ranSecond]
            exact later.malformed (eq.symm.trans malformed)
          · exact later.missing (eq.symm.trans missing) (ranFirst.symm.trans ran)
        · rw [labelEq] at eq
          rw [exec_bind_error (exec_getRange_error labelOutside)] at ranFirst ranSecond
          exact .of_malformed isMissing eq ⟨_, congrArg Prod.fst ranFirst, congrArg Prod.fst ranSecond⟩
        · rw [labelEq] at eq
          refine .of_missing isMissing eq fun {reached len after} ran => ?_
          rw [ranFirst] at ran
          obtain ⟨label, last, gotLabel, ranRest⟩ := exec_bind_eq_ok.mp ran
          obtain ⟨-, -, rfl⟩ := exec_getRange_eq_ok.mp gotLabel
          obtain ⟨isSame, labelsRead⟩ := exec_readLabels_eq_ok.mp ranRest
          have further := labelsRead.pos_le.1
          exact ⟨isSame, by simp only at further; omega, fun _ => by simp only at further; omega⟩
      · rw [octetEq] at eq
        refine .of_malformed isMissing eq ⟨.endOfBuffer, ?_, ?_⟩
        · rw [readLabels, exec_bind_error (exec_getAt_error (by omega))]
        · rw [readLabels, exec_bind_error (exec_getAt_error (by omega))]
      · rw [octetEq] at eq
        refine .of_missing isMissing eq fun {reached len after} ran => ?_
        obtain ⟨isSame, labelsRead⟩ := exec_readLabels_eq_ok.mp ran
        obtain ⟨further, forward⟩ := labelsRead.pos_le
        exact ⟨isSame, by omega, fun notPointer => by have := forward notPointer; omega⟩

theorem exec_readName_pointer {jumps : Nat} {cursor reached : NameCursor} {len low : UInt8}
    (ran : exec (readLabels bufSize cursor) buffer = (.ok (reached, len), buffer))
    (isPointer : len &&& 0xC0 = 0xC0)
    (got : exec (getAt (reached.pos + 1)) buffer = (.ok low, buffer)) :
    exec (readName (jumps + 1) true cursor) buffer =
      exec (readName jumps true { reached with pos := pointerTarget len low }) buffer := by
  rw [readName, exec_bind_ok ran]
  simp only [seekUnless, if_true, pure_bind]
  rw [if_pos isPointer, exec_bind_ok got]
  rfl

theorem exec_readName_end {jumps : Nat} {cursor reached : NameCursor} {len : UInt8}
    (ran : exec (readLabels bufSize cursor) buffer = (.ok (reached, len), buffer))
    (notPointer : ¬ len &&& 0xC0 = 0xC0) :
    exec (readName (jumps + 1) true cursor) buffer = (.ok reached.outstr, buffer) := by
  rw [readName, exec_bind_ok ran]
  simp only [seekUnless, if_true, pure_bind]
  rw [if_neg notPointer]
  rfl

theorem bothFail_readName {jumps : Nat} {jumped : Bool} {cursor : NameCursor}
    (fail : BothFail (exec (readLabels bufSize cursor) first)
      (exec (readLabels bufSize cursor) second)) :
    BothFail (exec (readName (jumps + 1) jumped cursor) first)
      (exec (readName (jumps + 1) jumped cursor) second) := by
  rw [readName]
  exact bothFail_bind fail

theorem labels_error {stop error : WalkStop} {left pos : Nat}
    (failed : Traversal.labels message stop left pos = .error error) :
    error = .malformed ∨ error = stop := by
  induction left generalizing pos with
  | zero =>
      cases failed
      exact .inl rfl
  | succ left ih =>
      rw [labels_succ] at failed
      rcases octetsIn_cases message stop pos 1 with
        ⟨-, octetEq⟩ | ⟨-, octetEq⟩ | ⟨-, octetEq⟩
      · rw [octetEq] at failed
        simp only at failed
        split at failed
        · cases failed
        · split at failed
          · cases failed
            exact .inl rfl
          · split at failed
            · cases failed
            · rcases octetsIn_cases message stop (pos + 1)
                (((message.drop pos).take 1).getD 0 0).toNat with
                ⟨-, labelEq⟩ | ⟨-, labelEq⟩ | ⟨-, labelEq⟩
              · rw [labelEq] at failed
                exact ih failed
              · rw [labelEq] at failed
                cases failed
                exact .inl rfl
              · rw [labelEq] at failed
                cases failed
                exact .inr rfl
      · rw [octetEq] at failed
        cases failed
        exact .inl rfl
      · rw [octetEq] at failed
        cases failed
        exact .inr rfl

theorem pointed_error {error : WalkStop} {jumps pos : Nat}
    (failed : Traversal.pointed message jumps pos = .error error) :
    error = .malformed ∨ error = .pointedPastEnd := by
  induction jumps generalizing pos with
  | zero =>
      cases failed
      exact .inl rfl
  | succ jumps ih =>
      rw [Traversal.pointed] at failed
      cases labelsEq : Traversal.labels message .pointedPastEnd bufSize pos with
      | error stop =>
          rw [labelsEq] at failed
          cases failed
          exact labels_error labelsEq
      | ok found =>
          rw [labelsEq] at failed
          simp only [bind, Except.bind] at failed
          split at failed
          · rcases octetsIn_cases message .pointedPastEnd (found.1 + 1) 1 with
              ⟨-, octetEq⟩ | ⟨-, octetEq⟩ | ⟨-, octetEq⟩
            · rw [octetEq] at failed
              exact ih failed
            · rw [octetEq] at failed
              cases failed
              exact .inl rfl
            · rw [octetEq] at failed
              cases failed
              exact .inr rfl
          · cases failed

/-- What a walk along pointers says about the reader. -/
theorem pointed_tracked (same : SameMessage message first second) (jumps : Nat)
    (cursor : NameCursor) :
    (Traversal.pointed message jumps cursor.pos = .ok () →
      ∃ name, exec (readName jumps true cursor) first = (.ok name, first) ∧
        exec (readName jumps true cursor) second = (.ok name, second)) ∧
    (Traversal.pointed message jumps cursor.pos = .error .malformed →
      BothFail (exec (readName jumps true cursor) first)
        (exec (readName jumps true cursor) second)) := by
  induction jumps generalizing cursor with
  | zero => exact ⟨fun found => (by cases found), fun _ => ⟨_, rfl, rfl⟩⟩
  | succ jumps ih =>
      have tracked := labelsTracked (by decide : WalkStop.pointedPastEnd ≠ .malformed) same
        bufSize cursor
      rw [Traversal.pointed]
      cases labelsEq : Traversal.labels message .pointedPastEnd bufSize cursor.pos with
      | error stop =>
          refine ⟨fun found => (by cases found), fun malformed => ?_⟩
          cases malformed
          exact bothFail_readName (tracked.malformed labelsEq)
      | ok found =>
          obtain ⟨last, len⟩ := found
          obtain ⟨reached, ranFirst, ranSecond, rfl, -, -⟩ := tracked.found labelsEq
          simp only [bind, Except.bind]
          by_cases isPointer : len &&& 0xC0 = 0xC0
          · rw [if_pos isPointer]
            rcases octetsIn_cases message .pointedPastEnd (reached.pos + 1) 1 with
              ⟨within, octetEq⟩ | ⟨outside, octetEq⟩ | ⟨-, octetEq⟩
            · rw [octetEq, exec_readName_pointer ranFirst isPointer (same.exec_getAt within),
                exec_readName_pointer ranSecond isPointer (same.symm.exec_getAt within)]
              exact ih { reached with pos := pointerTarget len _ }
            · rw [octetEq]
              refine ⟨fun found => (by cases found), fun _ => ⟨.endOfBuffer, ?_, ?_⟩⟩
              · rw [readName, exec_bind_ok ranFirst]
                simp only [seekUnless, if_true, pure_bind]
                rw [if_pos isPointer, exec_bind_error (exec_getAt_error (by omega))]
              · rw [readName, exec_bind_ok ranSecond]
                simp only [seekUnless, if_true, pure_bind]
                rw [if_pos isPointer, exec_bind_error (exec_getAt_error (by omega))]
            · rw [octetEq]
              exact ⟨fun found => (by cases found), fun malformed => (by cases malformed)⟩
          · rw [if_neg isPointer]
            exact ⟨fun _ => ⟨_, exec_readName_end ranFirst isPointer,
              exec_readName_end ranSecond isPointer⟩, fun malformed => (by cases malformed)⟩

/-! ## Readers that a walk goes along with -/

theorem Traversal.bind_apply (walk : Traversal γ) (next : γ → Traversal δ) (message : List UInt8)
    (pos : Nat) : (walk >>= next) message pos =
      match walk message pos with
      | .ok (value, pos) => next value message pos
      | .error stop => .error stop :=
  rfl

theorem Traversal.bind_pure (walk : Traversal γ) : walk >>= pure = walk := by
  funext message pos
  rw [Traversal.bind_apply]
  cases walk message pos <;> rfl

/-- A reader does not move back. -/
def MovesOn (action : BufferM α) : Prop :=
  ∀ ⦃buffer result after⦄, exec action buffer = (.ok result, after) → buffer.pos ≤ after.pos

theorem MovesOn.bind {action : BufferM α} {next : α → BufferM β} (moves : MovesOn action)
    (later : ∀ result, MovesOn (next result)) : MovesOn (action >>= next) := by
  intro buffer result after ran
  obtain ⟨value, middle, ranAction, ranNext⟩ := exec_bind_eq_ok.mp ran
  exact (moves ranAction).trans (later value ranNext)

theorem movesOn_pure (value : α) : MovesOn (pure value) := by
  intro buffer result after ran
  cases ran
  exact le_refl _

/-- Whatever stands behind the message, the reader does what the walk says: it
reads on to the same position with the same result, or it fails with the same
error.  It does not stop in the message when the walk passes its end. -/
def Tracks (walk : Traversal β) (action : BufferM α) (related : β → α → Prop) : Prop :=
  ∀ ⦃message first second⦄, SameMessage message first second → first.pos = second.pos →
    first.pos ≤ message.length →
    match walk message first.pos with
    | .ok (value, pos) => first.pos ≤ pos ∧ pos ≤ message.length ∧ ∃ result, related value result ∧
        exec action first = (.ok result, first.movedTo pos) ∧
        exec action second = (.ok result, second.movedTo pos)
    | .error .malformed => BothFail (exec action first) (exec action second)
    | .error .pastEnd => ∀ result after, exec action first = (.ok result, after) →
        message.length < after.pos
    | .error .pointedPastEnd => True

section Tracks

variable {walk : Traversal γ} {action : BufferM α} {related : γ → α → Prop}

theorem Tracks.bind {walkNext : γ → Traversal δ} {next : α → BufferM β}
    {relatedNext : δ → β → Prop} (tracks : Tracks walk action related)
    (moves : ∀ result, MovesOn (next result))
    (later : ∀ value result, related value result →
      Tracks (walkNext value) (next result) relatedNext) :
    Tracks (walk >>= walkNext) (action >>= next) relatedNext := by
  intro message first second same posEq inside
  have tracked := tracks same posEq inside
  rw [Traversal.bind_apply]
  cases walked : walk message first.pos with
  | ok found =>
      obtain ⟨value, pos⟩ := found
      rw [walked] at tracked
      obtain ⟨forward, within, result, isRelated, ranFirst, ranSecond⟩ := tracked
      have rest := later value result isRelated (same.movedTo pos pos) rfl within
      rw [exec_bind_ok ranFirst, exec_bind_ok ranSecond]
      simp only [movedTo_pos] at rest ⊢
      cases walkedNext : walkNext value message pos with
      | ok foundNext =>
          rw [walkedNext] at rest
          obtain ⟨nextForward, rest⟩ := rest
          exact ⟨forward.trans nextForward, rest⟩
      | error stop =>
          rw [walkedNext] at rest
          cases stop <;> exact rest
  | error stop =>
      rw [walked] at tracked
      cases stop with
      | malformed => exact bothFail_bind tracked
      | pastEnd =>
          intro result after ran
          obtain ⟨value, middle, ranAction, ranNext⟩ := exec_bind_eq_ok.mp ran
          exact (tracked value middle ranAction).trans_le (moves value ranNext)
      | pointedPastEnd => trivial

theorem tracks_pure {value : γ} {result : α} (isRelated : related value result) :
    Tracks (pure value) (pure result) related := by
  intro message first second same posEq inside
  refine ⟨le_refl _, inside, result, isRelated, rfl, ?_⟩
  rw [posEq]
  rfl

theorem Tracks.mono {other : γ → α → Prop} (tracks : Tracks walk action related)
    (weaker : ∀ value result, related value result → other value result) :
    Tracks walk action other := by
  intro message first second same posEq inside
  have tracked := tracks same posEq inside
  cases walked : walk message first.pos with
  | ok found =>
      obtain ⟨value, pos⟩ := found
      rw [walked] at tracked
      obtain ⟨forward, within, result, isRelated, ran⟩ := tracked
      exact ⟨forward, within, result, weaker value result isRelated, ran⟩
  | error stop =>
      rw [walked] at tracked
      cases stop <;> exact tracked

/-- What is done next may depend on the position. -/
theorem Tracks.cursor {walkNext : Nat → Traversal γ} {next : Nat → BufferM α}
    (later : ∀ pos, Tracks (walkNext pos) (next pos) related) :
    Tracks (Traversal.cursor >>= walkNext) (get >>= fun buffer => next buffer.pos) related := by
  intro message first second same posEq inside
  have tracked := later first.pos same posEq inside
  rw [exec_get_bind, exec_get_bind, ← posEq]
  exact tracked

end Tracks

/-! ## Octets -/

/-- The reader takes this many octets and returns this value of them. -/
def ReadsOctets (len : Nat) (action : BufferM α) (value : List UInt8 → α) : Prop :=
  ∀ buffer : BytePacketBuffer,
    (buffer.pos + len ≤ bufSize → exec action buffer =
      (.ok (value (octetsAt buffer.buf buffer.pos len)), buffer.movedTo (buffer.pos + len))) ∧
    (bufSize < buffer.pos + len → (exec action buffer).1 = .error .endOfBuffer)

theorem octetsAt_take (buf : List UInt8) (pos fewer len : Nat) :
    (octetsAt buf pos (fewer + len)).take fewer = octetsAt buf pos fewer := by
  rw [octetsAt, octetsAt, List.take_take, Nat.min_eq_left (Nat.le_add_right _ _)]

theorem octetsAt_drop (buf : List UInt8) (pos fewer len : Nat) :
    (octetsAt buf pos (fewer + len)).drop fewer = octetsAt buf (pos + fewer) len := by
  rw [octetsAt, octetsAt, List.drop_take, List.drop_drop, Nat.add_sub_cancel_left]

theorem ReadsOctets.bind {fewer len : Nat} {action : BufferM α} {next : α → BufferM β}
    {value : List UInt8 → α} {later : α → List UInt8 → β} (reads : ReadsOctets fewer action value)
    (readsNext : ∀ result, ReadsOctets len (next result) (later result)) :
    ReadsOctets (fewer + len) (action >>= next) fun octets =>
      later (value (octets.take fewer)) (octets.drop fewer) := by
  intro buffer
  obtain ⟨fits, overflows⟩ := reads buffer
  refine ⟨fun room => ?_, fun outside => ?_⟩
  · dsimp only
    rw [exec_bind_ok (fits (by omega)), octetsAt_take, octetsAt_drop]
    obtain ⟨fitsNext, -⟩ := readsNext (value (octetsAt buffer.buf buffer.pos fewer))
      (buffer.movedTo (buffer.pos + fewer))
    rw [fitsNext (by simp only [movedTo_pos]; omega)]
    simp [Nat.add_assoc]
  · by_cases room : buffer.pos + fewer ≤ bufSize
    · rw [exec_bind_ok (fits room)]
      obtain ⟨-, overflowsNext⟩ := readsNext (value (octetsAt buffer.buf buffer.pos fewer))
        (buffer.movedTo (buffer.pos + fewer))
      exact overflowsNext (by simp only [movedTo_pos]; omega)
    · rw [exec_bind_error (Prod.ext (overflows (by omega)) rfl :
        exec action buffer = (.error .endOfBuffer, _))]

theorem ReadsOctets.map {len : Nat} {action : BufferM α} {value : List UInt8 → α}
    (reads : ReadsOctets len action value) (change : α → β) :
    ReadsOctets len (action >>= fun result => pure (change result)) fun octets =>
      change (value octets) := by
  intro buffer
  obtain ⟨fits, overflows⟩ := reads buffer
  refine ⟨fun room => by rw [exec_bind_ok (fits room), exec_pure], fun outside => ?_⟩
  rw [exec_bind_error (Prod.ext (overflows outside) rfl :
    exec action buffer = (.error .endOfBuffer, _))]

theorem readsOctets_read : ReadsOctets 1 BytePacketBuffer.read fun octets => octets.getD 0 0 := by
  intro buffer
  refine ⟨fun room => ?_, fun outside => ?_⟩
  · rw [exec_read_eq_ok.mpr ⟨room, rfl, rfl⟩, wireOctet]
    simp [octetsAt, List.getD_eq_getElem?_getD]
  · simp only [BytePacketBuffer.read, exec_get_bind]
    rw [if_pos (by omega)]
    rfl

theorem readsOctets_readU16 : ReadsOctets 2 readU16 fun octets => wireU16 octets 0 := by
  have reads := readsOctets_read.bind fun high => readsOctets_read.map fun low =>
    high.toUInt16 <<< 8 ||| low.toUInt16
  intro buffer
  obtain ⟨fits, overflows⟩ := reads buffer
  refine ⟨fun room => ?_, overflows⟩
  rw [readU16, fits room]
  simp [wireU16, wireOctet, List.getD_eq_getElem?_getD]

theorem readsOctets_readU32 : ∃ value, ReadsOctets 4 readU32 value :=
  ⟨_, readsOctets_read.bind fun _ => readsOctets_read.bind fun _ => readsOctets_read.bind fun _ =>
    readsOctets_read.map _⟩

theorem readsOctets_readOctets (len : Nat) : ReadsOctets len (readOctets len) id := by
  intro buffer
  refine ⟨fun room => exec_readOctets_eq_ok.mpr ⟨room, rfl, rfl⟩, fun outside => ?_⟩
  rw [readOctets, exec_get_bind, exec_bind_error (exec_getRange_error outside)]

theorem ReadsOctets.movesOn {len : Nat} {action : BufferM α} {value : List UInt8 → α}
    (reads : ReadsOctets len action value) : MovesOn action := by
  intro buffer result after ran
  obtain ⟨fits, overflows⟩ := reads buffer
  by_cases room : buffer.pos + len ≤ bufSize
  · cases (fits room).symm.trans ran
    exact Nat.le_add_right _ _
  · have failed := overflows (by omega)
    rw [ran] at failed
    cases failed

/-- A walk over octets goes along with a reader of as many. -/
theorem ReadsOctets.tracks {len : Nat} {action : BufferM α} {value : List UInt8 → α}
    (reads : ReadsOctets len action value) :
    Tracks (Traversal.octets len) action fun octets result => result = value octets := by
  intro message first second same posEq inside
  have fits := same.fits
  obtain ⟨firstFits, firstOverflows⟩ := reads first
  obtain ⟨secondFits, secondOverflows⟩ := reads second
  rw [← posEq] at secondFits secondOverflows
  rw [Traversal.octets]
  rcases octetsIn_cases message .pastEnd first.pos len with
    ⟨within, octetsEq⟩ | ⟨outside, octetsEq⟩ | ⟨beyond, octetsEq⟩
  · rw [octetsEq]
    refine ⟨Nat.le_add_right _ _, within, _, rfl, ?_, ?_⟩
    · rw [firstFits (by omega), same.octetsAt_eq within]
    · rw [secondFits (by omega), same.symm.octetsAt_eq within]
  · rw [octetsEq]
    exact ⟨_, firstOverflows outside, secondOverflows outside⟩
  · rw [octetsEq]
    intro result after ran
    by_cases room : first.pos + len ≤ bufSize
    · cases (firstFits room).symm.trans ran
      exact beyond
    · have failed := firstOverflows (by omega)
      rw [ran] at failed
      cases failed

theorem movesOn_readQname : MovesOn readQname := by
  intro buffer name after ran
  obtain ⟨stop, skipped, rfl⟩ := exec_readQname_skip ran
  exact (skipLabels_gt skipped).le

theorem exec_readQname (buffer : BytePacketBuffer) :
    exec readQname buffer = exec (readName (maxJumps + 1) false ⟨buffer.pos, [], []⟩) buffer := by
  rw [readQname, exec_get_bind]

theorem exec_readName_first {jumps : Nat} {cursor reached : NameCursor} {len : UInt8}
    (ran : exec (readLabels bufSize cursor) buffer = (.ok (reached, len), buffer))
    (isPointer : len &&& 0xC0 = 0xC0) :
    exec (readName (jumps + 1) false cursor) buffer =
      exec (getAt (reached.pos + 1) >>= fun second =>
        readName jumps true { reached with pos := pointerTarget len second })
        (buffer.movedTo (reached.pos + 2)) := by
  rw [readName, exec_bind_ok ran]
  simp only
  rw [if_pos isPointer]
  rfl

theorem exec_readName_whole {jumps : Nat} {cursor reached : NameCursor} {len : UInt8}
    (ran : exec (readLabels bufSize cursor) buffer = (.ok (reached, len), buffer))
    (notPointer : ¬ len &&& 0xC0 = 0xC0) :
    exec (readName (jumps + 1) false cursor) buffer =
      (.ok reached.outstr, buffer.movedTo reached.pos) := by
  rw [readName, exec_bind_ok ran]
  simp only
  rw [if_neg notPointer]
  rfl

theorem tracks_readQname : Tracks Traversal.qname readQname fun _ _ => True := by
  intro message first second same posEq inside
  have tracked := labelsTracked (by decide : WalkStop.pastEnd ≠ .malformed) same bufSize
    ⟨first.pos, [], []⟩
  rw [exec_readQname, exec_readQname, ← posEq, Traversal.qname]
  cases labelsEq : Traversal.labels message .pastEnd bufSize first.pos with
  | error stop =>
      cases stop with
      | malformed => exact bothFail_readName (tracked.malformed labelsEq)
      | pastEnd =>
          intro name after ran
          rw [readName, exec_bind_eq_ok] at ran
          obtain ⟨⟨reached, len⟩, middle, ranLabels, ran⟩ := ran
          obtain ⟨rfl, beyond, further⟩ := tracked.missing labelsEq ranLabels
          simp only [seekUnless, Bool.false_eq_true, if_false] at ran
          split at ran
          · obtain ⟨_, sought, seeked, ran⟩ := exec_bind_eq_ok.mp ran
            cases seeked
            obtain ⟨low, last, got, ranRest⟩ := exec_bind_eq_ok.mp ran
            obtain ⟨-, -, rfl⟩ := exec_getAt_eq_ok.mp got
            rw [exec_readName_jumped ranRest]
            exact Nat.lt_add_right 1 (Nat.lt_succ_of_le beyond)
          · rename_i notPointer
            obtain ⟨_, sought, seeked, ran⟩ := exec_bind_eq_ok.mp ran
            cases seeked
            cases ran
            exact further notPointer
      | pointedPastEnd => trivial
  | ok found =>
      obtain ⟨last, len⟩ := found
      obtain ⟨reached, ranFirst, ranSecond, rfl, forward, within⟩ := tracked.found labelsEq
      simp only [bind, Except.bind] at forward ⊢
      by_cases isPointer : len &&& 0xC0 = 0xC0
      · rw [if_pos isPointer]
        have jumpedFirst : exec (readName (maxJumps + 1) false ⟨first.pos, [], []⟩) first = _ :=
          exec_readName_first ranFirst isPointer
        have jumpedSecond : exec (readName (maxJumps + 1) false ⟨first.pos, [], []⟩) second = _ :=
          exec_readName_first ranSecond isPointer
        rcases octetsIn_cases message .pastEnd (reached.pos + 1) 1 with
          ⟨lowWithin, octetEq⟩ | ⟨outside, octetEq⟩ | ⟨beyond, octetEq⟩
        · rw [octetEq]
          simp only
          have moved := same.movedTo (reached.pos + 2) (reached.pos + 2)
          rw [exec_bind_ok (moved.exec_getAt lowWithin)] at jumpedFirst
          rw [exec_bind_ok (moved.symm.exec_getAt lowWithin)] at jumpedSecond
          obtain ⟨goesOn, fails⟩ := pointed_tracked moved maxJumps
            { reached with pos := pointerTarget len (((message.drop (reached.pos + 1)).take 1).getD 0 0) }
          cases pointedEq : Traversal.pointed message maxJumps
              (pointerTarget len (((message.drop (reached.pos + 1)).take 1).getD 0 0)) with
          | ok _ =>
              obtain ⟨name, readFirst, readSecond⟩ := goesOn pointedEq
              exact ⟨by omega, lowWithin, name, trivial, jumpedFirst.trans readFirst,
                jumpedSecond.trans readSecond⟩
          | error stop =>
              rcases pointed_error pointedEq with rfl | rfl
              · obtain ⟨error, failFirst, failSecond⟩ := fails pointedEq
                exact ⟨error, by rw [jumpedFirst, failFirst], by rw [jumpedSecond, failSecond]⟩
              · trivial
        · rw [octetEq]
          refine ⟨.endOfBuffer, ?_, ?_⟩
          · rw [jumpedFirst, exec_bind_error (exec_getAt_error (by omega))]
          · rw [jumpedSecond, exec_bind_error (exec_getAt_error (by omega))]
        · rw [octetEq]
          intro name after ran
          obtain ⟨low, last, got, ranRest⟩ := exec_bind_eq_ok.mp (jumpedFirst.symm.trans ran)
          obtain ⟨-, -, rfl⟩ := exec_getAt_eq_ok.mp got
          rw [exec_readName_jumped ranRest]
          exact beyond
      · rw [if_neg isPointer]
        exact ⟨forward, within, reached.outstr, trivial, exec_readName_whole ranFirst isPointer,
          exec_readName_whole ranSecond isPointer⟩

/-! ## Readers and walks whose parts follow one another -/

/-- The reader moves on, and the walk goes along with it. -/
structure TrackedBy (related : γ → α → Prop) (walk : Traversal γ) (action : BufferM α) : Prop where
  moves : MovesOn action
  tracks : Tracks walk action related

/-- The walk goes along with the reader, whatever their results. -/
abbrev Tracked (walk : Traversal γ) (action : BufferM α) : Prop :=
  TrackedBy (fun _ _ => True) walk action

namespace TrackedBy

variable {walk : Traversal γ} {walkNext : Traversal δ} {action : BufferM α} {next : α → BufferM β}
  {related : γ → α → Prop} {relatedNext : δ → β → Prop}

theorem andThen (tracked : TrackedBy related walk action)
    (later : ∀ result, TrackedBy relatedNext walkNext (next result)) :
    TrackedBy relatedNext (walk >>= fun _ => walkNext) (action >>= next) where
  moves := tracked.moves.bind fun result => (later result).moves
  tracks := tracked.tracks.bind (fun result => (later result).moves) fun _ result _ =>
    (later result).tracks

/-- What the walk does next may depend on what is read. -/
theorem bindOf {of : α → γ} {walkNext : γ → Traversal δ}
    (tracked : TrackedBy (fun value result => value = of result) walk action)
    (later : ∀ result, TrackedBy relatedNext (walkNext (of result)) (next result)) :
    TrackedBy relatedNext (walk >>= walkNext) (action >>= next) where
  moves := tracked.moves.bind fun result => (later result).moves
  tracks := tracked.tracks.bind (fun result => (later result).moves) fun _ result isOf =>
    isOf ▸ (later result).tracks

theorem cursor {walkNext : Nat → Traversal γ} {next : Nat → BufferM α}
    (later : ∀ pos, TrackedBy related (walkNext pos) (next pos)) :
    TrackedBy related (Traversal.cursor >>= walkNext) (get >>= fun buffer => next buffer.pos) where
  moves := by
    intro buffer result after ran
    rw [exec_get_bind] at ran
    exact (later buffer.pos).moves ran
  tracks := .cursor fun pos => (later pos).tracks

theorem ite {condition : Prop} [Decidable condition] {other : Traversal γ} {another : BufferM α}
    (holds : TrackedBy related walk action) (fails : TrackedBy related other another) :
    TrackedBy related (if condition then walk else other)
      (if condition then action else another) := by
  split
  · exact holds
  · exact fails

end TrackedBy

theorem tracked_throw (error : BufferError) :
    Tracked (Traversal.malformed : Traversal γ) (throw error : BufferM α) where
  moves := by
    intro buffer result after ran
    cases ran
  tracks := fun _ _ _ _ _ _ => ⟨error, rfl, rfl⟩

theorem trackedBy_pure {related : γ → α → Prop} {value : γ} {result : α}
    (isRelated : related value result) : TrackedBy related (pure value) (pure result) :=
  ⟨movesOn_pure result, tracks_pure isRelated⟩

theorem tracked_pure (value : γ) (result : α) : Tracked (pure value) (pure result) :=
  trackedBy_pure trivial

/-- The result may be changed. -/
theorem TrackedBy.map {walk : Traversal γ} {action : BufferM α} {related : γ → α → Prop}
    (tracked : TrackedBy related walk action) (change : α → β) :
    Tracked walk (action >>= fun result => pure (change result)) where
  moves := tracked.moves.bind fun result => movesOn_pure (change result)
  tracks := by
    have tracks : Tracks (walk >>= pure) (action >>= fun result => pure (change result))
        fun _ _ => True :=
      tracked.tracks.bind (fun result => movesOn_pure (change result)) fun _ _ _ =>
        tracks_pure trivial
    rwa [Traversal.bind_pure] at tracks

theorem tracked_readQname : Tracked Traversal.qname readQname :=
  ⟨movesOn_readQname, tracks_readQname⟩

theorem ReadsOctets.tracked {len : Nat} {action : BufferM α} {value : List UInt8 → α}
    (reads : ReadsOctets len action value) : Tracked (Traversal.octets len) action :=
  ⟨reads.movesOn, reads.tracks.mono fun _ _ _ => trivial⟩

/-- What is done next may depend on the value that is read. -/
theorem ReadsOctets.trackedBind {len : Nat} {action : BufferM α} {value : List UInt8 → α}
    {related : γ → β → Prop} {walkNext : α → Traversal γ} {next : α → BufferM β}
    (reads : ReadsOctets len action value)
    (later : ∀ result, TrackedBy related (walkNext result) (next result)) :
    TrackedBy related (Traversal.octets len >>= fun octets => walkNext (value octets))
      (action >>= next) where
  moves := reads.movesOn.bind fun result => (later result).moves
  tracks := reads.tracks.bind (fun result => (later result).moves) fun _ result isValue =>
    isValue ▸ (later result).tracks

theorem tracked_readU16 : Tracked (Traversal.octets 2) readU16 :=
  readsOctets_readU16.tracked

/-- The walk knows the number that is read. -/
theorem trackedBy_number : TrackedBy (fun value result => value = result) Traversal.number readU16 where
  moves := readsOctets_readU16.movesOn
  tracks := by
    have tracks : Tracks Traversal.number (readU16 >>= pure) fun value result => value = result :=
      readsOctets_readU16.tracks.bind movesOn_pure fun _ _ isValue => tracks_pure isValue.symm
    rwa [bind_pure] at tracks

theorem tracked_readU32 : Tracked (Traversal.octets 4) readU32 :=
  have ⟨_, reads⟩ := readsOctets_readU32
  reads.tracked

end Numa
