import Numa.NameCodec

/-!
# Writing any name text

`write_qname` takes any text: the labels that it writes are what is left of the
text when escapes are resolved and empty labels dropped.  The writer fails on a
broken escape and on a long label, and otherwise when the name does not fit.
-/

namespace Numa

open BytePacketBuffer

/-! ## The labels of a text -/

/-- The label with one more octet, which may not be its 64th. -/
def pushOctet (label : List UInt8) (octet : UInt8) : Option (List UInt8) :=
  if 63 ≤ label.length then none else some (label ++ [octet])

/-- A label that ends at a dot. -/
def closedLabel (label : List UInt8) : List (List UInt8) :=
  if label = [] then [] else [label]

/-- The labels of a text whose first one has begun with these octets. -/
def labelsFrom (label : List UInt8) : Text → Option (List (List UInt8))
  | [] => some [label]
  | octet :: rest =>
    if octet = dot then
      if rest = [] then some (closedLabel label)
      else (labelsFrom [] rest).map (closedLabel label ++ ·)
    else if octet = backslash then
      match rest with
      | [] => none
      | first :: rest =>
        if isAsciiDigit first then
          match rest with
          | second :: third :: rest =>
            if isAsciiDigit second && isAsciiDigit third then
              let val := (first - 0x30).toNat * 100 +
                (second - 0x30).toNat * 10 + (third - 0x30).toNat
              if val > 255 then none
              else (pushOctet label val.toUInt8).bind fun label => labelsFrom label rest
            else none
          | _ => none
        else (pushOctet label first).bind fun label => labelsFrom label rest
    else (pushOctet label octet).bind fun label => labelsFrom label rest

/-- The labels that `write_qname` writes for a text, if it is one of a name. -/
def textLabels (name : Text) : Option (List (List UInt8)) :=
  if name = [] ∨ name = [dot] then some [] else labelsFrom [] name

/-- What the parser and the writer make of a text that goes on inside a label:
they take the same octet off it, or both stop at a broken escape. -/
inductive Advances (name : Text) : Prop
  | octet (val : UInt8) (rest : Text) (shorter : rest.length < name.length)
      (parsed : ∀ label, labelsFrom label name =
        (pushOctet label val).bind fun label => labelsFrom label rest)
      (written : ∀ lenPos bodyStart, writeLabels lenPos bodyStart name = do
        write val
        checkLabel bodyStart
        writeLabels lenPos bodyStart rest)
  | broken (parsed : ∀ label, labelsFrom label name = none)
      (written : ∀ lenPos bodyStart, ∃ error,
        writeLabels lenPos bodyStart name = throw error)

theorem advances_escape (rest : Text) : Advances (backslash :: rest) := by
  have notDot : backslash ≠ dot := by decide
  cases rest with
  | nil =>
      refine .broken (fun label => ?_) fun lenPos bodyStart => ⟨.trailingBackslash, ?_⟩
      · rw [labelsFrom.eq_def]
        simp [notDot]
      · rw [writeLabels.eq_def]
        simp [notDot]
  | cons first rest =>
      cases digit : isAsciiDigit first with
      | false =>
          refine .octet first rest (by simp only [List.length_cons]; omega) (fun label => ?_) fun lenPos bodyStart => ?_
          · rw [labelsFrom.eq_def]
            simp [notDot, digit]
          · rw [writeLabels.eq_def]
            simp [notDot, digit]
      | true =>
          rcases rest with _ | ⟨second, _ | ⟨third, rest⟩⟩
          · refine .broken (fun label => ?_) fun lenPos bodyStart => ⟨.invalidDecimalEscape, ?_⟩
            · rw [labelsFrom.eq_def]
              simp [notDot, digit]
            · rw [writeLabels.eq_def]
              simp [notDot, digit]
          · refine .broken (fun label => ?_) fun lenPos bodyStart => ⟨.invalidDecimalEscape, ?_⟩
            · rw [labelsFrom.eq_def]
              simp [notDot, digit]
            · rw [writeLabels.eq_def]
              simp [notDot, digit]
          · cases digits : isAsciiDigit second && isAsciiDigit third with
            | false =>
                refine .broken (fun label => ?_) fun lenPos bodyStart => ⟨.invalidDecimalEscape, ?_⟩
                · rw [labelsFrom.eq_def]
                  simp [notDot, digit, digits]
                · rw [writeLabels.eq_def]
                  simp [notDot, digit, digits]
            | true =>
                by_cases large : (first - 0x30).toNat * 100 + (second - 0x30).toNat * 10 +
                    (third - 0x30).toNat > 255
                · refine .broken (fun label => ?_) fun lenPos bodyStart =>
                    ⟨.decimalEscapeOutOfRange ((first - 0x30).toNat * 100 +
                      (second - 0x30).toNat * 10 + (third - 0x30).toNat), ?_⟩
                  · rw [labelsFrom.eq_def]
                    simp [notDot, digit, digits, large]
                  · rw [writeLabels.eq_def]
                    simp [notDot, digit, digits, large]
                · refine .octet ((first - 0x30).toNat * 100 + (second - 0x30).toNat * 10 +
                    (third - 0x30).toNat).toUInt8 rest (by simp; omega) (fun label => ?_)
                    fun lenPos bodyStart => ?_
                  · rw [labelsFrom.eq_def]
                    simp [notDot, digit, digits, large]
                  · rw [writeLabels.eq_def]
                    simp [notDot, digit, digits, large]

theorem advances (octet : UInt8) (rest : Text) (notDot : octet ≠ dot) :
    Advances (octet :: rest) := by
  by_cases escape : octet = backslash
  · subst escape
    exact advances_escape rest
  · refine .octet octet rest (by simp) (fun label => ?_) fun lenPos bodyStart => ?_
    · rw [labelsFrom.eq_def]
      simp [notDot, escape]
    · rw [writeLabels.eq_def]
      simp [notDot, escape]

/-- Induction along the octets that the parser and the writer take off a text. -/
@[elab_as_elim]
theorem labels_induction {motive : Text → Prop} (nil : motive [])
    (atDot : ∀ rest, motive rest → motive (dot :: rest))
    (octet : ∀ name val rest,
      (∀ label, labelsFrom label name =
        (pushOctet label val).bind fun label => labelsFrom label rest) →
      (∀ lenPos bodyStart, writeLabels lenPos bodyStart name = do
        write val
        checkLabel bodyStart
        writeLabels lenPos bodyStart rest) → motive rest → motive name)
    (broken : ∀ name, (∀ label, labelsFrom label name = none) →
      (∀ lenPos bodyStart, ∃ error, writeLabels lenPos bodyStart name = throw error) →
        motive name) (name : Text) : motive name :=
  match name with
  | [] => nil
  | head :: rest => by
    by_cases isDot : head = dot
    · subst isDot
      exact atDot rest (labels_induction nil atDot octet broken rest)
    · cases advances head rest isDot with
      | octet val tail shorter parsed written =>
          exact octet _ val tail parsed written (labels_induction nil atDot octet broken tail)
      | broken parsed written => exact broken _ parsed written
termination_by name.length
decreasing_by
  · exact Nat.lt_succ_self _
  · exact shorter

theorem pushOctet_eq_some {label longer : List UInt8} {octet : UInt8} :
    pushOctet label octet = some longer ↔ label.length < 63 ∧ longer = label ++ [octet] := by
  unfold pushOctet
  split
  · simp
    omega
  · simp [eq_comm]
    omega

theorem length_wireName_pos (labels : List (List UInt8)) : 0 < (wireName labels).length := by
  simp [wireName]

theorem length_wireName_cons (label : List UInt8) (labels : List (List UInt8)) :
    (wireName (label :: labels)).length = 1 + label.length + (wireName labels).length := by
  simp only [wireName, wireLabelsOf, wireLabel, List.flatMap_cons, List.length_append,
    List.length_cons]
  omega

theorem labelsFrom_dot (label : List UInt8) (rest : Text) :
    labelsFrom label (dot :: rest) =
      if rest = [] then some (closedLabel label)
      else (labelsFrom [] rest).map (closedLabel label ++ ·) := by
  rw [labelsFrom.eq_def]
  simp

/-- The labels of a text contain the one that has begun. -/
theorem length_wireName_of_labelsFrom {label : List UInt8} {name : Text}
    {labels : List (List UInt8)} (nonempty : label ≠ [])
    (found : labelsFrom label name = some labels) :
    label.length + 2 ≤ (wireName labels).length := by
  induction name using labels_induction generalizing label labels with
  | nil =>
      obtain rfl := Option.some.inj found
      have root := length_wireName_pos []
      rw [length_wireName_cons]
      omega
  | atDot rest ih =>
      rw [labelsFrom_dot, closedLabel, if_neg nonempty] at found
      split at found
      · obtain rfl := Option.some.inj found
        have root := length_wireName_pos []
        rw [length_wireName_cons]
        omega
      · obtain ⟨later, -, rfl⟩ := Option.map_eq_some_iff.mp found
        have laterPos := length_wireName_pos later
        rw [List.singleton_append, length_wireName_cons]
        omega
  | octet name val rest parsed written ih =>
      rw [parsed] at found
      obtain ⟨longer, pushed, foundRest⟩ := Option.bind_eq_some_iff.mp found
      obtain ⟨-, rfl⟩ := pushOctet_eq_some.mp pushed
      have long := ih (by simp) foundRest
      rw [List.length_append, List.length_singleton] at long
      omega
  | broken name parsed written =>
      rw [parsed] at found
      cases found

/-! ## What is written -/

/-- What has become of a name with these labels that was to be written. -/
def Settles (base : BytePacketBuffer) (outcome : Except BufferError Unit × BytePacketBuffer) :
    Option (List (List UInt8)) → Prop
  | some labels =>
    (base.pos + (wireName labels).length ≤ bufSize →
      outcome.1 = .ok () ∧ Extends base (wireName labels) outcome.2) ∧
    (bufSize < base.pos + (wireName labels).length →
      outcome.1 = .error .endOfBuffer ∧ outcome.2.overflow = true)
  | none => ∃ error, outcome.1 = .error error

section Settles

variable {base buffer : BytePacketBuffer} {result : Option (List (List UInt8))}

theorem settles_of_overflow {outcome : Except BufferError Unit × BytePacketBuffer}
    (failed : outcome.1 = .error .endOfBuffer) (overflowed : outcome.2.overflow = true)
    (long : ∀ labels, result = some labels → bufSize < base.pos + (wireName labels).length) :
    Settles base outcome result := by
  cases result with
  | none => exact ⟨_, failed⟩
  | some labels =>
      have tooLong := long labels rfl
      exact ⟨fun fits => by omega, fun _ => ⟨failed, overflowed⟩⟩

theorem exec_write_overflow (full : bufSize ≤ buffer.pos) (val : UInt8) :
    exec (write val) buffer = (.error .endOfBuffer, { buffer with overflow := true }) := by
  simp only [write, exec_get_bind]
  rw [if_pos full]
  rfl

theorem exec_write_fits (room : buffer.pos < bufSize) (val : UInt8) :
    ∃ after, exec (write val) buffer = (.ok (), after) ∧ Extends buffer [val] after := by
  obtain ⟨fits, -⟩ := writes_write val buffer (by omega)
  obtain ⟨_, after, ran, extended⟩ := fits room
  exact ⟨after, ran, extended⟩

/-- The labels of the rest of a name behind those that are written. -/
theorem Settles.behind {middle : BytePacketBuffer} {label : List UInt8}
    {outcome : Except BufferError Unit × BytePacketBuffer} (inside : base.pos ≤ bufSize)
    (written : Extends base (wireLabel label) middle) (settles : Settles middle outcome result) :
    Settles base outcome (result.map (label :: ·)) := by
  cases result with
  | none => exact settles
  | some labels =>
      have wireEq : wireName (label :: labels) = wireLabel label ++ wireName labels := by
        simp [wireName, wireLabelsOf]
      obtain ⟨fits, overflows⟩ := settles
      rw [written.pos] at fits overflows
      simp only [Option.map_some, Settles, wireEq, List.length_append]
      refine ⟨fun room => ?_, fun tooLong => overflows (by omega)⟩
      obtain ⟨done, extended⟩ := fits (by omega)
      exact ⟨done, written.trans extended inside⟩

/-- The end of a name. -/
theorem settles_write_root (inside : base.pos ≤ bufSize) :
    Settles base (exec (write 0) base) (some []) := by
  obtain ⟨fits, overflows⟩ := writes_write 0 base inside
  refine ⟨fun room => ?_, fun tooLong => ?_⟩
  · obtain ⟨_, after, ran, extended⟩ := fits room
    rw [ran]
    exact ⟨rfl, extended⟩
  · obtain ⟨after, ran, overflowed⟩ := overflows tooLong
    rw [ran]
    exact ⟨rfl, overflowed⟩

theorem BytePacketBuffer.Extends.inside {octets : List UInt8} (extended : Extends base octets buffer)
    (inside : base.pos ≤ bufSize) : buffer.pos ≤ bufSize := by
  have lengths := congrArg List.length extended.buf
  simp only [List.length_append, List.length_take, List.length_drop, buffer.size_eq,
    base.size_eq] at lengths
  rw [extended.pos]
  omega

/-- A label with octets, or the last one, is closed. -/
theorem exec_closeLabel {label : List UInt8} (inside : base.pos ≤ bufSize)
    (inLabel : Extends base (0 :: label) buffer) {atEnd : Bool}
    (closes : label ≠ [] ∨ atEnd = true) :
    ∃ after, exec (closeLabel base.pos (base.pos + 1) atEnd) buffer = (.ok (), after) ∧
      Extends base (wireLabel label) after := by
  have posEq : buffer.pos = base.pos + (label.length + 1) := inLabel.pos
  have bufferInside := inLabel.inside inside
  have lengthEq : buffer.pos - (base.pos + 1) = label.length := by omega
  refine ⟨_, ?_, inLabel.patchFirst inside⟩
  simp only [closeLabel, exec_get_bind, lengthEq]
  rw [if_neg, exec_setAt (by omega)]
  rintro ⟨empty, notEnd⟩
  rcases closes with nonempty | isEnd
  · exact nonempty (List.eq_nil_of_length_eq_zero empty)
  · rw [isEnd] at notEnd
    cases notEnd

/-- An empty label before a dot is taken back: whatever is written next takes
its place. -/
theorem exec_closeLabel_empty (inside : base.pos ≤ bufSize) (inLabel : Extends base [0] buffer) :
    ∃ after, exec (closeLabel base.pos (base.pos + 1) false) buffer = (.ok (), after) ∧
      after.pos = base.pos ∧ ∀ val, exec (write val) after = exec (write val) base := by
  have posEq : buffer.pos = base.pos + 1 := inLabel.pos
  have bufferInside := inLabel.inside inside
  have size := base.size_eq
  refine ⟨{ buffer with pos := base.pos }, ?_, rfl, fun val => ?_⟩
  · simp only [closeLabel, exec_get_bind]
    rw [if_pos ⟨by omega, trivial⟩]
    rfl
  · have taken : (base.buf.take base.pos).length = base.pos := by
      rw [List.length_take]
      omega
    have split : base.buf.set base.pos val =
        base.buf.take base.pos ++ val :: base.buf.drop (base.pos + 1) := by
      rw [List.set_eq_take_append_cons_drop, if_pos (by omega)]
    have bufEq : buffer.buf.set base.pos val = base.buf.set base.pos val := by
      rw [split, inLabel.buf, List.append_assoc, List.set_append_right _ _ (by omega), taken,
        Nat.sub_self]
      rfl
    simp only [write, exec_get_bind]
    rw [if_neg (by omega), if_neg (by omega)]
    simp only [exec_set, bufEq, inLabel.overflow]

/-- The rest of a name from the start of a label on. -/
theorem settles_startLabel {rest : Text} (inside : base.pos ≤ bufSize)
    (settled : ∀ buffer, Extends base [0] buffer →
      Settles base (exec (writeLabels base.pos (base.pos + 1) rest >>= fun _ => write 0) buffer)
        result) :
    Settles base (exec (startLabel rest >>= fun _ => write 0) base) result := by
  rw [startLabel, bind_assoc, exec_get_bind]
  simp only [bind_assoc]
  by_cases room : base.pos < bufSize
  · obtain ⟨middle, ran, extended⟩ := exec_write_fits room 0
    have posEq : middle.pos = base.pos + 1 := extended.pos
    rw [exec_bind_ok ran, exec_get_bind, posEq]
    exact settled middle extended
  · rw [exec_bind_error (exec_write_overflow (by omega) 0)]
    refine settles_of_overflow rfl rfl fun labels _ => ?_
    have := length_wireName_pos labels
    omega

theorem settles_writeLabels {label : List UInt8} (inside : base.pos ≤ bufSize)
    (short : label.length ≤ 63) (inLabel : Extends base (0 :: label) buffer) (name : Text) :
    Settles base (exec (writeLabels base.pos (base.pos + 1) name >>= fun _ => write 0) buffer)
      (labelsFrom label name) := by
  induction name using labels_induction generalizing base buffer label with
  | nil =>
      obtain ⟨after, ran, written⟩ := exec_closeLabel inside inLabel (.inr rfl : _ ∨ true = true)
      rw [writeLabels, exec_bind_ok ran]
      exact (settles_write_root (written.inside inside)).behind inside written
  | atDot rest ih =>
      have goesOn : writeLabels base.pos (base.pos + 1) (dot :: rest) =
          closeLabel base.pos (base.pos + 1) false >>= fun _ =>
            if rest = [] then pure () else startLabel rest := by
        rw [writeLabels.eq_def]
        simp [startLabel]
      rw [goesOn, bind_assoc, labelsFrom_dot]
      by_cases empty : label = []
      · subst empty
        obtain ⟨after, ran, posEq, same⟩ := exec_closeLabel_empty inside inLabel
        rw [exec_bind_ok ran]
        by_cases last : rest = []
        · rw [if_pos last, if_pos last, pure_bind, same]
          exact settles_write_root inside
        · have nothing : closedLabel ([] : List UInt8) = [] := rfl
          have asBefore : exec (startLabel rest >>= fun _ => write 0) after =
              exec (startLabel rest >>= fun _ => write 0) base := by
            simp only [startLabel, bind_assoc, exec_get_bind, posEq]
            rw [exec_bind, exec_bind, same]
          rw [if_neg last, if_neg last, asBefore, nothing]
          simp only [List.nil_append, Option.map_id']
          exact settles_startLabel inside fun _ started => ih inside (by simp) started
      · obtain ⟨after, ran, written⟩ := exec_closeLabel inside inLabel (.inl empty)
        have afterInside := written.inside inside
        rw [exec_bind_ok ran, closedLabel, if_neg empty]
        by_cases last : rest = []
        · rw [if_pos last, if_pos last, pure_bind]
          exact (settles_write_root afterInside).behind inside written
        · rw [if_neg last, if_neg last]
          exact (settles_startLabel afterInside fun _ started =>
            ih afterInside (by simp) started).behind inside written
  | octet name val rest parsed written ih =>
      have posEq : buffer.pos = base.pos + (label.length + 1) := inLabel.pos
      rw [written, parsed, bind_assoc]
      by_cases room : buffer.pos < bufSize
      · obtain ⟨middle, ran, extended⟩ := exec_write_fits room val
        have middlePos : middle.pos = buffer.pos + 1 := extended.pos
        rw [exec_bind_ok ran, bind_assoc]
        by_cases full : 63 ≤ label.length
        · have tooLong : exec (checkLabel (base.pos + 1)) middle =
              (.error .labelTooLong, middle) := by
            simp only [checkLabel, exec_get_bind]
            rw [if_pos (by omega)]
            rfl
          rw [exec_bind_error tooLong, pushOctet, if_pos full]
          exact ⟨_, rfl⟩
        · rw [exec_bind_ok (exec_checkLabel (by omega)), pushOctet, if_neg full, Option.bind_some]
          exact ih inside (by simp; omega) (inLabel.trans extended inside)
      · rw [exec_bind_error (exec_write_overflow (by omega) val)]
        refine settles_of_overflow rfl rfl fun labels found => ?_
        obtain ⟨longer, pushed, foundRest⟩ := Option.bind_eq_some_iff.mp found
        obtain ⟨-, rfl⟩ := pushOctet_eq_some.mp pushed
        have long := length_wireName_of_labelsFrom (by simp) foundRest
        rw [List.length_append, List.length_singleton] at long
        omega
  | broken name parsed written =>
      obtain ⟨error, throws⟩ := written base.pos (base.pos + 1)
      rw [throws, parsed]
      exact ⟨error, rfl⟩

/-- What `write_qname` makes of any text. -/
theorem settles_writeQname (inside : base.pos ≤ bufSize) (name : Text) :
    Settles base (exec (writeQname name) base) (textLabels name) := by
  rw [writeQname, textLabels]
  by_cases root : name = [] ∨ name = [dot]
  · rw [if_pos root, if_pos root]
    exact settles_write_root inside
  · have split : (do
        let lenPos := (← get).pos
        write 0
        writeLabels lenPos (← get).pos name
        write 0) = startLabel name >>= fun _ => write 0 := by
      simp only [startLabel, bind_assoc]
    rw [if_neg root, if_neg root, split]
    exact settles_startLabel inside fun _ started =>
      settles_writeLabels inside (by simp) started name

end Settles

/-- The labels of a text can stand on the wire. -/
theorem short_of_labelsFrom {label : List UInt8} {name : Text} {labels : List (List UInt8)}
    (short : label.length ≤ 63) (nonempty : label ≠ [] ∨ name ≠ [])
    (found : labelsFrom label name = some labels) :
    ∀ other ∈ labels, other ≠ [] ∧ other.length ≤ 63 := by
  have closed : ∀ other ∈ closedLabel label, other ≠ [] ∧ other.length ≤ 63 := by
    intro other otherMem
    unfold closedLabel at otherMem
    split at otherMem
    · cases otherMem
    · rename_i notEmpty
      obtain rfl := List.mem_singleton.mp otherMem
      exact ⟨notEmpty, short⟩
  induction name using labels_induction generalizing label labels with
  | nil =>
      obtain rfl := Option.some.inj found
      intro other otherMem
      obtain rfl := List.mem_singleton.mp otherMem
      exact ⟨by simpa using nonempty, short⟩
  | atDot rest ih =>
      rw [labelsFrom_dot] at found
      split at found
      · obtain rfl := Option.some.inj found
        exact closed
      · rename_i goesOn
        obtain ⟨later, foundLater, rfl⟩ := Option.map_eq_some_iff.mp found
        intro other otherMem
        rcases List.mem_append.mp otherMem with inFirst | inLater
        · exact closed other inFirst
        · exact ih (by simp) (.inr goesOn) foundLater (by simp [closedLabel]) other inLater
  | octet name val rest parsed written ih =>
      rw [parsed] at found
      obtain ⟨longer, pushed, foundRest⟩ := Option.bind_eq_some_iff.mp found
      obtain ⟨room, rfl⟩ := pushOctet_eq_some.mp pushed
      have longShort : (label ++ [val]).length ≤ 63 := by
        rw [List.length_append, List.length_singleton]
        omega
      refine ih longShort (.inl (by simp)) foundRest ?_
      intro other otherMem
      rw [closedLabel, if_neg (by simp), List.mem_singleton] at otherMem
      rw [otherMem]
      exact ⟨by simp, longShort⟩
  | broken name parsed written =>
      rw [parsed] at found
      cases found

theorem short_of_textLabels {name : Text} {labels : List (List UInt8)}
    (found : textLabels name = some labels) :
    ∀ label ∈ labels, label ≠ [] ∧ label.length ≤ 63 := by
  unfold textLabels at found
  split at found
  · obtain rfl := Option.some.inj found
    simp
  · rename_i notRoot
    exact short_of_labelsFrom (by simp) (.inr fun empty => notRoot (.inl empty)) found

/-! ## Writers that may have nothing to write -/

/-- The operation writes these octets if there are any, and otherwise fails. -/
def WritesIf {α : Type} (action : BufferM α) : Option (List UInt8) → Prop
  | some octets => Writes action octets
  | none => ∀ buffer : BytePacketBuffer, buffer.pos ≤ bufSize →
      ∃ error after, exec action buffer = (.error error, after)

section WritesIf

variable {α β : Type} {before later : Option (List UInt8)}

theorem WritesIf.bind {first : BufferM α} {next : α → BufferM β}
    (firstWrites : WritesIf first before) (nextWrites : ∀ value, WritesIf (next value) later) :
    WritesIf (first >>= next) (before.bind fun octets => later.map (octets ++ ·)) := by
  cases before with
  | none =>
      intro buffer inside
      obtain ⟨error, after, failed⟩ := firstWrites buffer inside
      exact ⟨error, after, exec_bind_error failed next⟩
  | some octets =>
      cases later with
      | some others => exact Writes.bind firstWrites nextWrites
      | none =>
          intro buffer inside
          obtain ⟨fits, overflows⟩ := firstWrites buffer inside
          by_cases room : buffer.pos + octets.length ≤ bufSize
          · obtain ⟨value, middle, ran, extended⟩ := fits room
            rw [exec_bind_ok ran]
            exact nextWrites value middle (extended.pos ▸ room)
          · obtain ⟨after, failed, -⟩ := overflows (by omega)
            exact ⟨_, after, exec_bind_error failed next⟩

theorem writesIf_writeQname (name : Text) :
    WritesIf (writeQname name) ((textLabels name).map wireName) := by
  cases found : textLabels name with
  | none =>
      intro buffer inside
      have settles := settles_writeQname inside name
      rw [found] at settles
      obtain ⟨error, failed⟩ := settles
      exact ⟨error, _, Prod.ext failed rfl⟩
  | some labels =>
      intro buffer inside
      have settles := settles_writeQname inside name
      rw [found] at settles
      refine ⟨fun fits => ?_, fun overflows => ?_⟩
      · obtain ⟨done, extended⟩ := settles.1 fits
        exact ⟨(), _, Prod.ext done rfl, extended⟩
      · obtain ⟨failed, overflowed⟩ := settles.2 overflows
        exact ⟨_, Prod.ext failed rfl, overflowed⟩

/-- Record data that may fail, behind their length. -/
theorem writesIf_writePatched {rdata : BufferM Unit} (writes : WritesIf rdata later) :
    WritesIf (DnsRecord.writePatched rdata)
      (later.map fun octets => beBytes16 octets.length.toUInt16 ++ octets) := by
  cases later with
  | some octets => exact writes_writePatched writes
  | none =>
      have lengthField : WritesIf (writeU16 0) (some (beBytes16 0)) := writes_writeU16 0
      have both : WritesIf (writeU16 0 >>= fun _ => rdata) none := lengthField.bind fun _ => writes
      intro buffer inside
      obtain ⟨error, after, failed⟩ := both buffer inside
      refine ⟨error, after, ?_⟩
      have patched : DnsRecord.writePatched rdata = get >>= fun start =>
          (writeU16 0 >>= fun _ => rdata) >>= fun _ => get >>= fun stop =>
            setU16 start.pos (stop.pos - (start.pos + 2)).toUInt16 := by
        simp only [DnsRecord.writePatched, bind_assoc]
      rw [patched, exec_get_bind]
      exact exec_bind_error failed _

/-- What a writer that succeeds has written. -/
theorem WritesIf.filled {action : BufferM α} (writes : WritesIf action later) {value : α}
    {after : BytePacketBuffer} (ran : exec action .new = (.ok value, after)) :
    ∃ octets, later = some octets ∧ octets.length ≤ bufSize ∧ after.filled = octets := by
  cases later with
  | none =>
      obtain ⟨error, other, failed⟩ := writes .new (Nat.zero_le _)
      rw [ran] at failed
      cases failed
  | some octets =>
      obtain ⟨fits, overflows⟩ := writes .new (Nat.zero_le _)
      by_cases room : BytePacketBuffer.new.pos + octets.length ≤ bufSize
      · obtain ⟨other, same, ranOther, extended⟩ := fits room
        rw [ran] at ranOther
        cases ranOther
        refine ⟨octets, rfl, by simpa [BytePacketBuffer.new] using room, ?_⟩
        rw [extended.filled (Nat.zero_le _)]
        rfl
      · obtain ⟨other, failed, -⟩ := overflows (by omega)
        rw [ran] at failed
        cases failed

end WritesIf

end Numa
