import Numa.BufferRules

/-!
# Names on the wire

`write_qname` undoes the escapes that `read_qname` makes.  The texts that
`read_qname` produces are the texts of names whose labels have up to 63 octets,
and these are written as their labels with their lengths, which read back as
the same text.
-/

namespace Numa

namespace BytePacketBuffer

variable {buffer middle after : BytePacketBuffer} {pos : Nat}

/-! ## Writing names -/

/-- The decimal escape of an octet denotes it. -/
theorem decimal_escape : ∀ octet : UInt8,
    isAsciiDigit (0x30 + octet / 100) = true ∧ isAsciiDigit (0x30 + octet / 10 % 10) = true ∧
      isAsciiDigit (0x30 + octet % 10) = true ∧
      (0x30 + octet / 100 - 0x30).toNat * 100 + (0x30 + octet / 10 % 10 - 0x30).toNat * 10 +
        (0x30 + octet % 10 - 0x30).toNat = octet.toNat := by
  have table : ∀ index : Fin 256,
      isAsciiDigit (0x30 + .ofFin index / 100) = true ∧
        isAsciiDigit (0x30 + .ofFin index / 10 % 10) = true ∧
        isAsciiDigit (0x30 + .ofFin index % 10) = true ∧
        ((0x30 : UInt8) + .ofFin index / 100 - 0x30).toNat * 100 +
          ((0x30 : UInt8) + .ofFin index / 10 % 10 - 0x30).toNat * 10 +
          ((0x30 : UInt8) + .ofFin index % 10 - 0x30).toNat = (UInt8.ofFin index).toNat := by
    decide +kernel
  intro octet
  exact table octet.toFin

/-- The writer undoes the escape of one octet. -/
theorem writeLabels_octetText (lenPos bodyStart : Nat) {octet : UInt8}
    (lower : toAsciiLowercase octet = octet) (rest : Text) :
    writeLabels lenPos bodyStart (octetText octet ++ rest) = (do
      write octet
      checkLabel bodyStart
      writeLabels lenPos bodyStart rest) := by
  have escape : backslash ≠ dot := by decide
  have dotNoDigit : isAsciiDigit dot = false := by decide
  have backslashNoDigit : isAsciiDigit backslash = false := by decide
  unfold octetText
  rw [lower]
  simp only
  split
  · rename_i isDot
    subst isDot
    simp only [List.cons_append, List.nil_append]
    conv_lhs => rw [writeLabels.eq_def]
    simp only [escape, dotNoDigit, if_false, if_true, Bool.false_eq_true]
  · rename_i notDot
    split
    · rename_i isBackslash
      subst isBackslash
      simp only [List.cons_append, List.nil_append]
      conv_lhs => rw [writeLabels.eq_def]
      simp only [escape, backslashNoDigit, if_false, if_true, Bool.false_eq_true]
    · rename_i notBackslash
      split
      · simp only [List.cons_append, List.nil_append]
        conv_lhs => rw [writeLabels.eq_def]
        simp only [notDot, notBackslash, if_false]
      · obtain ⟨firstDigit, secondDigit, thirdDigit, value⟩ := decimal_escape octet
        have bound := octet.toNat_lt
        simp only [List.cons_append, List.nil_append]
        conv_lhs => rw [writeLabels.eq_def]
        simp only [escape, if_false, if_true, firstDigit, secondDigit, thirdDigit,
          Bool.and_self, value]
        rw [if_neg (by omega)]
        simp

theorem exec_checkLabel {bodyStart : Nat} (short : buffer.pos ≤ bodyStart + 63) :
    exec (checkLabel bodyStart) buffer = (.ok (), buffer) := by
  simp only [checkLabel, exec_get_bind]
  rw [if_neg (by omega)]
  rfl

/-- The octets of a label are written one by one. -/
theorem exec_writeLabels_labelText (lenPos : Nat) {bodyStart : Nat} {label : List UInt8}
    (rest : Text) (lower : ∀ octet ∈ label, toAsciiLowercase octet = octet)
    (inside : buffer.pos ≤ bufSize)
    (short : buffer.pos + label.length ≤ bodyStart + 63) :
    (buffer.pos + label.length ≤ bufSize → ∃ after, Extends buffer label after ∧
      exec (writeLabels lenPos bodyStart (labelText label ++ rest)) buffer =
        exec (writeLabels lenPos bodyStart rest) after) ∧
    (bufSize < buffer.pos + label.length → ∃ after,
      exec (writeLabels lenPos bodyStart (labelText label ++ rest)) buffer =
        (.error .endOfBuffer, after) ∧ after.overflow = true) := by
  induction label generalizing buffer with
  | nil =>
      refine ⟨fun _ => ⟨buffer, Extends.refl buffer, rfl⟩, fun overflows => ?_⟩
      simp only [List.length_nil] at overflows
      omega
  | cons octet label ih =>
      rw [List.length_cons] at short ⊢
      have split : labelText (octet :: label) ++ rest =
          octetText octet ++ (labelText label ++ rest) := by
        simp [labelText]
      rw [split, writeLabels_octetText lenPos bodyStart (lower octet (by simp))]
      obtain ⟨octetFits, octetOverflows⟩ := writes_write octet buffer inside
      by_cases room : buffer.pos + 1 ≤ bufSize
      · obtain ⟨value, middle, ran, extended⟩ := octetFits room
        have posEq : middle.pos = buffer.pos + 1 := extended.pos
        obtain ⟨labelFits, labelOverflows⟩ :=
          ih (fun later laterMem => lower later (by simp [laterMem]))
            (by omega : middle.pos ≤ bufSize) (by omega)
        rw [exec_bind_ok ran, exec_bind_ok (exec_checkLabel (by omega))]
        constructor
        · intro fits
          obtain ⟨after, extendedLater, ranLater⟩ := labelFits (by omega)
          exact ⟨after, extended.trans extendedLater inside, ranLater⟩
        · intro overflows
          exact labelOverflows (by omega)
      · obtain ⟨after, ran, overflowed⟩ := octetOverflows (by rw [List.length_singleton]; omega)
        rw [exec_bind_error ran]
        exact ⟨fun fits => by omega, fun _ => ⟨after, rfl, overflowed⟩⟩

/-- `write_qname` from the start of a label on. -/
def startLabel (qname : Text) : BufferM Unit := do
  let lenPos := (← get).pos
  write 0
  writeLabels lenPos (← get).pos qname

/-- `write_qname` from the end of a label on. -/
def nextLabel : Text → BufferM Unit
  | [] => pure ()
  | _ :: rest => if rest = [] then pure () else startLabel rest

/-- The length of a label is set when the label ends. -/
theorem exec_writeLabels_endsLabel {lenPos bodyStart : Nat} {rest : Text}
    (ends : EndsLabel rest) (inside : lenPos < bufSize) (nonempty : bodyStart < buffer.pos) :
    exec (writeLabels lenPos bodyStart rest) buffer =
      exec (nextLabel rest)
        { buffer with
          buf := buffer.buf.set lenPos (buffer.pos - bodyStart).toUInt8
          size_eq := by rw [List.length_set, buffer.size_eq] } := by
  have closed : ∀ atEnd, exec (closeLabel lenPos bodyStart atEnd) buffer =
      (.ok (),
        { buffer with
          buf := buffer.buf.set lenPos (buffer.pos - bodyStart).toUInt8
          size_eq := by rw [List.length_set, buffer.size_eq] }) := by
    intro atEnd
    simp only [closeLabel, exec_get_bind]
    rw [if_neg (by omega), exec_setAt inside]
  cases rest with
  | nil => rw [writeLabels, closed]; rfl
  | cons head rest =>
      obtain rfl : head = dot := ends head rfl
      rw [writeLabels.eq_def]
      simp only [if_true]
      rw [exec_bind_ok (closed false)]
      by_cases last : rest = []
      · simp [last, nextLabel]
      · simp only [last, if_false, nextLabel]
        rfl

/-- One octet written at the cursor and replaced later. -/
theorem Extends.patchFirst {first high : UInt8} {octets : List UInt8}
    (extended : Extends buffer (first :: octets) middle) (inside : buffer.pos ≤ bufSize) :
    Extends buffer (high :: octets)
      { middle with
        buf := middle.buf.set buffer.pos high
        size_eq := by rw [List.length_set, middle.size_eq] } where
  buf := by
    have size := buffer.size_eq
    have before : (buffer.buf.take buffer.pos).length = buffer.pos := by
      rw [List.length_take]
      omega
    simp only
    rw [extended.buf, List.append_assoc, List.append_assoc, List.set_append_right _ _ (by omega),
      before]
    simp
  pos := extended.pos
  overflow := extended.overflow

/-- A label of a name in normal form, as it may stand on the wire. -/
def IsWireLabel (label : List UInt8) : Prop :=
  label ≠ [] ∧ label.length ≤ 63 ∧ ∀ octet ∈ label, toAsciiLowercase octet = octet

instance (label : List UInt8) : Decidable (IsWireLabel label) :=
  have := List.decidableBAll (fun octet => toAsciiLowercase octet = octet) label
  inferInstanceAs (Decidable (label ≠ [] ∧ label.length ≤ 63 ∧
    ∀ octet ∈ label, toAsciiLowercase octet = octet))

theorem isNormal_of_wireLabels {labels : List (List UInt8)}
    (areLabels : ∀ label ∈ labels, IsWireLabel label) : IsNormal labels :=
  fun label labelMem => ⟨(areLabels label labelMem).1, (areLabels label labelMem).2.2⟩

/-- A label with its length. -/
def wireLabel (label : List UInt8) : List UInt8 :=
  label.length.toUInt8 :: label

/-- A label is written with its length, and the writer goes on after it. -/
theorem exec_startLabel {label : List UInt8} {rest : Text} (isLabel : IsWireLabel label)
    (ends : EndsLabel rest) (inside : buffer.pos ≤ bufSize) :
    (buffer.pos + (wireLabel label).length ≤ bufSize → ∃ after,
      Extends buffer (wireLabel label) after ∧
        exec (startLabel (labelText label ++ rest)) buffer = exec (nextLabel rest) after) ∧
    (bufSize < buffer.pos + (wireLabel label).length → ∃ after,
      exec (startLabel (labelText label ++ rest)) buffer = (.error .endOfBuffer, after) ∧
        after.overflow = true) := by
  obtain ⟨nonempty, short, lower⟩ := isLabel
  have positive := List.length_pos_of_ne_nil nonempty
  obtain ⟨zeroFits, zeroOverflows⟩ := writes_write 0 buffer inside
  rw [wireLabel, List.length_cons, startLabel, exec_get_bind]
  by_cases room : buffer.pos + 1 ≤ bufSize
  · obtain ⟨value, middle, ran, extended⟩ := zeroFits room
    have posEq : middle.pos = buffer.pos + 1 := extended.pos
    rw [exec_bind_ok ran, exec_get_bind]
    obtain ⟨labelFits, labelOverflows⟩ :=
      exec_writeLabels_labelText buffer.pos rest lower
        (by omega : middle.pos ≤ bufSize) (by omega : _ ≤ middle.pos + 63)
    constructor
    · intro fits
      obtain ⟨written, extendedLabel, ranLabel⟩ := labelFits (by omega)
      have writtenPos : written.pos = middle.pos + label.length := extendedLabel.pos
      have whole := extended.trans extendedLabel inside
      have length : written.pos - middle.pos = label.length := by omega
      refine ⟨_, whole.patchFirst inside, ?_⟩
      rw [ranLabel, exec_writeLabels_endsLabel ends (by omega) (by omega)]
      simp only [length]
    · intro overflows
      exact labelOverflows (by omega)
  · obtain ⟨after, ran, overflowed⟩ := zeroOverflows (by rw [List.length_singleton]; omega)
    rw [exec_bind_error ran]
    exact ⟨fun fits => by omega, fun _ => ⟨after, rfl, overflowed⟩⟩

/-- The labels of a name in wire form, without the root label. -/
def wireLabelsOf (labels : List (List UInt8)) : List UInt8 :=
  labels.flatMap wireLabel

/-- A name in wire form, without compression. -/
def wireName (labels : List (List UInt8)) : List UInt8 :=
  wireLabelsOf labels ++ [0]

theorem writes_startLabel {label : List UInt8} {labels : List (List UInt8)}
    (areLabels : ∀ other ∈ label :: labels, IsWireLabel other) :
    Writes (startLabel (nameText (label :: labels))) (wireLabelsOf (label :: labels)) := by
  induction labels generalizing label with
  | nil =>
      intro buffer inside
      obtain ⟨labelFits, labelOverflows⟩ :=
        exec_startLabel (areLabels label (by simp)) (endsLabel_afterLabel []) inside
      rw [nameText_eq_append, wireLabelsOf, List.flatMap_cons, List.flatMap_nil, List.append_nil]
      refine ⟨fun fits => ?_, labelOverflows⟩
      obtain ⟨after, extended, ran⟩ := labelFits fits
      exact ⟨(), after, ran, extended⟩
  | cons next labels ih =>
      intro buffer inside
      obtain ⟨labelFits, labelOverflows⟩ :=
        exec_startLabel (areLabels label (by simp)) (endsLabel_afterLabel (next :: labels)) inside
      have later : Writes (startLabel (nameText (next :: labels)))
          (wireLabelsOf (next :: labels)) :=
        ih fun other otherMem => areLabels other (List.mem_cons_of_mem label otherMem)
      have lengths : (wireLabelsOf (label :: next :: labels)).length =
          (wireLabel label).length + (wireLabelsOf (next :: labels)).length := by
        simp [wireLabelsOf]
      have goesOn : nextLabel (afterLabel (next :: labels)) =
          startLabel (nameText (next :: labels)) := by
        obtain ⟨head, rest, nameEq, -⟩ := nameText_eq_cons (List.cons_ne_nil next labels)
          fun other otherMem => (areLabels other (by simp [otherMem])).1
        simp [afterLabel, nextLabel, nameEq]
      rw [nameText_eq_append, lengths]
      by_cases room : buffer.pos + (wireLabel label).length ≤ bufSize
      · obtain ⟨middle, extended, ran⟩ := labelFits room
        have posEq := extended.pos
        obtain ⟨laterFits, laterOverflows⟩ := later middle (by omega)
        rw [ran, goesOn]
        constructor
        · intro fits
          obtain ⟨value, after, ranLater, extendedLater⟩ := laterFits (by omega)
          exact ⟨value, after, ranLater, extended.trans extendedLater inside⟩
        · intro overflows
          exact laterOverflows (by omega)
      · obtain ⟨after, ran, overflowed⟩ := labelOverflows (by omega)
        exact ⟨fun fits => by omega, fun _ => ⟨after, ran, overflowed⟩⟩

/-- A name is written as its labels with their lengths and the root label. -/
theorem writes_writeQname {labels : List (List UInt8)}
    (areLabels : ∀ label ∈ labels, IsWireLabel label) :
    Writes (writeQname (nameText labels)) (wireName labels) := by
  cases labels with
  | nil =>
      rw [writeQname, nameText_nil, if_pos (.inl rfl)]
      exact writes_write 0
  | cons label labels =>
      obtain ⟨head, rest, nameEq, notDot⟩ := nameText_eq_cons (List.cons_ne_nil label labels)
        fun other otherMem => (areLabels other otherMem).1
      have notRoot : ¬ (nameText (label :: labels) = [] ∨ nameText (label :: labels) = [dot]) := by
        rw [nameEq]
        simp [notDot]
      have split : writeQname (nameText (label :: labels)) =
          startLabel (nameText (label :: labels)) >>= fun _ => write 0 := by
        rw [writeQname, if_neg notRoot]
        simp only [startLabel, bind_assoc]
      rw [split]
      exact (writes_startLabel areLabels).bind fun _ => writes_write 0

/-! ## Reading names -/

theorem wireLength_bits : ∀ length : Nat, 0 < length → length ≤ 63 →
    length.toUInt8 &&& 0xC0 ≠ 0xC0 ∧ length.toUInt8 &&& 0xC0 = 0 ∧ length.toUInt8 ≠ 0 ∧
      length.toUInt8.toNat = length := by
  have table : ∀ length : Fin 64, 0 < length.val →
      length.val.toUInt8 &&& 0xC0 ≠ 0xC0 ∧ length.val.toUInt8 &&& 0xC0 = 0 ∧
        length.val.toUInt8 ≠ 0 ∧ length.val.toUInt8.toNat = length.val := by
    decide +kernel
  intro length positive short
  exact table ⟨length, by omega⟩ positive

theorem wireName_nil : wireName [] = [0] :=
  rfl

theorem wireName_eq_cons (label : List UInt8) (labels : List (List UInt8)) :
    wireName (label :: labels) = label.length.toUInt8 :: (label ++ wireName labels) := by
  simp [wireName, wireLabelsOf, wireLabel]

/-- A name on the wire shows where it ends. -/
theorem wireName_append_inj {first second : List (List UInt8)} {rest other : List UInt8}
    (firstShort : ∀ label ∈ first, label ≠ [] ∧ label.length ≤ 63)
    (secondShort : ∀ label ∈ second, label ≠ [] ∧ label.length ≤ 63)
    (same : wireName first ++ rest = wireName second ++ other) : first = second ∧ rest = other := by
  have notRoot : ∀ label : List UInt8, label ≠ [] ∧ label.length ≤ 63 →
      label.length.toUInt8 ≠ 0 ∧ label.length.toUInt8.toNat = label.length :=
    fun label short =>
      (wireLength_bits label.length (List.length_pos_of_ne_nil short.1) short.2).2.2
  induction first generalizing second with
  | nil =>
      cases second with
      | nil => simpa [wireName_nil] using same
      | cons label labels =>
          rw [wireName_nil, wireName_eq_cons] at same
          exact absurd (List.cons.inj same).1.symm (notRoot label (secondShort label (by simp))).1
  | cons label labels ih =>
      obtain ⟨positive, len⟩ := notRoot label (firstShort label (by simp))
      cases second with
      | nil =>
          rw [wireName_nil, wireName_eq_cons] at same
          exact absurd (List.cons.inj same).1 positive
      | cons label' labels' =>
          obtain ⟨-, len'⟩ := notRoot label' (secondShort label' (by simp))
          rw [wireName_eq_cons, wireName_eq_cons, List.cons_append, List.cons_append] at same
          obtain ⟨lengths, behind⟩ := List.cons.inj same
          rw [List.append_assoc, List.append_assoc] at behind
          have lengthEq : label.length = label'.length := by rw [← len, ← len', lengths]
          obtain ⟨rfl, later⟩ := List.append_inj behind lengthEq
          obtain ⟨rfl, restEq⟩ := ih
            (fun other otherMem => firstShort other (List.mem_cons_of_mem _ otherMem))
            (fun other otherMem => secondShort other (List.mem_cons_of_mem _ otherMem)) later
          exact ⟨rfl, restEq⟩

theorem exec_getAt_eq_ok {octet : UInt8} :
    exec (getAt pos) buffer = (.ok octet, after) ↔
      pos < bufSize ∧ octet = buffer.buf.getD pos 0 ∧ after = buffer := by
  simp only [getAt, exec_get_bind]
  split
  · simp
    omega
  · simp [eq_comm]
    omega

theorem exec_getRange_eq_ok {len : Nat} {octets : List UInt8} :
    exec (getRange pos len) buffer = (.ok octets, after) ↔
      pos + len ≤ bufSize ∧ octets = (buffer.buf.drop pos).take len ∧ after = buffer := by
  simp only [getRange, exec_get_bind]
  split
  · simp
    omega
  · simp [eq_comm]
    omega

/-- The length octet of a label is at most 63. -/
theorem label_length_le : ∀ len : UInt8, len &&& 0xC0 = 0 → len.toNat ≤ 63 := by
  have table : ∀ index : Fin 256,
      UInt8.ofFin index &&& 0xC0 = 0 → (UInt8.ofFin index).toNat ≤ 63 := by decide +kernel
  intro len
  exact table len.toFin

/-- A label that is read has one to 63 octets. -/
theorem isLabel_of_exec_getRange {octet : UInt8} {label : List UInt8}
    (plain : octet &&& 0xC0 = 0) (notRoot : octet ≠ 0)
    (got : exec (getRange pos octet.toNat) buffer = (.ok label, after)) :
    label ≠ [] ∧ label.length ≤ 63 := by
  obtain ⟨inside, labelEq, -⟩ := exec_getRange_eq_ok.mp got
  have size := buffer.size_eq
  have length : label.length = octet.toNat := by
    rw [labelEq, List.length_take, List.length_drop]
    omega
  have positive : octet.toNat ≠ 0 := fun zero => notRoot (UInt8.toNat_inj.mp zero)
  have short := label_length_le octet plain
  exact ⟨List.ne_nil_of_length_pos (by omega), by omega⟩

/-- A run of `read_qname` over labels: one label after another, up to the root
or to a pointer. -/
inductive LabelsRead (buffer : BytePacketBuffer) :
    Nat → NameCursor → NameCursor → UInt8 → Prop
  | pointer {left : Nat} {cursor : NameCursor} {octet : UInt8}
      (got : exec (getAt cursor.pos) buffer = (.ok octet, buffer))
      (isPointer : octet &&& 0xC0 = 0xC0) : LabelsRead buffer (left + 1) cursor cursor octet
  | root {left : Nat} {cursor : NameCursor}
      (got : exec (getAt cursor.pos) buffer = (.ok 0, buffer)) :
      LabelsRead buffer (left + 1) cursor { cursor with pos := cursor.pos + 1 } 0
  | label {left : Nat} {cursor stop : NameCursor} {octet len : UInt8} {label : List UInt8}
      (got : exec (getAt cursor.pos) buffer = (.ok octet, buffer))
      (plain : octet &&& 0xC0 = 0) (notRoot : octet ≠ 0)
      (gotLabel : exec (getRange (cursor.pos + 1) octet.toNat) buffer = (.ok label, buffer))
      (later : LabelsRead buffer left
        { pos := cursor.pos + 1 + octet.toNat
          delim := [dot]
          outstr := cursor.outstr ++ cursor.delim ++ labelText label } stop len) :
      LabelsRead buffer (left + 1) cursor stop len

theorem notPointer_of_plain {octet : UInt8} (plain : octet &&& 0xC0 = 0) :
    octet &&& 0xC0 ≠ 0xC0 := by
  rw [plain]
  decide

theorem LabelsRead.exec_readLabels {left : Nat} {cursor stop : NameCursor} {len : UInt8}
    (labelsRead : LabelsRead buffer left cursor stop len) :
    exec (readLabels left cursor) buffer = (.ok (stop, len), buffer) := by
  induction labelsRead with
  | pointer got isPointer =>
      rw [readLabels, exec_bind_ok got, if_pos isPointer]
      rfl
  | root got =>
      rw [readLabels, exec_bind_ok got, if_neg (by decide), if_neg (by decide), if_pos rfl]
      rfl
  | label got plain notRoot gotLabel later ih =>
      rw [readLabels, exec_bind_ok got, if_neg (notPointer_of_plain plain),
        if_neg (not_not.mpr plain), if_neg notRoot, exec_bind_ok gotLabel, ih]

theorem exec_readLabels_eq_ok {left : Nat} {cursor stop : NameCursor} {len : UInt8} :
    exec (readLabels left cursor) buffer = (.ok (stop, len), after) ↔
      after = buffer ∧ LabelsRead buffer left cursor stop len := by
  refine ⟨fun ran => ?_, fun ⟨same, labelsRead⟩ => same ▸ labelsRead.exec_readLabels⟩
  induction left generalizing cursor with
  | zero => simp [readLabels] at ran
  | succ left ih =>
      rw [readLabels, exec_bind_eq_ok] at ran
      obtain ⟨octet, middle, got, ran⟩ := ran
      obtain ⟨-, -, rfl⟩ := exec_getAt_eq_ok.mp got
      split at ran
      · rename_i isPointer
        cases ran
        exact ⟨rfl, .pointer got isPointer⟩
      · split at ran
        · simp at ran
        · rename_i noPointer noReserved
          split at ran
          · rename_i isRoot
            cases ran
            subst isRoot
            exact ⟨rfl, .root got⟩
          · rename_i notRoot
            obtain ⟨label, last, gotLabel, ranRest⟩ := exec_bind_eq_ok.mp ran
            obtain ⟨-, -, rfl⟩ := exec_getRange_eq_ok.mp gotLabel
            obtain ⟨same, later⟩ := ih ranRest
            exact ⟨same, .label got (not_not.mp noReserved) notRoot gotLabel later⟩

/-- The text of a name after what has been read before it. -/
def NameCursor.appended (cursor : NameCursor) (labels : List (List UInt8)) : Text :=
  cursor.outstr ++ if labels = [] then [] else cursor.delim ++ nameText labels

/-- The labels that stand ahead are read up to the root. -/
theorem labelsRead_of_ahead {labels : List (List UInt8)} {left : Nat} (cursor : NameCursor)
    (areLabels : ∀ label ∈ labels, label ≠ [] ∧ label.length ≤ 63) (enough : labels.length < left)
    (ahead : Ahead buffer cursor.pos (wireName labels)) :
    ∃ delim, LabelsRead buffer left cursor
      ⟨cursor.pos + (wireName labels).length, delim, cursor.appended labels⟩ 0 := by
  induction labels generalizing left cursor with
  | nil =>
      obtain ⟨left, rfl⟩ : ∃ fewer, left = fewer + 1 := ⟨left - 1, by simp at enough; omega⟩
      have root : exec (getAt cursor.pos) buffer = (.ok 0, buffer) :=
        exec_getAt ahead (by simp [wireName] : 0 < _)
      refine ⟨cursor.delim, ?_⟩
      simpa [wireName, wireLabelsOf, NameCursor.appended] using LabelsRead.root root
  | cons label labels ih =>
      obtain ⟨left, rfl⟩ : ∃ fewer, left = fewer + 1 := ⟨left - 1, by simp at enough; omega⟩
      obtain ⟨nonempty, short⟩ := areLabels label (by simp)
      obtain ⟨-, noReserved, notRoot, lengthEq⟩ :=
        wireLength_bits label.length (List.length_pos_of_ne_nil nonempty) short
      rw [wireName_eq_cons, ← List.singleton_append] at ahead
      have first : exec (getAt cursor.pos) buffer = (.ok label.length.toUInt8, buffer) :=
        exec_getAt ahead (by simp : 0 < _)
      have body := exec_getRange ahead.right.left
      rw [List.length_singleton, ← lengthEq] at body
      have behind : Ahead buffer (cursor.pos + 1 + label.length.toUInt8.toNat)
          (wireName labels) := by
        rw [lengthEq]
        exact ahead.right.right
      obtain ⟨delim, later⟩ := ih
        { pos := cursor.pos + 1 + label.length.toUInt8.toNat
          delim := [dot]
          outstr := cursor.outstr ++ cursor.delim ++ labelText label }
        (fun other otherMem => areLabels other (by simp [otherMem]))
        (by simp at enough; omega : labels.length < left) behind
      refine ⟨delim, ?_⟩
      have textEq : NameCursor.appended
          { pos := cursor.pos + 1 + label.length.toUInt8.toNat
            delim := [dot]
            outstr := cursor.outstr ++ cursor.delim ++ labelText label } labels =
          cursor.appended (label :: labels) := by
        rw [NameCursor.appended, NameCursor.appended, if_neg (List.cons_ne_nil _ _),
          nameText_eq_append, afterLabel]
        simp
      have posEq : cursor.pos + 1 + label.length.toUInt8.toNat + (wireName labels).length =
          cursor.pos + (wireName (label :: labels)).length := by
        rw [lengthEq, wireName_eq_cons, List.length_cons, List.length_append]
        omega
      have read := LabelsRead.label first noReserved notRoot body later
      rwa [textEq, posEq] at read

/-- A name with labels of any letter case reads as its text. -/
theorem readsAt_readQname_of_short {labels : List (List UInt8)}
    (areLabels : ∀ label ∈ labels, label ≠ [] ∧ label.length ≤ 63) :
    ReadsAt pos readQname (wireName labels) (nameText labels) := by
  rintro buffer rfl ahead
  have enough : labels.length < bufSize := by
    have inside := ahead.inside
    have long : labels.length ≤ (wireLabelsOf labels).length :=
      length_le_flatMap fun label _ => by simp [wireLabel]
    rw [wireName, List.length_append, List.length_singleton] at inside
    omega
  obtain ⟨delim, labelsRead⟩ := labelsRead_of_ahead ⟨buffer.pos, [], []⟩ areLabels enough ahead
  rw [readQname, exec_get_bind, readName, exec_bind_ok labelsRead.exec_readLabels]
  have textEq : NameCursor.appended ⟨buffer.pos, [], []⟩ labels = nameText labels := by
    simp only [NameCursor.appended, List.nil_append]
    split
    · rename_i root
      simp [root]
    · rfl
  simp only [textEq]
  rfl

/-- A name reads back as its text. -/
theorem readsAt_readQname {labels : List (List UInt8)}
    (areLabels : ∀ label ∈ labels, IsWireLabel label) :
    ReadsAt pos readQname (wireName labels) (nameText labels) :=
  readsAt_readQname_of_short fun label labelMem =>
    ⟨(areLabels label labelMem).1, (areLabels label labelMem).2.1⟩

/-! ## The texts that `read_qname` produces -/

/-- `read_qname` returns this text for some buffer. -/
def Producible (name : Text) : Prop :=
  ∃ buffer after, exec readQname buffer = (.ok name, after)

/-- The labels read so far are those of the cursor. -/
structure NameCursor.Holds (cursor : NameCursor) (labels : List (List UInt8)) : Prop where
  areLabels : ∀ label ∈ labels, IsWireLabel label
  outstr : cursor.outstr = nameText labels
  delim : cursor.delim = if labels = [] then [] else [dot]

/-- Reading one more label, in whatever case it is. -/
theorem NameCursor.Holds.push {cursor : NameCursor} {labels : List (List UInt8)}
    (holds : cursor.Holds labels) {label : List UInt8} (nonempty : label ≠ [])
    (short : label.length ≤ 63) (pos : Nat) :
    NameCursor.Holds ⟨pos, [dot], cursor.outstr ++ cursor.delim ++ labelText label⟩
      (labels ++ [label.map toAsciiLowercase]) where
  areLabels := by
    intro other otherMem
    rcases List.mem_append.mp otherMem with old | new
    · exact holds.areLabels other old
    · obtain rfl := List.mem_singleton.mp new
      refine ⟨by simpa using nonempty, by simpa using short, fun octet octetMem => ?_⟩
      obtain ⟨original, -, rfl⟩ := List.mem_map.mp octetMem
      exact toAsciiLowercase_toAsciiLowercase original
  outstr := by
    have textEq : labelText (label.map toAsciiLowercase) = labelText label := by
      simp [labelText, List.flatMap_map, octetText_toAsciiLowercase]
    rw [holds.outstr, holds.delim]
    by_cases first : labels = []
    · subst first
      simp [nameText, textEq]
    · rw [if_neg first, nameText_append first (by simp)]
      simp [nameText, textEq]
  delim := by simp

theorem LabelsRead.holds {left : Nat} {cursor stop : NameCursor} {len : UInt8}
    {labels : List (List UInt8)} (labelsRead : LabelsRead buffer left cursor stop len)
    (holds : cursor.Holds labels) : ∃ further, stop.Holds further := by
  induction labelsRead generalizing labels with
  | pointer got isPointer => exact ⟨labels, holds⟩
  | root got => exact ⟨labels, holds.areLabels, holds.outstr, holds.delim⟩
  | label got plain notRoot gotLabel later ih =>
      obtain ⟨nonempty, short⟩ := isLabel_of_exec_getRange plain notRoot gotLabel
      exact ih (holds.push nonempty short _)

theorem holds_of_exec_readName {jumps : Nat} {jumped : Bool} {cursor : NameCursor} {name : Text}
    {labels : List (List UInt8)} (holds : cursor.Holds labels)
    (ran : exec (readName jumps jumped cursor) buffer = (.ok name, after)) :
    ∃ further, (∀ label ∈ further, IsWireLabel label) ∧ name = nameText further := by
  induction jumps generalizing jumped cursor labels buffer with
  | zero => simp [readName] at ran
  | succ jumps ih =>
      rw [readName, exec_bind_eq_ok] at ran
      obtain ⟨⟨stop, len⟩, middle, ranLabels, ran⟩ := ran
      obtain ⟨-, labelsRead⟩ := exec_readLabels_eq_ok.mp ranLabels
      obtain ⟨further, stopHolds⟩ := labelsRead.holds holds
      simp only at ran
      split at ran
      · obtain ⟨_, _, -, ran⟩ := exec_bind_eq_ok.mp ran
        obtain ⟨_, _, -, ran⟩ := exec_bind_eq_ok.mp ran
        have jumpHolds : ∀ pos, NameCursor.Holds ⟨pos, stop.delim, stop.outstr⟩ further :=
          fun _ => ⟨stopHolds.areLabels, stopHolds.outstr, stopHolds.delim⟩
        exact ih (jumpHolds _) ran
      · obtain ⟨_, _, -, ran⟩ := exec_bind_eq_ok.mp ran
        cases ran
        exact ⟨further, stopHolds.areLabels, stopHolds.outstr⟩

/-- The texts that `read_qname` produces are those of names with labels of one
to 63 octets. -/
theorem Producible.exists_labels {name : Text} (producible : Producible name) :
    ∃ labels, (∀ label ∈ labels, IsWireLabel label) ∧ name = nameText labels := by
  obtain ⟨buffer, after, ran⟩ := producible
  rw [readQname, exec_get_bind] at ran
  have empty : NameCursor.Holds ⟨buffer.pos, [], []⟩ [] := ⟨by simp, rfl, rfl⟩
  exact holds_of_exec_readName empty ran

/-- All texts of names that fit into a buffer are produced. -/
theorem producible_nameText (labels : List (List UInt8))
    (areLabels : ∀ label ∈ labels, IsWireLabel label)
    (fits : (wireName labels).length ≤ bufSize) : Producible (nameText labels) :=
  ⟨_, _, readsAt_readQname areLabels _ rfl (ahead_fromBytes fits)⟩

end BytePacketBuffer

end Numa
