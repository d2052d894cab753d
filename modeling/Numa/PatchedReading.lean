import Numa.MessageBounds

/-!
# Reading a patched message

The patches of a lookup change the identifier and some fields of a stored
message.  The parser reads the rest as before when nothing else that it looks at
has been patched: neither the octets of the records nor those that the names
reach through their compression pointers.
-/

namespace Numa

open BytePacketBuffer

/-! ## What is spared -/

section Spared

variable (buf : List UInt8) (patched : Nat → Bool)

/-- No position of the range is patched. -/
def spared (start stop : Nat) : Bool :=
  (List.range' start (stop - start)).all fun pos => !patched pos

/-- The octets of a name are spared, with those that its pointers lead to. -/
def nameSpared : (jumps pos : Nat) → Bool
  | 0, _ => true
  | jumps + 1, pos =>
    match Traversal.labels buf .pastEnd bufSize pos with
    | .error _ => true
    | .ok (stop, len) =>
      if len &&& 0xC0 = 0xC0 then
        spared patched pos (stop + 2) &&
          nameSpared jumps (pointerTarget len (wireOctet buf (stop + 1)))
      else spared patched pos stop

/-- Where a part of the data of a record ends. -/
def fieldEnd (rdataStart dataLen pos : Nat) : Traversal.RdataField → Except WireError Nat
  | .fixed len => .ok (pos + len)
  | .name => skipWireName buf pos
  | .counted => .ok (pos + 1 + (wireOctet buf pos).toNat)
  | .rest => .ok (rdataStart + dataLen)
  | .whole => .ok (pos + dataLen)

def fieldSpared (pos next : Nat) : Traversal.RdataField → Bool
  | .name => nameSpared buf patched (maxJumps + 1) pos
  | _ => spared patched pos next

def fieldsSpared (rdataStart dataLen : Nat) : List Traversal.RdataField → Nat → Bool
  | [], _ => true
  | field :: fields, pos =>
    match fieldEnd buf rdataStart dataLen pos field with
    | .error _ => true
    | .ok next =>
      fieldSpared buf patched pos next field && fieldsSpared rdataStart dataLen fields next

def questionsSpared : (count start : Nat) → Bool
  | 0, _ => true
  | count + 1, start =>
    match skipWireName buf start with
    | .error _ => true
    | .ok pos =>
      nameSpared buf patched (maxJumps + 1) start && spared patched pos (pos + 4) &&
        questionsSpared count (pos + 4)

/-- A record is spared, but for its TTL field. -/
def recordSpared (start : Nat) : Bool :=
  match skipWireName buf start with
  | .error _ => true
  | .ok pos =>
    nameSpared buf patched (maxJumps + 1) start && spared patched start (pos + 4) &&
      spared patched (pos + 8) (pos + 10) &&
        fieldsSpared buf patched (pos + 10) (wireU16 buf (pos + 8)).toNat
          (Traversal.rdataFields (.fromNum (wireU16 buf pos))) (pos + 10)

/-- Where the parser goes on behind a record. -/
def recordEnd (start : Nat) : Except WireError Nat := do
  let pos ← skipWireName buf start
  layoutEnd buf (.fromNum (wireU16 buf pos)) (pos + 10) (wireU16 buf (pos + 8)).toNat

/-- The records from a position on, of which those in the additional section are marked. -/
def recordsSpared : List Bool → Nat → Bool
  | [], _ => true
  | additional :: later, start =>
    if additional = true ∧ isOptRecord buf start = true then
      let next := start + 11 + (wireU16 buf (start + 9)).toNat
      spared patched start next && recordsSpared later next
    else
      recordSpared buf patched start &&
        match recordEnd buf start with
        | .error _ => true
        | .ok next => recordsSpared later next

/-- Behind the header nothing that the parser looks at is patched, but for TTL fields. -/
def messageSpared : Bool :=
  questionsSpared buf patched (wireU16 buf 4).toNat 12 &&
    match skipQuestions buf (wireU16 buf 4).toNat 12 with
    | .error _ => true
    | .ok first => recordsSpared buf patched (marks buf) first

end Spared

/-! ## Two buffers -/

variable {α β : Type} {patched : Nat → Bool} {first second after : BytePacketBuffer}

theorem spared_iff {start stop : Nat} :
    spared patched start stop = true ↔ ∀ pos, start ≤ pos → pos < stop → patched pos = false := by
  simp only [spared, List.all_eq_true, List.mem_range'_1, Bool.not_eq_true']
  constructor
  · intro all pos above below
    exact all pos ⟨above, by omega⟩
  · rintro all pos ⟨above, below⟩
    exact all pos above (by omega)

theorem spared_mono {start stop low high : Nat} (isSpared : spared patched start stop = true)
    (above : start ≤ low) (below : high ≤ stop) : spared patched low high = true :=
  spared_iff.mpr fun pos lowLe ltHigh =>
    spared_iff.mp isSpared pos (above.trans lowLe) (ltHigh.trans_le below)

/-- The buffers stand at the same position and differ in patched octets only. -/
structure AlikeBut (patched : Nat → Bool) (first second : BytePacketBuffer) : Prop where
  pos : second.pos = first.pos
  octets : ∀ pos, patched pos = false → wireOctet second.buf pos = wireOctet first.buf pos

namespace AlikeBut

theorem movedTo (alike : AlikeBut patched first second) (pos : Nat) :
    AlikeBut patched (first.movedTo pos) (second.movedTo pos) :=
  ⟨rfl, alike.octets⟩

theorem octetsAt_eq (alike : AlikeBut patched first second) {start len : Nat}
    (isSpared : spared patched start (start + len) = true) :
    octetsAt second.buf start len = octetsAt first.buf start len := by
  have firstSize := first.size_eq
  have secondSize := second.size_eq
  refine List.ext_getElem? fun index => ?_
  simp only [octetsAt, List.getElem?_take, List.getElem?_drop]
  split
  · rename_i inside
    have same := alike.octets (start + index)
      (spared_iff.mp isSpared (start + index) (by omega) (by omega))
    unfold wireOctet at same
    by_cases inBuffer : start + index < bufSize
    · rw [List.getD_eq_getElem _ _ (by omega), List.getD_eq_getElem _ _ (by omega)] at same
      rw [List.getElem?_eq_getElem (by omega), List.getElem?_eq_getElem (by omega), same]
    · rw [List.getElem?_eq_none (by omega), List.getElem?_eq_none (by omega)]
  · rfl

theorem wireU16_eq (alike : AlikeBut patched first second) {start : Nat}
    (isSpared : spared patched start (start + 2) = true) :
    wireU16 second.buf start = wireU16 first.buf start := by
  have octet := spared_iff.mp isSpared
  rw [wireU16, wireU16, alike.octets start (octet _ (by omega) (by omega)),
    alike.octets (start + 1) (octet _ (by omega) (by omega))]

theorem wireU32_eq (alike : AlikeBut patched first second) {start : Nat}
    (isSpared : spared patched start (start + 4) = true) :
    wireU32 second.buf start = wireU32 first.buf start := by
  have octet := spared_iff.mp isSpared
  rw [wireU32, wireU32, alike.octets start (octet _ (by omega) (by omega)),
    alike.octets (start + 1) (octet _ (by omega) (by omega)),
    alike.octets (start + 2) (octet _ (by omega) (by omega)),
    alike.octets (start + 3) (octet _ (by omega) (by omega))]

end AlikeBut

/-! ## Names -/

theorem exec_getAt_alike (alike : AlikeBut patched first second) {pos : Nat} {octet : UInt8}
    (got : exec (getAt pos) first = (.ok octet, after)) (unpatched : patched pos = false) :
    exec (getAt pos) second = (.ok octet, second) := by
  obtain ⟨inside, octetEq, -⟩ := exec_getAt_eq_ok.mp got
  exact exec_getAt_eq_ok.mpr ⟨inside, octetEq.trans (alike.octets pos unpatched).symm, rfl⟩

/-- The walk finds where the labels end. -/
theorem BytePacketBuffer.LabelsRead.labels_eq {left : Nat} {cursor stop : NameCursor} {len : UInt8}
    (labelsRead : LabelsRead first left cursor stop len) :
    Traversal.labels first.buf .pastEnd left cursor.pos = .ok (stop.pos, len) := by
  have size := first.size_eq
  have within : ∀ {pos octet}, exec (getAt pos) first = (.ok octet, first) →
      ∃ octets, Traversal.octetsIn first.buf .pastEnd pos 1 = .ok octets ∧
        octets.getD 0 0 = octet := by
    intro pos octet got
    obtain ⟨inside, octetEq, -⟩ := exec_getAt_eq_ok.mp got
    refine ⟨(first.buf.drop pos).take 1, by rw [Traversal.octetsIn, if_pos (by omega)], ?_⟩
    rw [octetEq]
    simp [List.getD_eq_getElem?_getD]
  induction labelsRead with
  | @pointer left cursor octet got isPointer =>
      obtain ⟨octets, octetsEq, headEq⟩ := within got
      rw [labels_succ, octetsEq]
      simp only [headEq]
      rw [if_pos isPointer]
  | @root left cursor got =>
      obtain ⟨octets, octetsEq, headEq⟩ := within got
      rw [labels_succ, octetsEq]
      simp only [headEq]
      rw [if_neg (by decide), if_neg (by decide), if_pos trivial]
  | @label left cursor stop octet len label got plain notRoot gotLabel later ih =>
      obtain ⟨octets, octetsEq, headEq⟩ := within got
      obtain ⟨room, -, -⟩ := exec_getRange_eq_ok.mp gotLabel
      have labelIn : Traversal.octetsIn first.buf .pastEnd (cursor.pos + 1) octet.toNat =
          .ok ((first.buf.drop (cursor.pos + 1)).take octet.toNat) := by
        rw [Traversal.octetsIn, if_pos (by omega)]
      rw [labels_succ, octetsEq]
      simp only [headEq]
      rw [if_neg (notPointer_of_plain plain), if_neg (not_not.mpr plain), if_neg notRoot, labelIn]
      exact ih

/-- The labels are read alike. -/
theorem BytePacketBuffer.LabelsRead.alike (alike : AlikeBut patched first second) {left : Nat}
    {cursor stop : NameCursor} {len : UInt8}
    (labelsRead : LabelsRead first left cursor stop len)
    (isSpared : spared patched cursor.pos
      (if len &&& 0xC0 = 0xC0 then stop.pos + 1 else stop.pos) = true) :
    LabelsRead second left cursor stop len := by
  induction labelsRead with
  | pointer got isPointer =>
      rw [if_pos isPointer] at isSpared
      have unpatched := spared_iff.mp isSpared _ (le_refl _) (Nat.lt_succ_self _)
      exact .pointer (exec_getAt_alike alike got unpatched) isPointer
  | root got =>
      rw [if_neg (by decide)] at isSpared
      have unpatched := spared_iff.mp isSpared _ (le_refl _) (Nat.lt_succ_self _)
      exact .root (exec_getAt_alike alike got unpatched)
  | @label left cursor stop octet len label got plain notRoot gotLabel later ih =>
      obtain ⟨room, labelEq, -⟩ := exec_getRange_eq_ok.mp gotLabel
      have further := later.pos_le.1
      simp only at further
      have reach : stop.pos ≤ if len &&& 0xC0 = 0xC0 then stop.pos + 1 else stop.pos := by
        split <;> omega
      have unpatched := spared_iff.mp isSpared _ (le_refl _) (by omega)
      have labelSpared := spared_mono isSpared (Nat.le_succ cursor.pos)
        (show cursor.pos + 1 + octet.toNat ≤ _ by omega)
      have gotAlike : exec (getRange (cursor.pos + 1) octet.toNat) second =
          (.ok label, second) :=
        exec_getRange_eq_ok.mpr ⟨room, labelEq.trans (alike.octetsAt_eq labelSpared).symm, rfl⟩
      have behind : cursor.pos ≤ cursor.pos + 1 + octet.toNat := by omega
      exact .label (exec_getAt_alike alike got unpatched) plain notRoot gotAlike
        (ih (spared_mono isSpared behind (le_refl _)))

theorem exec_seekUnless_alike (alike : AlikeBut patched first second) {jumped : Bool} {pos : Nat}
    (ran : exec (seekUnless jumped pos) first = (.ok (), after)) :
    exec (seekUnless jumped pos) second = (.ok (), second.movedTo after.pos) ∧
      after = first.movedTo after.pos := by
  cases jumped with
  | true =>
      cases ran
      refine ⟨?_, rfl⟩
      rw [← alike.pos]
      rfl
  | false =>
      cases ran
      exact ⟨rfl, rfl⟩

theorem exec_readName_alike (alike : AlikeBut patched first second) {jumps : Nat} {jumped : Bool}
    {cursor : NameCursor} {name : Text}
    (isSpared : nameSpared first.buf patched jumps cursor.pos = true)
    (ran : exec (readName jumps jumped cursor) first = (.ok name, after)) :
    exec (readName jumps jumped cursor) second = (.ok name, second.movedTo after.pos) := by
  induction jumps generalizing first second jumped cursor with
  | zero => simp [readName] at ran
  | succ jumps ih =>
      rw [readName, exec_bind_eq_ok] at ran
      obtain ⟨⟨stop, len⟩, middle, ranLabels, ran⟩ := ran
      obtain ⟨rfl, labelsRead⟩ := exec_readLabels_eq_ok.mp ranLabels
      have further := labelsRead.pos_le.1
      have labelsAlike := fun isSpared => (labelsRead.alike alike isSpared).exec_readLabels
      rw [nameSpared, labelsRead.labels_eq] at isSpared
      simp only at ran isSpared
      rw [readName]
      by_cases isPointer : len &&& 0xC0 = 0xC0
      · rw [if_pos isPointer] at ran isSpared labelsAlike
        obtain ⟨ownSpared, targetSpared⟩ := (Bool.and_eq_true _ _).mp isSpared
        rw [exec_bind_ok (labelsAlike (spared_mono ownSpared (le_refl _) (Nat.le_succ _)))]
        simp only
        rw [if_pos isPointer]
        obtain ⟨_, sought, ranSeek, ran⟩ := exec_bind_eq_ok.mp ran
        obtain ⟨low, last, got, ranTarget⟩ := exec_bind_eq_ok.mp ran
        obtain ⟨seeks, soughtEq⟩ := exec_seekUnless_alike alike ranSeek
        have soughtAlike := alike.movedTo sought.pos
        rw [← soughtEq] at soughtAlike
        obtain ⟨-, lowEq, rfl⟩ := exec_getAt_eq_ok.mp got
        have lowSpared := spared_iff.mp ownSpared (stop.pos + 1) (by omega) (by omega)
        rw [exec_bind_ok seeks, exec_bind_ok (exec_getAt_alike soughtAlike got lowSpared)]
        have sameBuf : last.buf = middle.buf := by rw [soughtEq, movedTo_buf]
        have laterSpared : nameSpared last.buf patched jumps (pointerTarget len low) = true := by
          rw [lowEq, sameBuf]
          exact targetSpared
        exact ih soughtAlike laterSpared ranTarget
      · rw [if_neg isPointer] at ran isSpared labelsAlike
        rw [exec_bind_ok (labelsAlike isSpared)]
        simp only
        rw [if_neg isPointer]
        obtain ⟨_, sought, ranSeek, ran⟩ := exec_bind_eq_ok.mp ran
        obtain ⟨seeks, -⟩ := exec_seekUnless_alike alike ranSeek
        cases ran
        rw [exec_bind_ok seeks]
        rfl

theorem exec_readQname_alike (alike : AlikeBut patched first second) {name : Text}
    (isSpared : nameSpared first.buf patched (maxJumps + 1) first.pos = true)
    (ran : exec readQname first = (.ok name, after)) :
    exec readQname second = (.ok name, second.movedTo after.pos) := by
  rw [exec_readQname] at ran ⊢
  rw [alike.pos]
  exact exec_readName_alike alike isSpared ran

/-! ## Record data -/

/-- The action reads a part of the data of a record, and reads it alike when it is spared. -/
def ReadsField (rdataStart dataLen : Nat) (field : Traversal.RdataField) (action : BufferM α) :
    Prop :=
  ∀ ⦃first after value⦄, exec action first = (.ok value, after) →
    ∃ next, fieldEnd first.buf rdataStart dataLen first.pos field = .ok next ∧
      after = first.movedTo next ∧
      ∀ ⦃patched second⦄, AlikeBut patched first second →
        fieldSpared first.buf patched first.pos next field = true →
          exec action second = (.ok value, second.movedTo next)

/-- The action reads these parts and reads them alike when they are spared. -/
def ReadsFields (rdataStart dataLen : Nat) (fields : List Traversal.RdataField)
    (action : BufferM α) : Prop :=
  ∀ ⦃first after value patched second⦄, exec action first = (.ok value, after) →
    AlikeBut patched first second →
      fieldsSpared first.buf patched rdataStart dataLen fields first.pos = true →
        exec action second = (.ok value, second.movedTo after.pos)

section Fields

variable {rdataStart dataLen : Nat} {field : Traversal.RdataField}
  {fields : List Traversal.RdataField}

theorem readsFields_pure (value : α) : ReadsFields rdataStart dataLen [] (pure value) := by
  intro first after result patched second ran alike _
  cases ran
  rw [← alike.pos]
  rfl

theorem ReadsField.andThen {action : BufferM α} {next : α → BufferM β}
    (reads : ReadsField rdataStart dataLen field action)
    (later : ∀ value, ReadsFields rdataStart dataLen fields (next value)) :
    ReadsFields rdataStart dataLen (field :: fields) (action >>= next) := by
  intro first after result patched second ran alike isSpared
  obtain ⟨value, middle, ranField, ranLater⟩ := exec_bind_eq_ok.mp ran
  obtain ⟨stop, ends, rfl, again⟩ := reads ranField
  rw [fieldsSpared, ends] at isSpared
  obtain ⟨ownSpared, laterSpared⟩ := (Bool.and_eq_true _ _).mp isSpared
  rw [exec_bind_ok (again alike ownSpared)]
  exact later value ranLater (alike.movedTo stop) laterSpared

theorem ReadsOctets.readsFixed {len : Nat} {action : BufferM α} {value : List UInt8 → α}
    (reads : ReadsOctets len action value) :
    ReadsField rdataStart dataLen (.fixed len) action := by
  intro first after result ran
  obtain ⟨fits, overflows⟩ := reads first
  by_cases room : first.pos + len ≤ bufSize
  · cases (fits room).symm.trans ran
    refine ⟨first.pos + len, rfl, rfl, fun patched second alike isSpared => ?_⟩
    have again := (reads second).1 (by rw [alike.pos]; exact room)
    rwa [alike.pos, alike.octetsAt_eq isSpared] at again
  · have failed := overflows (by omega)
    rw [ran] at failed
    cases failed

theorem readsField_name : ReadsField rdataStart dataLen .name readQname := by
  intro first after name ran
  obtain ⟨stop, skipped, rfl⟩ := exec_readQname_skip ran
  exact ⟨stop, skipped, rfl, fun patched second alike isSpared =>
    exec_readQname_alike alike isSpared ran⟩

theorem readsField_whole : ReadsField rdataStart dataLen .whole (readOctets dataLen) := by
  have fixed : ReadsField rdataStart dataLen (.fixed dataLen) (readOctets dataLen) :=
    (readsOctets_readOctets dataLen).readsFixed
  exact fixed

theorem readsField_rest (qtype : QueryType) (dataLen : UInt16) :
    ReadsField rdataStart dataLen.toNat .rest (readRest qtype rdataStart dataLen) := by
  intro first after octets ran
  obtain ⟨short, room, octetsEq, rfl⟩ := exec_readRest_eq_ok.mp ran
  refine ⟨_, rfl, rfl, fun patched second alike isSpared => ?_⟩
  rw [exec_readRest_eq_ok, alike.pos]
  have restSpared : spared patched first.pos
      (first.pos + (rdataStart + dataLen.toNat - first.pos)) = true := by
    rwa [Nat.add_sub_cancel' short]
  exact ⟨short, room, octetsEq.trans (alike.octetsAt_eq restSpared).symm, rfl⟩

/-- Octets behind an octet with their number. -/
theorem readsField_counted :
    ReadsField rdataStart dataLen .counted
      (read >>= fun count => readOctets count.toNat) := by
  intro first after octets ran
  obtain ⟨count, middle, ranCount, ranOctets⟩ := exec_bind_eq_ok.mp ran
  obtain ⟨countRoom, rfl, rfl⟩ := exec_read_eq_ok.mp ranCount
  obtain ⟨room, octetsEq, rfl⟩ := exec_readOctets_eq_ok.mp ranOctets
  refine ⟨_, rfl, rfl, fun patched second alike isSpared => ?_⟩
  have headEq := alike.octets first.pos (spared_iff.mp isSpared _ (le_refl _) (by omega))
  have tailSpared : spared patched (first.pos + 1)
      (first.pos + 1 + (wireOctet first.buf first.pos).toNat) = true :=
    spared_mono isSpared (Nat.le_succ _) (le_refl _)
  refine exec_bind_eq_ok.mpr ⟨wireOctet first.buf first.pos, second.movedTo (first.pos + 1), ?_, ?_⟩
  · rw [exec_read_eq_ok, alike.pos]
    exact ⟨countRoom, headEq.symm, rfl⟩
  · exact exec_readOctets_eq_ok.mpr
      ⟨room, octetsEq.trans (alike.octetsAt_eq tailSpared).symm, rfl⟩

theorem ReadsFields.counted {next : List UInt8 → BufferM β}
    (later : ∀ octets, ReadsFields rdataStart dataLen fields (next octets)) :
    ReadsFields rdataStart dataLen (.counted :: fields)
      (read >>= fun count => readOctets count.toNat >>= next) := by
  rw [← bind_assoc]
  exact readsField_counted.andThen later

theorem readsField_u16 : ReadsField rdataStart dataLen (.fixed 2) readU16 :=
  readsOctets_readU16.readsFixed

theorem readsField_u32 : ReadsField rdataStart dataLen (.fixed 4) readU32 :=
  have ⟨_, reads⟩ := readsOctets_readU32
  reads.readsFixed

theorem readsField_octet : ReadsField rdataStart dataLen (.fixed 1) read :=
  readsOctets_read.readsFixed

/-- The data of every type are read alike when their parts are spared. -/
theorem readsFields_readRdata (domain : Text) (qtypeNum : UInt16) (ttl : UInt32)
    (dataLen : UInt16) (rdataStart : Nat) :
    ReadsFields rdataStart dataLen.toNat (Traversal.rdataFields (.fromNum qtypeNum))
      (DnsRecord.readRdata domain qtypeNum ttl dataLen rdataStart) := by
  unfold DnsRecord.readRdata
  cases QueryType.fromNum qtypeNum
  case a => exact readsField_u32.andThen fun _ => readsFields_pure _
  case aaaa =>
    exact readsField_u32.andThen fun _ => readsField_u32.andThen fun _ =>
      readsField_u32.andThen fun _ => readsField_u32.andThen fun _ => readsFields_pure _
  case ns | cname | ptr => exact readsField_name.andThen fun _ => readsFields_pure _
  case mx =>
    exact readsField_u16.andThen fun _ => readsField_name.andThen fun _ => readsFields_pure _
  case soa =>
    exact readsField_name.andThen fun _ => readsField_name.andThen fun _ =>
      readsField_u32.andThen fun _ => readsField_u32.andThen fun _ =>
      readsField_u32.andThen fun _ => readsField_u32.andThen fun _ =>
      readsField_u32.andThen fun _ => readsFields_pure _
  case dnskey | ds =>
    exact readsField_u16.andThen fun _ => readsField_octet.andThen fun _ =>
      readsField_octet.andThen fun _ => (readsField_rest _ _).andThen fun _ => readsFields_pure _
  case rrsig =>
    exact readsField_u16.andThen fun _ => readsField_octet.andThen fun _ =>
      readsField_octet.andThen fun _ => readsField_u32.andThen fun _ =>
      readsField_u32.andThen fun _ => readsField_u32.andThen fun _ =>
      readsField_u16.andThen fun _ => readsField_name.andThen fun _ =>
      (readsField_rest _ _).andThen fun _ => readsFields_pure _
  case nsec =>
    exact readsField_name.andThen fun _ => (readsField_rest _ _).andThen fun _ =>
      readsFields_pure _
  case nsec3 =>
    exact readsField_octet.andThen fun _ => readsField_octet.andThen fun _ =>
      readsField_u16.andThen fun _ => .counted fun _ => .counted fun _ =>
      (readsField_rest _ _).andThen fun _ => readsFields_pure _
  all_goals exact readsField_whole.andThen fun _ => readsFields_pure _

end Fields

/-! ## Records -/

/-- The TTL goes into the record unseen. -/
theorem readRdata_withTtl (domain : Text) (qtypeNum : UInt16) (ttl other : UInt32)
    (dataLen : UInt16) (rdataStart : Nat) :
    DnsRecord.readRdata domain qtypeNum other dataLen rdataStart =
      DnsRecord.readRdata domain qtypeNum ttl dataLen rdataStart >>= fun record =>
        pure (record.withTtl other) := by
  unfold DnsRecord.readRdata
  cases QueryType.fromNum qtypeNum <;> simp [DnsRecord.withTtl]

theorem exec_readRecord_alike (alike : AlikeBut patched first second) {record : DnsRecord}
    (isSpared : recordSpared first.buf patched first.pos = true)
    (ran : exec DnsRecord.read first = (.ok record, after)) :
    ∃ stop ttl, recordEnd first.buf first.pos = .ok stop ∧ after = first.movedTo stop ∧
      exec DnsRecord.read second = (.ok (record.withTtl ttl), second.movedTo stop) := by
  obtain ⟨domain, pos, named, skipped, room, ranData⟩ := DnsRecord.exec_read_eq_ok.mp ran
  obtain ⟨-, -, stop, ends, rfl⟩ :=
    DnsRecord.exec_readRdata_end (movedTo_pos first (pos + 10)) ranData
  rw [recordSpared, skipped] at isSpared
  simp only [Bool.and_eq_true] at isSpared
  obtain ⟨⟨⟨nameIs, headIs⟩, lengthIs⟩, dataIs⟩ := isSpared
  have beyond := skipLabels_gt skipped
  have namedAgain := exec_readQname_alike alike nameIs named
  obtain ⟨otherPos, otherSkipped, otherAfter⟩ := exec_readQname_skip namedAgain
  have samePos : otherPos = pos := (congrArg BytePacketBuffer.pos otherAfter).symm
  subst samePos
  have sameType : wireU16 second.buf otherPos = wireU16 first.buf otherPos :=
    alike.wireU16_eq (spared_mono headIs (by omega) (by omega))
  have sameLength : wireU16 second.buf (otherPos + 8) = wireU16 first.buf (otherPos + 8) :=
    alike.wireU16_eq lengthIs
  have ranAgain := readsFields_readRdata domain _ _ _ (otherPos + 10) ranData
    (alike.movedTo (otherPos + 10)) dataIs
  refine ⟨stop, wireU32 second.buf (otherPos + 4), ?_, rfl, ?_⟩
  · simp only [recordEnd, skipped, bind, Except.bind]
    exact ends
  · refine DnsRecord.exec_read_eq_ok.mpr ⟨domain, otherPos, namedAgain, otherSkipped, room, ?_⟩
    rw [sameType, sameLength,
      readRdata_withTtl domain _ (wireU32 first.buf (otherPos + 4)), exec_bind_ok ranAgain]
    rfl

/-- The octets of a record that is read which the peek looks at. -/
theorem spared_head {record : DnsRecord}
    (isSpared : recordSpared first.buf patched first.pos = true)
    (ran : exec DnsRecord.read first = (.ok record, after)) :
    spared patched first.pos (first.pos + 3) = true := by
  obtain ⟨domain, pos, -, skipped, -, -⟩ := DnsRecord.exec_read_eq_ok.mp ran
  have beyond := skipLabels_gt skipped
  rw [recordSpared, skipped] at isSpared
  simp only [Bool.and_eq_true] at isSpared
  exact spared_mono isSpared.1.1.2 (le_refl _) (by omega)

/-- Nothing of an OPT record may be patched. -/
theorem exec_readEdns_alike (alike : AlikeBut patched first second) {edns : EdnsOpt}
    (isSpared : spared patched first.pos
      (first.pos + 11 + (wireU16 first.buf (first.pos + 9)).toNat) = true)
    (ran : exec EdnsOpt.read first = (.ok edns, after)) :
    exec EdnsOpt.read second = (.ok edns, second.movedTo after.pos) := by
  have posEq := alike.pos
  simp only [EdnsOpt.read, exec_bind_eq_ok, exec_readU16_eq_ok, exec_readU32_eq_ok,
    exec_readOctets_eq_ok] at ran ⊢
  obtain ⟨_, _, stepped, _, _, ⟨typeRoom, -, rfl⟩, size, _, ⟨sizeRoom, sizeEq, rfl⟩, flags, _,
    ⟨flagsRoom, flagsEq, rfl⟩, length, _, ⟨lengthRoom, lengthEq, rfl⟩, options, _,
    ⟨optionsRoom, optionsEq, rfl⟩, result⟩ := ran
  cases stepped
  cases result
  simp only [movedTo_pos, movedTo_buf] at *
  have inside : ∀ low high, first.pos ≤ low → high ≤ first.pos + 11 + length.toNat →
      spared patched low high = true := by
    intro low high above below
    rw [lengthEq] at below
    exact spared_mono isSpared above below
  have sizeAgain : size = wireU16 second.buf (second.pos + 1 + 2) := by
    rw [posEq, sizeEq, alike.wireU16_eq (inside _ _ (by omega) (by omega))]
  have flagsAgain : flags = wireU32 second.buf (second.pos + 1 + 2 + 2) := by
    rw [posEq, flagsEq, alike.wireU32_eq (inside _ _ (by omega) (by omega))]
  have lengthAgain : length = wireU16 second.buf (second.pos + 1 + 2 + 2 + 4) := by
    rw [posEq, lengthEq, alike.wireU16_eq (inside _ _ (by omega) (by omega))]
  have optionsAgain : options = octetsAt second.buf (second.pos + 1 + 2 + 2 + 4 + 2)
      length.toNat := by
    rw [posEq, optionsEq, alike.octetsAt_eq (inside _ _ (by omega) (by omega))]
  rw [← posEq] at typeRoom sizeRoom flagsRoom lengthRoom optionsRoom ⊢
  exact ⟨(), second.movedTo (second.pos + 1), rfl, _, _, ⟨typeRoom, rfl, rfl⟩, size, _,
    ⟨sizeRoom, sizeAgain, rfl⟩, flags, _, ⟨flagsRoom, flagsAgain, rfl⟩, length, _,
    ⟨lengthRoom, lengthAgain, rfl⟩, options, _, ⟨optionsRoom, optionsAgain, rfl⟩, rfl⟩

/-- The peek at a record of the additional section. -/
theorem exec_isOptAt_alike (alike : AlikeBut patched first second) {isOpt : Bool}
    (isSpared : spared patched first.pos (first.pos + 3) = true)
    (ran : exec (DnsPacket.isOptAt first.pos) first = (.ok isOpt, after)) :
    exec (DnsPacket.isOptAt second.pos) second = (.ok isOpt, second) := by
  have octet := spared_iff.mp isSpared
  rw [alike.pos]
  rw [DnsPacket.isOptAt, exec_bind_eq_ok] at ran
  obtain ⟨name, middle, gotName, ran⟩ := ran
  obtain ⟨-, -, rfl⟩ := exec_getAt_eq_ok.mp gotName
  rw [DnsPacket.isOptAt,
    exec_bind_ok (exec_getAt_alike alike gotName (octet _ (le_refl _) (by omega)))]
  split at ran
  · rename_i root
    obtain ⟨high, behind, gotHigh, ranLow⟩ := exec_bind_eq_ok.mp ran
    obtain ⟨-, -, rfl⟩ := exec_getAt_eq_ok.mp gotHigh
    obtain ⟨low, last, gotLow, result⟩ := exec_bind_eq_ok.mp ranLow
    cases result
    rw [if_pos root, exec_bind_ok (exec_getAt_alike alike gotHigh (octet _ (by omega) (by omega))),
      exec_bind_ok (exec_getAt_alike alike gotLow (octet _ (by omega) (by omega)))]
    rfl
  · rename_i notRoot
    cases ran
    rw [if_neg notRoot]
    rfl

/-- The records but for their TTLs. -/
def withoutTtls (records : List DnsRecord) : List DnsRecord :=
  records.map (DnsRecord.withTtl 0)

theorem exec_readRecords_alike (alike : AlikeBut patched first second) {count : Nat}
    {later : List Bool} {records : List DnsRecord}
    (isSpared : recordsSpared first.buf patched (List.replicate count false ++ later) first.pos =
      true)
    (ran : exec (readMany DnsRecord.read count) first = (.ok records, after)) :
    ∃ stop others, after = first.movedTo stop ∧
      recordsSpared first.buf patched later stop = true ∧
      exec (readMany DnsRecord.read count) second = (.ok others, second.movedTo stop) ∧
      withoutTtls others = withoutTtls records := by
  induction count generalizing first second records with
  | zero =>
      cases ran
      refine ⟨_, [], rfl, isSpared, ?_, rfl⟩
      rw [← alike.pos]
      rfl
  | succ count ih =>
      obtain ⟨record, middle, rest, ranRecord, ranRest, rfl⟩ := exec_readMany_succ_eq_ok.mp ran
      rw [List.replicate_succ, List.cons_append, recordsSpared, if_neg (by simp)] at isSpared
      obtain ⟨recordIs, restIs⟩ := (Bool.and_eq_true _ _).mp isSpared
      obtain ⟨next, ttl, ends, rfl, again⟩ := exec_readRecord_alike alike recordIs ranRecord
      rw [ends] at restIs
      obtain ⟨stop, others, rfl, laterIs, restAgain, same⟩ :=
        ih (alike.movedTo next) restIs ranRest
      refine ⟨stop, record.withTtl ttl :: others, rfl, laterIs, ?_, ?_⟩
      · exact exec_readMany_succ_eq_ok.mpr ⟨_, _, others, again, restAgain, rfl⟩
      · simpa [withoutTtls] using same

theorem exec_readResources_alike (alike : AlikeBut patched first second) {count : Nat}
    {edns last : Option EdnsOpt} {records : List DnsRecord}
    (isSpared : recordsSpared first.buf patched (List.replicate count true) first.pos = true)
    (ran : exec (DnsPacket.readResources count edns) first = (.ok (records, last), after)) :
    ∃ others, exec (DnsPacket.readResources count edns) second =
        (.ok (others, last), second.movedTo after.pos) ∧
      withoutTtls others = withoutTtls records := by
  induction count generalizing first second records edns with
  | zero =>
      cases ran
      refine ⟨[], ?_, rfl⟩
      rw [← alike.pos]
      rfl
  | succ count ih =>
      rw [DnsPacket.readResources, exec_get_bind, exec_bind_eq_ok] at ran
      obtain ⟨isOpt, middle, peeked, ran⟩ := ran
      obtain ⟨rfl, isOptEq⟩ := exec_isOptAt_eq_ok peeked
      rw [List.replicate_succ, recordsSpared] at isSpared
      rw [DnsPacket.readResources, exec_get_bind]
      cases isOpt with
      | true =>
          rw [if_pos ⟨rfl, isOptEq.symm⟩] at isSpared
          obtain ⟨ownIs, restIs⟩ := (Bool.and_eq_true _ _).mp isSpared
          simp only [if_true, exec_bind_eq_ok] at ran
          obtain ⟨opt, behind, ranOpt, ranRest⟩ := ran
          have again := exec_readEdns_alike alike ownIs ranOpt
          obtain rfl := exec_readEdns_eq_ok ranOpt
          have restAlike := alike.movedTo
            (middle.pos + 11 + (wireU16 middle.buf (middle.pos + 9)).toNat)
          obtain ⟨others, restAgain, same⟩ := ih restAlike restIs ranRest
          refine ⟨others, ?_, same⟩
          rw [exec_bind_ok (exec_isOptAt_alike alike (spared_mono ownIs (le_refl _) (by omega))
            peeked), if_pos rfl, exec_bind_ok again]
          exact restAgain
      | false =>
          rw [if_neg (by simp [← isOptEq])] at isSpared
          obtain ⟨recordIs, restIs⟩ := (Bool.and_eq_true _ _).mp isSpared
          simp only [Bool.false_eq_true, if_false, exec_bind_eq_ok] at ran
          obtain ⟨record, behind, ranRecord, ⟨rest, _⟩, _, ranRest, result⟩ := ran
          cases result
          obtain ⟨next, ttl, ends, rfl, again⟩ := exec_readRecord_alike alike recordIs ranRecord
          rw [ends] at restIs
          obtain ⟨others, restAgain, same⟩ := ih (alike.movedTo next) restIs ranRest
          have headIs := spared_head recordIs ranRecord
          refine ⟨record.withTtl ttl :: others, ?_, by simpa [withoutTtls] using same⟩
          rw [exec_bind_ok (exec_isOptAt_alike alike headIs peeked),
            if_neg Bool.false_ne_true, exec_bind_ok again, exec_bind_ok restAgain]
          rfl

/-! ## Whole messages -/

theorem exec_readQuestions_alike (alike : AlikeBut patched first second) {count : Nat}
    {questions : List DnsQuestion}
    (isSpared : questionsSpared first.buf patched count first.pos = true)
    (ran : exec (readMany DnsQuestion.read count) first = (.ok questions, after)) :
    exec (readMany DnsQuestion.read count) second = (.ok questions, second.movedTo after.pos) := by
  induction count generalizing first second questions with
  | zero =>
      cases ran
      rw [← alike.pos]
      rfl
  | succ count ih =>
      obtain ⟨question, middle, rest, read, ranRest, rfl⟩ := exec_readMany_succ_eq_ok.mp ran
      simp only [DnsQuestion.read, exec_bind_eq_ok, exec_readU16_eq_ok] at read
      obtain ⟨name, _, named, qtype, _, ⟨-, typeEq, rfl⟩, _, _, ⟨room, -, rfl⟩, result⟩ := read
      obtain ⟨pos, skipped, rfl⟩ := exec_readQname_skip named
      cases result
      rw [questionsSpared, skipped] at isSpared
      simp only [Bool.and_eq_true] at isSpared
      obtain ⟨⟨nameIs, typeIs⟩, restIs⟩ := isSpared
      have typeAgain : qtype = wireU16 (second.movedTo pos).buf pos := by
        rw [typeEq]
        exact (alike.wireU16_eq (spared_mono typeIs (le_refl _) (by omega))).symm
      have questionAgain : exec DnsQuestion.read second =
          (.ok ⟨name, .fromNum qtype⟩, second.movedTo (pos + 2 + 2)) := by
        simp only [DnsQuestion.read, exec_bind_eq_ok, exec_readU16_eq_ok]
        exact ⟨name, _, exec_readQname_alike alike nameIs named, qtype, _,
          ⟨by simp only [movedTo_pos] at room ⊢; omega, typeAgain, rfl⟩, _, _, ⟨room, rfl, rfl⟩,
          rfl⟩
      exact exec_readMany_succ_eq_ok.mpr ⟨_, _, rest, questionAgain,
        ih (alike.movedTo (pos + 2 + 2)) restIs ranRest, rfl⟩

/-- The header is read alike but for the identifier. -/
theorem exec_readHeader_alike (alike : AlikeBut patched first second)
    (isSpared : spared patched 2 12 = true) {header : DnsHeader}
    (ran : exec DnsHeader.read (first.movedTo 0) = (.ok header, after)) :
    ∃ id, exec DnsHeader.read (second.movedTo 0) =
      (.ok { header with id := id }, second.movedTo 12) := by
  have number : ∀ start, 2 ≤ start → start + 2 ≤ 12 →
      wireU16 second.buf start = wireU16 first.buf start := fun start above below =>
    alike.wireU16_eq (spared_mono isSpared above below)
  simp only [DnsHeader.read, exec_bind_eq_ok, exec_readU16_eq_ok, movedTo_pos, movedTo_buf]
    at ran ⊢
  obtain ⟨_, _, ⟨idRoom, -, rfl⟩, flags, _, ⟨flagsRoom, flagsEq, rfl⟩, questions, _,
    ⟨questionsRoom, questionsEq, rfl⟩, answers, _, ⟨answersRoom, answersEq, rfl⟩, authorities, _,
    ⟨authoritiesRoom, authoritiesEq, rfl⟩, resources, _, ⟨resourcesRoom, resourcesEq, rfl⟩,
    result⟩ := ran
  cases result
  exact ⟨wireU16 second.buf 0, _, _, ⟨idRoom, rfl, rfl⟩,
    flags, _, ⟨flagsRoom, flagsEq.trans (number 2 (by omega) (by omega)).symm, rfl⟩,
    questions, _, ⟨questionsRoom, questionsEq.trans (number 4 (by omega) (by omega)).symm, rfl⟩,
    answers, _, ⟨answersRoom, answersEq.trans (number 6 (by omega) (by omega)).symm, rfl⟩,
    authorities, _,
      ⟨authoritiesRoom, authoritiesEq.trans (number 8 (by omega) (by omega)).symm, rfl⟩,
    resources, _,
      ⟨resourcesRoom, resourcesEq.trans (number 10 (by omega) (by omega)).symm, rfl⟩, rfl⟩

/-- A packet but for its identifier and its TTLs. -/
def DnsPacket.content (packet : DnsPacket) : DnsPacket :=
  packet.patch 0 0

/-- What is read of a message does not hang on patches that spare it. -/
theorem exec_fromBuffer_alike (alike : AlikeBut patched first second)
    (headerIs : spared patched 2 12 = true) (isSpared : messageSpared first.buf patched = true)
    {packet : DnsPacket}
    (ran : exec DnsPacket.fromBuffer (first.movedTo 0) = (.ok packet, after)) :
    ∃ other, exec DnsPacket.fromBuffer (second.movedTo 0) = (.ok other, second.movedTo after.pos) ∧
      other.content = packet.content := by
  simp only [DnsPacket.fromBuffer, exec_bind_eq_ok] at ran
  obtain ⟨header, _, ranHeader, questions, _, ranQuestions, answers, _, ranAnswers, authorities, _,
    ranAuthorities, ⟨resources, edns⟩, _, ranResources, result⟩ := ran
  cases result
  obtain ⟨id, headerAgain⟩ := exec_readHeader_alike alike headerIs ranHeader
  obtain ⟨questionsEq, answersEq, authoritiesEq, resourcesEq, rfl⟩ :=
    exec_readHeader_eq_ok ranHeader
  simp only [movedTo_buf, movedTo_pos, Nat.zero_add] at questionsEq answersEq
  simp only [movedTo_buf, movedTo_pos, Nat.zero_add] at authoritiesEq resourcesEq
  simp only [movedTo_pos, movedTo_movedTo, Nat.zero_add] at ranQuestions
  rw [messageSpared, ← questionsEq] at isSpared
  obtain ⟨questionsAre, recordsAre⟩ := (Bool.and_eq_true _ _).mp isSpared
  have questionsAgain := exec_readQuestions_alike (alike.movedTo 12) questionsAre ranQuestions
  obtain ⟨start, skipped, rfl⟩ := exec_readQuestions_eq_ok ranQuestions
  simp only [movedTo_buf, movedTo_pos, movedTo_movedTo] at skipped ranAnswers questionsAgain
  rw [skipped] at recordsAre
  have marksEq : marks first.buf =
      List.replicate header.answers.toNat false ++
        (List.replicate header.authoritativeEntries.toNat false ++
          List.replicate header.resourceEntries.toNat true) := by
    rw [marks, plainCount, additionalCount, List.replicate_add, answersEq, authoritiesEq,
      resourcesEq, List.append_assoc]
  simp only [marksEq] at recordsAre
  obtain ⟨behind, otherAnswers, rfl, recordsAre, answersAgain, sameAnswers⟩ :=
    exec_readRecords_alike (alike.movedTo start) recordsAre ranAnswers
  obtain ⟨third, otherAuthorities, rfl, recordsAre, authoritiesAgain, sameAuthorities⟩ :=
    exec_readRecords_alike ((alike.movedTo start).movedTo behind) recordsAre ranAuthorities
  obtain ⟨otherResources, resourcesAgain, sameResources⟩ :=
    exec_readResources_alike (((alike.movedTo start).movedTo behind).movedTo third) recordsAre
      ranResources
  refine ⟨⟨{ header with id := id }, questions, otherAnswers, otherAuthorities, otherResources,
    edns⟩, ?_, ?_⟩
  · simp only [DnsPacket.fromBuffer, exec_bind_eq_ok]
    exact ⟨_, _, headerAgain, questions, _, questionsAgain, otherAnswers, _, answersAgain,
      otherAuthorities, _, authoritiesAgain, (otherResources, edns), _, resourcesAgain, rfl⟩
  · unfold withoutTtls at sameAnswers sameAuthorities sameResources
    rw [DnsPacket.content, DnsPacket.content, DnsPacket.patch, DnsPacket.patch, sameAnswers,
      sameAuthorities, sameResources]

end Numa
