import Mathlib.Data.List.GetD
import Numa.ReaderRules

/-!
# The scan and the parser

`scan_ttl_offsets` trusts the length of the data of a record, while the parser
follows the layout of the type.  Both walk the same message, and this file says
when they meet the same records: when no OPT record stands outside the
additional section, and every record that another one follows fills its length.
-/

namespace Numa

open BytePacketBuffer

/-- A record with the positions where it and its TTL field start. -/
structure Located where
  start : Nat
  ttlOffset : Nat
  record : DnsRecord

def Located.fields (located : Located) : Nat × Nat :=
  (located.start, located.ttlOffset)

/-- `DnsRecord::read` with the positions it reads from. -/
def readLocated : BufferM Located := do
  let buffer ← get
  let _ ← readQname
  let named ← get
  set buffer
  let record ← DnsRecord.read
  pure ⟨buffer.pos, named.pos + 4, record⟩

def readLocatedResources : Nat → BufferM (List Located)
  | 0 => pure []
  | count + 1 => do
    let buffer ← get
    let isOpt ← DnsPacket.isOptAt buffer.pos
    if isOpt then
      let _ ← EdnsOpt.read
      readLocatedResources count
    else
      let first ← readLocated
      let rest ← readLocatedResources count
      pure (first :: rest)

/-- The records that `from_buffer` reads, with their positions. -/
def readAllLocated : BufferM (List Located) := do
  let header ← DnsHeader.read
  let _ ← readMany DnsQuestion.read header.questions.toNat
  let answers ← readMany readLocated header.answers.toNat
  let authorities ← readMany readLocated header.authoritativeEntries.toNat
  let resources ← readLocatedResources header.resourceEntries.toNat
  pure (answers ++ authorities ++ resources)

/-- Where the parser finds the records of a message and their TTL fields. -/
def parsedFields (wire : List UInt8) : List (Nat × Nat) :=
  match (exec readAllLocated (.fromBytes wire)).1 with
  | .ok located => located.map Located.fields
  | .error _ => []

section Scan

variable (wire : List UInt8)

/-- Where the scan finds records other than OPT records and their TTL fields. -/
def scanFields : Nat → Nat → List (Nat × Nat)
  | 0, _ => []
  | count + 1, start =>
    match scanRecord wire start with
    | .ok (offsets, next) => offsets.map (start, ·) ++ scanFields count next
    | .error _ => []

/-- The number of records before the additional section. -/
def plainCount : Nat :=
  (wireU16 wire 6).toNat + (wireU16 wire 8).toNat

def additionalCount : Nat :=
  (wireU16 wire 10).toNat

/-- Where the scan finds the records of a message and their TTL fields. -/
def scannedFields : List (Nat × Nat) :=
  match skipQuestions wire (wireU16 wire 4).toNat 12 with
  | .ok first => scanFields wire (plainCount wire + additionalCount wire) first
  | .error _ => []

/-- The layout of the data of the record ends where its length says. -/
def FillsLength (start : Nat) : Prop :=
  match skipWireName wire start with
  | .ok pos =>
    layoutEnd wire (.fromNum (wireU16 wire pos)) (pos + 10) (wireU16 wire (pos + 8)).toNat =
      .ok (pos + 10 + (wireU16 wire (pos + 8)).toNat)
  | .error _ => False

/-- The records from a position on, of which those in the additional section
are marked, fill their lengths up to the last one, and only there are OPT
records. -/
def FramedFrom : List Bool → Nat → Prop
  | [], _ => True
  | additional :: later, start =>
    match scanRecord wire start with
    | .ok (_, next) =>
      (additional = false → isOptRecord wire start = false) ∧
        (later ≠ [] → FillsLength wire start) ∧ FramedFrom later next
    | .error _ => False

/-- The marks of the records of a message. -/
def marks : List Bool :=
  List.replicate (plainCount wire) false ++ List.replicate (additionalCount wire) true

/-- No OPT record stands outside the additional section, and every record that
another one follows fills its length. -/
def Framed : Prop :=
  match skipQuestions wire (wireU16 wire 4).toNat 12 with
  | .ok first => FramedFrom wire (marks wire) first
  | .error _ => False

end Scan

/-- The scan and the parser have met the same records. -/
structure Agree (wire : List UInt8) (scanned : WireMeta) (packet : DnsPacket) : Prop where
  fields : scannedFields wire = parsedFields wire
  offsets : scanned.ttlOffsets = (parsedFields wire).map Prod.snd
  ttls : scanned.ttlOffsets.map (wireU32 wire) =
    (packet.answers ++ packet.authorities ++ packet.resources).map DnsRecord.ttl
  answers : scanned.answerCount = packet.answers.length

/-! ## The octets of a message in the buffer -/

section Octets

variable {wire : List UInt8} {start pos next count : Nat}

theorem fromBytes_buf (fits : wire.length ≤ bufSize) :
    (fromBytes wire).buf = wire ++ List.replicate (bufSize - wire.length) 0 := by
  simp [fromBytes, List.take_of_length_le fits]

/-- Behind a message the buffer holds zeros, as if the message went on. -/
theorem wireOctet_fromBytes (fits : wire.length ≤ bufSize) (index : Nat) :
    wireOctet (fromBytes wire).buf index = wireOctet wire index := by
  rw [fromBytes_buf fits, wireOctet, wireOctet]
  by_cases inside : index < wire.length
  · rw [List.getD_append _ _ _ _ inside]
  · rw [List.getD_append_right _ _ _ _ (by omega), List.getD_eq_default wire 0 (by omega),
      List.getD_eq_getElem?_getD, List.getElem?_replicate]
    split <;> rfl

theorem wireU16_fromBytes (fits : wire.length ≤ bufSize) (index : Nat) :
    wireU16 (fromBytes wire).buf index = wireU16 wire index := by
  simp only [wireU16, wireOctet_fromBytes fits]

theorem wireU32_fromBytes (fits : wire.length ≤ bufSize) (index : Nat) :
    wireU32 (fromBytes wire).buf index = wireU32 wire index := by
  simp only [wireU32, wireOctet_fromBytes fits]

/-- A message that stops behind a name has the same name. -/
theorem skipLabels_shorter {other : List UInt8} {rounds more : Nat}
    (skipped : skipLabels wire rounds start = .ok pos) (enough : pos ≤ start + more)
    (inside : pos ≤ other.length)
    (agree : ∀ index, start ≤ index → index < pos → wireOctet other index = wireOctet wire index) :
    skipLabels other more start = .ok pos := by
  induction rounds generalizing start more with
  | zero => cases skipped
  | succ rounds ih =>
      have positive := skipLabels_gt skipped
      obtain ⟨more, rfl⟩ : ∃ less, more = less + 1 := ⟨more - 1, by omega⟩
      obtain ⟨-, cases⟩ := skipLabels_eq_ok_iff.mp skipped
      rw [skipLabels_eq_ok_iff, agree start (le_refl _) positive]
      refine ⟨by omega, cases.imp_right (Or.imp_right ?_)⟩
      rintro ⟨notPointer, notRoot, later⟩
      have := skipLabels_gt later
      exact ⟨notPointer, notRoot, ih later (by omega) fun index above below =>
        agree index (by omega) below⟩

/-- The scan finds a name in a message as in the buffer that holds it. -/
theorem skipWireName_fromBytes (fits : wire.length ≤ bufSize)
    (skipped : skipWireName wire start = .ok pos) :
    skipWireName (fromBytes wire).buf start = .ok pos :=
  skipWireName_congr skipped (by rw [(fromBytes wire).size_eq]; exact fits)
    fun index _ _ => wireOctet_fromBytes fits index

theorem skipWireName_of_fromBytes (fits : wire.length ≤ bufSize)
    (skipped : skipWireName (fromBytes wire).buf start = .ok pos) (inside : pos ≤ wire.length) :
    skipWireName wire start = .ok pos :=
  skipLabels_shorter skipped (by omega) inside
    fun index _ _ => (wireOctet_fromBytes fits index).symm

theorem skipQuestions_fromBytes (fits : wire.length ≤ bufSize)
    (skipped : skipQuestions wire count start = .ok next) :
    skipQuestions (fromBytes wire).buf count start = .ok next := by
  induction count generalizing start with
  | zero =>
      cases skipped
      rfl
  | succ count ih =>
      obtain ⟨pos, named, inside, later⟩ := skipQuestions_succ_eq_ok.mp skipped
      refine skipQuestions_succ_eq_ok.mpr ⟨pos, skipWireName_fromBytes fits named, ?_, ih later⟩
      rw [(fromBytes wire).size_eq]
      exact inside.trans fits

variable {qtype : QueryType} {rdataStart dataLen stop : Nat}

theorem layoutEnd_soa {wire : List UInt8} :
    layoutEnd wire .soa rdataStart dataLen = .ok stop ↔
      ∃ rname serial, skipWireName wire rdataStart = .ok rname ∧
        skipWireName wire rname = .ok serial ∧ serial + 20 = stop := by
  unfold layoutEnd
  rcases skipWireName wire rdataStart with error | rname
  · simp [bind, Except.bind]
  · rcases skipped : skipWireName wire rname with error | serial <;>
      simp [bind, Except.bind, skipped]

theorem layoutEnd_fromBytes (fits : wire.length ≤ bufSize)
    (ends : layoutEnd wire qtype rdataStart dataLen = .ok stop) :
    layoutEnd (fromBytes wire).buf qtype rdataStart dataLen = .ok stop := by
  cases qtype
  case ns | cname | ptr | mx => exact skipWireName_fromBytes fits ends
  case soa =>
    obtain ⟨rname, serial, first, second, stopEq⟩ := layoutEnd_soa.mp ends
    exact layoutEnd_soa.mpr ⟨rname, serial, skipWireName_fromBytes fits first,
      skipWireName_fromBytes fits second, stopEq⟩
  all_goals exact ends

theorem layoutEnd_of_fromBytes (fits : wire.length ≤ bufSize)
    (ends : layoutEnd (fromBytes wire).buf qtype rdataStart dataLen = .ok stop)
    (inside : stop ≤ wire.length) : layoutEnd wire qtype rdataStart dataLen = .ok stop := by
  cases qtype
  case ns | cname | ptr | mx => exact skipWireName_of_fromBytes fits ends inside
  case soa =>
    obtain ⟨rname, serial, first, second, stopEq⟩ := layoutEnd_soa.mp ends
    have := skipLabels_gt second
    exact layoutEnd_soa.mpr ⟨rname, serial,
      skipWireName_of_fromBytes fits first (by omega),
      skipWireName_of_fromBytes fits second (by omega), stopEq⟩
  all_goals exact ends

end Octets

/-! ## The walk of the parser -/

/-- The parser reads these records from the position on, up to the last
position.  The marks tell which records are in the additional section. -/
inductive Walk (buf : List UInt8) : List Bool → Nat → List Located → Nat → Prop
  | nil (start : Nat) : Walk buf [] start [] start
  | record {additional : Bool} {marks : List Bool} {start pos stop last : Nat}
      {record : DnsRecord} {later : List Located}
      (notOpt : additional = true → isOptRecord buf start = false)
      (name : skipWireName buf start = .ok pos)
      (ttl : record.ttl = wireU32 buf (pos + 4))
      (ends : layoutEnd buf (.fromNum (wireU16 buf pos)) (pos + 10)
        (wireU16 buf (pos + 8)).toNat = .ok stop)
      (rest : Walk buf marks stop later last) :
      Walk buf (additional :: marks) start (⟨start, pos + 4, record⟩ :: later) last
  | opt {marks : List Bool} {start last : Nat} {later : List Located}
      (isOpt : isOptRecord buf start = true)
      (rest : Walk buf marks (start + 11 + (wireU16 buf (start + 9)).toNat) later last) :
      Walk buf (true :: marks) start later last

theorem Walk.append {buf : List UInt8} {first second : List Bool} {start middle last : Nat}
    {earlier later : List Located} (walked : Walk buf first start earlier middle)
    (rest : Walk buf second middle later last) :
    Walk buf (first ++ second) start (earlier ++ later) last := by
  induction walked with
  | nil => exact rest
  | record notOpt name ttl ends _ ih => exact .record notOpt name ttl ends (ih rest)
  | opt isOpt _ ih => exact .opt isOpt (ih rest)

section Parser

variable {buffer after : BytePacketBuffer} {count : Nat} {located : List Located}

theorem exec_readLocated_eq_ok {found : Located} :
    exec readLocated buffer = (.ok found, after) ↔
      ∃ pos record, skipWireName buffer.buf buffer.pos = .ok pos ∧
        exec DnsRecord.read buffer = (.ok record, after) ∧
        found = ⟨buffer.pos, pos + 4, record⟩ := by
  simp only [readLocated, exec_bind_eq_ok, exec_get, exec_set, Prod.mk.injEq, Except.ok.injEq]
  constructor
  · rintro ⟨_, _, ⟨rfl, rfl⟩, _, _, named, _, _, ⟨rfl, rfl⟩, _, _, ⟨-, rfl⟩, record, _, ran,
      result⟩
    obtain ⟨pos, skipped, rfl⟩ := exec_readQname_skip named
    cases result
    exact ⟨pos, record, skipped, ran, rfl⟩
  · rintro ⟨pos, record, skipped, ran, rfl⟩
    obtain ⟨domain, other, named, alsoSkipped, -⟩ := DnsRecord.exec_read_eq_ok.mp ran
    rw [skipped] at alsoSkipped
    cases alsoSkipped
    exact ⟨_, _, ⟨rfl, rfl⟩, _, _, named, _, _, ⟨rfl, rfl⟩, (), _, ⟨trivial, rfl⟩, record, _, ran,
      rfl⟩

theorem exec_readMany_succ_eq_ok {α : Type} {item : BufferM α} {values : List α} :
    exec (readMany item (count + 1)) buffer = (.ok values, after) ↔
      ∃ first middle rest, exec item buffer = (.ok first, middle) ∧
        exec (readMany item count) middle = (.ok rest, after) ∧ values = first :: rest := by
  simp only [readMany, exec_bind_eq_ok]
  constructor
  · rintro ⟨first, middle, ran, rest, _, ranRest, result⟩
    cases result
    exact ⟨first, middle, rest, ran, ranRest, rfl⟩
  · rintro ⟨first, middle, rest, ran, ranRest, rfl⟩
    exact ⟨first, middle, ran, rest, _, ranRest, rfl⟩

theorem exec_readMany_length {α : Type} {item : BufferM α} {values : List α}
    (ran : exec (readMany item count) buffer = (.ok values, after)) : values.length = count := by
  induction count generalizing buffer values with
  | zero =>
      cases ran
      rfl
  | succ count ih =>
      obtain ⟨first, middle, rest, -, ranRest, rfl⟩ := exec_readMany_succ_eq_ok.mp ran
      rw [List.length_cons, ih ranRest]

/-- One record that is read, in the words of the walk. -/
theorem exists_span_of_exec_read {record : DnsRecord}
    (ran : exec DnsRecord.read buffer = (.ok record, after)) :
    ∃ pos stop, skipWireName buffer.buf buffer.pos = .ok pos ∧
      record.ttl = wireU32 buffer.buf (pos + 4) ∧
      layoutEnd buffer.buf (.fromNum (wireU16 buffer.buf pos)) (pos + 10)
        (wireU16 buffer.buf (pos + 8)).toNat = .ok stop ∧ after = buffer.movedTo stop := by
  obtain ⟨domain, pos, -, skipped, -, ranData⟩ := DnsRecord.exec_read_eq_ok.mp ran
  obtain ⟨-, ttlEq, stop, ends, afterEq⟩ := DnsRecord.exec_readRdata_end (movedTo_pos buffer (pos + 10)) ranData
  exact ⟨pos, stop, skipped, ttlEq, ends, afterEq⟩

/-- A section that is read is read with its positions too. -/
theorem exists_walk_of_readMany {records : List DnsRecord}
    (ran : exec (readMany DnsRecord.read count) buffer = (.ok records, after)) :
    ∃ located last, exec (readMany readLocated count) buffer = (.ok located, after) ∧
      located.map Located.record = records ∧ after = buffer.movedTo last ∧
      Walk buffer.buf (List.replicate count false) buffer.pos located last := by
  induction count generalizing buffer records with
  | zero =>
      cases ran
      exact ⟨[], after.pos, rfl, rfl, rfl, .nil _⟩
  | succ count ih =>
      obtain ⟨record, middle, rest, first, ranRest, rfl⟩ := exec_readMany_succ_eq_ok.mp ran
      obtain ⟨pos, stop, skipped, ttlEq, ends, rfl⟩ := exists_span_of_exec_read first
      obtain ⟨located, last, ranLocated, recordsEq, afterEq, walked⟩ := ih ranRest
      refine ⟨⟨buffer.pos, pos + 4, record⟩ :: located, last, ?_, ?_, afterEq, ?_⟩
      · exact exec_readMany_succ_eq_ok.mpr ⟨_, _, located,
          exec_readLocated_eq_ok.mpr ⟨pos, record, skipped, first, rfl⟩, ranLocated, rfl⟩
      · rw [List.map_cons, recordsEq]
      · rw [List.replicate_succ]
        exact .record (by simp) skipped ttlEq ends walked

theorem exec_isOptAt_eq_ok {isOpt : Bool}
    (ran : exec (DnsPacket.isOptAt buffer.pos) buffer = (.ok isOpt, after)) :
    after = buffer ∧ isOpt = isOptRecord buffer.buf buffer.pos := by
  have size := buffer.size_eq
  rw [DnsPacket.isOptAt, exec_bind_eq_ok] at ran
  obtain ⟨nameByte, middle, got, ran⟩ := ran
  obtain ⟨inside, octetEq, rfl⟩ := exec_getAt_eq_ok.mp got
  have nameEq : wireOctet middle.buf middle.pos = nameByte := octetEq.symm
  unfold isOptRecord
  split at ran
  · rename_i root
    simp only [exec_bind_eq_ok, exec_getAt_eq_ok] at ran
    obtain ⟨_, _, ⟨-, rfl, rfl⟩, _, _, ⟨room, rfl, rfl⟩, result⟩ := ran
    cases result
    refine ⟨rfl, ?_⟩
    rw [nameEq, root, decide_eq_true (by omega), decide_eq_true (by omega)]
    rfl
  · rename_i notRoot
    cases ran
    exact ⟨rfl, by rw [nameEq, beq_false_of_ne notRoot]; simp⟩

theorem exec_readEdns_eq_ok {edns : EdnsOpt} (ran : exec EdnsOpt.read buffer = (.ok edns, after)) :
    after = buffer.movedTo (buffer.pos + 11 + (wireU16 buffer.buf (buffer.pos + 9)).toNat) := by
  simp only [EdnsOpt.read, exec_bind_eq_ok, exec_readU16_eq_ok, exec_readU32_eq_ok,
    exec_readOctets_eq_ok] at ran
  obtain ⟨_, _, stepped, _, _, ⟨-, -, rfl⟩, _, _, ⟨-, -, rfl⟩, _, _, ⟨-, -, rfl⟩, _, _,
    ⟨-, rfl, rfl⟩, _, _, ⟨-, -, rfl⟩, result⟩ := ran
  cases stepped
  cases result
  rfl

/-- An OPT record that has been read is not lost. -/
theorem eq_none_of_exec_readResources {edns last : Option EdnsOpt} {records : List DnsRecord}
    (ran : exec (DnsPacket.readResources count edns) buffer = (.ok (records, last), after))
    (noOpt : last = none) : edns = none := by
  induction count generalizing buffer edns records with
  | zero =>
      cases ran
      exact noOpt
  | succ count ih =>
      rw [DnsPacket.readResources, exec_get_bind, exec_bind_eq_ok] at ran
      obtain ⟨isOpt, middle, -, ran⟩ := ran
      cases isOpt with
      | true =>
          simp only [if_true, exec_bind_eq_ok] at ran
          obtain ⟨opt, behind, -, ranRest⟩ := ran
          cases ih ranRest
      | false =>
          simp only [Bool.false_eq_true, if_false, exec_bind_eq_ok] at ran
          obtain ⟨record, behind, -, ⟨rest, _⟩, _, ranRest, result⟩ := ran
          cases result
          exact ih ranRest

/-- The additional section that is read is read with its positions too. -/
theorem exists_walk_of_readResources {edns last : Option EdnsOpt} {records : List DnsRecord}
    (ran : exec (DnsPacket.readResources count edns) buffer = (.ok (records, last), after)) :
    ∃ located stop, exec (readLocatedResources count) buffer = (.ok located, after) ∧
      located.map Located.record = records ∧ after = buffer.movedTo stop ∧
      Walk buffer.buf (List.replicate count true) buffer.pos located stop ∧
      (last = none → located.length = count) := by
  induction count generalizing buffer edns records with
  | zero =>
      cases ran
      exact ⟨[], after.pos, rfl, rfl, rfl, .nil _, fun _ => rfl⟩
  | succ count ih =>
      rw [DnsPacket.readResources, exec_get_bind, exec_bind_eq_ok] at ran
      obtain ⟨isOpt, middle, peeked, ran⟩ := ran
      obtain ⟨rfl, isOptEq⟩ := exec_isOptAt_eq_ok peeked
      rw [readLocatedResources, exec_get_bind, exec_bind_ok peeked]
      cases isOpt with
      | true =>
          simp only [if_true, exec_bind_eq_ok] at ran ⊢
          obtain ⟨opt, behind, ranOpt, ranRest⟩ := ran
          obtain rfl := exec_readEdns_eq_ok ranOpt
          obtain ⟨located, stop, ranLocated, recordsEq, afterEq, walked, complete⟩ := ih ranRest
          refine ⟨located, stop, ⟨opt, _, ranOpt, ranLocated⟩, recordsEq, afterEq, ?_, ?_⟩
          · exact .opt isOptEq.symm walked
          · intro noOpt
            cases eq_none_of_exec_readResources ranRest noOpt
      | false =>
          simp only [Bool.false_eq_true, if_false, exec_bind_eq_ok] at ran ⊢
          obtain ⟨record, behind, first, ⟨rest, _⟩, _, ranRest, result⟩ := ran
          cases result
          obtain ⟨pos, next, skipped, ttlEq, ends, rfl⟩ := exists_span_of_exec_read first
          obtain ⟨located, stop, ranLocated, recordsEq, afterEq, walked, complete⟩ := ih ranRest
          refine ⟨⟨middle.pos, pos + 4, record⟩ :: located, stop, ?_, ?_, afterEq, ?_, ?_⟩
          · exact ⟨_, _, exec_readLocated_eq_ok.mpr ⟨pos, record, skipped, first, rfl⟩, located, _,
              ranLocated, rfl⟩
          · rw [List.map_cons, recordsEq]
          · exact .record (fun _ => isOptEq.symm) skipped ttlEq ends walked
          · intro noOpt
            rw [List.length_cons, complete noOpt]

end Parser

/-! ## The walk over a whole message -/

section Message

variable {buffer after : BytePacketBuffer}

theorem exec_readHeader_eq_ok {header : DnsHeader}
    (ran : exec DnsHeader.read buffer = (.ok header, after)) :
    header.questions = wireU16 buffer.buf (buffer.pos + 4) ∧
      header.answers = wireU16 buffer.buf (buffer.pos + 6) ∧
      header.authoritativeEntries = wireU16 buffer.buf (buffer.pos + 8) ∧
      header.resourceEntries = wireU16 buffer.buf (buffer.pos + 10) ∧
      after = buffer.movedTo (buffer.pos + 12) := by
  simp only [DnsHeader.read, exec_bind_eq_ok, exec_readU16_eq_ok] at ran
  obtain ⟨_, _, ⟨-, -, rfl⟩, _, _, ⟨-, -, rfl⟩, _, _, ⟨-, rfl, rfl⟩, _, _, ⟨-, rfl, rfl⟩, _, _,
    ⟨-, rfl, rfl⟩, _, _, ⟨-, rfl, rfl⟩, result⟩ := ran
  cases result
  exact ⟨rfl, rfl, rfl, rfl, rfl⟩

theorem exec_readQuestions_eq_ok {count : Nat} {questions : List DnsQuestion}
    (ran : exec (readMany DnsQuestion.read count) buffer = (.ok questions, after)) :
    ∃ first, skipQuestions buffer.buf count buffer.pos = .ok first ∧
      after = buffer.movedTo first := by
  induction count generalizing buffer questions with
  | zero =>
      cases ran
      exact ⟨after.pos, rfl, rfl⟩
  | succ count ih =>
      obtain ⟨question, middle, rest, read, ranRest, rfl⟩ := exec_readMany_succ_eq_ok.mp ran
      simp only [DnsQuestion.read, exec_bind_eq_ok, exec_readU16_eq_ok] at read
      obtain ⟨name, _, named, _, _, ⟨-, -, rfl⟩, _, _, ⟨room, -, rfl⟩, result⟩ := read
      obtain ⟨pos, skipped, rfl⟩ := exec_readQname_skip named
      cases result
      obtain ⟨first, skippedRest, afterEq⟩ := ih ranRest
      refine ⟨first, skipQuestions_succ_eq_ok.mpr ⟨pos, skipped, ?_, skippedRest⟩, afterEq⟩
      rw [buffer.size_eq]
      exact room

/-- The parser has read a packet: its walk over the message. -/
theorem exists_walk {wire : List UInt8} {packet : DnsPacket} (fits : wire.length ≤ bufSize)
    (parsed : exec DnsPacket.fromBuffer (fromBytes wire) = (.ok packet, after)) :
    ∃ first located last,
      skipQuestions (fromBytes wire).buf (wireU16 wire 4).toNat 12 = .ok first ∧
      Walk (fromBytes wire).buf (marks wire) first located last ∧
      parsedFields wire = located.map Located.fields ∧
      located.map Located.record = packet.answers ++ packet.authorities ++ packet.resources ∧
      packet.answers.length = (wireU16 wire 6).toNat ∧
      (packet.edns = none → located.length = plainCount wire + additionalCount wire) := by
  simp only [DnsPacket.fromBuffer, exec_bind_eq_ok] at parsed
  obtain ⟨header, _, ranHeader, questions, _, ranQuestions, answers, _, ranAnswers, authorities, _,
    ranAuthorities, ⟨resources, edns⟩, _, ranResources, result⟩ := parsed
  cases result
  obtain ⟨questionsEq, answersEq, authoritiesEq, resourcesEq, rfl⟩ :=
    exec_readHeader_eq_ok ranHeader
  obtain ⟨first, skipped, rfl⟩ := exec_readQuestions_eq_ok ranQuestions
  obtain ⟨answersAt, second, locatedAnswers, answerRecords, rfl, walkedAnswers⟩ :=
    exists_walk_of_readMany ranAnswers
  obtain ⟨authoritiesAt, third, locatedAuthorities, authorityRecords, rfl, walkedAuthorities⟩ :=
    exists_walk_of_readMany ranAuthorities
  obtain ⟨resourcesAt, last, locatedResources, resourceRecords, rfl, walkedResources, complete⟩ :=
    exists_walk_of_readResources ranResources
  have start : (fromBytes wire).pos = 0 := rfl
  simp only [start, Nat.zero_add, wireU16_fromBytes fits] at questionsEq answersEq
  simp only [start, Nat.zero_add, wireU16_fromBytes fits] at authoritiesEq resourcesEq
  simp only [movedTo_buf, movedTo_pos, movedTo_movedTo, start, Nat.zero_add] at *
  rw [questionsEq] at skipped
  have marksEq : marks wire =
      List.replicate header.answers.toNat false ++
        List.replicate header.authoritativeEntries.toNat false ++
          List.replicate header.resourceEntries.toNat true := by
    rw [marks, plainCount, additionalCount, List.replicate_add, answersEq, authoritiesEq,
      resourcesEq]
  refine ⟨first, answersAt ++ authoritiesAt ++ resourcesAt, last, skipped, ?_, ?_, ?_, ?_, ?_⟩
  · rw [marksEq]
    exact (walkedAnswers.append walkedAuthorities).append walkedResources
  · have ranAll : exec readAllLocated (fromBytes wire) =
        (.ok (answersAt ++ authoritiesAt ++ resourcesAt), (fromBytes wire).movedTo last) := by
      simp only [readAllLocated, exec_bind_eq_ok]
      exact ⟨header, _, ranHeader, questions, _, ranQuestions, answersAt, _, locatedAnswers,
        authoritiesAt, _, locatedAuthorities, resourcesAt, _, locatedResources, rfl⟩
    rw [parsedFields, ranAll]
  · simp only [List.map_append, answerRecords, authorityRecords, resourceRecords]
  · rw [← answersEq]
    exact exec_readMany_length ranAnswers
  · intro noOpt
    rw [List.length_append, List.length_append, exec_readMany_length locatedAnswers,
      exec_readMany_length locatedAuthorities, complete noOpt, plainCount, additionalCount,
      answersEq, authoritiesEq, resourcesEq]

end Message

/-! ## In step -/

section Step

variable {wire : List UInt8} {start pos next stop last : Nat} {offsets : List Nat}
  {flags : List Bool} {located : List Located}

theorem isOptRecord_fromBytes (fits : wire.length ≤ bufSize)
    (span : RecordSpan wire start pos next) :
    isOptRecord (fromBytes wire).buf start = isOptRecord wire start := by
  have size := (fromBytes wire).size_eq
  have inside := span.inside
  have afterName := span.after_name
  have nextEq := span.next_eq
  unfold isOptRecord
  rw [wireOctet_fromBytes fits, wireU16_fromBytes fits, decide_eq_true (by omega),
    decide_eq_true (by omega), decide_eq_true (by omega), decide_eq_true (by omega)]

/-- The parser goes on where the scan does if the record fills its length. -/
theorem fillsLength_iff (fits : wire.length ≤ bufSize) (span : RecordSpan wire start pos next)
    (ends : layoutEnd (fromBytes wire).buf (.fromNum (wireU16 wire pos)) (pos + 10)
      (wireU16 wire (pos + 8)).toNat = .ok stop) :
    FillsLength wire start ↔ stop = next := by
  rw [FillsLength, span.name]
  dsimp only
  rw [← span.next_eq]
  constructor
  · intro fills
    have inBuffer := layoutEnd_fromBytes fits fills
    rw [ends] at inBuffer
    exact Except.ok.inj inBuffer
  · rintro rfl
    exact layoutEnd_of_fromBytes fits ends span.inside

/-- A record of the walk in the words of the scan. -/
theorem pos_eq_of_span (fits : wire.length ≤ bufSize) {other : Nat}
    (span : RecordSpan wire start pos next)
    (name : skipWireName (fromBytes wire).buf start = .ok other) : other = pos := by
  have inBuffer := skipWireName_fromBytes fits span.name
  rw [name] at inBuffer
  exact Except.ok.inj inBuffer

theorem scanFields_succ {count : Nat} {own : List Nat}
    (scanned : scanRecord wire start = .ok (own, next)) :
    scanFields wire (count + 1) start = own.map (start, ·) ++ scanFields wire count next := by
  rw [scanFields, scanned]

theorem length_scanFields_le (wire : List UInt8) (count start : Nat) :
    (scanFields wire count start).length ≤ count := by
  induction count generalizing start with
  | zero => exact le_refl _
  | succ count ih =>
      cases scanned : scanRecord wire start with
      | error error =>
          rw [scanFields, scanned]
          exact Nat.zero_le _
      | ok result =>
          obtain ⟨own, next⟩ := result
          obtain ⟨pos, -, ownEq⟩ := scanRecord_eq_ok scanned
          have ownLength : own.length ≤ 1 := by
            rw [ownEq]
            split <;> simp
          have := ih next
          rw [scanFields_succ scanned, List.length_append, List.length_map]
          omega

/-- The scan finds what the parser reads in a framed message. -/
theorem scanFields_eq_of_framed (fits : wire.length ≤ bufSize)
    (walked : Walk (fromBytes wire).buf flags start located last)
    (scanned : scanRecords wire flags.length start = .ok (offsets, next))
    (framed : FramedFrom wire flags start) :
    scanFields wire flags.length start = located.map Located.fields := by
  induction walked generalizing offsets with
  | nil => rfl
  | @record additional flags start pos stop last record later notOpt name ttl ends rest ih =>
      obtain ⟨own, middle, others, first, scannedRest, rfl⟩ := scanRecords_succ_eq_ok.mp scanned
      obtain ⟨namedPos, span, ownEq⟩ := scanRecord_eq_ok first
      obtain rfl := pos_eq_of_span fits span name
      rw [FramedFrom, first] at framed
      obtain ⟨plain, fills, framedRest⟩ := framed
      have isRecord : isOptRecord wire start = false := by
        cases additional with
        | false => exact plain rfl
        | true => exact (isOptRecord_fromBytes fits span).symm.trans (notOpt rfl)
      rw [isRecord] at ownEq
      rw [List.length_cons, scanFields_succ first, ownEq, List.map_cons]
      refine congrArg ((start, pos + 4) :: ·) ?_
      cases flags with
      | nil =>
          cases rest
          rfl
      | cons flag flags =>
          rw [wireU16_fromBytes fits, wireU16_fromBytes fits] at ends
          obtain rfl := (fillsLength_iff fits span ends).mp (fills (by simp))
          exact ih scannedRest framedRest
  | @opt flags start last later isOpt rest ih =>
      obtain ⟨own, middle, others, first, scannedRest, rfl⟩ := scanRecords_succ_eq_ok.mp scanned
      obtain ⟨pos, span, ownEq⟩ := scanRecord_eq_ok first
      rw [FramedFrom, first] at framed
      rw [isOptRecord_fromBytes fits span] at isOpt
      have root : wireOctet wire start = 0 := by
        simp only [isOptRecord, Bool.and_eq_true, beq_iff_eq] at isOpt
        exact isOpt.1.1.2
      have middleEq : start + 11 + (wireU16 (fromBytes wire).buf (start + 9)).toNat = middle := by
        rw [span.next_eq, span.pos_of_root root, wireU16_fromBytes fits]
      rw [isOpt] at ownEq
      rw [List.length_cons, scanFields_succ first, ownEq]
      rw [middleEq] at ih
      exact ih scannedRest framed.2.2

theorem Walk.length_le {buf : List UInt8} (walked : Walk buf flags start located last) :
    located.length ≤ flags.length := by
  induction walked with
  | nil => exact le_refl _
  | record _ _ _ _ _ ih => exact Nat.succ_le_succ ih
  | opt _ _ ih => exact ih.trans (Nat.le_succ _)

/-- A walk without OPT records starts at its first record. -/
theorem Walk.head_start {buf : List UInt8} {flag : Bool}
    (walked : Walk buf (flag :: flags) start located last)
    (complete : located.length = (flag :: flags).length) :
    ∃ found rest, located = found :: rest ∧ found.start = start := by
  cases walked with
  | record notOpt name ttl ends rest => exact ⟨_, _, rfl, rfl⟩
  | opt isOpt rest =>
      have short := rest.length_le
      rw [complete, List.length_cons] at short
      omega

/-- A message in which the scan finds what the parser reads is framed, when no
OPT record is read. -/
theorem framed_of_scanFields_eq (fits : wire.length ≤ bufSize)
    (walked : Walk (fromBytes wire).buf flags start located last)
    (scanned : scanRecords wire flags.length start = .ok (offsets, next))
    (complete : located.length = flags.length)
    (same : scanFields wire flags.length start = located.map Located.fields) :
    FramedFrom wire flags start := by
  induction walked generalizing offsets with
  | nil => trivial
  | @record additional flags start pos stop last record later notOpt name ttl ends rest ih =>
      obtain ⟨own, middle, others, first, scannedRest, rfl⟩ := scanRecords_succ_eq_ok.mp scanned
      obtain ⟨namedPos, span, ownEq⟩ := scanRecord_eq_ok first
      obtain rfl := pos_eq_of_span fits span name
      have laterComplete : later.length = flags.length := by simpa using complete
      rw [List.length_cons, scanFields_succ first, List.map_cons] at same
      have isRecord : isOptRecord wire start = false := by
        by_contra isOpt
        rw [ownEq, if_pos (by simpa using isOpt), List.map_nil, List.nil_append] at same
        have short := length_scanFields_le wire flags.length middle
        rw [same, List.length_cons, List.length_map] at short
        omega
      rw [ownEq, isRecord] at same
      have sameRest : scanFields wire flags.length middle = later.map Located.fields :=
        (List.cons.inj same).2
      rw [FramedFrom, first]
      cases flags with
      | nil => exact ⟨fun _ => isRecord, by simp, trivial⟩
      | cons flag flags =>
          obtain ⟨found, others, laterEq, startEq⟩ := rest.head_start laterComplete
          obtain ⟨nextOwn, nextMiddle, _, nextFirst, -, -⟩ := scanRecords_succ_eq_ok.mp scannedRest
          obtain ⟨nextPos, -, nextOwnEq⟩ := scanRecord_eq_ok nextFirst
          have meet : stop = middle := by
            have heads := sameRest
            rw [List.length_cons, scanFields_succ nextFirst, laterEq, List.map_cons] at heads
            split at nextOwnEq
            · have short := length_scanFields_le wire flags.length nextMiddle
              rw [nextOwnEq, List.map_nil, List.nil_append] at heads
              have long := congrArg List.length heads
              rw [laterEq, List.length_cons] at laterComplete
              simp only [List.length_cons, List.length_map] at long laterComplete
              omega
            · rw [nextOwnEq] at heads
              have startsEq := congrArg Prod.fst (List.cons.inj heads).1
              rw [← startEq]
              exact startsEq.symm
          subst meet
          rw [wireU16_fromBytes fits, wireU16_fromBytes fits] at ends
          exact ⟨fun _ => isRecord, fun _ => (fillsLength_iff fits span ends).mpr rfl,
            ih scannedRest laterComplete sameRest⟩
  | @opt flags start last later isOpt rest ih =>
      have short := rest.length_le
      rw [complete, List.length_cons] at short
      omega

/-- The TTLs of the parsed records stand where the walk found them. -/
theorem Walk.ttls (fits : wire.length ≤ bufSize)
    (walked : Walk (fromBytes wire).buf flags start located last) :
    located.map (wireU32 wire ∘ Located.ttlOffset) =
      located.map (DnsRecord.ttl ∘ Located.record) := by
  induction walked with
  | nil => rfl
  | record _ _ ttl _ _ ih =>
      rw [List.map_cons, List.map_cons, ih]
      refine congrArg (· :: _) ?_
      rw [Function.comp_apply, Function.comp_apply, ttl, wireU32_fromBytes fits]
  | opt _ _ ih => exact ih

theorem scanRecords_append {first second middle : Nat} {earlier later : List Nat}
    (scanned : scanRecords wire first start = .ok (earlier, middle))
    (rest : scanRecords wire second middle = .ok (later, next)) :
    scanRecords wire (first + second) start = .ok (earlier ++ later, next) := by
  induction first generalizing start earlier with
  | zero =>
      cases scanned
      rwa [Nat.zero_add]
  | succ first ih =>
      obtain ⟨own, stop, others, one, more, rfl⟩ := scanRecords_succ_eq_ok.mp scanned
      rw [Nat.add_right_comm]
      exact scanRecords_succ_eq_ok.mpr
        ⟨own, stop, others ++ later, one, ih more, List.append_assoc _ _ _⟩

theorem map_snd_scanFields {count : Nat}
    (scanned : scanRecords wire count start = .ok (offsets, next)) :
    (scanFields wire count start).map Prod.snd = offsets := by
  induction count generalizing start offsets with
  | zero =>
      cases scanned
      rfl
  | succ count ih =>
      obtain ⟨own, middle, others, first, rest, rfl⟩ := scanRecords_succ_eq_ok.mp scanned
      rw [scanFields_succ first, List.map_append, ih rest, List.map_map]
      exact congrArg (· ++ others) (List.map_id own)

/-- In a section without OPT records every record has its field. -/
theorem length_offsets_of_framed {count : Nat} (later : List Bool)
    (scanned : scanRecords wire count start = .ok (offsets, next))
    (framed : FramedFrom wire (List.replicate count false ++ later) start) :
    offsets.length = count := by
  induction count generalizing start offsets with
  | zero =>
      cases scanned
      rfl
  | succ count ih =>
      obtain ⟨own, middle, others, first, rest, rfl⟩ := scanRecords_succ_eq_ok.mp scanned
      rw [List.replicate_succ, List.cons_append, FramedFrom, first] at framed
      obtain ⟨plain, -, framedRest⟩ := framed
      obtain ⟨pos, -, ownEq⟩ := scanRecord_eq_ok first
      rw [plain rfl] at ownEq
      rw [ownEq, List.length_append, ih rest framedRest]
      exact Nat.add_comm 1 count

end Step

theorem length_marks (wire : List UInt8) :
    (marks wire).length = plainCount wire + additionalCount wire := by
  rw [marks, List.length_append, List.length_replicate, List.length_replicate]

/-- The scan and the parser meet the same records of a framed message; and when
no OPT record is read, of no other message. -/
theorem agree_iff_framed {wire : List UInt8} {scanned : WireMeta} {packet : DnsPacket}
    (fits : wire.length ≤ bufSize) (accepted : scanTtlOffsets wire = .ok scanned)
    (parsed : (exec DnsPacket.fromBuffer (fromBytes wire)).1 = .ok packet) :
    (Framed wire → Agree wire scanned packet) ∧
      (packet.edns = none → (Agree wire scanned packet ↔ Framed wire)) := by
  obtain ⟨answers, authorities, additionals, first, second, third, last, sections, rfl⟩ :=
    scanTtlOffsets_eq_ok_iff.mp accepted
  obtain ⟨parsedFirst, located, stop, skipped, walked, fieldsEq, recordsEq, answersEq, complete⟩ :=
    exists_walk fits (exec_eq_of_fst parsed)
  have sameFirst : parsedFirst = first := by
    have inBuffer := skipQuestions_fromBytes fits sections.questions
    rw [skipped] at inBuffer
    exact Except.ok.inj inBuffer
  subst sameFirst
  have scannedAll : scanRecords wire (marks wire).length parsedFirst =
      .ok (answers ++ authorities ++ additionals, last) := by
    rw [length_marks]
    exact scanRecords_append (scanRecords_append sections.answers sections.authorities)
      sections.additionals
  have scannedEq : scannedFields wire = scanFields wire (marks wire).length parsedFirst := by
    rw [scannedFields, sections.questions, length_marks]
  have framedIff : Framed wire ↔ FramedFrom wire (marks wire) parsedFirst := by
    rw [Framed, sections.questions]
  have holds : Framed wire →
      Agree wire ⟨answers ++ authorities ++ additionals, answers.length⟩ packet := by
    intro framed
    have framed := framedIff.mp framed
    have same : scannedFields wire = parsedFields wire := by
      rw [scannedEq, fieldsEq, scanFields_eq_of_framed fits walked scannedAll framed]
    have offsetsEq : answers ++ authorities ++ additionals =
        (parsedFields wire).map Prod.snd := by
      rw [← same, scannedEq, map_snd_scanFields scannedAll]
    refine ⟨same, offsetsEq, ?_, ?_⟩
    · change (answers ++ authorities ++ additionals).map (wireU32 wire) = _
      rw [offsetsEq, fieldsEq, ← recordsEq, List.map_map, List.map_map, List.map_map]
      exact walked.ttls fits
    · rw [answersEq]
      refine length_offsets_of_framed
        (List.replicate (wireU16 wire 8).toNat false ++ List.replicate (additionalCount wire) true)
        sections.answers ?_
      rwa [marks, plainCount, List.replicate_add, List.append_assoc] at framed
  refine ⟨holds, fun noOpt => ⟨fun agree => framedIff.mpr ?_, holds⟩⟩
  refine framed_of_scanFields_eq fits walked scannedAll ?_ ?_
  · rw [complete noOpt, length_marks]
  · rw [← scannedEq, agree.fields, fieldsEq]

/-- A response with a name, an address record and an OPT record. -/
def framedWire : List UInt8 :=
  [0, 0, 0x81, 0x80, 0, 0, 0, 1, 0, 0, 0, 1,
    1, 0x61, 0, 0, 1, 0, 1, 0, 0, 1, 0x2C, 0, 4, 192, 0, 2, 1,
    0, 0, 41, 4, 0xD0, 0, 0, 0, 0, 0, 0]

def framedPacket : DnsPacket where
  header :=
    { recursionDesired := true, response := true, recursionAvailable := true
      answers := 1, resourceEntries := 1 }
  answers := [.a (text "a") (.new 192 0 2 1) 300]
  edns := some {}

theorem agree_iff_framed_framedWire : Agree framedWire ⟨[19], 1⟩ framedPacket :=
  (agree_iff_framed (by decide) (by decide +kernel) (by decide +kernel)).1 (by
    have framed : FramedFrom framedWire [false, true] 12 := by
      have first : scanRecord framedWire 12 = .ok ([19], 29) := by decide +kernel
      have second : scanRecord framedWire 29 = .ok ([], 40) := by decide +kernel
      have fills : FillsLength framedWire 12 := by
        have name : skipWireName framedWire 12 = .ok 15 := by decide +kernel
        rw [FillsLength, name]
        decide +kernel
      simp only [FramedFrom, first, second]
      exact ⟨fun _ => by decide +kernel, fun _ => fills, by simp, by simp, trivial⟩
    exact framed)

/-- Two address records, the first with eleven octets behind its address that
look like a record. -/
def driftingWire : List UInt8 :=
  [0, 0, 0x81, 0x80, 0, 0, 0, 2, 0, 0, 0, 0,
    0, 0, 1, 0, 1, 0, 0, 1, 0x2C, 0, 15, 1, 2, 3, 4,
    0, 0, 16, 0, 1, 0, 0, 0, 5, 0, 0,
    0, 0, 1, 0, 1, 0, 0, 0, 0x3C, 0, 4, 5, 6, 7, 8]

def driftingPacket : DnsPacket where
  header := { recursionDesired := true, response := true, recursionAvailable := true, answers := 2 }
  answers := [.a [] (.new 1 2 3 4) 300, .unknown [] 16 [] 5]

/-- The scan finds the second address record, the parser reads another one. -/
theorem driftingWire_disagrees :
    12 ≤ driftingWire.length ∧ driftingWire.length ≤ bufSize ∧
      scanTtlOffsets driftingWire = .ok ⟨[17, 43], 2⟩ ∧
      (exec DnsPacket.fromBuffer (fromBytes driftingWire)).1 = .ok driftingPacket ∧
      ¬ Agree driftingWire ⟨[17, 43], 2⟩ driftingPacket := by
  refine ⟨by decide, by decide, by decide +kernel, by decide +kernel, fun agree => ?_⟩
  have ttls := agree.ttls
  revert ttls
  decide +kernel

end Numa
