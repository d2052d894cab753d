import Numa.Reemission

/-!
# The names that a message keeps

The names in the data of the records of a message, before and after the message
is parsed and written again.
-/

namespace Numa

open BytePacketBuffer

/-! ## The names in a message -/

/-- The type of a record and the names in its data. -/
structure DataEntry where
  qtypeNum : UInt16
  names : List Denoted
  deriving DecidableEq

/-- The type, and what the names denote. -/
def DataEntry.denoted (entry : DataEntry) : UInt16 × List (List (List UInt8)) :=
  (entry.qtypeNum, entry.names.map Denoted.labels)

/-- A record whose name is readable, whose data have the parts of its type and
fill their length. -/
structure RecordNames (octets : List UInt8) (start next : Nat) (entry : DataEntry) : Prop where
  owner : ∃ name : Denoted, NameAt octets name.jumps start name.labels
  span : ∃ pos, RecordSpan octets start pos next ∧ entry.qtypeNum = wireU16 octets pos ∧
    DataNames octets next (rdataLayout entry.qtypeNum) (pos + 10) entry.names next

/-- Records one after the other. -/
inductive RecordsAt (octets : List UInt8) : Nat → List DataEntry → Nat → Prop
  | nil (pos : Nat) : RecordsAt octets pos [] pos
  | cons {start next last : Nat} {entry : DataEntry} {entries : List DataEntry}
      (first : RecordNames octets start next entry) (rest : RecordsAt octets next entries last) :
      RecordsAt octets start (entry :: entries) last

/-- The records of the sections of a message. -/
structure MessageNames where
  answers : List DataEntry
  authorities : List DataEntry
  resources : List DataEntry

namespace MessageNames

/-- The message is well formed, and these are its records. -/
structure Of (octets : List UInt8) (names : MessageNames) : Prop where
  header : 12 ≤ octets.length
  counts : names.answers.length = (wireU16 octets 6).toNat ∧
    names.authorities.length = (wireU16 octets 8).toNat ∧
    names.resources.length = (wireU16 octets 10).toNat
  sections : ∃ first second third last,
    skipQuestions octets (wireU16 octets 4).toNat 12 = .ok first ∧
    RecordsAt octets first names.answers second ∧ RecordsAt octets second names.authorities third ∧
    RecordsAt octets third names.resources last

/-- What all names denote, but for the OPT records, which have none. -/
def denoted (names : MessageNames) : List (List (UInt16 × List (List (List UInt8)))) :=
  [names.answers.map DataEntry.denoted, names.authorities.map DataEntry.denoted,
    (names.resources.filter (·.qtypeNum ≠ 41)).map DataEntry.denoted]

end MessageNames

/-! ## From a message into the buffer -/

section Buffer

variable {octets more : List UInt8} {limit pos last jumps : Nat} {parts : List RdataPart}
  {labels : List (List UInt8)} {names : List Denoted}

theorem NameAt.append (named : NameAt octets jumps pos labels) (more : List UInt8) :
    NameAt (octets ++ more) jumps pos labels := by
  have keeps : ∀ {index : Nat} {octet : UInt8}, octets[index]? = some octet →
      (octets ++ more)[index]? = some octet := by
    intro index octet found
    obtain ⟨inside, -⟩ := List.getElem?_eq_some_iff.mp found
    rw [List.getElem?_append_left inside, found]
  induction named with
  | root first => exact .root (keeps first)
  | @label _ pos len _ first plain notRoot inside rest ih =>
      have sameLabel : ((octets ++ more).drop (pos + 1)).take len.toNat =
          (octets.drop (pos + 1)).take len.toNat := by
        rw [List.drop_append_of_le_length (by omega), List.take_append_of_le_length]
        rw [List.length_drop]
        omega
      rw [← sameLabel]
      refine .label (keeps first) plain notRoot ?_ ih
      rw [List.length_append]
      omega
  | pointer first isPointer second target ih =>
      exact .pointer (keeps first) isPointer (keeps second) ih

theorem DataNames.fromBytes (fits : octets.length ≤ bufSize)
    (named : DataNames octets limit parts pos names last) :
    DataNames (BytePacketBuffer.fromBytes octets).buf limit parts pos names last := by
  have bufEq := fromBytes_buf fits
  induction named with
  | nil pos => exact .nil pos
  | fixed rest ih => exact .fixed ih
  | name denotes ends rest ih =>
      refine .name ?_ (skipWireName_fromBytes fits ends) ih
      rw [bufEq]
      exact denotes.append _
  | counted first rest ih =>
      obtain ⟨inside, -⟩ := List.getElem?_eq_some_iff.mp first
      refine .counted ?_ ih
      rw [bufEq, List.getElem?_append_left inside, first]
  | rest inside => exact .rest inside

end Buffer

/-! ## Reading a record -/

/-- The record has the names that are denoted, or a copy of data without
pointers in which they are. -/
structure Carries (record : DnsRecord) (entry : DataEntry) : Prop where
  qtypeNum : record.queryType.toNum = entry.qtypeNum
  producible : ∀ name ∈ record.names, Producible name
  fits : record.FieldsFit
  native : record.queryType.isNative = true →
    record.names = record.domain :: entry.names.map Denoted.text ∧
      ∀ name ∈ entry.names, name.IsRead
  copied : ∀ {domain : Text} {qtypeNum : UInt16} {data : List UInt8} {ttl : UInt32},
    record = .unknown domain qtypeNum data ttl →
      PlainData (rdataLayout entry.qtypeNum) data (entry.names.map Denoted.labels)

namespace DnsRecord

variable {domain : Text} {qtypeNum : UInt16} {ttl : UInt32} {dataLen : UInt16} {rdataStart : Nat}
  {buffer after : BytePacketBuffer} {record : DnsRecord}

theorem yields_fieldsFit (notNsec3 : QueryType.fromNum qtypeNum ≠ .nsec3) :
    Yields (readRdata domain qtypeNum ttl dataLen rdataStart) FieldsFit := by
  unfold readRdata
  cases isType : QueryType.fromNum qtypeNum
  case nsec3 => exact absurd isType notNsec3
  all_goals
    simp only
    repeat refine yields_bind fun _ => ?_
    exact yields_pure (by simp [FieldsFit, isType, QueryType.isNative])

theorem fieldsFit_of_exec_readRdata
    (ran : exec (readRdata domain qtypeNum ttl dataLen rdataStart) buffer = (.ok record, after)) :
    record.FieldsFit := by
  have octetShort : ∀ count : UInt8, count.toNat ≤ 255 := fun count => by
    have below := count.toNat_lt
    omega
  by_cases isNsec3 : QueryType.fromNum qtypeNum = .nsec3
  · simp only [readRdata, isNsec3, exec_bind_eq_ok, exec_readU16_eq_ok,
      BytePacketBuffer.exec_read_eq_ok, exec_readOctets_eq_ok, exec_readRest_eq_ok] at ran
    obtain ⟨_, _, ⟨-, -, rfl⟩, _, _, ⟨-, -, rfl⟩, _, _, ⟨-, -, rfl⟩, saltLength, _, ⟨-, -, rfl⟩,
      _, _, ⟨-, saltEq, rfl⟩, hashLength, _, ⟨-, -, rfl⟩, _, _, ⟨-, hashEq, rfl⟩, _, _,
      ⟨-, -, -, rfl⟩, result⟩ := ran
    cases result
    refine ⟨?_, ?_⟩
    · rw [saltEq, octetsAt]
      exact (List.length_take_le _ _).trans (octetShort saltLength)
    · rw [hashEq, octetsAt]
      exact (List.length_take_le _ _).trans (octetShort hashLength)
  · exact yields_fieldsFit isNsec3 _ _ _ ran

end DnsRecord

section Message

variable {message : List UInt8} {after : BytePacketBuffer} {start next : Nat} {entry : DataEntry}
  {record : DnsRecord}

/-- The record at a position carries the names that are denoted there. -/
theorem RecordNames.carries (fits : message.length ≤ bufSize)
    (recordNames : RecordNames message start next entry)
    (plain : (QueryType.fromNum entry.qtypeNum).isNative = false →
      ∀ name ∈ entry.names, name.jumps = 0)
    (ran : exec DnsRecord.read ((fromBytes message).movedTo start) = (.ok record, after)) :
    after = (fromBytes message).movedTo next ∧ Carries record entry := by
  obtain ⟨pos, span, isType, data⟩ := recordNames.span
  obtain ⟨domain, other, named, skipped, room, ranData⟩ := DnsRecord.exec_read_eq_ok.mp ran
  have inside := span.inside
  have nextEq := span.next_eq
  have dataInBuffer := data.fromBytes fits
  obtain rfl : pos = other :=
    Except.ok.inj ((skipWireName_fromBytes fits span.name).symm.trans skipped)
  simp only [movedTo_buf, movedTo_movedTo, wireU16_fromBytes fits, ← isType] at ranData
  have typeEq := DnsRecord.yields_readRdata _ _ _ _ _ _ _ _ ranData
  have fieldsFit := DnsRecord.fieldsFit_of_exec_readRdata ranData
  have atStart : ((fromBytes message).movedTo (pos + 10)).pos = pos + 10 := movedTo_pos _ _
  obtain ⟨domainEq, -, -⟩ := DnsRecord.exec_readRdata_end atStart ranData
  have numEq : record.queryType.toNum = entry.qtypeNum := by
    rw [typeEq, QueryType.toNum_ofRecord]
  cases isNative : (QueryType.fromNum entry.qtypeNum).isNative with
  | true =>
      obtain ⟨names, last, afterEq, dataRead, namesEq, areRead⟩ := readsParts_readRdata isNative ranData
      rw [← nextEq] at dataRead
      obtain ⟨rfl, rfl⟩ := dataInBuffer.unique dataRead
      refine ⟨afterEq, numEq, ?_, fieldsFit, fun _ => ⟨?_, areRead⟩, ?_⟩
      · intro name nameMem
        rw [namesEq] at nameMem
        rcases List.mem_append.mp nameMem with isDomain | isName
        · obtain rfl := List.mem_singleton.mp isDomain
          exact ⟨_, _, named⟩
        · obtain ⟨denoted, denotedMem, rfl⟩ := List.mem_map.mp isName
          exact (areRead denoted denotedMem).producible
      · rw [namesEq, domainEq]
        rfl
      · rintro _ qtypeNum _ _ rfl
        have isFromNum : QueryType.unknown qtypeNum = .fromNum entry.qtypeNum :=
          typeEq.trans (if_pos isNative)
        rw [← isFromNum] at isNative
        cases isNative
  | false =>
      obtain ⟨rfl, rfl⟩ := exec_readRdata_opaque isNative ranData
      have length : next - (pos + 10) = (wireU16 message (pos + 8)).toNat := by omega
      have bound : next ≤ (fromBytes message).buf.length := by
        rw [(fromBytes message).size_eq]
        omega
      have copied := dataInBuffer.plainData rfl bound (plain isNative)
      rw [length] at copied
      refine ⟨by rw [nextEq]; rfl, numEq, ?_, fieldsFit, fun native => (by cases native), ?_⟩
      · intro name nameMem
        obtain rfl := List.mem_singleton.mp nameMem
        exact ⟨_, _, named⟩
      · intro _ _ _ _ same
        cases same
        exact copied

variable {entries : List DataEntry} {last : Nat}

/-- A name that the parser copies has no pointer. -/
def CopiedPlain (entries : List DataEntry) : Prop :=
  ∀ entry ∈ entries, (QueryType.fromNum entry.qtypeNum).isNative = false →
    ∀ name ∈ entry.names, name.jumps = 0

theorem carries_of_readMany {records : List DnsRecord} (fits : message.length ≤ bufSize)
    (recordsAt : RecordsAt message start entries last) (plain : CopiedPlain entries)
    (ran : exec (readMany DnsRecord.read entries.length) ((fromBytes message).movedTo start) =
      (.ok records, after)) :
    after = (fromBytes message).movedTo last ∧ List.Forall₂ Carries records entries := by
  induction recordsAt generalizing records with
  | nil =>
      cases ran
      exact ⟨rfl, .nil⟩
  | @cons _ _ _ entry entries first rest ih =>
      obtain ⟨record, middle, others, ranFirst, ranRest, rfl⟩ := exec_readMany_succ_eq_ok.mp ran
      obtain ⟨rfl, carries⟩ := first.carries fits (plain entry (by simp)) ranFirst
      obtain ⟨afterEq, carriesRest⟩ :=
        ih (fun other otherMem => plain other (by simp [otherMem])) ranRest
      exact ⟨afterEq, .cons carries carriesRest⟩

/-- The parser takes a record for an OPT record only if it is of type 41, and passes
over it. -/
theorem RecordNames.opt (fits : message.length ≤ bufSize)
    (recordNames : RecordNames message start next entry) {opt : EdnsOpt}
    (isOpt : isOptRecord (fromBytes message).buf start = true)
    (ran : exec EdnsOpt.read ((fromBytes message).movedTo start) = (.ok opt, after)) :
    entry.qtypeNum = 41 ∧ after = (fromBytes message).movedTo next := by
  obtain ⟨pos, span, isType, -⟩ := recordNames.span
  rw [isOptRecord_fromBytes fits span] at isOpt
  simp only [isOptRecord, Bool.and_eq_true, beq_iff_eq, decide_eq_true_eq] at isOpt
  obtain ⟨⟨⟨-, root⟩, -⟩, typeEq⟩ := isOpt
  obtain rfl := span.pos_of_root root
  refine ⟨isType.trans typeEq, ?_⟩
  rw [exec_readEdns_eq_ok ran, span.next_eq, movedTo_movedTo, movedTo_pos, movedTo_buf,
    wireU16_fromBytes fits]

theorem carries_of_readResources {records : List DnsRecord} {edns lastEdns : Option EdnsOpt}
    (fits : message.length ≤ bufSize) (recordsAt : RecordsAt message start entries last)
    (plain : CopiedPlain entries)
    (ran : exec (DnsPacket.readResources entries.length edns)
      ((fromBytes message).movedTo start) = (.ok (records, lastEdns), after)) :
    ∃ kept, List.Forall₂ Carries records kept ∧
      kept.filter (·.qtypeNum ≠ 41) = entries.filter (·.qtypeNum ≠ 41) := by
  induction recordsAt generalizing records edns with
  | nil =>
      cases ran
      exact ⟨[], .nil, rfl⟩
  | @cons _ _ _ entry entries first rest ih =>
      have plainRest : CopiedPlain entries := fun other otherMem => plain other (by simp [otherMem])
      rw [List.length_cons, DnsPacket.readResources, exec_get_bind, exec_bind_eq_ok] at ran
      obtain ⟨isOpt, middle, peeked, ran⟩ := ran
      obtain ⟨rfl, isOptEq⟩ := exec_isOptAt_eq_ok peeked
      cases isOpt with
      | true =>
          simp only [if_true, exec_bind_eq_ok] at ran
          obtain ⟨opt, behind, ranOpt, ranRest⟩ := ran
          obtain ⟨isType, rfl⟩ := first.opt fits isOptEq.symm ranOpt
          obtain ⟨kept, carries, keptEq⟩ := ih plainRest ranRest
          exact ⟨kept, carries, by simpa [isType] using keptEq⟩
      | false =>
          simp only [Bool.false_eq_true, if_false, exec_bind_eq_ok] at ran
          obtain ⟨record, behind, ranFirst, ⟨others, _⟩, _, ranRest, result⟩ := ran
          cases result
          obtain ⟨rfl, carries⟩ := first.carries fits (plain entry (by simp)) ranFirst
          obtain ⟨kept, carriesRest, keptEq⟩ := ih plainRest ranRest
          refine ⟨entry :: kept, .cons carries carriesRest, ?_⟩
          rw [List.filter_cons, List.filter_cons, keptEq]

end Message

/-! ## Writing a record -/

/-- The same names, without pointers. -/
def DataEntry.plain (entry : DataEntry) : DataEntry :=
  ⟨entry.qtypeNum, entry.names.map fun name => ⟨name.labels, 0⟩⟩

theorem DataEntry.denoted_plain (entry : DataEntry) : entry.plain.denoted = entry.denoted := by
  simp only [denoted, plain, List.map_map]
  rfl

theorem eq_of_map_nameText {first second : List (List (List UInt8))}
    (firstLabels : ∀ name ∈ first, ∀ label ∈ name, IsWireLabel label)
    (secondLabels : ∀ name ∈ second, ∀ label ∈ name, IsWireLabel label)
    (same : first.map nameText = second.map nameText) : first = second := by
  induction first generalizing second with
  | nil => exact (List.map_eq_nil_iff.mp same.symm).symm
  | cons name first ih =>
      cases second with
      | nil => cases same
      | cons other second =>
          obtain ⟨nameEq, restEq⟩ := List.cons.inj same
          have head : name = other :=
            (isNormal_of_wireLabels (firstLabels name (by simp))).eq_of_nameText
              (isNormal_of_wireLabels (secondLabels other (by simp))) nameEq
          have tail := ih (fun next nextMem => firstLabels next (by simp [nextMem]))
            (fun next nextMem => secondLabels next (by simp [nextMem])) restEq
          rw [head, tail]

/-- The record is written as these octets, in which the names that it carries
stand without pointers. -/
def Keeps (record : DnsRecord) (octets : List UInt8) : Prop :=
  ∃ owner rdata, octets = recordOctets (wireName owner) record.queryType.toNum record.ttl rdata ∧
    record.Coded owner rdata ∧ ∀ entry, Carries record entry →
      PlainData (rdataLayout entry.qtypeNum) rdata (entry.names.map Denoted.labels)

theorem Keeps.codedAs {record : DnsRecord} {octets : List UInt8} (keeps : Keeps record octets) :
    record.CodedAs octets := by
  obtain ⟨owner, rdata, octetsEq, coded, -⟩ := keeps
  exact ⟨owner, rdata, octetsEq, coded⟩

theorem Carries.exists_keeps {record : DnsRecord} {entry : DataEntry}
    (carries : Carries record entry) : ∃ octets, Keeps record octets := by
  cases isNative : record.queryType.isNative with
  | true =>
      obtain ⟨owner, rdata, labels, plain⟩ :=
        DnsRecord.exists_plainCoded isNative carries.producible carries.fits
      refine ⟨_, owner, rdata, rfl, plain.coded, fun other otherCarries => ?_⟩
      obtain ⟨namesEq, areRead⟩ := otherCarries.native isNative
      rw [plain.names] at namesEq
      have textsEq : labels.map nameText = (other.names.map Denoted.labels).map nameText := by
        rw [List.map_map]
        exact (List.cons.inj namesEq).2
      have labelsEq := eq_of_map_nameText plain.areLabels (by
        simp only [List.mem_map, forall_exists_index, and_imp, forall_apply_eq_imp_iff₂]
        exact fun name nameMem => (areRead name nameMem).areLabels) textsEq
      rw [← labelsEq, ← otherCarries.qtypeNum]
      exact plain.data
  | false =>
      cases record with
      | unknown domain qtypeNum data ttl =>
          obtain ⟨owner, areLabels, rfl⟩ :=
            (carries.producible domain (by simp [DnsRecord.names])).exists_labels
          exact ⟨_, owner, data, rfl, DnsRecord.coded_unknown areLabels carries.fits,
            fun other otherCarries => otherCarries.copied rfl⟩
      | _ => cases isNative

section Written

variable {wire octets : List UInt8} {pos : Nat} {record : DnsRecord} {entry : DataEntry}

theorem ahead_of_stands (fits : wire.length ≤ bufSize) (nonempty : octets ≠ [])
    (stands : octets <+: wire.drop pos) : Ahead (fromBytes wire) pos octets := by
  have inside := length_of_stands stands nonempty
  refine ⟨by omega, ?_⟩
  rw [fromBytes_buf fits, List.drop_append_of_le_length (by omega)]
  exact stands.trans (List.prefix_append _ _)

theorem Keeps.ne_nil (keeps : Keeps record octets) : octets ≠ [] := by
  obtain ⟨owner, rdata, rfl, -⟩ := keeps
  simp [recordOctets, wireName]

/-- A written record has the names that were carried. -/
theorem Keeps.recordNames (fits : wire.length ≤ bufSize) (keeps : Keeps record octets)
    (carries : Carries record entry) (stands : octets <+: wire.drop pos) :
    RecordNames wire pos (pos + octets.length) entry.plain := by
  have nonempty := keeps.ne_nil
  obtain ⟨owner, rdata, rfl, coded, data⟩ := keeps
  have ahead := ahead_of_stands fits nonempty stands
  have inside := length_of_stands stands nonempty
  have areLabels := coded.areLabels
  have rawLabels : ∀ label ∈ owner, IsRawLabel label :=
    fun label labelMem => isRawLabel_of_wire (areLabels label labelMem)
  refine ⟨⟨⟨_, 0⟩, nameAt_of_stands rawLabels (prefix_left stands)⟩, _,
    recordSpan_of_ahead fits areLabels ahead inside, ?_, ?_⟩
  · rw [wireU16_of_ahead fits ahead.right.left, carries.qtypeNum]
    rfl
  · have rdataStands := prefix_right (prefix_right (prefix_right (prefix_right
      (prefix_right stands))))
    have plain := (data entry carries).dataNames rdataStands rfl
    rw [List.map_map] at plain
    rw [length_recordOctets]
    have endEq : pos + (wireName owner).length + 10 + rdata.length =
      pos + ((wireName owner).length + 10 + rdata.length) := by omega
    rw [← endEq]
    exact plain

variable {encode : DnsRecord → List UInt8} {records : List DnsRecord} {entries : List DataEntry}

theorem recordsAt_of_keeps (fits : wire.length ≤ bufSize)
    (carries : List.Forall₂ Carries records entries)
    (keeps : ∀ record ∈ records, Keeps record (encode record))
    (stands : records.flatMap encode <+: wire.drop pos) :
    RecordsAt wire pos (entries.map DataEntry.plain) (pos + (records.flatMap encode).length) := by
  induction carries generalizing pos with
  | nil => exact .nil pos
  | @cons record entry records entries first rest ih =>
      rw [List.flatMap_cons] at stands ⊢
      have recordNames := (keeps record (by simp)).recordNames fits first (prefix_left stands)
      have later := ih (fun other otherMem => keeps other (by simp [otherMem]))
        (prefix_right stands)
      rw [Nat.add_assoc] at later
      rw [List.length_append]
      exact .cons recordNames later

theorem RecordsAt.append {first second : List DataEntry} {start middle last : Nat}
    (before : RecordsAt wire start first middle) (after : RecordsAt wire middle second last) :
    RecordsAt wire start (first ++ second) last := by
  induction before with
  | nil => exact after
  | cons entry rest ih => exact .cons entry (ih after)

/-- The entry of the OPT record, if there is one. -/
def optEntries : Option EdnsOpt → List DataEntry
  | none => []
  | some _ => [⟨41, []⟩]

theorem recordsAt_edns {edns : Option EdnsOpt} (fits : wire.length ≤ bufSize)
    (stands : ednsOctets edns <+: wire.drop pos) :
    RecordsAt wire pos (optEntries edns) (pos + (ednsOctets edns).length) := by
  cases edns with
  | none => exact .nil pos
  | some edns =>
      have nonempty : edns.octets ≠ [] := by simp [EdnsOpt.octets]
      have ahead := ahead_of_stands fits nonempty stands
      have inside := length_of_stands stands nonempty
      have root : wireName [] <+: wire.drop pos := prefix_left stands
      have span := recordSpan_of_ahead_edns fits ahead inside
      have typeEq : wireU16 wire (pos + 1) = 41 := wireU16_of_ahead fits ahead.right.left
      have room := span.next_eq
      refine .cons ⟨⟨⟨[], 0⟩, nameAt_of_stands (by simp) root⟩, pos + 1, span, typeEq.symm, ?_⟩
        (.nil _)
      exact .rest (by omega)

end Written

theorem exists_keeps {records : List DnsRecord} {entries : List DataEntry}
    (carries : List.Forall₂ Carries records entries) :
    ∀ record ∈ records, ∃ octets, Keeps record octets := by
  induction carries with
  | nil => simp
  | cons first rest ih =>
      simp only [List.mem_cons, forall_eq_or_imp]
      exact ⟨first.exists_keeps, ih⟩

/-- Questions that were read have names and types that are read back. -/
structure QuestionsRead (questions : List DnsQuestion) : Prop where
  producible : ∀ question ∈ questions, Producible question.name
  canonical : ∀ question ∈ questions, QueryType.fromNum question.qtype.toNum = question.qtype

theorem questionsRead_of_readMany {count : Nat} {buffer after : BytePacketBuffer}
    {questions : List DnsQuestion}
    (ran : exec (readMany DnsQuestion.read count) buffer = (.ok questions, after)) :
    QuestionsRead questions := by
  induction count generalizing buffer questions with
  | zero =>
      cases ran
      exact ⟨by simp, by simp⟩
  | succ count ih =>
      obtain ⟨question, middle, rest, read, ranRest, rfl⟩ := exec_readMany_succ_eq_ok.mp ran
      simp only [DnsQuestion.read, exec_bind_eq_ok, exec_readU16_eq_ok] at read
      obtain ⟨name, _, named, num, _, ⟨-, -, rfl⟩, _, _, ⟨-, -, rfl⟩, result⟩ := read
      cases result
      have later := ih ranRest
      refine ⟨List.forall_mem_cons.mpr ⟨⟨_, _, named⟩, later.producible⟩,
        List.forall_mem_cons.mpr ⟨?_, later.canonical⟩⟩
      rw [QueryType.toNum_fromNum]

/-- Questions that were read can be written. -/
theorem QuestionsRead.exists_codedAs {questions : List DnsQuestion} (read : QuestionsRead questions) :
    ∀ question ∈ questions, ∃ octets, question.CodedAs octets :=
  fun question mem =>
    DnsQuestion.exists_codedAs (read.producible question mem) (read.canonical question mem)

/-! ## Whole messages -/

/-- What the parser makes of a well-formed message: records that carry the names
of its records. -/
theorem carries_of_exec_fromBuffer {message : List UInt8} {names : MessageNames}
    {packet : DnsPacket} {after : BytePacketBuffer} (fits : message.length ≤ bufSize)
    (wellFormed : names.Of message)
    (accepted : exec DnsPacket.fromBuffer (fromBytes message) = (.ok packet, after))
    (plain : CopiedPlain names.answers ∧ CopiedPlain names.authorities ∧
      CopiedPlain names.resources) :
    (∀ question ∈ packet.questions, ∃ octets, question.CodedAs octets) ∧
      List.Forall₂ Carries packet.answers names.answers ∧
      List.Forall₂ Carries packet.authorities names.authorities ∧
      ∃ kept, List.Forall₂ Carries packet.resources kept ∧
        kept.filter (·.qtypeNum ≠ 41) = names.resources.filter (·.qtypeNum ≠ 41) := by
  obtain ⟨-, ⟨answerCount, authorityCount, resourceCount⟩, first, second, third, last, skipped,
    answersAt, authoritiesAt, resourcesAt⟩ := wellFormed
  obtain ⟨plainAnswers, plainAuthorities, plainResources⟩ := plain
  simp only [DnsPacket.fromBuffer, exec_bind_eq_ok] at accepted
  obtain ⟨header, _, ranHeader, questions, _, ranQuestions, answers, _, ranAnswers, authorities, _,
    ranAuthorities, ⟨resources, edns⟩, _, ranResources, result⟩ := accepted
  cases result
  obtain ⟨questionsEq, answersEq, authoritiesEq, resourcesEq, rfl⟩ :=
    exec_readHeader_eq_ok ranHeader
  have atStart : (fromBytes message).pos = 0 := rfl
  simp only [atStart, Nat.zero_add, wireU16_fromBytes fits] at questionsEq answersEq
  simp only [atStart, Nat.zero_add, wireU16_fromBytes fits] at authoritiesEq resourcesEq
  rw [atStart, Nat.zero_add] at ranQuestions
  obtain ⟨stop, found, rfl⟩ := exec_readQuestions_eq_ok ranQuestions
  rw [questionsEq] at found
  obtain rfl : first = stop :=
    Except.ok.inj ((skipQuestions_fromBytes fits skipped).symm.trans found)
  rw [answersEq, ← answerCount] at ranAnswers
  obtain ⟨rfl, carriesAnswers⟩ := carries_of_readMany fits answersAt plainAnswers ranAnswers
  rw [authoritiesEq, ← authorityCount] at ranAuthorities
  obtain ⟨rfl, carriesAuthorities⟩ :=
    carries_of_readMany fits authoritiesAt plainAuthorities ranAuthorities
  rw [resourcesEq, ← resourceCount] at ranResources
  exact ⟨(questionsRead_of_readMany ranQuestions).exists_codedAs, carriesAnswers, carriesAuthorities,
    carries_of_readResources fits resourcesAt plainResources ranResources⟩

/-- The entries of a message that is written. -/
def writtenNames (names : MessageNames) (resources : List DataEntry) (edns : Option EdnsOpt) :
    MessageNames where
  answers := names.answers.map DataEntry.plain
  authorities := names.authorities.map DataEntry.plain
  resources := resources.map DataEntry.plain ++ optEntries edns

theorem map_denoted_plain (entries : List DataEntry) :
    (entries.map DataEntry.plain).map DataEntry.denoted = entries.map DataEntry.denoted := by
  rw [List.map_map]
  exact List.map_congr_left fun entry _ => entry.denoted_plain

theorem denoted_writtenNames {names : MessageNames} {resources : List DataEntry}
    (edns : Option EdnsOpt)
    (same : resources.filter (·.qtypeNum ≠ 41) = names.resources.filter (·.qtypeNum ≠ 41)) :
    (writtenNames names resources edns).denoted = names.denoted := by
  have noOpt : (optEntries edns).filter (·.qtypeNum ≠ 41) = [] := by
    cases edns <;> rfl
  have plainResources : (resources.map DataEntry.plain).filter (·.qtypeNum ≠ 41) =
      (resources.filter (·.qtypeNum ≠ 41)).map DataEntry.plain :=
    List.filter_map
  simp only [MessageNames.denoted, writtenNames, map_denoted_plain]
  rw [List.filter_append, noOpt, List.append_nil, plainResources, same, map_denoted_plain]

/-- The octets of a packet have the names that its records carry. -/
theorem of_octets {packet : DnsPacket} {names : MessageNames} {resources : List DataEntry}
    {encodeQuestion : DnsQuestion → List UInt8} {encode : DnsRecord → List UInt8}
    (fits : (packet.octets encodeQuestion encode).length ≤ bufSize)
    (questionsCoded : ∀ question ∈ packet.questions, question.CodedAs (encodeQuestion question))
    (keeps : ∀ record ∈ packet.records, Keeps record (encode record))
    (carriesAnswers : List.Forall₂ Carries packet.answers names.answers)
    (carriesAuthorities : List.Forall₂ Carries packet.authorities names.authorities)
    (carriesResources : List.Forall₂ Carries packet.resources resources) :
    (writtenNames names resources packet.edns).Of (packet.octets encodeQuestion encode) := by
  have coded : ∀ record ∈ packet.records, record.CodedAs (encode record) :=
    fun record recordMem => (keeps record recordMem).codedAs
  obtain ⟨questionCount, answerCount, authorityCount, resourceCount⟩ :=
    DnsPacket.toNat_counts questionsCoded coded fits
  have ednsCount : (optEntries packet.edns).length = packet.edns.toList.length := by
    cases packet.edns <;> rfl
  have lengthEq : (packet.octets encodeQuestion encode).length =
      12 + ((packet.questions.flatMap encodeQuestion).length +
        ((packet.answers.flatMap encode).length + ((packet.authorities.flatMap encode).length +
          ((packet.resources.flatMap encode).length + (ednsOctets packet.edns).length)))) := by
    simp only [DnsPacket.octets, List.length_append, DnsPacket.length_header]
  have ahead : Ahead (fromBytes (packet.octets encodeQuestion encode)) 0
      (packet.octets encodeQuestion encode) := ahead_fromBytes fits
  have header : Ahead _ 0 packet.countedHeader.octets := ahead.left
  have questionsAhead : Ahead _ 12 (packet.questions.flatMap encodeQuestion) := ahead.right.left
  have stands : packet.octets encodeQuestion encode <+:
      (packet.octets encodeQuestion encode).drop 0 := List.prefix_rfl
  have behindHeader : _ <+: (packet.octets encodeQuestion encode).drop 12 := prefix_right stands
  generalize packet.octets encodeQuestion encode = wire at *
  obtain ⟨questionsEq, answersEq, authoritiesEq, resourcesEq⟩ :=
    DnsPacket.wireU16_counts fits header
  have skipped := DnsPacket.skipQuestions_of_ahead fits questionsCoded questionsAhead (by omega)
  have afterQuestions := prefix_right behindHeader
  have afterAnswers := prefix_right afterQuestions
  have afterAuthorities := prefix_right afterAnswers
  have afterResources := prefix_right afterAuthorities
  have answersAt := recordsAt_of_keeps fits carriesAnswers
    (fun record recordMem => keeps record (DnsPacket.mem_records_of_mem_answers recordMem))
    (prefix_left afterQuestions)
  have authoritiesAt := recordsAt_of_keeps fits carriesAuthorities
    (fun record recordMem => keeps record (DnsPacket.mem_records_of_mem_authorities recordMem))
    (prefix_left afterAnswers)
  have resourcesAt := recordsAt_of_keeps fits carriesResources
    (fun record recordMem => keeps record (DnsPacket.mem_records_of_mem_resources recordMem))
    (prefix_left afterAuthorities)
  have ednsAt := recordsAt_edns fits afterResources
  refine ⟨by omega, ⟨?_, ?_, ?_⟩, _, _, _, _, ?_, answersAt, authoritiesAt,
    resourcesAt.append ednsAt⟩
  · rw [answersEq, answerCount, carriesAnswers.length_eq]
    exact List.length_map _
  · rw [authoritiesEq, authorityCount, carriesAuthorities.length_eq]
    exact List.length_map _
  · rw [resourcesEq, resourceCount, carriesResources.length_eq, ← ednsCount]
    simp [writtenNames]
  · rw [questionsEq, questionCount]
    exact skipped

/-- A message in which the copied data have no pointers keeps all names when it is
parsed and written again. -/
theorem names_kept {message : List UInt8} {names : MessageNames} {packet : DnsPacket}
    {after buffer : BytePacketBuffer} (fits : message.length ≤ bufSize)
    (wellFormed : names.Of message)
    (accepted : exec DnsPacket.fromBuffer (fromBytes message) = (.ok packet, after))
    (plain : CopiedPlain names.answers ∧ CopiedPlain names.authorities ∧
      CopiedPlain names.resources)
    (written : exec packet.write .new = (.ok (), buffer)) :
    ∃ kept : MessageNames, kept.Of buffer.filled ∧ kept.denoted = names.denoted := by
  obtain ⟨questionsCoded, carriesAnswers, carriesAuthorities, resources, carriesResources,
    resourcesEq⟩ := carries_of_exec_fromBuffer fits wellFormed accepted plain
  have keeps : ∀ record ∈ packet.records, ∃ octets, Keeps record octets := by
    intro record recordMem
    rcases List.mem_append.mp recordMem with inFirst | inResources
    · rcases List.mem_append.mp inFirst with inAnswers | inAuthorities
      · exact exists_keeps carriesAnswers record inAnswers
      · exact exists_keeps carriesAuthorities record inAuthorities
    · exact exists_keeps carriesResources record inResources
  choose! encodeQuestion questionsCoded using questionsCoded
  choose! encode keeps using keeps
  obtain ⟨octetsFit, filledEq, -⟩ := DnsPacket.filled_of_write questionsCoded
    (fun record recordMem => (keeps record recordMem).codedAs) written
  rw [filledEq]
  exact ⟨_, of_octets octetsFit questionsCoded keeps carriesAnswers carriesAuthorities
    carriesResources, denoted_writtenNames packet.edns resourcesEq⟩

/-! ## Two messages with a server record -/

/-- An NS and an SRV record with the same compressed owner. -/
def serviceMessage (target : List UInt8) : List UInt8 :=
  [0, 1, 0x80, 0, 0, 1, 0, 2, 0, 0, 0, 0, 1, 97, 0, 0, 33, 0, 1,
    0xC0, 12, 0, 2, 0, 1, 0, 0, 0, 9, 0, 3, 1, 98, 0,
    0xC0, 12, 0, 33, 0, 1, 0, 0, 0, 9, 0, 6 + target.length.toUInt8, 0, 0, 0, 0, 0, 0] ++ target

def serviceNames (target : Denoted) : MessageNames where
  answers := [⟨2, [⟨[[98]], 0⟩]⟩, ⟨33, [target]⟩]
  authorities := []
  resources := []

/-- The target of the SRV record spelled out. -/
def plainService : List UInt8 := serviceMessage [1, 98, 0]

/-- The target of the SRV record is a pointer to the name in the NS record. -/
def compressedService : List UInt8 := serviceMessage [0xC0, 31]

/-- The message is well formed if its target is. -/
theorem of_service {octets : List UInt8} {target : Denoted} {last : Nat}
    (header : 12 ≤ octets.length ∧ wireU16 octets 6 = 2 ∧ wireU16 octets 8 = 0 ∧
      wireU16 octets 10 = 0 ∧ skipQuestions octets (wireU16 octets 4).toNat 12 = .ok 19)
    (asked : NameAt octets 1 19 [[97]] ∧ NameAt octets 1 34 [[97]])
    (server : NameAt octets 0 31 [[98]] ∧ skipWireName octets 31 = .ok 34)
    (spans : RecordSpan octets 19 21 34 ∧ RecordSpan octets 34 36 last)
    (types : wireU16 octets 21 = 2 ∧ wireU16 octets 36 = 33)
    (targetAt : NameAt octets target.jumps 52 target.labels ∧ skipWireName octets 52 = .ok last) :
    (serviceNames target).Of octets := by
  obtain ⟨longer, answers, authorities, resources, skipped⟩ := header
  have first : RecordNames octets 19 34 ⟨2, [⟨[[98]], 0⟩]⟩ :=
    ⟨⟨⟨_, 1⟩, asked.1⟩, 21, spans.1, types.1.symm, .name server.1 server.2 (.nil _)⟩
  have second : RecordNames octets 34 last ⟨33, [target]⟩ :=
    ⟨⟨⟨_, 1⟩, asked.2⟩, 36, spans.2, types.2.symm,
      .fixed (.fixed (.fixed (.name targetAt.1 targetAt.2 (.nil _))))⟩
  refine ⟨longer, ⟨?_, ?_, ?_⟩, 19, last, last, last, skipped,
    .cons first (.cons second (.nil _)), .nil _, .nil _⟩
  · rw [answers]; rfl
  · rw [authorities]; rfl
  · rw [resources]; rfl

theorem nameAt_asked {octets : List UInt8} {pos : Nat} (name : [1, 97, 0] <+: octets.drop 12)
    (first : octets[pos]? = some 0xC0) (second : octets[pos + 1]? = some 12) :
    NameAt octets 1 pos [[97]] := by
  have labels : ∀ label ∈ [[97]], IsRawLabel label := by decide
  have stands : wireName [[97]] <+: octets.drop 12 := name
  have target : NameAt octets 0 12 [[97]] := nameAt_of_stands labels stands
  exact .pointer first (by decide) second target

theorem of_plainService : (serviceNames ⟨[[98]], 0⟩).Of plainService := by
  have labels : ∀ label ∈ [[98]], IsRawLabel label := by decide
  have spans : RecordSpan plainService 19 21 34 ∧ RecordSpan plainService 34 36 55 :=
    ⟨⟨by decide +kernel, by decide, by decide +kernel, by decide⟩,
      ⟨by decide +kernel, by decide, by decide +kernel, by decide⟩⟩
  have asked : NameAt plainService 1 19 [[97]] ∧ NameAt plainService 1 34 [[97]] :=
    ⟨nameAt_asked (by decide) rfl rfl, nameAt_asked (by decide) rfl rfl⟩
  exact of_service (by decide +kernel) asked ⟨nameAt_of_stands labels (by decide), by decide +kernel⟩
    spans (by decide +kernel) ⟨nameAt_of_stands labels (by decide), by decide +kernel⟩

theorem of_compressedService : (serviceNames ⟨[[98]], 1⟩).Of compressedService := by
  have labels : ∀ label ∈ [[98]], IsRawLabel label := by decide
  have spans : RecordSpan compressedService 19 21 34 ∧ RecordSpan compressedService 34 36 54 :=
    ⟨⟨by decide +kernel, by decide, by decide +kernel, by decide⟩,
      ⟨by decide +kernel, by decide, by decide +kernel, by decide⟩⟩
  have asked : NameAt compressedService 1 19 [[97]] ∧ NameAt compressedService 1 34 [[97]] :=
    ⟨nameAt_asked (by decide) rfl rfl, nameAt_asked (by decide) rfl rfl⟩
  have server : NameAt compressedService 0 31 [[98]] := nameAt_of_stands labels (by decide)
  have target : NameAt compressedService 1 52 [[98]] := .pointer rfl (by decide) rfl server
  exact of_service (by decide +kernel) asked ⟨server, by decide +kernel⟩ spans (by decide +kernel)
    ⟨target, by decide +kernel⟩

/-- The octets that the parser and the writer make of a message, if they accept
it. -/
def rewritten (message : List UInt8) : Option (List UInt8) :=
  match exec DnsPacket.fromBuffer (fromBytes message) with
  | (.ok packet, _) =>
    match exec packet.write .new with
    | (.ok _, buffer) => some buffer.filled
    | (.error _, _) => none
  | (.error _, _) => none

theorem exec_of_rewritten {message octets : List UInt8} (eq : rewritten message = some octets) :
    ∃ packet after buffer,
      exec DnsPacket.fromBuffer (fromBytes message) = (.ok packet, after) ∧
        exec packet.write .new = (.ok (), buffer) ∧ buffer.filled = octets := by
  unfold rewritten at eq
  split at eq
  · rename_i packet after accepted
    split at eq
    · rename_i buffer written
      exact ⟨packet, after, buffer, accepted, written, Option.some.inj eq⟩
    · cases eq
  · cases eq

theorem names_kept_plainService : ∃ packet after buffer,
    exec DnsPacket.fromBuffer (fromBytes plainService) = (.ok packet, after) ∧
      exec packet.write .new = (.ok (), buffer) ∧
      ∃ kept : MessageNames, kept.Of buffer.filled ∧
        kept.denoted = (serviceNames ⟨[[98]], 0⟩).denoted := by
  have isWritten : (rewritten plainService).isSome = true := by decide +kernel
  obtain ⟨octets, eq⟩ := Option.isSome_iff_exists.mp isWritten
  obtain ⟨packet, after, buffer, accepted, written, -⟩ := exec_of_rewritten eq
  have plain : CopiedPlain (serviceNames ⟨[[98]], 0⟩).answers ∧ CopiedPlain [] ∧ CopiedPlain [] := by
    simp [CopiedPlain, serviceNames]
  exact ⟨packet, after, buffer, accepted, written,
    names_kept (by decide) of_plainService accepted plain written⟩

/-- The octets of the message with the compressed target, written again. -/
def danglingService : List UInt8 :=
  [0, 1, 0x80, 0, 0, 1, 0, 2, 0, 0, 0, 0, 1, 97, 0, 0, 33, 0, 1,
    1, 97, 0, 0, 2, 0, 1, 0, 0, 0, 9, 0, 3, 1, 98, 0,
    1, 97, 0, 0, 33, 0, 1, 0, 0, 0, 9, 0, 8, 0, 0, 0, 0, 0, 0, 0xC0, 31]

theorem rewritten_compressedService : rewritten compressedService = some danglingService := by
  decide +kernel

/-- Behind the pointer stands no longer the name in the NS record. -/
theorem nameAt_dangling : NameAt danglingService 1 54 [[1, 98, 0], [97]] := by
  have owner : NameAt danglingService 0 35 [[97]] :=
    nameAt_of_stands (by decide : ∀ label ∈ [[97]], IsRawLabel label) (by decide)
  have target : NameAt danglingService 0 31 [[1, 98, 0], [97]] :=
    .label (rfl : danglingService[31]? = some 3) (by decide) (by decide) (by decide) owner
  exact .pointer rfl (by decide) rfl target

theorem not_kept_danglingService {kept : MessageNames} (isOf : kept.Of danglingService) :
    kept.denoted ≠ (serviceNames ⟨[[98]], 1⟩).denoted := by
  intro denotedEq
  obtain ⟨answers, authorities, resources⟩ := kept
  obtain ⟨-, -, first, second, -, -, skipped, answersAt, -, -⟩ := isOf
  have answersEq : answers.map DataEntry.denoted = [(2, [[[98]]]), (33, [[[98]]])] :=
    (List.cons.inj denotedEq).1
  have firstEq : skipQuestions danglingService (wireU16 danglingService 4).toNat 12 = .ok 19 := by
    decide +kernel
  cases firstEq.symm.trans skipped
  simp only at answersAt
  cases answersAt with
  | nil => cases answersEq
  | @cons _ next _ entry entries recordNames rest =>
      obtain ⟨pos, span, -, -⟩ := recordNames.span
      have named : skipWireName danglingService 19 = .ok 22 := by decide +kernel
      cases named.symm.trans span.name
      have nextEq : next = 35 := span.next_eq.trans (by decide +kernel)
      subst nextEq
      cases rest with
      | nil => cases (List.cons.inj answersEq).2
      | @cons _ last _ other others otherNames rest =>
          have otherEq : other.denoted = (33, [[[98]]]) :=
            (List.cons.inj (List.cons.inj answersEq).2).1
          obtain ⟨otherPos, otherSpan, -, data⟩ := otherNames.span
          have otherNamed : skipWireName danglingService 35 = .ok 38 := by decide +kernel
          cases otherNamed.symm.trans otherSpan.name
          obtain ⟨typeEq, namesEq⟩ := Prod.mk.inj otherEq
          obtain ⟨qtypeNum, names⟩ := other
          simp only at typeEq namesEq data
          subst typeEq
          have layout : rdataLayout 33 = [.fixed 2, .fixed 2, .fixed 2, .name] := rfl
          rw [layout] at data
          cases data with
          | fixed data =>
              cases data with
              | fixed data =>
                  cases data with
                  | fixed data =>
                      cases data with
                      | name denotes ends data =>
                          obtain ⟨labelsEq, -⟩ := denotes.unique nameAt_dangling
                          have isOne := (List.cons.inj namesEq).1
                          rw [labelsEq] at isOne
                          exact absurd isOne (by decide)

/-- The target of a compressed SRV record is another name when the message is
written again. -/
theorem compressedService_dangles : ∃ packet after buffer,
    exec DnsPacket.fromBuffer (fromBytes compressedService) = (.ok packet, after) ∧
      exec packet.write .new = (.ok (), buffer) ∧
      (serviceNames ⟨[[98]], 1⟩).Of compressedService ∧
      ¬ ∃ kept : MessageNames, kept.Of buffer.filled ∧
        kept.denoted = (serviceNames ⟨[[98]], 1⟩).denoted := by
  obtain ⟨packet, after, buffer, accepted, written, filledEq⟩ :=
    exec_of_rewritten rewritten_compressedService
  refine ⟨packet, after, buffer, accepted, written, of_compressedService, ?_⟩
  rintro ⟨kept, isOf, denotedEq⟩
  rw [filledEq] at isOf
  exact not_kept_danglingService isOf denotedEq

end Numa
