import Numa.Capacity
import Numa.NamesKept

/-!
# Headers and classes of a message that is written again

The parser keeps the bits of the header but for the response codes above 5, and
drops the classes.  The writer gives the class IN to every question and to every
record, and its payload size to the OPT record.
-/

namespace Numa

open BytePacketBuffer

/-! ## The classes in a message -/

section Classes

variable (wire : List UInt8)

/-- The classes of some questions, and the position behind them. -/
def questionClasses : (count start : Nat) → Option (List UInt16 × Nat)
  | 0, start => some ([], start)
  | count + 1, start =>
    match skipWireName wire start with
    | .error _ => none
    | .ok pos =>
      if wire.length < pos + 4 then none
      else
        (questionClasses count (pos + 4)).map fun (later, next) =>
          (wireU16 wire (pos + 2) :: later, next)

/-- The types and classes of some records. -/
def recordClasses : (count start : Nat) → Option (List (UInt16 × UInt16))
  | 0, _ => some []
  | count + 1, start =>
    match skipWireName wire start with
    | .error _ => none
    | .ok pos =>
      if wire.length < pos + 10 + (wireU16 wire (pos + 8)).toNat then none
      else
        (recordClasses count (pos + 10 + (wireU16 wire (pos + 8)).toNat)).map
          ((wireU16 wire pos, wireU16 wire (pos + 2)) :: ·)

/-- The classes of the questions, and the types and classes of the records. -/
structure MessageClasses where
  questions : List UInt16
  records : List (UInt16 × UInt16)
  deriving DecidableEq

def messageClasses : Option MessageClasses :=
  (questionClasses wire (wireU16 wire 4).toNat 12).bind fun (questions, first) =>
    (recordClasses wire (plainCount wire + additionalCount wire) first).map (⟨questions, ·⟩)

end Classes

section Written

variable {wire octets : List UInt8} {start pos next count : Nat}

theorem questionClasses_succ {later : List UInt16} {last : Nat}
    (named : skipWireName wire start = .ok pos) (inside : pos + 4 ≤ wire.length)
    (rest : questionClasses wire count (pos + 4) = some (later, last)) :
    questionClasses wire (count + 1) start = some (wireU16 wire (pos + 2) :: later, last) := by
  simp only [questionClasses, named, rest, if_neg (Nat.not_lt.mpr inside), Option.map_some]

theorem recordClasses_succ (span : RecordSpan wire start pos next) :
    recordClasses wire (count + 1) start =
      (recordClasses wire count next).map ((wireU16 wire pos, wireU16 wire (pos + 2)) :: ·) := by
  have inside := span.inside
  rw [span.next_eq] at inside ⊢
  simp only [recordClasses, span.name, if_neg (Nat.not_lt.mpr inside)]

/-! ## What is written -/

theorem nameOctets_eq_some {name : Text} (encoded : nameOctets name = some octets) :
    ∃ labels, (∀ label ∈ labels, IsRawLabel label) ∧ octets = wireName labels := by
  obtain ⟨labels, found, rfl⟩ := Option.map_eq_some_iff.mp encoded
  exact ⟨labels, short_of_textLabels found, rfl⟩

theorem DnsQuestion.encoded_eq_some {question : DnsQuestion}
    (encoded : question.encoded = some octets) :
    ∃ labels, (∀ label ∈ labels, IsRawLabel label) ∧
      octets = wireName labels ++ (beBytes16 question.qtype.toNum ++ beBytes16 1) := by
  obtain ⟨name, named, rest⟩ := Option.bind_eq_some_iff.mp encoded
  obtain ⟨labels, areLabels, rfl⟩ := nameOctets_eq_some named
  cases rest
  exact ⟨labels, areLabels, rfl⟩

theorem DnsRecord.encoded_eq_some {record : DnsRecord} (encoded : record.encoded = some octets) :
    ∃ owner rdata, (∀ label ∈ owner, IsRawLabel label) ∧
      octets = recordOctets (wireName owner) record.queryType.toNum record.ttl rdata := by
  obtain ⟨name, named, rest⟩ := Option.bind_eq_some_iff.mp encoded
  obtain ⟨owner, areLabels, rfl⟩ := nameOctets_eq_some named
  obtain ⟨rdata, -, rfl⟩ := Option.map_eq_some_iff.mp rest
  exact ⟨owner, rdata, areLabels, rfl⟩

theorem wireU16_of_stands (fits : wire.length ≤ bufSize) {value : UInt16}
    (stands : beBytes16 value <+: wire.drop pos) : wireU16 wire pos = value :=
  wireU16_of_ahead fits (ahead_of_stands fits (by simp [beBytes16]) stands)

/-- A record spans its octets. -/
theorem recordSpan_of_stands (fits : wire.length ≤ bufSize) {owner : List (List UInt8)}
    {qtype : UInt16} {ttl : UInt32} {rdata : List UInt8}
    (areLabels : ∀ label ∈ owner, IsRawLabel label)
    (stands : recordOctets (wireName owner) qtype ttl rdata <+: wire.drop start) :
    RecordSpan wire start (start + (wireName owner).length)
      (start + (recordOctets (wireName owner) qtype ttl rdata).length) := by
  have behind := prefix_right (prefix_right (prefix_right (prefix_right stands)))
  exact recordSpan_of_skipped fits (skipWireName_of_stands areLabels (prefix_left stands))
    (wireU16_of_stands fits (prefix_left behind))
    (length_of_stands stands (by simp [recordOctets, wireName]))

/-- Every question is written with the class IN. -/
theorem questionClasses_of_stands (fits : wire.length ≤ bufSize) {questions : List DnsQuestion}
    (joined : joinParts (questions.map DnsQuestion.encoded) = some octets)
    (stands : octets <+: wire.drop start) :
    questionClasses wire questions.length start =
      some (List.replicate questions.length 1, start + octets.length) := by
  induction questions generalizing octets start with
  | nil =>
      cases joined
      rfl
  | cons question questions ih =>
      obtain ⟨first, encoded, mapped⟩ := Option.bind_eq_some_iff.mp joined
      obtain ⟨rest, joinedRest, rfl⟩ := Option.map_eq_some_iff.mp mapped
      obtain ⟨labels, areLabels, rfl⟩ := DnsQuestion.encoded_eq_some encoded
      have later := ih joinedRest (prefix_right stands)
      have own := prefix_left stands
      have inside := length_of_stands own (by simp [wireName])
      have classEq : wireU16 wire (start + (wireName labels).length + 2) = 1 :=
        wireU16_of_stands fits (prefix_right (prefix_right own))
      simp only [List.length_append, beBytes16, List.length_cons, List.length_nil] at later inside ⊢
      rw [← Nat.add_assoc] at later inside
      rw [questionClasses_succ (skipWireName_of_stands areLabels (prefix_left own)) inside later,
        classEq, List.replicate_succ]
      simp only [Nat.add_assoc]

/-- Every record is written with the class IN. -/
theorem recordClasses_of_stands (fits : wire.length ≤ bufSize) {records : List DnsRecord}
    (joined : joinParts (records.map DnsRecord.encoded) = some octets)
    (stands : octets <+: wire.drop start) :
    recordClasses wire (records.length + count) start =
      (recordClasses wire count (start + octets.length)).map
        (records.map (fun record => (record.queryType.toNum, 1)) ++ ·) := by
  induction records generalizing octets start with
  | nil =>
      cases joined
      simp
  | cons record records ih =>
      obtain ⟨first, encoded, mapped⟩ := Option.bind_eq_some_iff.mp joined
      obtain ⟨rest, joinedRest, rfl⟩ := Option.map_eq_some_iff.mp mapped
      obtain ⟨owner, rdata, areLabels, rfl⟩ := DnsRecord.encoded_eq_some encoded
      have later := ih joinedRest (prefix_right stands)
      have own := prefix_left stands
      have typeEq : wireU16 wire (start + (wireName owner).length) = record.queryType.toNum :=
        wireU16_of_stands fits (prefix_left (prefix_right own))
      have classEq : wireU16 wire (start + (wireName owner).length + 2) = 1 :=
        wireU16_of_stands fits (prefix_left (prefix_right (prefix_right own)))
      rw [List.length_cons, Nat.add_right_comm,
        recordClasses_succ (recordSpan_of_stands fits areLabels own), later, typeEq, classEq,
        Option.map_map, List.length_append, Nat.add_assoc]
      rfl

/-- The OPT record is written with its payload size. -/
theorem recordClasses_of_stands_edns (fits : wire.length ≤ bufSize) {edns : Option EdnsOpt}
    (stands : ednsOctets edns <+: wire.drop start) :
    recordClasses wire edns.toList.length start =
      some (edns.toList.map fun opt => (41, opt.udpPayloadSize)) := by
  cases edns with
  | none => rfl
  | some opt =>
      have nonempty : opt.octets ≠ [] := by simp [EdnsOpt.octets]
      have span := recordSpan_of_ahead_edns fits (ahead_of_stands fits nonempty stands)
        (length_of_stands stands nonempty)
      have typeEq : wireU16 wire (start + 1) = 41 :=
        wireU16_of_stands fits (prefix_left (prefix_right stands))
      have classEq : wireU16 wire (start + 1 + 2) = opt.udpPayloadSize :=
        wireU16_of_stands fits (prefix_left (prefix_right (prefix_right stands)))
      change recordClasses wire (0 + 1) start = _
      rw [recordClasses_succ span, typeEq, classEq]
      rfl

end Written

/-! ## The sections of a packet -/

theorem length_le_of_joinParts {parts : List (Option (List UInt8))} {octets : List UInt8}
    (joined : joinParts parts = some octets)
    (nonempty : ∀ part, some part ∈ parts → part ≠ []) : parts.length ≤ octets.length := by
  induction parts generalizing octets with
  | nil => exact Nat.zero_le _
  | cons part parts ih =>
      obtain ⟨first, rfl, mapped⟩ := Option.bind_eq_some_iff.mp joined
      obtain ⟨rest, joinedRest, rfl⟩ := Option.map_eq_some_iff.mp mapped
      have positive := List.length_pos_of_ne_nil (nonempty first List.mem_cons_self)
      have later := ih joinedRest fun part mem => nonempty part (List.mem_cons_of_mem _ mem)
      rw [List.length_cons, List.length_append]
      omega

namespace DnsPacket

/-- The encoding is that of the header, the questions, the records and the OPT
record. -/
theorem exists_sections {packet : DnsPacket} {octets : List UInt8}
    (encoded : packet.encoded = some octets) :
    ∃ questions records, joinParts (packet.questions.map DnsQuestion.encoded) = some questions ∧
      joinParts (packet.records.map DnsRecord.encoded) = some records ∧
      octets = packet.countedHeader.octets ++ (questions ++ (records ++ ednsOctets packet.edns)) := by
  have parts : packet.encoded = joinParts (some packet.countedHeader.octets ::
      (packet.questions.map DnsQuestion.encoded ++
        (packet.records.map DnsRecord.encoded ++ [some (ednsOctets packet.edns)]))) := by
    rw [DnsPacket.encoded, records, List.map_append, List.map_append]
    simp only [List.append_assoc]
  rw [parts, joinParts, joinParts_append, joinParts_append, joinParts_singleton] at encoded
  simp only [Option.bind_some, Option.map_eq_some_iff, Option.bind_eq_some_iff,
    Option.some.injEq] at encoded
  obtain ⟨_, ⟨questions, joinedQuestions, _, ⟨records, joinedRecords, _, rfl, rfl⟩, rfl⟩, rfl⟩ :=
    encoded
  exact ⟨questions, records, joinedQuestions, joinedRecords, rfl⟩

/-- The classes in the encoding of a packet. -/
theorem messageClasses_of_encoded {packet : DnsPacket} {octets : List UInt8}
    (encoded : packet.encoded = some octets) (fits : octets.length ≤ bufSize) :
    messageClasses octets = some
      { questions := List.replicate packet.questions.length 1
        records := packet.records.map (fun record => (record.queryType.toNum, 1)) ++
          packet.edns.toList.map fun opt => (41, opt.udpPayloadSize) } := by
  obtain ⟨questions, records, joinedQuestions, joinedRecords, octetsEq⟩ := exists_sections encoded
  have stands : packet.countedHeader.octets ++ (questions ++ (records ++ ednsOctets packet.edns)) <+:
      octets.drop 0 := by
    rw [octetsEq, List.drop_zero]
  have behindHeader := prefix_right stands
  have behindQuestions := prefix_right behindHeader
  have lengthEq := congrArg List.length octetsEq
  simp only [List.length_append, length_header] at lengthEq
  have questionCount : packet.questions.length ≤ questions.length := by
    have count := length_le_of_joinParts joinedQuestions fun part mem => by
      obtain ⟨question, -, encoded⟩ := List.mem_map.mp mem
      obtain ⟨labels, -, rfl⟩ := DnsQuestion.encoded_eq_some encoded
      simp [wireName]
    rwa [List.length_map] at count
  have recordCount : packet.records.length ≤ records.length := by
    have count := length_le_of_joinParts joinedRecords fun part mem => by
      obtain ⟨record, -, encoded⟩ := List.mem_map.mp mem
      obtain ⟨owner, rdata, -, rfl⟩ := DnsRecord.encoded_eq_some encoded
      simp [recordOctets, wireName]
    rwa [List.length_map] at count
  have ednsCount : packet.edns.toList.length ≤ (ednsOctets packet.edns).length := by
    cases packet.edns with
    | none => exact Nat.zero_le _
    | some opt => simp [ednsOctets, EdnsOpt.octets]
  have sum : packet.records.length =
      packet.answers.length + packet.authorities.length + packet.resources.length := by
    rw [DnsPacket.records, List.length_append, List.length_append]
  obtain ⟨toNatQuestions, toNatAnswers, toNatAuthorities, toNatResources⟩ :=
    packet.toNat_counts_of_short (by omega) (by omega) (by omega) (by omega)
  have header : Ahead (fromBytes octets) 0 packet.countedHeader.octets :=
    ahead_of_stands fits (by simp [DnsHeader.octets, beBytes16]) (prefix_left stands)
  obtain ⟨questionsEq, answersEq, authoritiesEq, resourcesEq⟩ := wireU16_counts fits header
  have total : plainCount octets + additionalCount octets =
      packet.records.length + packet.edns.toList.length := by
    rw [plainCount, additionalCount, answersEq, authoritiesEq, resourcesEq, toNatAnswers,
      toNatAuthorities, toNatResources, sum]
    omega
  have questionsAt := questionClasses_of_stands fits joinedQuestions (prefix_left behindHeader)
  have recordsAt : recordClasses octets (packet.records.length + packet.edns.toList.length) _ = _ :=
    recordClasses_of_stands fits joinedRecords (prefix_left behindQuestions)
  have ednsAt := recordClasses_of_stands_edns fits (prefix_right behindQuestions)
  rw [ednsAt] at recordsAt
  rw [length_header, Nat.zero_add] at questionsAt recordsAt
  rw [messageClasses, questionsEq, toNatQuestions, questionsAt, total]
  simp only [Option.bind_some, recordsAt, Option.map_some]

theorem encoded_of_written {packet : DnsPacket} {buffer : BytePacketBuffer}
    (written : exec packet.write .new = (.ok (), buffer)) :
    ∃ octets, packet.encoded = some octets ∧ octets.length ≤ bufSize ∧ buffer.filled = octets := by
  cases encoded : packet.encoded with
  | none =>
      obtain ⟨error, after, failed⟩ := exec_write_of_encoded_eq_none encoded
      rw [written] at failed
      cases failed
  | some octets =>
      rcases exec_write_of_encoded encoded with ⟨short, after, ran, -, filledEq⟩ | ⟨-, after, failed, -⟩
      · rw [written] at ran
        cases ran
        exact ⟨octets, rfl, short, filledEq⟩
      · rw [written] at failed
        cases failed

end DnsPacket

/-! ## The header -/

/-- The response code that is kept for one on the wire. -/
def keptRcode (rcode : UInt8) : UInt8 :=
  if rcode ≤ 5 then rcode else 0

/-- The octets of flags that the header read from two octets is written with. -/
theorem flags_of_octets (first second : UInt8) (header : DnsHeader)
    (recursionDesired : header.recursionDesired = hasBit first 0)
    (truncatedMessage : header.truncatedMessage = hasBit first 1)
    (authoritativeAnswer : header.authoritativeAnswer = hasBit first 2)
    (opcode : header.opcode = first >>> 3 &&& 0x0F) (response : header.response = hasBit first 7)
    (rescode : header.rescode = .fromNum (second &&& 0x0F))
    (checkingDisabled : header.checkingDisabled = hasBit second 4)
    (authedData : header.authedData = hasBit second 5) (z : header.z = hasBit second 6)
    (recursionAvailable : header.recursionAvailable = hasBit second 7) :
    header.firstFlags = first ∧
      header.secondFlags = second &&& 0xF0 ||| keptRcode (second &&& 0x0F) := by
  have firstTable : ∀ index : Fin 256,
      let octet := index.val.toUInt8
      (hasBit octet 0).toUInt8 ||| (hasBit octet 1).toUInt8 <<< 1 |||
        (hasBit octet 2).toUInt8 <<< 2 ||| (octet >>> 3 &&& 0x0F) <<< 3 |||
        (hasBit octet 7).toUInt8 <<< 7 = octet := by
    decide +kernel
  have secondTable : ∀ index : Fin 256,
      let octet := index.val.toUInt8
      (ResultCode.fromNum (octet &&& 0x0F)).toNum ||| (hasBit octet 4).toUInt8 <<< 4 |||
        (hasBit octet 5).toUInt8 <<< 5 ||| (hasBit octet 6).toUInt8 <<< 6 |||
        (hasBit octet 7).toUInt8 <<< 7 = octet &&& 0xF0 ||| keptRcode (octet &&& 0x0F) := by
    decide +kernel
  have firstEq := firstTable ⟨first.toNat, first.toNat_lt⟩
  have secondEq := secondTable ⟨second.toNat, second.toNat_lt⟩
  simp only [Nat.toUInt8_eq, UInt8.ofNat_toNat] at firstEq secondEq
  constructor
  · rw [DnsHeader.firstFlags, recursionDesired, truncatedMessage, authoritativeAnswer, opcode,
      response]
    exact firstEq
  · rw [DnsHeader.secondFlags, rescode, checkingDisabled, authedData, z, recursionAvailable]
    exact secondEq

theorem flags_join (first second : UInt8) :
    ((first.toUInt16 <<< 8 ||| second.toUInt16) >>> 8).toUInt8 = first ∧
      ((first.toUInt16 <<< 8 ||| second.toUInt16) &&& 0xFF).toUInt8 = second := by
  obtain ⟨firstEq, rest⟩ := List.cons.inj (beBytes16_join first second)
  rw [toUInt8_and_mask16]
  exact ⟨firstEq, (List.cons.inj rest).1⟩

/-- A header that is read is written as it was, up to the response code. -/
theorem exec_readHeader_flags {buffer after : BytePacketBuffer} {header : DnsHeader}
    (ran : exec DnsHeader.read buffer = (.ok header, after)) :
    header.id = wireU16 buffer.buf buffer.pos ∧
      header.firstFlags = wireOctet buffer.buf (buffer.pos + 2) ∧
      header.secondFlags = wireOctet buffer.buf (buffer.pos + 3) &&& 0xF0 |||
        keptRcode (wireOctet buffer.buf (buffer.pos + 3) &&& 0x0F) := by
  simp only [DnsHeader.read, exec_bind_eq_ok, exec_readU16_eq_ok] at ran
  obtain ⟨_, _, ⟨-, rfl, rfl⟩, _, _, ⟨-, rfl, rfl⟩, _, _, ⟨-, -, rfl⟩, _, _, ⟨-, -, rfl⟩, _, _,
    ⟨-, -, rfl⟩, _, _, ⟨-, -, rfl⟩, result⟩ := ran
  cases result
  obtain ⟨first, second⟩ := flags_join (wireOctet buffer.buf (buffer.pos + 2))
    (wireOctet buffer.buf (buffer.pos + 3))
  refine ⟨rfl, ?_⟩
  apply flags_of_octets
  all_goals simp only [wireU16, movedTo_buf, movedTo_pos, first, second]

/-! ## Messages that are read and written -/

/-- The buffer has the octets of the message, and zeros behind them. -/
theorem wireOctet_buf (message : List UInt8) {index : Nat} (inside : index < bufSize) :
    wireOctet (fromBytes message).buf index = wireOctet message index := by
  have length := message.length_take (i := bufSize)
  rw [wireOctet, wireOctet, List.getD_eq_getElem?_getD, List.getD_eq_getElem?_getD, fromBytes]
  by_cases held : index < message.length
  · rw [List.getElem?_append_left (by omega), List.getElem?_take_of_lt inside]
  · rw [List.getElem?_append_right (by omega), List.getElem?_replicate,
      List.getElem?_eq_none (Nat.le_of_not_lt held)]
    split <;> rfl

theorem exists_opt_of_readResources {count : Nat} {edns last : Option EdnsOpt}
    {records : List DnsRecord} {buffer after : BytePacketBuffer}
    (ran : exec (DnsPacket.readResources count edns) buffer = (.ok (records, last), after)) :
    last = edns ∨ ∃ opt pos, last = some opt ∧ isOptRecord buffer.buf pos = true ∧
      pos + 5 ≤ bufSize ∧ opt.udpPayloadSize = wireU16 buffer.buf (pos + 3) := by
  induction count generalizing buffer edns records with
  | zero =>
      cases ran
      exact .inl rfl
  | succ count ih =>
      rw [DnsPacket.readResources, exec_get_bind, exec_bind_eq_ok] at ran
      obtain ⟨isOpt, middle, peeked, ran⟩ := ran
      obtain ⟨rfl, isOptEq⟩ := exec_isOptAt_eq_ok peeked
      cases isOpt with
      | true =>
          simp only [if_true, exec_bind_eq_ok] at ran
          obtain ⟨opt, behind, readOpt, ranRest⟩ := ran
          have behindEq := exec_readEdns_eq_ok readOpt
          rcases ih ranRest with rfl | found
          · refine .inr ⟨opt, middle.pos, rfl, isOptEq.symm, ?_⟩
            simp only [EdnsOpt.read, exec_bind_eq_ok, exec_readU16_eq_ok] at readOpt
            obtain ⟨_, _, stepped, _, _, ⟨-, -, rfl⟩, _, _, ⟨room, sizeEq, -⟩, _, _, -, _, _, -, _,
              _, -, result⟩ := readOpt
            cases stepped
            cases result
            exact ⟨room, sizeEq⟩
          · rw [behindEq] at found
            exact .inr found
      | false =>
          simp only [Bool.false_eq_true, if_false, exec_bind_eq_ok] at ran
          obtain ⟨record, behind, read, ⟨rest, _⟩, _, ranRest, result⟩ := ran
          obtain ⟨-, stop, -, -, -, rfl⟩ := exists_span_of_exec_read read
          cases result
          have later := ih ranRest
          exact later

/-- The message and the one that is written have the same ID, QR, opcode, AA, TC
and RD in the octets of the first flags, RA, Z, AD and CD in those of the second,
and the response codes up to 5. -/
structure HeaderKept (message written : List UInt8) : Prop where
  id : wireU16 written 0 = wireU16 message 0
  firstFlags : wireOctet written 2 = wireOctet message 2
  secondFlags : wireOctet written 3 &&& 0xF0 = wireOctet message 3 &&& 0xF0
  rcode : wireOctet written 3 &&& 0x0F = keptRcode (wireOctet message 3 &&& 0x0F)

theorem kept_parts (octet : UInt8) :
    (octet &&& 0xF0 ||| keptRcode (octet &&& 0x0F)) &&& 0xF0 = octet &&& 0xF0 ∧
      (octet &&& 0xF0 ||| keptRcode (octet &&& 0x0F)) &&& 0x0F = keptRcode (octet &&& 0x0F) := by
  have table : ∀ index : Fin 256,
      let octet := index.val.toUInt8
      (octet &&& 0xF0 ||| keptRcode (octet &&& 0x0F)) &&& 0xF0 = octet &&& 0xF0 ∧
        (octet &&& 0xF0 ||| keptRcode (octet &&& 0x0F)) &&& 0x0F = keptRcode (octet &&& 0x0F) := by
    decide +kernel
  have found := table ⟨octet.toNat, octet.toNat_lt⟩
  simp only [Nat.toUInt8_eq, UInt8.ofNat_toNat] at found
  exact found

/-- An OPT record in the buffer is one in the message. -/
theorem isOptRecord_of_buf {message : List UInt8} {pos : Nat} (room : pos + 5 ≤ bufSize)
    (isOpt : isOptRecord (fromBytes message).buf pos = true) : isOptRecord message pos = true := by
  simp only [isOptRecord, Bool.and_eq_true, decide_eq_true_eq, beq_iff_eq] at isOpt ⊢
  obtain ⟨⟨⟨-, root⟩, -⟩, qtype⟩ := isOpt
  rw [wireOctet_buf message (by omega)] at root
  rw [wireU16, wireOctet_buf message (by omega), wireOctet_buf message (by omega)] at qtype
  have low : wireOctet message (pos + 1 + 1) = 41 := by
    have octets := beBytes16_join (wireOctet message (pos + 1)) (wireOctet message (pos + 1 + 1))
    rw [qtype] at octets
    exact (List.cons.inj (List.cons.inj octets).2).1.symm
  have inside : pos + 1 + 1 < message.length := by
    by_contra outside
    rw [wireOctet, List.getD_eq_default message 0 (by omega)] at low
    cases low
  exact ⟨⟨⟨by omega, root⟩, by omega⟩, qtype⟩

/-- A message that is read and written keeps its header, up to the response codes
above 5, which become 0.  All its questions and records get the class IN, and the
OPT record keeps its payload size. -/
theorem DnsPacket.header_and_classes {message : List UInt8} {packet : DnsPacket}
    {after buffer : BytePacketBuffer}
    (accepted : exec DnsPacket.fromBuffer (fromBytes message) = (.ok packet, after))
    (written : exec packet.write .new = (.ok (), buffer)) :
    HeaderKept message buffer.filled ∧
      messageClasses buffer.filled = some
        { questions := List.replicate (wireU16 message 4).toNat 1
          records := packet.records.map (fun record => (record.queryType.toNum, 1)) ++
            packet.edns.toList.map fun opt => (41, opt.udpPayloadSize) } ∧
      ∀ opt ∈ packet.edns, ∃ pos, isOptRecord message pos = true ∧
        opt.udpPayloadSize = wireU16 message (pos + 3) := by
  obtain ⟨octets, encoded, fits, filledEq⟩ : ∃ octets, packet.encoded = some octets ∧
      octets.length ≤ bufSize ∧ buffer.filled = octets := packet.encoded_of_written written
  simp only [fromBuffer, exec_bind_eq_ok] at accepted
  obtain ⟨header, _, ranHeader, questions, _, ranQuestions, answers, _, ranAnswers, authorities, _,
    ranAuthorities, ⟨resources, edns⟩, _, ranResources, result⟩ := accepted
  cases result
  obtain ⟨idEq, firstEq, secondEq⟩ := exec_readHeader_flags ranHeader
  obtain ⟨questionsEq, -, -, -, rfl⟩ := exec_readHeader_eq_ok ranHeader
  have start : (fromBytes message).pos = 0 := rfl
  simp only [start, Nat.zero_add, wireU16, wireOctet_buf message (by decide : 0 < bufSize),
    wireOctet_buf message (by decide : 1 < bufSize), wireOctet_buf message (by decide : 2 < bufSize),
    wireOctet_buf message (by decide : 3 < bufSize), wireOctet_buf message (by decide : 4 < bufSize),
    wireOctet_buf message (by decide : 5 < bufSize)] at idEq firstEq secondEq questionsEq
  rw [filledEq]
  refine ⟨?_, ?_, ?_⟩
  · obtain ⟨behind, octetsEq⟩ : ∃ behind,
        octets = beBytes16 header.id ++ ([header.firstFlags] ++ ([header.secondFlags] ++ behind)) := by
      obtain ⟨questionOctets, recordOctets, -, -, octetsEq⟩ := exists_sections encoded
      exact ⟨_, octetsEq⟩
    have idWritten : wireU16 octets 0 = header.id := by
      rw [octetsEq]
      exact join_beBytes16 header.id
    have secondWritten : wireOctet octets 3 = header.secondFlags := by
      rw [octetsEq]
      rfl
    refine ⟨idWritten.trans idEq, ?_, ?_, ?_⟩
    · rw [← firstEq, octetsEq]
      rfl
    · rw [secondWritten, secondEq, (kept_parts _).1]
    · rw [secondWritten, secondEq, (kept_parts _).2]
  · have count : (wireU16 message 4).toNat = questions.length := by
      rw [exec_readMany_length ranQuestions, questionsEq, wireU16]
    rw [messageClasses_of_encoded encoded fits, count]
  · intro opt isEdns
    rcases exists_opt_of_readResources ranResources with noOpt | ⟨_, pos, found, isOpt, room, sizeEq⟩
    · rw [show edns = none from noOpt] at isEdns
      cases isEdns
    · obtain rfl : _ = opt := Option.some.inj (found.symm.trans isEdns)
      obtain ⟨_, -, rfl⟩ := exec_readQuestions_eq_ok ranQuestions
      obtain ⟨_, _, -, -, rfl, -⟩ := exists_walk_of_readMany ranAnswers
      obtain ⟨_, _, -, -, rfl, -⟩ := exists_walk_of_readMany ranAuthorities
      refine ⟨pos, isOptRecord_of_buf room isOpt, ?_⟩
      rw [sizeEq]
      simp only [movedTo_buf, wireU16, wireOctet_buf message (by omega : pos + 3 < bufSize),
        wireOctet_buf message (by omega : pos + 3 + 1 < bufSize)]

/-- A response of class CH with the response code 9. -/
def chaosMessage : List UInt8 :=
  [0x12, 0x34, 0x80, 0x09, 0, 1, 0, 1, 0, 0, 0, 0, 0, 0, 1, 0, 3,
    0, 0, 1, 0, 3, 0, 0, 0, 60, 0, 4, 192, 0, 2, 1]

theorem rewritten_chaosMessage : rewritten chaosMessage = some
    [0x12, 0x34, 0x80, 0x00, 0, 1, 0, 1, 0, 0, 0, 0, 0, 0, 1, 0, 1,
      0, 0, 1, 0, 1, 0, 0, 0, 60, 0, 4, 192, 0, 2, 1] := by
  decide +kernel

theorem header_and_classes_chaosMessage :
    ∃ packet after buffer, exec DnsPacket.fromBuffer (fromBytes chaosMessage) = (.ok packet, after) ∧
      exec packet.write .new = (.ok (), buffer) ∧ HeaderKept chaosMessage buffer.filled := by
  obtain ⟨packet, after, buffer, accepted, written, -⟩ := exec_of_rewritten rewritten_chaosMessage
  exact ⟨packet, after, buffer, accepted, written,
    (DnsPacket.header_and_classes accepted written).1⟩

/-- The response code 9 becomes 0, and the class CH becomes IN. -/
theorem chaosMessage_changes :
    ∃ packet after buffer, exec DnsPacket.fromBuffer (fromBytes chaosMessage) = (.ok packet, after) ∧
      exec packet.write .new = (.ok (), buffer) ∧
      wireOctet buffer.filled 3 &&& 0x0F ≠ wireOctet chaosMessage 3 &&& 0x0F ∧
      messageClasses chaosMessage = some ⟨[3], [(1, 3)]⟩ ∧
      messageClasses buffer.filled = some ⟨[1], [(1, 1)]⟩ := by
  obtain ⟨packet, after, buffer, accepted, written, filledEq⟩ :=
    exec_of_rewritten rewritten_chaosMessage
  refine ⟨packet, after, buffer, accepted, written, ?_⟩
  rw [filledEq]
  decide +kernel

end Numa
