import Numa.Capacity
import Numa.ClientResponse
import Numa.NamesKept

/-!
# The response in place of one that cannot be written

`serialize_with_fallback` writes the questions of the query again when it cannot
write the response.  They were read from a message of at most 4096 octets, but
with their pointers resolved they may be longer than that.
-/

namespace Numa

open BytePacketBuffer

/-! ## Lengths -/

/-- The number of octets of a part. -/
def partLength (part : Option (List UInt8)) : Nat :=
  (part.map List.length).getD 0

theorem length_of_joinParts {parts : List (Option (List UInt8))} {octets : List UInt8}
    (joined : joinParts parts = some octets) : octets.length = (parts.map partLength).sum := by
  induction parts generalizing octets with
  | nil =>
      cases joined
      rfl
  | cons part parts ih =>
      obtain ⟨first, rfl, joined⟩ := Option.bind_eq_some_iff.mp joined
      obtain ⟨rest, joinedRest, rfl⟩ := Option.map_eq_some_iff.mp joined
      rw [List.length_append, ih joinedRest]
      rfl

namespace DnsPacket

/-- The length of the questions of a packet without pointers. -/
def questionsLength (packet : DnsPacket) : Nat :=
  (packet.questions.map fun question => partLength (nameOctets question.name) + 4).sum

/-- The length of a response that has the questions of a query, and an OPT
record without options if the query has one. -/
def fallbackLength (query : DnsPacket) : Nat :=
  12 + query.questionsLength + if query.edns.isSome then 11 else 0

/-- A packet without records. -/
structure IsBare (packet : DnsPacket) : Prop where
  answers : packet.answers = []
  authorities : packet.authorities = []
  resources : packet.resources = []
  options : ∀ opt ∈ packet.edns, opt.options = []

/-- The names of the questions have an encoding. -/
def QuestionsWritable (packet : DnsPacket) : Prop :=
  ∀ question ∈ packet.questions, (nameOctets question.name).isSome = true

theorem IsBare.exists_encoded {packet : DnsPacket} (bare : packet.IsBare)
    (writable : packet.QuestionsWritable) :
    ∃ octets, packet.encoded = some octets ∧ octets.length = packet.fallbackLength := by
  have parts : packet.encoded = joinParts (some packet.countedHeader.octets ::
      (packet.questions.map DnsQuestion.encoded ++ [some (ednsOctets packet.edns)])) := by
    rw [encoded, bare.answers, bare.authorities, bare.resources]
    rfl
  have all : ∀ part ∈ some packet.countedHeader.octets ::
      (packet.questions.map DnsQuestion.encoded ++ [some (ednsOctets packet.edns)]),
      part.isSome = true := by
    simp only [List.forall_mem_cons, List.forall_mem_append, List.forall_mem_map,
      Option.isSome_some, true_and, DnsQuestion.encoded_isSome_iff, ← nameOctets_isSome_iff]
    exact ⟨writable, List.forall_mem_nil _⟩
  obtain ⟨octets, joined⟩ := Option.isSome_iff_exists.mp ((joinParts_isSome_iff _).mpr all)
  refine ⟨octets, parts.trans joined, ?_⟩
  have questions : (packet.questions.map DnsQuestion.encoded).map partLength =
      packet.questions.map fun question => partLength (nameOctets question.name) + 4 := by
    rw [List.map_map]
    refine List.map_congr_left fun question mem => ?_
    obtain ⟨name, found⟩ := Option.isSome_iff_exists.mp (writable question mem)
    simp [DnsQuestion.encoded, joinParts, partLength, found, beBytes16]
  have edns : (ednsOctets packet.edns).length = if packet.edns.isSome then 11 else 0 := by
    cases found : packet.edns with
    | none => rfl
    | some opt =>
        rw [ednsOctets, EdnsOpt.octets, bare.options opt found]
        rfl
  have header : packet.countedHeader.octets.length = 12 := rfl
  rw [length_of_joinParts joined, List.map_cons, List.map_append, List.sum_cons, List.sum_append,
    questions, fallbackLength, questionsLength]
  simp only [List.map_cons, List.map_nil, List.sum_cons, List.sum_nil, partLength, Option.map_some,
    Option.getD_some, edns, header]
  omega

/-! ## Queries that were read -/

theorem questionsRead_of_fromBuffer {buffer after : BytePacketBuffer} {query : DnsPacket}
    (parsed : exec fromBuffer buffer = (.ok query, after)) : QuestionsRead query.questions := by
  simp only [fromBuffer, exec_bind_eq_ok] at parsed
  obtain ⟨header, _, -, questions, _, ranQuestions, answers, _, -, authorities, _, -,
    ⟨resources, edns⟩, _, -, result⟩ := parsed
  cases result
  exact questionsRead_of_readMany ranQuestions

theorem questionsWritable_of_read {packet : DnsPacket} (read : QuestionsRead packet.questions) :
    packet.QuestionsWritable := by
  intro question mem
  obtain ⟨labels, areLabels, nameEq⟩ := (read.producible question mem).exists_labels
  rw [nameOctets, nameEq, textLabels_nameText areLabels]
  rfl

/-! ## The fallback -/

/-- The shaped response in place of one that cannot be written. -/
def fallbackResponse (response query : DnsPacket) (filterAaaa overflowed : Bool) : DnsPacket :=
  let tc := responseFrom query response.header.rescode
  let fallback :=
    if overflowed then { tc with header := { tc.header with truncatedMessage := true } }
    else responseFrom query .servfail
  fallback.shapeForClient query filterAaaa

theorem serializeWithFallback_eq (response query : DnsPacket) (filterAaaa : Bool) :
    response.serializeWithFallback query filterAaaa =
      match exec response.write .new with
      | (.ok _, buf) => some (response, buf.filled)
      | (.error _, buf) =>
        match exec (fallbackResponse response query filterAaaa buf.overflow).write .new with
        | (.ok _, out) =>
          some (fallbackResponse response query filterAaaa buf.overflow, out.filled)
        | (.error _, _) => none :=
  rfl

section Fallback

variable {response query : DnsPacket} {filterAaaa overflowed : Bool}

theorem fallbackResponse_header :
    (fallbackResponse response query filterAaaa overflowed).header =
      { id := query.header.id
        response := true
        recursionDesired := query.header.recursionDesired
        truncatedMessage := overflowed
        recursionAvailable := true
        rescode := if overflowed then response.header.rescode else .servfail } := by
  cases overflowed <;> rfl

theorem fallbackResponse_questions :
    (fallbackResponse response query filterAaaa overflowed).questions = query.questions := by
  rw [fallbackResponse, shapeForClient_questions]
  cases overflowed <;> rfl

theorem fallbackResponse_edns :
    (fallbackResponse response query filterAaaa overflowed).edns =
      query.edns.map fun _ => { doBit := query.edns.any EdnsOpt.doBit } := by
  cases overflowed <;> rfl

theorem isBare_fallbackResponse :
    (fallbackResponse response query filterAaaa overflowed).IsBare := by
  have noRecords : (fallbackResponse response query filterAaaa overflowed).answers = [] ∧
      (fallbackResponse response query filterAaaa overflowed).authorities = [] ∧
      (fallbackResponse response query filterAaaa overflowed).resources = [] := by
    rw [fallbackResponse, shapeForClient, stripForClient]
    cases overflowed <;> cases query.edns.any EdnsOpt.doBit <;> cases filterAaaa <;>
      exact ⟨rfl, rfl, rfl⟩
  obtain ⟨answers, authorities, resources⟩ := noRecords
  refine ⟨answers, authorities, resources, fun opt mem => ?_⟩
  rw [fallbackResponse_edns] at mem
  obtain ⟨_, -, rfl⟩ := Option.map_eq_some_iff.mp mem
  rfl

theorem fallbackLength_fallbackResponse :
    (fallbackResponse response query filterAaaa overflowed).fallbackLength =
      query.fallbackLength := by
  rw [fallbackLength, fallbackLength, questionsLength, questionsLength, fallbackResponse_questions,
    fallbackResponse_edns, Option.isSome_map]

theorem IsBare.records_eq_nil {packet : DnsPacket} (bare : packet.IsBare) : packet.records = [] := by
  rw [records, bare.answers, bare.authorities, bare.resources]
  rfl

theorem encodable_fallbackResponse (read : QuestionsRead query.questions) :
    (fallbackResponse response query filterAaaa overflowed).Encodable := by
  have bare : (fallbackResponse response query filterAaaa overflowed).IsBare :=
    isBare_fallbackResponse
  refine ⟨?_, ?_, ?_, ?_⟩
  · intro name mem
    rw [names, bare.records_eq_nil, fallbackResponse_questions, List.flatMap_nil,
      List.append_nil] at mem
    obtain ⟨question, questionMem, rfl⟩ := List.mem_map.mp mem
    exact read.producible question questionMem
  · rw [fallbackResponse_header]
    exact (by decide : (0 : UInt8) < 16)
  · rw [bare.records_eq_nil]
    exact List.forall_mem_nil _
  · rw [bare.resources]
    exact List.forall_mem_nil _

end Fallback

/-- The packet can be written into a buffer. -/
def FitsBuffer (packet : DnsPacket) : Prop :=
  ∃ octets, packet.encoded = some octets ∧ octets.length ≤ bufSize

/-- A packet is written, or the writer fails with the flag raised iff the buffer
was full. -/
theorem exec_write_cases (packet : DnsPacket) :
    (packet.FitsBuffer ∧ ∃ after, exec packet.write .new = (.ok (), after) ∧
        after.filled.length ≤ bufSize) ∨
      (¬ packet.FitsBuffer ∧ ∃ error after, exec packet.write .new = (.error error, after) ∧
        after.overflow = decide (error = .endOfBuffer)) := by
  have settled := packet.encodes_write.safe .new (Nat.zero_le _)
  have fails : ∀ error after, exec packet.write .new = (.error error, after) →
      after.overflow = decide (error = .endOfBuffer) := by
    intro error after failed
    rw [failed] at settled
    exact settled.2
  cases encoded : packet.encoded with
  | none =>
      obtain ⟨error, after, failed⟩ := exec_write_of_encoded_eq_none encoded
      refine .inr ⟨fun ⟨octets, found, _⟩ => ?_, error, after, failed, fails error after failed⟩
      rw [encoded] at found
      cases found
  | some octets =>
      rcases exec_write_of_encoded encoded with
        ⟨short, after, ran, -, filledEq⟩ | ⟨long, after, failed, -⟩
      · exact .inl ⟨⟨octets, encoded, short⟩, after, ran, filledEq ▸ short⟩
      · refine .inr ⟨fun ⟨others, found, short⟩ => ?_, _, after, failed, fails _ after failed⟩
        rw [encoded] at found
        cases found
        omega

theorem IsBare.fitsBuffer_iff {packet : DnsPacket} (bare : packet.IsBare)
    (writable : packet.QuestionsWritable) :
    packet.FitsBuffer ↔ packet.fallbackLength ≤ bufSize := by
  obtain ⟨octets, encoded, length⟩ := bare.exists_encoded writable
  rw [← length]
  constructor
  · rintro ⟨others, found, short⟩
    rw [encoded] at found
    cases found
    exact short
  · exact fun short => ⟨octets, encoded, short⟩

/-! ## Every query is answered -/

/-- A message is sent that fits into the buffer: the response, or one that reads
as the query's ID and questions without records, truncated if the writer ran
out of space and a server failure if it met a broken name. -/
def Answered (response query : DnsPacket) (filterAaaa : Bool) : Prop :=
  ∃ message octets, response.serializeWithFallback query filterAaaa = some (message, octets) ∧
    octets.length ≤ bufSize ∧
    match exec response.write .new with
    | (.ok _, written) => octets = written.filled
    | (.error error, _) =>
      ∃ parsed after, exec fromBuffer (.fromBytes octets) = (.ok parsed, after) ∧
        parsed.header.id = query.header.id ∧ parsed.questions = query.questions ∧
        parsed.records = [] ∧
        parsed.header.truncatedMessage = decide (error = .endOfBuffer) ∧
        parsed.header.rescode =
          if error = .endOfBuffer then response.header.rescode else .servfail

section Answered

variable {response query : DnsPacket} {filterAaaa : Bool}

theorem fitsBuffer_fallbackResponse_iff (read : QuestionsRead query.questions) (overflowed : Bool) :
    (fallbackResponse response query filterAaaa overflowed).FitsBuffer ↔
      query.fallbackLength ≤ bufSize := by
  rw [← fallbackLength_fallbackResponse]
  refine isBare_fallbackResponse.fitsBuffer_iff (questionsWritable_of_read ?_)
  rwa [fallbackResponse_questions]

/-- Nothing is sent when neither the response nor the questions fit. -/
theorem serializeWithFallback_eq_none (read : QuestionsRead query.questions)
    (unfit : ¬ response.FitsBuffer) (long : bufSize < query.fallbackLength) :
    response.serializeWithFallback query filterAaaa = none := by
  rw [serializeWithFallback_eq]
  rcases response.exec_write_cases with ⟨fits, -⟩ | ⟨-, error, buf, failed, -⟩
  · exact absurd fits unfit
  · rw [failed]
    rcases (fallbackResponse response query filterAaaa buf.overflow).exec_write_cases with
      ⟨fits, -⟩ | ⟨-, again, out, failedAgain, -⟩
    · have short := (fitsBuffer_fallbackResponse_iff read _).mp fits
      omega
    · simp only [failedAgain]

theorem answered_of_fitsBuffer (fits : response.FitsBuffer) :
    Answered response query filterAaaa := by
  rcases response.exec_write_cases with ⟨-, after, ran, short⟩ | ⟨unfit, -⟩
  · rw [Answered, serializeWithFallback_eq, ran]
    exact ⟨response, after.filled, rfl, short, rfl⟩
  · exact absurd fits unfit

theorem answered_of_fallbackLength (read : QuestionsRead query.questions)
    (unfit : ¬ response.FitsBuffer) (short : query.fallbackLength ≤ bufSize) :
    Answered response query filterAaaa := by
  rcases response.exec_write_cases with ⟨fits, -⟩ | ⟨-, error, buf, failed, flag⟩
  · exact absurd fits unfit
  · rcases (fallbackResponse response query filterAaaa buf.overflow).exec_write_cases with
      ⟨-, out, ran, outShort⟩ | ⟨unfitAgain, -⟩
    · rw [Answered, serializeWithFallback_eq, failed]
      refine ⟨fallbackResponse response query filterAaaa buf.overflow, out.filled, by simp only [ran],
        outShort, ?_⟩
      obtain ⟨⟨after, parsed, -⟩, -⟩ := fromBuffer_write (encodable_fallbackResponse read)
        (by rw [fallbackResponse_questions]; exact read.canonical) ran
      refine ⟨_, after, parsed, ?_, fallbackResponse_questions, isBare_fallbackResponse.records_eq_nil,
        ?_, ?_⟩
      · change (fallbackResponse response query filterAaaa buf.overflow).header.id = _
        rw [fallbackResponse_header]
      · change (fallbackResponse response query filterAaaa buf.overflow).header.truncatedMessage = _
        rw [fallbackResponse_header, flag]
      · change (fallbackResponse response query filterAaaa buf.overflow).header.rescode = _
        rw [fallbackResponse_header]
        simp only [flag, decide_eq_true_eq]
    · exact absurd ((fitsBuffer_fallbackResponse_iff read _).mpr short) unfitAgain

end Answered

/-- A query that was read is answered as it should be iff the response, or the
questions of the query without pointers, fit into the buffer. -/
theorem answered_iff {buffer after : BytePacketBuffer} {query : DnsPacket}
    (parsed : exec fromBuffer buffer = (.ok query, after)) (response : DnsPacket)
    (filterAaaa : Bool) :
    Answered response query filterAaaa ↔
      response.FitsBuffer ∨ query.fallbackLength ≤ bufSize := by
  have read := questionsRead_of_fromBuffer parsed
  constructor
  · intro answered
    by_contra neither
    obtain ⟨unfit, long⟩ := not_or.mp neither
    obtain ⟨message, octets, serialized, -⟩ := answered
    rw [serializeWithFallback_eq_none read unfit (not_le.mp long)] at serialized
    cases serialized
  · rintro (fits | short)
    · exact answered_of_fitsBuffer fits
    · by_cases fits : response.FitsBuffer
      · exact answered_of_fitsBuffer fits
      · exact answered_of_fallbackLength read fits short

theorem answered_iff_sample :
    ∃ query after,
      exec fromBuffer (.fromBytes [0x12, 0x34, 1, 0, 0, 1, 0, 0, 0, 0, 0, 0, 0, 0, 1, 0, 1]) =
        (.ok query, after) ∧
      (Answered fullResponse query false ↔
        fullResponse.FitsBuffer ∨ query.fallbackLength ≤ bufSize) := by
  have ran : (exec fromBuffer
      (.fromBytes [0x12, 0x34, 1, 0, 0, 1, 0, 0, 0, 0, 0, 0, 0, 0, 1, 0, 1])).1 =
        .ok { header := { id := 0x1234, recursionDesired := true, questions := 1 }
              questions := [⟨[], .a⟩] } := by
    decide +kernel
  exact ⟨_, _, exec_eq_of_fst ran, answered_iff (exec_eq_of_fst ran) fullResponse false⟩

/-! ## A query without an answer -/

/-- Sixty questions with one name of 65 octets, all but the first by a pointer. -/
def longQuestions : List UInt8 :=
  [0x12, 0x34, 0x01, 0x00, 0, 60, 0, 0, 0, 0, 0, 0] ++
    (63 :: List.replicate 63 0x61) ++ [0, 0, 1, 0, 1] ++
    (List.replicate 59 [0xC0, 12, 0, 1, 0, 1]).flatten

theorem longQuestions_read :
    ∃ query after, exec fromBuffer (.fromBytes longQuestions) = (.ok query, after) ∧
      query.questions.length = 60 ∧ query.fallbackLength = 4152 := by
  have read : ((exec fromBuffer (.fromBytes longQuestions)).1.toOption.map fun query =>
      (query.questions.length, query.fallbackLength)) = some (60, 4152) := by
    decide +kernel
  obtain ⟨query, found, lengths⟩ := Option.map_eq_some_iff.mp read
  obtain ⟨questions, length⟩ := Prod.mk.inj lengths
  cases ran : exec fromBuffer (.fromBytes longQuestions) with
  | mk result after =>
      rw [ran] at found
      cases result with
      | error error => cases found
      | ok read =>
          cases found
          exact ⟨query, after, rfl, questions, length⟩

theorem not_all_answered :
    ¬ ∀ (message : List UInt8) (query : DnsPacket) (after : BytePacketBuffer),
      message.length ≤ bufSize → exec fromBuffer (.fromBytes message) = (.ok query, after) →
      query.questions ≠ [] → ∀ (response : DnsPacket) (filterAaaa : Bool),
        Answered response query filterAaaa := by
  intro all
  obtain ⟨query, after, parsed, questions, length⟩ := longQuestions_read
  have read := questionsRead_of_fromBuffer parsed
  have long : bufSize < query.fallbackLength := by
    rw [length]
    decide
  have unfit : ¬ (responseFrom query .noerror).FitsBuffer := by
    have bare : (responseFrom query .noerror).IsBare := ⟨rfl, rfl, rfl, by rintro opt ⟨⟩⟩
    rw [bare.fitsBuffer_iff (questionsWritable_of_read read)]
    change ¬ 12 + query.questionsLength + 0 ≤ 4096
    rw [fallbackLength] at length
    split at length <;> omega
  have nonempty : query.questions ≠ [] := by
    rintro noQuestions
    rw [noQuestions] at questions
    cases questions
  obtain ⟨message, octets, serialized, -⟩ :=
    all longQuestions query after (by decide +kernel) parsed nonempty (responseFrom query .noerror) false
  rw [serializeWithFallback_eq_none read unfit long] at serialized
  cases serialized

end DnsPacket

end Numa
