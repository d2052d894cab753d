import Mathlib.Data.Bool.AllAny
import Numa.Pipeline
import Numa.RecordCodec
import Numa.ScanAgreement
import Numa.Validator

/-!
# The types of records and of questions

`from_num` knows more types than `DnsRecord::read` takes apart.  A TXT or HTTPS
record is of type `UNKNOWN`, a question for it is not, and the two are never
equal.
-/

namespace Numa

open BytePacketBuffer

namespace QueryType

/-- The numbers of the variants that no record has. -/
def unparsed : List UInt16 :=
  [16, 29, 33, 35, 41, 64, 65]

/-- The type of the records with a number. -/
def ofRecord (num : UInt16) : QueryType :=
  if (fromNum num).isNative then fromNum num else unknown num

/-- Is this the type of some record? -/
def isRecordType : QueryType → Bool
  | unknown num => !(fromNum num).isNative
  | qtype => qtype.isNative

/-- The numbers that have a variant. -/
def named : List UInt16 :=
  [1, 2, 5, 6, 12, 15, 16, 28, 29, 33, 35, 41, 43, 46, 47, 48, 50, 64, 65]

theorem fromNum_of_not_named {num : UInt16} (notNamed : num ∉ named) :
    fromNum num = unknown num := by
  simp only [named, List.mem_cons, List.not_mem_nil, or_false, not_or] at notNamed
  simp [fromNum, notNamed]

theorem toNum_fromNum (num : UInt16) : (fromNum num).toNum = num := by
  by_cases isNamed : num ∈ named
  · have each : ∀ num ∈ named, (fromNum num).toNum = num :=
      List.all_iff_forall_prop.mp (by decide)
    exact each num isNamed
  · rw [fromNum_of_not_named isNamed, toNum]

theorem toNum_ofRecord (num : UInt16) : (ofRecord num).toNum = num := by
  by_cases native : (fromNum num).isNative = true
  · rw [ofRecord, if_pos native, toNum_fromNum]
  · rw [ofRecord, if_neg native, toNum]

theorem ofRecord_eq_fromNum_iff (num : UInt16) : ofRecord num = fromNum num ↔ num ∉ unparsed := by
  by_cases isNamed : num ∈ named
  · have each : ∀ num ∈ named, ofRecord num = fromNum num ↔ num ∉ unparsed :=
      List.all_iff_forall_prop.mp (by decide)
    exact each num isNamed
  · have known : ∀ other ∈ unparsed, other ∈ named := List.all_iff_forall_prop.mp (by decide)
    have notUnparsed : num ∉ unparsed := fun isUnparsed => isNamed (known num isUnparsed)
    have unnamed := fromNum_of_not_named isNamed
    simp [ofRecord, unnamed, notUnparsed]

theorem ofRecord_toNum_iff (qtype : QueryType) :
    ofRecord qtype.toNum = qtype ↔ qtype.isRecordType = true := by
  cases qtype with
  | unknown num =>
      by_cases native : (fromNum num).isNative = true
      · have different : fromNum num ≠ unknown num := by
          intro same
          rw [same] at native
          cases native
        simp [ofRecord, toNum, isRecordType, native, different]
      · simp [ofRecord, toNum, isRecordType, native]
  | _ => decide

end QueryType

/-! ## The type of a record that is read -/

/-- Every value that the operation returns has the property. -/
def Yields {α : Type} (action : BufferM α) (property : α → Prop) : Prop :=
  ∀ buffer value after, exec action buffer = (.ok value, after) → property value

section Yields

variable {α β : Type} {property : β → Prop}

theorem yields_pure {value : β} (holds : property value) :
    Yields (pure value) property := by
  intro buffer result after ran
  cases ran
  exact holds

theorem yields_bind {first : BufferM α} {next : α → BufferM β}
    (yields : ∀ value, Yields (next value) property) : Yields (first >>= next) property := by
  intro buffer result after ran
  obtain ⟨value, middle, -, ranNext⟩ := exec_bind_eq_ok.mp ran
  exact yields value middle result after ranNext

end Yields

theorem DnsRecord.yields_readRdata (domain : Text) (qtypeNum : UInt16) (ttl : UInt32)
    (dataLen : UInt16) (rdataStart : Nat) :
    Yields (readRdata domain qtypeNum ttl dataLen rdataStart)
      fun record => record.queryType = .ofRecord qtypeNum := by
  unfold readRdata
  cases isType : QueryType.fromNum qtypeNum
  all_goals
    simp only
    repeat refine yields_bind fun _ => ?_
    exact yields_pure (by simp [queryType, QueryType.ofRecord, isType, QueryType.isNative])

/-- The number before the class of the record at a position. -/
def wireType (wire : List UInt8) (start : Nat) : UInt16 :=
  match skipWireName wire start with
  | .ok pos => wireU16 wire pos
  | .error _ => 0

theorem DnsRecord.queryType_of_exec_read {buffer after : BytePacketBuffer} {record : DnsRecord}
    (ran : exec read buffer = (.ok record, after)) :
    record.queryType = .ofRecord (wireType buffer.buf buffer.pos) := by
  obtain ⟨domain, pos, -, skipped, -, ranData⟩ := exec_read_eq_ok.mp ran
  rw [wireType, skipped]
  exact yields_readRdata _ _ _ _ _ _ _ _ ranData

/-! ## The types in the answer section -/

/-- `DnsRecord::read` with the number of the type in the message. -/
def readTyped : BufferM (UInt16 × DnsRecord) := do
  let buffer ← get
  let record ← DnsRecord.read
  pure (wireType buffer.buf buffer.pos, record)

/-- The answers that `from_buffer` reads, with the numbers of their types. -/
def readTypedAnswers : BufferM (List (UInt16 × DnsRecord)) := do
  let header ← DnsHeader.read
  let _ ← readMany DnsQuestion.read header.questions.toNat
  readMany readTyped header.answers.toNat

/-- The numbers of the types of the answers in a message. -/
def answerTypes (wire : List UInt8) : List UInt16 :=
  match (exec readTypedAnswers (fromBytes wire)).1 with
  | .ok typed => typed.map Prod.fst
  | .error _ => []

theorem exists_typed_of_readMany {count : Nat} {buffer after : BytePacketBuffer}
    {records : List DnsRecord}
    (ran : exec (readMany DnsRecord.read count) buffer = (.ok records, after)) :
    ∃ typed, exec (readMany readTyped count) buffer = (.ok typed, after) ∧
      records.map DnsRecord.queryType = (typed.map Prod.fst).map .ofRecord := by
  induction count generalizing buffer records with
  | zero =>
      cases ran
      exact ⟨[], rfl, rfl⟩
  | succ count ih =>
      obtain ⟨record, middle, rest, first, ranRest, rfl⟩ := exec_readMany_succ_eq_ok.mp ran
      obtain ⟨typed, ranTyped, typesEq⟩ := ih ranRest
      have typedFirst : exec readTyped buffer =
          (.ok (wireType buffer.buf buffer.pos, record), middle) := by
        rw [readTyped, exec_get_bind, exec_bind_ok first, exec_pure]
      refine ⟨_, exec_readMany_succ_eq_ok.mpr ⟨_, _, typed, typedFirst, ranTyped, rfl⟩, ?_⟩
      rw [List.map_cons, List.map_cons, List.map_cons, typesEq,
        DnsRecord.queryType_of_exec_read first]

theorem map_queryType_answers {wire : List UInt8} {packet : DnsPacket} {after : BytePacketBuffer}
    (parsed : exec DnsPacket.fromBuffer (fromBytes wire) = (.ok packet, after)) :
    packet.answers.map DnsRecord.queryType = (answerTypes wire).map .ofRecord := by
  simp only [DnsPacket.fromBuffer, exec_bind_eq_ok] at parsed
  obtain ⟨header, _, ranHeader, questions, _, ranQuestions, answers, stop, ranAnswers, _, _, -, _,
    _, -, result⟩ := parsed
  cases result
  obtain ⟨typed, ranTyped, typesEq⟩ := exists_typed_of_readMany ranAnswers
  have ranAll : exec readTypedAnswers (fromBytes wire) = (.ok typed, stop) := by
    simp only [readTypedAnswers, exec_bind_eq_ok]
    exact ⟨header, _, ranHeader, questions, _, ranQuestions, ranTyped⟩
  rw [answerTypes, ranAll]
  exact typesEq

/-! ## When the types agree -/

/-- A record has the type of the question with its number unless no record has
it.  So the signatures of a set of records are found, and a record of the type
asked for is seen in a response, when that type is not one of these. -/
theorem queryType_agrees_iff {buffer after : BytePacketBuffer} {record : DnsRecord}
    (ran : exec DnsRecord.read buffer = (.ok record, after)) {wire : List UInt8}
    {packet : DnsPacket} {stop : BytePacketBuffer}
    (parsed : exec DnsPacket.fromBuffer (fromBytes wire) = (.ok packet, stop)) :
    ((record.queryType = .fromNum (wireType buffer.buf buffer.pos) ↔
        wireType buffer.buf buffer.pos ∉ QueryType.unparsed) ∧
      ∀ name sig,
        ((matchesRrset name record.queryType (.rrsig sig) = true ↔
          sig.domain.eqIgnoreAsciiCase name = true ∧
            sig.typeCovered = wireType buffer.buf buffer.pos) ↔
          (sig.domain.eqIgnoreAsciiCase name = true →
            sig.typeCovered = wireType buffer.buf buffer.pos →
              wireType buffer.buf buffer.pos ∉ QueryType.unparsed))) ∧
    ∀ qtype : QueryType,
      ((packet.answers.any (fun record => record.queryType == qtype) = true ↔
        qtype.toNum ∈ answerTypes wire) ↔
        (qtype.toNum ∈ answerTypes wire → qtype.isRecordType = true)) := by
  refine ⟨?_, fun qtype => ?_⟩
  · have typeEq := DnsRecord.queryType_of_exec_read ran
    generalize wireType buffer.buf buffer.pos = num at typeEq ⊢
    refine ⟨by rw [typeEq, QueryType.ofRecord_eq_fromNum_iff], fun name sig => ?_⟩
    have matches_iff : matchesRrset name record.queryType (.rrsig sig) = true ↔
        sig.domain.eqIgnoreAsciiCase name = true ∧
          QueryType.fromNum sig.typeCovered = .ofRecord num := by
      rw [matchesRrset, Bool.and_eq_true, beq_iff_eq, typeEq]
    rw [matches_iff]
    constructor
    · rintro agree owned rfl
      rw [← QueryType.ofRecord_eq_fromNum_iff]
      exact (agree.mpr ⟨owned, rfl⟩).2.symm
    · refine fun parsed => and_congr_right fun owned => ⟨fun same => ?_, ?_⟩
      · rw [← QueryType.toNum_fromNum sig.typeCovered, same, QueryType.toNum_ofRecord]
      · rintro rfl
        exact ((QueryType.ofRecord_eq_fromNum_iff _).mpr (parsed owned rfl)).symm
  · have typesEq := map_queryType_answers parsed
    have any_iff : packet.answers.any (fun record => record.queryType == qtype) = true ↔
        qtype.toNum ∈ answerTypes wire ∧ qtype.isRecordType = true := by
      have inMap : packet.answers.any (fun record => record.queryType == qtype) = true ↔
          qtype ∈ packet.answers.map DnsRecord.queryType := by
        simp only [List.any_eq_true, beq_iff_eq, List.mem_map]
      rw [inMap, typesEq, List.mem_map, ← QueryType.ofRecord_toNum_iff]
      constructor
      · rintro ⟨num, numMem, rfl⟩
        rw [QueryType.toNum_ofRecord]
        exact ⟨numMem, rfl⟩
      · rintro ⟨numMem, isOfRecord⟩
        exact ⟨_, numMem, isOfRecord⟩
    rw [any_iff]
    constructor
    · exact fun agree present => (agree.mpr present).2
    · exact fun known => ⟨And.left, fun present => ⟨present, known present⟩⟩

/-- An alias and a record of another type at its target. -/
def aliasWire (qtypeNum : UInt16) : List UInt8 :=
  [0, 0, 0x81, 0x80, 0, 0, 0, 2, 0, 0, 0, 0] ++
    [1, 97, 0, 0, 5, 0, 1, 0, 0, 0, 60, 0, 3, 1, 98, 0] ++
    [1, 98, 0] ++ beBytes16 qtypeNum ++ [0, 1, 0, 0, 0, 60, 0, 4, 3, 104, 105, 33]

def aliasPacket (target : DnsRecord) : DnsPacket where
  header := { recursionDesired := true, response := true, recursionAvailable := true, answers := 2 }
  answers := [.cname (text "a") (text "b") 60, target]

/-- The buffer with the alias at its address record. -/
def aliasBuffer : BytePacketBuffer :=
  { fromBytes (aliasWire 1) with pos := 28 }

/-- The address behind the alias is read with its type and is seen. -/
theorem queryType_agrees_iff_aliasWire :
    (aliasPacket (.a (text "b") (.new 3 104 105 33) 60)).answers.any
      (fun record => record.queryType == .a) = true := by
  have ran : (exec DnsRecord.read aliasBuffer).1 = .ok (.a (text "b") (.new 3 104 105 33) 60) := by
    decide +kernel
  have parsed : (exec DnsPacket.fromBuffer (fromBytes (aliasWire 1))).1 =
      .ok (aliasPacket (.a (text "b") (.new 3 104 105 33) 60)) := by
    decide +kernel
  have agrees := (queryType_agrees_iff (exec_eq_of_fst ran) (exec_eq_of_fst parsed)).2 .a
  exact (agrees.mpr fun _ => rfl).mpr (by decide +kernel)

/-- The TXT record behind the alias is there and is not seen, so the alias is
chased. -/
theorem aliasWire_text_chased :
    (exec DnsPacket.fromBuffer (fromBytes (aliasWire 16))).1 =
        .ok (aliasPacket (.unknown (text "b") 16 [3, 104, 105, 33] 60)) ∧
      QueryType.fromNum 16 = .txt ∧ QueryType.txt.toNum ∈ answerTypes (aliasWire 16) ∧
      (aliasPacket (.unknown (text "b") 16 [3, 104, 105, 33] 60)).answers.any
        (fun record => record.queryType == .txt) = false ∧
      chaseTarget .txt (text "a") (aliasPacket (.unknown (text "b") 16 [3, 104, 105, 33] 60)) =
        some (text "b") := by
  refine ⟨?_, ?_, ?_, ?_, ?_⟩ <;> decide +kernel

end Numa
