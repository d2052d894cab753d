import Numa.PacketRoundTrip
import Numa.ScanAgreement

/-!
# What the cache gives back

A packet that the cache has serialized is found again by a lookup: patching the
octets of a packet gives the octets of the packet with the new identifier and
the new TTL in every record, and these read back.  The OPT record, whose TTL
field holds flags, is passed over.
-/

namespace Numa

open BytePacketBuffer

/-! ## The scan of written octets -/

section Scan

variable {wire : List UInt8} {pos : Nat} {owner : List (List UInt8)} {qtype : UInt16}
  {ttl : UInt32} {rdata : List UInt8}

/-- A name that is ahead in the buffer is skipped as a whole. -/
theorem skipWireName_of_ahead (fits : wire.length ≤ bufSize)
    (areLabels : ∀ label ∈ owner, IsWireLabel label)
    (ahead : Ahead (fromBytes wire) pos (wireName owner))
    (inside : pos + (wireName owner).length ≤ wire.length) :
    skipWireName wire pos = .ok (pos + (wireName owner).length) := by
  have ran := readsAt_readQname areLabels ((fromBytes wire).movedTo pos) rfl
    ⟨ahead.inside, ahead.isPrefix⟩
  obtain ⟨stop, skipped, same⟩ := exec_readQname_skip ran
  have stopEq : pos + (wireName owner).length = stop := congrArg BytePacketBuffer.pos same
  rw [stopEq] at inside ⊢
  exact skipWireName_of_fromBytes fits skipped inside

theorem wireU16_of_ahead (fits : wire.length ≤ bufSize) {value : UInt16}
    (ahead : Ahead (fromBytes wire) pos (beBytes16 value)) : wireU16 wire pos = value := by
  have ran := readsAt_readU16 value ((fromBytes wire).movedTo pos) rfl
    ⟨ahead.inside, ahead.isPrefix⟩
  rw [(exec_readU16_eq_ok.mp ran).2.1]
  exact (wireU16_fromBytes fits pos).symm

theorem length_recordOctets :
    (recordOctets (wireName owner) qtype ttl rdata).length =
      (wireName owner).length + 10 + rdata.length := by
  simp only [recordOctets, List.length_append, beBytes16, beBytes32, List.length_cons,
    List.length_nil]
  omega

/-- A record whose name is skipped and whose length is right spans its octets. -/
theorem recordSpan_of_skipped (fits : wire.length ≤ bufSize)
    (named : skipWireName wire pos = .ok (pos + (wireName owner).length))
    (lengthEq : wireU16 wire (pos + (wireName owner).length + 8) = rdata.length.toUInt16)
    (inside : pos + (recordOctets (wireName owner) qtype ttl rdata).length ≤ wire.length) :
    RecordSpan wire pos (pos + (wireName owner).length)
      (pos + (recordOctets (wireName owner) qtype ttl rdata).length) := by
  have nonempty : (wireName owner).length ≠ 0 := by simp [wireName]
  have size : bufSize < 2 ^ 16 := by decide
  rw [length_recordOctets] at inside ⊢
  have short : rdata.length < 2 ^ 16 := by omega
  refine ⟨named, by omega, ?_, inside⟩
  rw [lengthEq, DnsRecord.toNat_length_toUInt16 short]
  omega

/-- A written record spans its octets. -/
theorem recordSpan_of_ahead (fits : wire.length ≤ bufSize)
    (areLabels : ∀ label ∈ owner, IsWireLabel label)
    (ahead : Ahead (fromBytes wire) pos (recordOctets (wireName owner) qtype ttl rdata))
    (inside : pos + (recordOctets (wireName owner) qtype ttl rdata).length ≤ wire.length) :
    RecordSpan wire pos (pos + (wireName owner).length)
      (pos + (recordOctets (wireName owner) qtype ttl rdata).length) := by
  have named := skipWireName_of_ahead fits areLabels ahead.left (by
    rw [length_recordOctets] at inside
    omega)
  exact recordSpan_of_skipped fits named (wireU16_of_ahead fits ahead.right.right.right.right.left)
    inside

theorem scanRecord_of_ahead {record : DnsRecord} (fits : wire.length ≤ bufSize)
    (coded : record.Coded owner rdata)
    (notOpt : record.domain = [] → record.queryType.toNum ≠ 41)
    (ahead : Ahead (fromBytes wire) pos
      (recordOctets (wireName owner) record.queryType.toNum record.ttl rdata))
    (inside : pos + (recordOctets (wireName owner) record.queryType.toNum record.ttl
      rdata).length ≤ wire.length) :
    scanRecord wire pos = .ok ([pos + (wireName owner).length + 4],
      pos + (recordOctets (wireName owner) record.queryType.toNum record.ttl rdata).length) := by
  have span := recordSpan_of_ahead fits coded.areLabels ahead inside
  have peeked : exec (DnsPacket.isOptAt ((fromBytes wire).movedTo pos).pos)
      ((fromBytes wire).movedTo pos) = (.ok false, (fromBytes wire).movedTo pos) :=
    exec_isOptAt ⟨owner, rdata, rfl, coded⟩ notOpt ⟨ahead.inside, ahead.isPrefix⟩
  obtain ⟨-, isRecord⟩ := exec_isOptAt_eq_ok peeked
  rw [movedTo_buf, movedTo_pos, isOptRecord_fromBytes fits span] at isRecord
  rw [span.scanRecord_eq, ← isRecord]
  rfl

/-- A written OPT record spans its octets, behind the root label. -/
theorem recordSpan_of_ahead_edns {edns : EdnsOpt} (fits : wire.length ≤ bufSize)
    (ahead : Ahead (fromBytes wire) pos edns.octets)
    (inside : pos + edns.octets.length ≤ wire.length) :
    RecordSpan wire pos (pos + 1) (pos + edns.octets.length) := by
  have root : wireName [] = [0] := rfl
  have nameAhead : Ahead (fromBytes wire) pos (wireName []) := root ▸ ahead.left
  have lengthEq : edns.octets.length = 11 + edns.options.length := by
    simp only [EdnsOpt.octets, List.length_append, beBytes16, beBytes32, List.length_cons,
      List.length_nil]
    omega
  have optionsEq : wireU16 wire (pos + 1 + 8) = edns.options.length.toUInt16 :=
    wireU16_of_ahead fits ahead.right.right.right.right.left
  have size : bufSize < 2 ^ 16 := by decide
  rw [lengthEq] at inside ⊢
  have short : edns.options.length < 2 ^ 16 := by omega
  refine ⟨skipWireName_of_ahead fits (by simp) nameAhead ?_, by omega, ?_, inside⟩
  · simp only [root, List.length_singleton]
    omega
  · rw [optionsEq, DnsRecord.toNat_length_toUInt16 short]
    omega

/-- The OPT record is passed over. -/
theorem scanRecord_of_ahead_edns {edns : EdnsOpt} (fits : wire.length ≤ bufSize)
    (ahead : Ahead (fromBytes wire) pos edns.octets)
    (inside : pos + edns.octets.length ≤ wire.length) :
    scanRecord wire pos = .ok ([], pos + edns.octets.length) := by
  have span := recordSpan_of_ahead_edns fits ahead inside
  have peeked : exec (DnsPacket.isOptAt ((fromBytes wire).movedTo pos).pos)
      ((fromBytes wire).movedTo pos) = (.ok true, (fromBytes wire).movedTo pos) :=
    exec_isOptAt_edns ⟨ahead.inside, ahead.isPrefix⟩
  obtain ⟨-, isOpt⟩ := exec_isOptAt_eq_ok peeked
  rw [movedTo_buf, movedTo_pos, isOptRecord_fromBytes fits span] at isOpt
  rw [span.scanRecord_eq, ← isOpt]
  rfl

end Scan

/-! ## Records with their octets -/

/-- The wire form of some records whatever their TTLs. -/
structure Coding where
  owner : DnsRecord → List (List UInt8)
  rdata : DnsRecord → List UInt8
  owner_withTtl : ∀ record ttl, owner (record.withTtl ttl) = owner record
  rdata_withTtl : ∀ record ttl, rdata (record.withTtl ttl) = rdata record

namespace Coding

variable (coding : Coding)

def encode (record : DnsRecord) : List UInt8 :=
  recordOctets (wireName (coding.owner record)) record.queryType.toNum record.ttl
    (coding.rdata record)

/-- The positions of the TTL fields of records that follow each other. -/
def ttlPositions : Nat → List DnsRecord → List Nat
  | _, [] => []
  | start, record :: records =>
    (start + (wireName (coding.owner record)).length + 4) ::
      ttlPositions (start + (coding.encode record).length) records

/-- The records can be read and scanned. -/
structure Covers (records : List DnsRecord) : Prop where
  coded : ∀ record ∈ records, ∀ ttl,
    (record.withTtl ttl).Coded (coding.owner record) (coding.rdata record)
  notOpt : ∀ record ∈ records, record.domain = [] → record.queryType.toNum ≠ 41

variable {coding}

theorem Covers.mono {records more : List DnsRecord} (covers : coding.Covers more)
    (subset : ∀ record ∈ records, record ∈ more) : coding.Covers records where
  coded := fun record recordMem => covers.coded record (subset record recordMem)
  notOpt := fun record recordMem => covers.notOpt record (subset record recordMem)

theorem Covers.codedAs {records : List DnsRecord} (covers : coding.Covers records)
    {record : DnsRecord} (recordMem : record ∈ records) (ttl : UInt32) :
    (record.withTtl ttl).CodedAs (coding.encode (record.withTtl ttl)) := by
  refine ⟨_, _, rfl, ?_⟩
  rw [coding.owner_withTtl, coding.rdata_withTtl]
  exact covers.coded record recordMem ttl

theorem scanRecords_of_ahead {wire : List UInt8} {pos : Nat} {records : List DnsRecord}
    (fits : wire.length ≤ bufSize) (covers : coding.Covers records)
    (ahead : Ahead (fromBytes wire) pos (records.flatMap coding.encode))
    (inside : pos + (records.flatMap coding.encode).length ≤ wire.length) :
    scanRecords wire records.length pos =
      .ok (coding.ttlPositions pos records, pos + (records.flatMap coding.encode).length) := by
  induction records generalizing pos with
  | nil => rfl
  | cons record records ih =>
      rw [List.flatMap_cons] at ahead inside ⊢
      rw [List.length_append] at inside ⊢
      have coded := covers.coded record (by simp) record.ttl
      rw [DnsRecord.withTtl_ttl] at coded
      have first := scanRecord_of_ahead fits coded (covers.notOpt record (by simp)) ahead.left
        (by change pos + (coding.encode record).length ≤ wire.length; omega)
      have rest := ih (covers.mono fun other otherMem => by simp [otherMem]) ahead.right (by omega)
      rw [Nat.add_assoc] at rest
      exact scanRecords_succ_eq_ok.mpr ⟨_, _, _, first, rest, rfl⟩

theorem ttlPositions_append (start : Nat) (first second : List DnsRecord) :
    coding.ttlPositions start (first ++ second) =
      coding.ttlPositions start first ++
        coding.ttlPositions (start + (first.flatMap coding.encode).length) second := by
  induction first generalizing start with
  | nil => rfl
  | cons record first ih =>
      rw [List.cons_append, ttlPositions, ttlPositions, ih, List.flatMap_cons, List.length_append,
        List.cons_append, Nat.add_assoc start (coding.encode record).length]

theorem setOctets_append (before after : List UInt8) {old new : List UInt8}
    (sameLength : old.length = new.length) :
    setOctets before.length new (before ++ old ++ after) = some (before ++ new ++ after) := by
  induction new generalizing before old with
  | nil =>
      obtain rfl := List.eq_nil_of_length_eq_zero sameLength
      rfl
  | cons octet new ih =>
      obtain ⟨first, old, rfl⟩ := List.exists_cons_of_length_eq_add_one sameLength
      have oldLength : old.length = new.length := by simpa using sameLength
      have later := ih (before ++ [octet]) oldLength
      rw [setOctets, if_pos (by simp)]
      simp only [List.length_append, List.length_singleton, List.append_assoc,
        List.cons_append, List.nil_append] at later ⊢
      rw [List.set_append_right _ _ (le_refl _), Nat.sub_self, List.set_cons_zero]
      exact later

/-- The octets of a record with another TTL. -/
theorem setOctets_encode (coding : Coding) (before after : List UInt8) (record : DnsRecord) (newTtl : UInt32) :
    setOctets (before.length + (wireName (coding.owner record)).length + 4) (beBytes32 newTtl)
        (before ++ coding.encode record ++ after) =
      some (before ++ coding.encode (record.withTtl newTtl) ++ after) := by
  have patched := setOctets_append
    (before ++ wireName (coding.owner record) ++ beBytes16 record.queryType.toNum ++ beBytes16 1)
    (beBytes16 (coding.rdata record).length.toUInt16 ++ coding.rdata record ++ after)
    (show (beBytes32 record.ttl).length = (beBytes32 newTtl).length from rfl)
  have two : ∀ value, (beBytes16 value).length = 2 := fun _ => rfl
  simp only [List.length_append, two, List.append_assoc] at patched
  simp only [encode, recordOctets, coding.owner_withTtl, coding.rdata_withTtl,
    DnsRecord.queryType_withTtl, DnsRecord.ttl_withTtl, List.append_assoc]
  exact patched

/-- The octets of records with another TTL. -/
theorem patchTtls_encode (before after : List UInt8) (records : List DnsRecord)
    (newTtl : UInt32) :
    patchTtls newTtl (coding.ttlPositions before.length records)
        (before ++ records.flatMap coding.encode ++ after) =
      some (before ++ (records.map (DnsRecord.withTtl newTtl)).flatMap coding.encode ++
        after) := by
  induction records generalizing before with
  | nil => rfl
  | cons record records ih =>
      have first := setOctets_encode coding before
        (records.flatMap coding.encode ++ after) record newTtl
      have sameLength : (coding.encode (record.withTtl newTtl)).length =
          (coding.encode record).length := by
        simp only [encode, length_recordOctets, coding.owner_withTtl, coding.rdata_withTtl]
      have rest := ih (before ++ coding.encode (record.withTtl newTtl))
      rw [List.length_append, sameLength] at rest
      rw [ttlPositions, patchTtls, List.flatMap_cons, List.map_cons, List.flatMap_cons]
      simp only [List.append_assoc] at first rest ⊢
      rw [first]
      exact rest

theorem length_ttlPositions (start : Nat) (records : List DnsRecord) :
    (coding.ttlPositions start records).length = records.length := by
  induction records generalizing start with
  | nil => rfl
  | cons record records ih => rw [ttlPositions, List.length_cons, List.length_cons, ih]

/-- Every record with a wire form for all TTLs has it in some coding. -/
theorem exists_coding : ∃ coding : Coding, ∀ record : DnsRecord,
    (∃ owner rdata, ∀ ttl, (record.withTtl ttl).Coded owner rdata) →
      ∀ ttl, (record.withTtl ttl).Coded (coding.owner record) (coding.rdata record) := by
  have total : ∀ record : DnsRecord, ∃ code : List (List UInt8) × List UInt8,
      (∃ owner rdata, ∀ ttl, (record.withTtl ttl).Coded owner rdata) →
        ∀ ttl, (record.withTtl ttl).Coded code.1 code.2 := by
    intro record
    by_cases codable : ∃ owner rdata, ∀ ttl, (record.withTtl ttl).Coded owner rdata
    · obtain ⟨owner, rdata, coded⟩ := codable
      exact ⟨(owner, rdata), fun _ => coded⟩
    · exact ⟨([], []), fun isCodable => absurd isCodable codable⟩
  choose code coded using total
  refine ⟨⟨fun record => (code (record.withTtl 0)).1, fun record => (code (record.withTtl 0)).2,
    fun record ttl => by rw [DnsRecord.withTtl_withTtl],
    fun record ttl => by rw [DnsRecord.withTtl_withTtl]⟩, ?_⟩
  rintro record ⟨owner, rdata, isCoded⟩ ttl
  have normal := coded (record.withTtl 0) ⟨owner, rdata, fun other => by
    rw [DnsRecord.withTtl_withTtl]
    exact isCoded other⟩ ttl
  rwa [DnsRecord.withTtl_withTtl] at normal

end Coding

/-! ## The octets of a packet -/

theorem DnsRecord.names_withTtl (ttl : UInt32) (record : DnsRecord) :
    (record.withTtl ttl).names = record.names := by
  cases record <;> rfl

theorem DnsRecord.FieldsFit.withTtl {record : DnsRecord} {ttl : UInt32}
    (fits : record.FieldsFit) : (record.withTtl ttl).FieldsFit := by
  cases record <;> exact fits

theorem skipQuestions_of_fromBytes {wire : List UInt8} {count start next : Nat}
    (fits : wire.length ≤ bufSize)
    (skipped : skipQuestions (fromBytes wire).buf count start = .ok next)
    (inside : next ≤ wire.length) : skipQuestions wire count start = .ok next := by
  induction count generalizing start with
  | zero =>
      cases skipped
      rfl
  | succ count ih =>
      obtain ⟨pos, named, -, later⟩ := skipQuestions_succ_eq_ok.mp skipped
      have := skipQuestions_ge later
      exact skipQuestions_succ_eq_ok.mpr ⟨pos,
        skipWireName_of_fromBytes fits named (by omega), by omega, ih later⟩

namespace DnsPacket

variable {packet : DnsPacket} {encodeQuestion : DnsQuestion → List UInt8} {coding : Coding}

/-- The octets behind the identifier. -/
def restOctets (encodeQuestion : DnsQuestion → List UInt8) (packet : DnsPacket) : List UInt8 :=
  [packet.countedHeader.firstFlags] ++ ([packet.countedHeader.secondFlags] ++
    (beBytes16 packet.countedHeader.questions ++ (beBytes16 packet.countedHeader.answers ++
      (beBytes16 packet.countedHeader.authoritativeEntries ++
        (beBytes16 packet.countedHeader.resourceEntries ++
          packet.questions.flatMap encodeQuestion)))))

theorem octets_eq (encode : DnsRecord → List UInt8) :
    packet.octets encodeQuestion encode =
      beBytes16 packet.header.id ++ packet.restOctets encodeQuestion ++
        packet.records.flatMap encode ++ ednsOctets packet.edns := by
  simp only [octets, restOctets, DnsHeader.octets, records, List.flatMap_append, List.append_assoc]
  rfl

theorem length_restOctets :
    (packet.restOctets encodeQuestion).length =
      10 + (packet.questions.flatMap encodeQuestion).length := by
  have two : ∀ value, (beBytes16 value).length = 2 := fun _ => rfl
  simp only [restOctets, List.length_append, List.length_singleton, two]
  omega

theorem length_header (header : DnsHeader) : header.octets.length = 12 := rfl

/-- The counts in a written header. -/
theorem wireU16_counts {wire : List UInt8} {header : DnsHeader} (fits : wire.length ≤ bufSize)
    (ahead : Ahead (fromBytes wire) 0 header.octets) :
    wireU16 wire 4 = header.questions ∧ wireU16 wire 6 = header.answers ∧
      wireU16 wire 8 = header.authoritativeEntries ∧ wireU16 wire 10 = header.resourceEntries :=
  ⟨wireU16_of_ahead fits ahead.right.right.right.left,
    wireU16_of_ahead fits ahead.right.right.right.right.left,
    wireU16_of_ahead fits ahead.right.right.right.right.right.left,
    wireU16_of_ahead fits ahead.right.right.right.right.right.right⟩

/-- The questions of a packet are skipped. -/
theorem skipQuestions_of_ahead {wire : List UInt8} {start : Nat} {questions : List DnsQuestion}
    (fits : wire.length ≤ bufSize)
    (questionsCoded : ∀ question ∈ questions, question.CodedAs (encodeQuestion question))
    (ahead : Ahead (fromBytes wire) start (questions.flatMap encodeQuestion))
    (inside : start + (questions.flatMap encodeQuestion).length ≤ wire.length) :
    skipQuestions wire questions.length start =
      .ok (start + (questions.flatMap encodeQuestion).length) := by
  have ran := readsAt_readMany (fun question questionMem =>
    (questionsCoded question questionMem).reads) ((fromBytes wire).movedTo start) rfl
      ⟨ahead.inside, ahead.isPrefix⟩
  obtain ⟨stop, skipped, same⟩ := exec_readQuestions_eq_ok ran
  have stopEq : start + (questions.flatMap encodeQuestion).length = stop :=
    congrArg BytePacketBuffer.pos same
  rw [stopEq] at inside ⊢
  exact skipQuestions_of_fromBytes fits skipped inside

/-- The additional section of a packet is scanned. -/
theorem scanRecords_of_ahead_edns {wire : List UInt8} {start : Nat} {resources : List DnsRecord}
    {edns : Option EdnsOpt} (fits : wire.length ≤ bufSize) (covers : coding.Covers resources)
    (ahead : Ahead (fromBytes wire) start (resources.flatMap coding.encode ++ ednsOctets edns))
    (inside : start + (resources.flatMap coding.encode ++ ednsOctets edns).length ≤ wire.length) :
    ∃ last, scanRecords wire (resources.length + edns.toList.length) start =
      .ok (coding.ttlPositions start resources, last) := by
  rw [List.length_append] at inside
  have plain := Coding.scanRecords_of_ahead fits covers ahead.left (by omega)
  cases edns with
  | none => exact ⟨_, plain⟩
  | some opt =>
      have skipped := scanRecord_of_ahead_edns fits ahead.right (by
        change _ + (ednsOctets (some opt)).length ≤ wire.length
        omega)
      have one := scanRecords_succ_eq_ok.mpr
        ⟨_, _, [], skipped, (rfl : scanRecords wire 0 _ = _), rfl⟩
      have all := scanRecords_append plain one
      rw [List.append_nil, List.append_nil] at all
      exact ⟨_, all⟩

/-- The scan of the octets of a packet. -/
theorem scanTtlOffsets_octets
    (questionsCoded : ∀ question ∈ packet.questions, question.CodedAs (encodeQuestion question))
    (covers : coding.Covers packet.records)
    (fits : (packet.octets encodeQuestion coding.encode).length ≤ bufSize) :
    scanTtlOffsets (packet.octets encodeQuestion coding.encode) =
      .ok ⟨coding.ttlPositions (12 + (packet.questions.flatMap encodeQuestion).length)
        packet.records, packet.answers.length⟩ := by
  have coded : ∀ record ∈ packet.records, record.CodedAs (coding.encode record) := by
    intro record recordMem
    have isCoded := covers.codedAs recordMem record.ttl
    rwa [DnsRecord.withTtl_ttl] at isCoded
  obtain ⟨questionCount, answerCount, authorityCount, resourceCount⟩ :=
    toNat_counts questionsCoded coded fits
  have ahead : Ahead (fromBytes (packet.octets encodeQuestion coding.encode)) 0
      (packet.octets encodeQuestion coding.encode) := ahead_fromBytes fits
  have lengthEq : (packet.octets encodeQuestion coding.encode).length =
      12 + ((packet.questions.flatMap encodeQuestion).length +
        ((packet.answers.flatMap coding.encode).length +
          ((packet.authorities.flatMap coding.encode).length +
            ((packet.resources.flatMap coding.encode).length +
              (ednsOctets packet.edns).length)))) := by
    simp only [octets, List.length_append, length_header]
  have header : Ahead _ 0 packet.countedHeader.octets := ahead.left
  have sections : Ahead (fromBytes (packet.octets encodeQuestion coding.encode)) 12
      (packet.questions.flatMap encodeQuestion ++ (packet.answers.flatMap coding.encode ++
        (packet.authorities.flatMap coding.encode ++
          (packet.resources.flatMap coding.encode ++ ednsOctets packet.edns)))) := ahead.right
  generalize packet.octets encodeQuestion coding.encode = wire at fits header sections lengthEq ⊢
  obtain ⟨questionsEq, answersEq, authoritiesEq, resourcesEq⟩ := wireU16_counts fits header
  have inAnswers := covers.mono fun _ => mem_records_of_mem_answers
  have inAuthorities := covers.mono fun _ => mem_records_of_mem_authorities
  have inResources := covers.mono fun _ => mem_records_of_mem_resources
  have questionsScan := skipQuestions_of_ahead fits questionsCoded sections.left (by omega)
  have answersScan := Coding.scanRecords_of_ahead fits inAnswers sections.right.left (by omega)
  have authoritiesScan :=
    Coding.scanRecords_of_ahead fits inAuthorities sections.right.right.left (by omega)
  obtain ⟨last, resourcesScan⟩ := scanRecords_of_ahead_edns fits inResources
    sections.right.right.right (by rw [List.length_append]; omega)
  rw [← questionCount, ← questionsEq] at questionsScan
  rw [← answerCount, ← answersEq] at answersScan
  rw [← authorityCount, ← authoritiesEq] at authoritiesScan
  rw [← resourceCount, ← resourcesEq] at resourcesScan
  refine scanTtlOffsets_eq_ok_iff.mpr ⟨_, _, _, _, _, _, last,
    ⟨by omega, questionsScan, answersScan, authoritiesScan, resourcesScan⟩, ?_⟩
  rw [Coding.length_ttlPositions, records, Coding.ttlPositions_append, Coding.ttlPositions_append,
    List.flatMap_append, List.length_append]
  rw [← Nat.add_assoc]

/-! ### With another identifier and TTL -/

variable {newId : UInt16} {ttl : UInt32}

theorem records_patch :
    (packet.patch newId ttl).records = packet.records.map (DnsRecord.withTtl ttl) := by
  simp only [records, patch, List.map_append]

theorem countedHeader_patch :
    (packet.patch newId ttl).countedHeader = { packet.countedHeader with id := newId } := by
  simp only [countedHeader, patch, List.length_map]
  rfl

/-- The patches turn the octets of a packet into those of the patched packet. -/
theorem patchWire_octets (answerCount : Nat) :
    patchWire newId ttl
        ⟨coding.ttlPositions (12 + (packet.questions.flatMap encodeQuestion).length)
          packet.records, answerCount⟩ (packet.octets encodeQuestion coding.encode) =
      some ((packet.patch newId ttl).octets encodeQuestion coding.encode) := by
  have two : ∀ value, (beBytes16 value).length = 2 := fun _ => rfl
  have rest : (packet.patch newId ttl).restOctets encodeQuestion =
      packet.restOctets encodeQuestion := by
    rw [restOctets, countedHeader_patch]
    rfl
  have start : 12 + (packet.questions.flatMap encodeQuestion).length =
      (beBytes16 newId ++ packet.restOctets encodeQuestion).length := by
    rw [List.length_append, length_restOctets, two]
    omega
  have idPatched := Coding.setOctets_append [] (packet.restOctets encodeQuestion ++
    (packet.records.flatMap coding.encode ++ ednsOctets packet.edns))
      (show (beBytes16 packet.header.id).length = (beBytes16 newId).length from rfl)
  simp only [List.length_nil, List.nil_append] at idPatched
  rw [octets_eq, octets_eq, rest, records_patch, patchWire, patchId, List.append_assoc,
    List.append_assoc, idPatched, ← List.append_assoc, ← List.append_assoc, start]
  exact Coding.patchTtls_encode _ _ _ _

theorem Encodable.patch (encodable : packet.Encodable) :
    (packet.patch newId ttl).Encodable where
  names := by
    intro name nameMem
    apply encodable.names name
    rw [DnsPacket.names, records_patch, List.flatMap_map] at nameMem
    simp only [DnsRecord.names_withTtl] at nameMem
    exact nameMem
  opcode := encodable.opcode
  fields := by
    intro record recordMem
    rw [records_patch] at recordMem
    obtain ⟨original, originalMem, rfl⟩ := List.mem_map.mp recordMem
    exact (encodable.fields original originalMem).withTtl
  noOpt := by
    intro record recordMem
    obtain ⟨original, originalMem, rfl⟩ := List.mem_map.mp recordMem
    simpa using encodable.noOpt original originalMem

theorem length_octets_patch :
    ((packet.patch newId ttl).octets encodeQuestion coding.encode).length =
      (packet.octets encodeQuestion coding.encode).length := by
  have sameLength : ∀ records : List DnsRecord,
      ((records.map (DnsRecord.withTtl ttl)).flatMap coding.encode).length =
        (records.flatMap coding.encode).length := by
    intro records
    induction records with
    | nil => rfl
    | cons record records ih =>
        rw [List.map_cons, List.flatMap_cons, List.flatMap_cons, List.length_append,
          List.length_append, ih]
        simp only [Coding.encode, length_recordOctets, coding.owner_withTtl,
          coding.rdata_withTtl]
  simp only [octets, patch, List.length_append, length_header, sameLength]

/-- The patched octets read back. -/
theorem readsAt_patch
    (questionsCoded : ∀ question ∈ packet.questions, question.CodedAs (encodeQuestion question))
    (covers : coding.Covers packet.records) (encodable : packet.Encodable)
    (fits : (packet.octets encodeQuestion coding.encode).length ≤ bufSize) :
    ReadsAt 0 fromBuffer ((packet.patch newId ttl).octets encodeQuestion coding.encode)
      { packet.patch newId ttl with header := { packet.countedHeader with id := newId } } := by
  have headerEq : { packet.countedHeader with id := newId } =
      (packet.patch newId ttl).countedHeader := countedHeader_patch.symm
  rw [headerEq]
  refine readsAt_fromBuffer questionsCoded ?_ encodable.patch ?_
  · intro record recordMem
    rw [records_patch] at recordMem
    obtain ⟨original, originalMem, rfl⟩ := List.mem_map.mp recordMem
    exact covers.codedAs originalMem ttl
  · rwa [length_octets_patch]

/-- What a successful write leaves in the buffer. -/
theorem exists_octets_of_write {buffer : BytePacketBuffer} (encodable : packet.Encodable)
    (notOpt : ∀ record ∈ packet.records, record.domain = [] → record.queryType.toNum ≠ 41)
    (canonical : ∀ question ∈ packet.questions,
      QueryType.fromNum question.qtype.toNum = question.qtype)
    (written : exec packet.write .new = (.ok (), buffer)) :
    ∃ (encodeQuestion : DnsQuestion → List UInt8) (coding : Coding),
      (∀ question ∈ packet.questions, question.CodedAs (encodeQuestion question)) ∧
        coding.Covers packet.records ∧
        buffer.filled = packet.octets encodeQuestion coding.encode ∧
        (packet.octets encodeQuestion coding.encode).length ≤ bufSize := by
  have exists_question : ∀ question ∈ packet.questions, ∃ octets, question.CodedAs octets :=
    fun question questionMem => DnsQuestion.exists_codedAs
      (encodable.names _ (List.mem_append_left _ (List.mem_map_of_mem questionMem)))
      (canonical question questionMem)
  choose! encodeQuestion questionsCoded using exists_question
  obtain ⟨coding, isCoding⟩ := Coding.exists_coding
  have covers : coding.Covers packet.records := by
    refine ⟨fun record recordMem ttl => isCoding record ?_ ttl, notOpt⟩
    refine DnsRecord.exists_coded_withTtl (fun name nameMem => ?_)
      (encodable.fields record recordMem)
    exact encodable.names name (List.mem_append_right _
      (List.mem_flatMap.mpr ⟨record, recordMem, nameMem⟩))
  have coded : ∀ record ∈ packet.records, record.CodedAs (coding.encode record) := by
    intro record recordMem
    have isCoded := covers.codedAs recordMem record.ttl
    rwa [DnsRecord.withTtl_ttl] at isCoded
  obtain ⟨fits, filledEq, -⟩ := filled_of_write questionsCoded coded written
  exact ⟨encodeQuestion, coding, questionsCoded, covers, filledEq, fits⟩

end DnsPacket

/-! ## What a lookup returns -/

namespace DnsCache

/-- The packet that a lookup serves: the one written, with the identifier of the
query, and one TTL in every record. -/
def served (packet : DnsPacket) (newId : UInt16) (ttl : UInt32) : DnsPacket :=
  { packet.patch newId ttl with header := { packet.countedHeader with id := newId } }

theorem entry_insertWire_ordered {cache : DnsCache} (ordered : cache.minTtl ≤ cache.maxTtl)
    (now : Nat) (domain : Text) (qtype : QueryType) {wire : Wire} (status : DnssecStatus)
    (scans : wire.scans = true) :
    ∃ after, cache.insertWire now domain qtype wire status = some after ∧
      after.entry domain qtype = some (cache.newEntry now wire status) := by
  refine ⟨_, insertWire_eq ordered now domain qtype wire status, ?_⟩
  rw [if_pos scans, entry_withEntry, if_pos rfl]

theorem exists_remaining {entry : CacheEntry} {elapsed : Nat}
    (inWindow : elapsed < entry.ttl + staleWindow) :
    ∃ ttl freshness, remaining entry (entry.insertedAt + elapsed) = some (ttl, freshness) := by
  rw [remaining, Nat.add_sub_cancel_left]
  by_cases alive : elapsed < entry.ttl
  · exact ⟨_, _, if_pos alive⟩
  · exact ⟨_, _, (if_neg alive).trans (if_pos inWindow)⟩

theorem lookupOctets_eq {cache : DnsCache} {now : Nat} {domain : Text} {qtype : QueryType}
    {newId : UInt16} {entry : CacheEntry} {ttl : UInt32} {freshness : Freshness}
    {scanned : WireMeta} {wire : List UInt8} (isEntry : cache.entry domain qtype = some entry)
    (isRemaining : remaining entry now = some (ttl, freshness))
    (found : scanTtlOffsets entry.wire.octets = .ok scanned)
    (patched : patchWire newId ttl scanned entry.wire.octets = some wire) :
    cache.lookupOctets now domain qtype newId =
      some (some (wire, entry.dnssecStatus, freshness)) := by
  have scannedEq : entry.scanned = scanned := by
    rw [CacheEntry.scanned, found]
    rfl
  simp only [lookupOctets, isEntry, isRemaining, scannedEq, patched, Option.map_some]

/-- A packet that the cache has taken comes back as it was written, but for the
identifier and the TTLs, as long as the entry is served at all. -/
theorem lookup_insertWithStatus {cache : DnsCache} {packet : DnsPacket}
    (ordered : cache.minTtl ≤ cache.maxTtl) (encodable : packet.Encodable)
    (notOpt : ∀ record ∈ packet.records, record.domain = [] → record.queryType.toNum ≠ 41)
    (canonical : ∀ question ∈ packet.questions,
      QueryType.fromNum question.qtype.toNum = question.qtype)
    (written : (exec packet.write .new).1 = .ok ()) (now : Nat) (domain : Text)
    (qtype : QueryType) (status : DnssecStatus) :
    ∃ after entry, cache.insertWithStatus now domain qtype packet status = some after ∧
      after.entry domain qtype = some entry ∧
      ∀ elapsed, elapsed < entry.ttl + staleWindow → ∀ newId, ∃ wire ttl freshness,
        remaining entry (now + elapsed) = some (ttl, freshness) ∧
          after.lookupOctets (now + elapsed) domain qtype newId =
            some (some (wire, status, freshness)) ∧
          (exec DnsPacket.fromBuffer (.fromBytes wire)).1 = .ok (served packet newId ttl) := by
  obtain ⟨encodeQuestion, coding, questionsCoded, covers, filledEq, fits⟩ :=
    DnsPacket.exists_octets_of_write encodable notOpt canonical (exec_eq_of_fst written)
  have scanned := DnsPacket.scanTtlOffsets_octets questionsCoded covers fits
  have scans : (Wire.ofOctets (packet.octets encodeQuestion coding.encode)).scans = true := by
    change (scanTtlOffsets (packet.octets encodeQuestion coding.encode)).isOk = true
    rw [scanned]
    rfl
  obtain ⟨after, inserted, isEntry⟩ :=
    entry_insertWire_ordered ordered now domain qtype status scans
  refine ⟨after, _, ?_, isEntry, ?_⟩
  · rw [insertWithStatus, exec_eq_of_fst written]
    dsimp only
    rw [filledEq]
    exact inserted
  · intro elapsed inWindow newId
    obtain ⟨ttl, freshness, isRemaining⟩ := exists_remaining inWindow
    refine ⟨(packet.patch newId ttl).octets encodeQuestion coding.encode, ttl, freshness,
      isRemaining, ?_, ?_⟩
    · exact lookupOctets_eq isEntry isRemaining scanned (DnsPacket.patchWire_octets _)
    · have patchedFits :
          ((packet.patch newId ttl).octets encodeQuestion coding.encode).length ≤ bufSize := by
        rwa [DnsPacket.length_octets_patch]
      exact congrArg Prod.fst (DnsPacket.readsAt_patch questionsCoded covers encodable fits _ rfl
        (ahead_fromBytes patchedFits))

/-- The sample response is served again with identifier 7. -/
theorem lookup_insertWithStatus_fullResponse :
    ∃ after, (new 1 60 86400).insertWithStatus 0 (text "www.test") .a fullResponse .secure =
        some after ∧
      ∃ wire ttl freshness, after.lookupOctets 0 (text "www.test") .a 7 =
          some (some (wire, .secure, freshness)) ∧
        (exec DnsPacket.fromBuffer (.fromBytes wire)).1 = .ok (served fullResponse 7 ttl) := by
  have ordered : (new 1 60 86400).minTtl ≤ (new 1 60 86400).maxTtl := by decide
  obtain ⟨after, entry, inserted, -, lookups⟩ :=
    lookup_insertWithStatus ordered encodable_fullResponse (by decide +kernel)
      (by decide +kernel) (by decide +kernel) 0 (text "www.test") .a .secure
  have window : 0 < staleWindow := by decide
  obtain ⟨wire, ttl, freshness, -, found, decoded⟩ := lookups 0 (by omega) 7
  exact ⟨after, inserted, wire, ttl, freshness, found, decoded⟩

/-- A query of type `UNKNOWN(16)`. -/
def unknownTextQuery : DnsPacket where
  questions := [⟨[], .unknown 16⟩]

/-- The query of type `UNKNOWN(16)` comes back as one of type TXT. -/
theorem unknownTextQuery_changes :
    unknownTextQuery.Encodable ∧ (exec unknownTextQuery.write .new).1 = .ok () ∧
      (QueryType.fromNum 16).isNative = false ∧
      ∃ after wire, (new 1 60 86400).insertWithStatus 0 [] .txt unknownTextQuery .secure =
          some after ∧
        after.lookupOctets 0 [] .txt 7 = some (some (wire, .secure, .fresh)) ∧
        (exec DnsPacket.fromBuffer (.fromBytes wire)).1.toOption.map DnsPacket.questions =
          some [⟨[], .txt⟩] ∧
        ∀ ttl, (exec DnsPacket.fromBuffer (.fromBytes wire)).1 ≠
          .ok (served unknownTextQuery 7 ttl) := by
  have taken : ((new 1 60 86400).insertWithStatus 0 [] .txt unknownTextQuery .secure).isSome := by
    decide +kernel
  have root : Producible [] := producible_nameText [] (by simp) (by decide)
  have encodable : unknownTextQuery.Encodable := by
    refine ⟨?_, by decide, by simp [DnsPacket.records, unknownTextQuery], by decide +kernel⟩
    simp [DnsPacket.names, DnsPacket.records, unknownTextQuery, root]
  have questions : (exec DnsPacket.fromBuffer
      (.fromBytes [0, 7, 0, 0, 0, 1, 0, 0, 0, 0, 0, 0, 0, 0, 16, 0, 1])).1.toOption.map
        DnsPacket.questions = some [⟨[], .txt⟩] := by
    decide +kernel
  refine ⟨encodable, by decide +kernel, by decide,
    ((new 1 60 86400).insertWithStatus 0 [] .txt unknownTextQuery .secure).get taken,
    [0, 7, 0, 0, 0, 1, 0, 0, 0, 0, 0, 0, 0, 0, 16, 0, 1], (Option.some_get taken).symm,
    by decide +kernel +revert, questions, fun ttl same => ?_⟩
  rw [same] at questions
  have typeEq : some [(⟨[], .unknown 16⟩ : DnsQuestion)] = some [⟨[], .txt⟩] := questions
  simp at typeEq

end DnsCache

end Numa
