import Numa.RecordCodec

/-!
# The round trip of a packet

A packet that `DnsPacket::write` accepts reads back as it was, with the counts
in its header set.  A buffer has 4096 octets, so neither a count nor the length
of some data is cut off.  The type of a question does not survive when it is
`UNKNOWN` with a number that has a variant of its own.
-/

namespace Numa

open BytePacketBuffer

variable {pos : Nat}

namespace DnsHeader

/-- The octets of a header. -/
def octets (header : DnsHeader) : List UInt8 :=
  beBytes16 header.id ++ ([header.firstFlags] ++ ([header.secondFlags] ++
    (beBytes16 header.questions ++ (beBytes16 header.answers ++
      (beBytes16 header.authoritativeEntries ++ beBytes16 header.resourceEntries)))))

theorem writes_write (header : DnsHeader) : Writes header.write header.octets :=
  (writes_writeU16 _).bind fun _ => (BytePacketBuffer.writes_write _).bind fun _ =>
    (BytePacketBuffer.writes_write _).bind fun _ => (writes_writeU16 _).bind fun _ =>
    (writes_writeU16 _).bind fun _ => (writes_writeU16 _).bind fun _ => writes_writeU16 _

theorem hasBit_firstFlags (header : DnsHeader) (small : header.opcode < 16) :
    hasBit header.firstFlags 0 = header.recursionDesired ∧
      hasBit header.firstFlags 1 = header.truncatedMessage ∧
      hasBit header.firstFlags 2 = header.authoritativeAnswer ∧
      header.firstFlags >>> 3 &&& 0x0F = header.opcode ∧
      hasBit header.firstFlags 7 = header.response := by
  have table : ∀ (rd tc aa qr : Bool) (opcode : Fin 16),
      let flags := rd.toUInt8 ||| tc.toUInt8 <<< 1 ||| aa.toUInt8 <<< 2 |||
        opcode.val.toUInt8 <<< 3 ||| qr.toUInt8 <<< 7
      hasBit flags 0 = rd ∧ hasBit flags 1 = tc ∧ hasBit flags 2 = aa ∧
        flags >>> 3 &&& 0x0F = opcode.val.toUInt8 ∧ hasBit flags 7 = qr := by
    decide +kernel
  have opcodeEq : header.opcode.toNat.toUInt8 = header.opcode := by simp
  have found := table header.recursionDesired header.truncatedMessage header.authoritativeAnswer
    header.response ⟨header.opcode.toNat, small⟩
  simp only [opcodeEq] at found
  exact found

theorem hasBit_secondFlags (header : DnsHeader) :
    ResultCode.fromNum (header.secondFlags &&& 0x0F) = header.rescode ∧
      hasBit header.secondFlags 4 = header.checkingDisabled ∧
      hasBit header.secondFlags 5 = header.authedData ∧
      hasBit header.secondFlags 6 = header.z ∧
      hasBit header.secondFlags 7 = header.recursionAvailable := by
  have table : ∀ (cd ad z ra : Bool) (num : Fin 6),
      let flags := num.val.toUInt8 ||| cd.toUInt8 <<< 4 ||| ad.toUInt8 <<< 5 |||
        z.toUInt8 <<< 6 ||| ra.toUInt8 <<< 7
      flags &&& 0x0F = num.val.toUInt8 ∧ hasBit flags 4 = cd ∧ hasBit flags 5 = ad ∧
        hasBit flags 6 = z ∧ hasBit flags 7 = ra := by
    decide +kernel
  have found := table header.checkingDisabled header.authedData header.z
    header.recursionAvailable
  unfold secondFlags
  cases header.rescode with
  | noerror => exact ⟨congrArg ResultCode.fromNum (found 0).1, (found 0).2⟩
  | formerr => exact ⟨congrArg ResultCode.fromNum (found 1).1, (found 1).2⟩
  | servfail => exact ⟨congrArg ResultCode.fromNum (found 2).1, (found 2).2⟩
  | nxdomain => exact ⟨congrArg ResultCode.fromNum (found 3).1, (found 3).2⟩
  | notimp => exact ⟨congrArg ResultCode.fromNum (found 4).1, (found 4).2⟩
  | refused => exact ⟨congrArg ResultCode.fromNum (found 5).1, (found 5).2⟩

/-- The octets of two flag octets read as one number. -/
theorem flags_octets (first second : UInt8) :
    ∃ flags, beBytes16 flags = [first, second] ∧ (flags >>> 8).toUInt8 = first ∧
      (flags &&& 0xFF).toUInt8 = second := by
  have octets := beBytes16_join first second
  refine ⟨_, octets, ?_, ?_⟩
  · exact (List.cons.inj octets).1
  · rw [toUInt8_and_mask16]
    exact (List.cons.inj (List.cons.inj octets).2).1

theorem readsAt_read {header : DnsHeader} (small : header.opcode < 16) :
    ReadsAt pos read header.octets header := by
  obtain ⟨flags, flagsEq, firstEq, secondEq⟩ := flags_octets header.firstFlags header.secondFlags
  obtain ⟨rd, tc, aa, opcode, qr⟩ := header.hasBit_firstFlags small
  obtain ⟨rescode, cd, ad, z, ra⟩ := header.hasBit_secondFlags
  have split : header.octets = beBytes16 header.id ++ (beBytes16 flags ++
      (beBytes16 header.questions ++ (beBytes16 header.answers ++
        (beBytes16 header.authoritativeEntries ++ beBytes16 header.resourceEntries)))) := by
    rw [flagsEq]
    rfl
  rw [split]
  have reads : ReadsAt pos read _ _ :=
    (readsAt_readU16 header.id).bind ((readsAt_readU16 flags).bind
      ((readsAt_readU16 header.questions).bind ((readsAt_readU16 header.answers).bind
        ((readsAt_readU16 header.authoritativeEntries).bind
          ((readsAt_readU16 header.resourceEntries).map _)))))
  simp only [firstEq, secondEq, rd, tc, aa, opcode, qr, rescode, cd, ad, z, ra] at reads
  exact reads

end DnsHeader

/-- The question is written as these octets and reads back from them. -/
structure DnsQuestion.CodedAs (question : DnsQuestion) (octets : List UInt8) : Prop where
  nonempty : octets ≠ []
  writes : Writes question.write octets
  reads : ∀ pos, ReadsAt pos DnsQuestion.read octets question

theorem DnsQuestion.exists_codedAs {question : DnsQuestion} (producible : Producible question.name)
    (canonical : QueryType.fromNum question.qtype.toNum = question.qtype) :
    ∃ octets, question.CodedAs octets := by
  obtain ⟨domain, qtype⟩ := question
  obtain ⟨labels, areLabels, rfl⟩ := producible.exists_labels
  refine ⟨wireName labels ++ (beBytes16 qtype.toNum ++ beBytes16 1), ?_, ?_, ?_⟩
  · simp [wireName]
  · exact (writes_writeQname areLabels).bind fun _ => (writes_writeU16 _).bind fun _ =>
      writes_writeU16 1
  · intro pos
    have reads : ReadsAt pos DnsQuestion.read _ _ :=
      (readsAt_readQname areLabels).bind ((readsAt_readU16 qtype.toNum).bind
        ((readsAt_readU16 1).map _))
    simp only [canonical] at reads
    exact reads

namespace EdnsOpt

/-- The octets of an OPT record. -/
def octets (edns : EdnsOpt) : List UInt8 :=
  [0] ++ (beBytes16 QueryType.opt.toNum ++ (beBytes16 edns.udpPayloadSize ++
    (beBytes32 edns.ttlField ++ (beBytes16 edns.options.length.toUInt16 ++ edns.options))))

theorem writes_write (edns : EdnsOpt) : Writes edns.write edns.octets :=
  (BytePacketBuffer.writes_write _).bind fun _ => (writes_writeU16 _).bind fun _ =>
    (writes_writeU16 _).bind fun _ => (writes_writeU32 _).bind fun _ =>
    (writes_writeU16 _).bind fun _ => writes_writeBytes _

/-- The flags are read back from the TTL field. -/
theorem ttlField_fields (edns : EdnsOpt) :
    (edns.ttlField >>> 24 &&& 0xFF).toUInt8 = edns.extendedRcode ∧
      (edns.ttlField >>> 16 &&& 0xFF).toUInt8 = edns.version ∧
      decide (edns.ttlField >>> 15 &&& 1 = 1) = edns.doBit := by
  have joined : edns.ttlField = edns.extendedRcode.toUInt32 <<< 24 |||
      edns.version.toUInt32 <<< 16 ||| (if edns.doBit then 0x80 else 0 : UInt8).toUInt32 <<< 8 |||
      (0 : UInt8).toUInt32 := by
    have doFlag : (1 : UInt32) <<< 15 = (128 : UInt32) <<< 8 := rfl
    unfold ttlField
    cases edns.doBit <;> simp [doFlag]
  have octets := beBytes32_join edns.extendedRcode edns.version (if edns.doBit then 0x80 else 0) 0
  have number := toNat_join32 edns.extendedRcode edns.version (if edns.doBit then 0x80 else 0) 0
  rw [← joined] at octets number
  simp only [toUInt8_and_mask32]
  refine ⟨(List.cons.inj octets).1, (List.cons.inj (List.cons.inj octets).2).1, ?_⟩
  rw [← Bool.coe_iff_coe, decide_eq_true_iff, ← UInt32.toNat_inj, UInt32.toNat_and,
    UInt32.toNat_shiftRight]
  simp only [UInt32.reduceToNat, Nat.reduceMod, Nat.shiftRight_eq_div_pow, Nat.and_one_is_mod]
  cases doBit : edns.doBit <;> simp [doBit] at number ⊢ <;> omega

theorem readsAt_read {edns : EdnsOpt} (short : edns.options.length < 2 ^ 16) :
    ReadsAt pos read edns.octets edns := by
  obtain ⟨rcode, version, doBit⟩ := edns.ttlField_fields
  have options : ∀ pos, ReadsAt pos (readOctets edns.options.length.toUInt16.toNat) edns.options
      edns.options := by
    intro pos
    rw [DnsRecord.toNat_length_toUInt16 short]
    exact readsAt_readOctets _
  have reads : ReadsAt pos read edns.octets _ :=
    (readsAt_step [0]).bind ((readsAt_readU16 _).bind ((readsAt_readU16 _).bind
      ((readsAt_readU32 _).bind ((readsAt_readU16 _).bind ((options _).map _)))))
  simp only [rcode, version, doBit] at reads
  exact reads

end EdnsOpt

/-- The record is written as these octets: its header, the length of its data
and the data, whose length is not cut off, and reads back. -/
def DnsRecord.CodedAs (record : DnsRecord) (octets : List UInt8) : Prop :=
  ∃ owner rdata, octets = recordOctets (wireName owner) record.queryType.toNum record.ttl rdata ∧
    record.Coded owner rdata

theorem DnsRecord.writes_write {record : DnsRecord} {octets : List UInt8}
    (coded : record.CodedAs octets) : Writes (discard record.write) octets := by
  obtain ⟨owner, rdata, rfl, coded⟩ := coded
  apply writes_discard
  apply writes_get_bind
  intro start
  have counted := coded.writes.bind fun _ => writes_get_bind (fun stop =>
    writes_pure (stop.pos - start.pos))
  rwa [List.append_nil] at counted

theorem DnsRecord.CodedAs.readsAt {record : DnsRecord} {octets : List UInt8}
    (coded : record.CodedAs octets) (short : octets.length ≤ bufSize) (pos : Nat) :
    ReadsAt pos DnsRecord.read octets record := by
  obtain ⟨owner, rdata, rfl, coded⟩ := coded
  apply DnsRecord.readsAt_read coded.areLabels
  apply coded.reads
  have size : bufSize < 2 ^ 16 := by decide
  simp only [recordOctets, List.length_append] at short
  omega

/-- No OPT record starts where a record does that is not a root-owned one of
type 41. -/
theorem exec_isOptAt {record : DnsRecord} {octets : List UInt8} {buffer : BytePacketBuffer}
    (coded : record.CodedAs octets)
    (notOpt : record.domain = [] → record.queryType.toNum ≠ 41)
    (ahead : Ahead buffer pos octets) :
    exec (DnsPacket.isOptAt pos) buffer = (.ok false, buffer) := by
  obtain ⟨owner, rdata, rfl, coded⟩ := coded
  rw [DnsPacket.isOptAt]
  cases owner with
  | nil =>
      have root : recordOctets (wireName []) record.queryType.toNum record.ttl rdata =
          [0] ++ (beBytes16 record.queryType.toNum ++ (beBytes16 1 ++ (beBytes32 record.ttl ++
            (beBytes16 rdata.length.toUInt16 ++ rdata)))) := rfl
      rw [root] at ahead
      have typeAhead : Ahead buffer (pos + 1) (beBytes16 record.queryType.toNum) :=
        ahead.right.left
      have first : exec (getAt pos) buffer = (.ok 0, buffer) :=
        exec_getAt ahead.left (by simp : 0 < _)
      have high : exec (getAt (pos + 1)) buffer =
          (.ok (record.queryType.toNum >>> 8).toUInt8, buffer) :=
        exec_getAt typeAhead (by simp [beBytes16] : 0 < _)
      have low : exec (getAt (pos + 2)) buffer =
          (.ok record.queryType.toNum.toUInt8, buffer) :=
        exec_getAt typeAhead (by simp [beBytes16] : 1 < _)
      rw [exec_bind_ok first, if_pos rfl, exec_bind_ok high, exec_bind_ok low, exec_pure,
        join_beBytes16]
      simp [notOpt coded.domain]
  | cons label labels =>
      obtain ⟨nonempty, short, -⟩ := coded.areLabels label (by simp)
      obtain ⟨-, -, notRoot, -⟩ :=
        wireLength_bits label.length (List.length_pos_of_ne_nil nonempty) short
      have first : exec (getAt pos) buffer = (.ok label.length.toUInt8, buffer) :=
        exec_getAt ahead (by simp [recordOctets, wireName, wireLabelsOf, wireLabel] : 0 < _)
      rw [exec_bind_ok first, if_neg notRoot]
      rfl

/-- The octets of the OPT record, if there is one. -/
def ednsOctets : Option EdnsOpt → List UInt8
  | none => []
  | some edns => edns.octets

theorem exec_isOptAt_edns {edns : EdnsOpt} {buffer : BytePacketBuffer}
    (ahead : Ahead buffer pos edns.octets) :
    exec (DnsPacket.isOptAt pos) buffer = (.ok true, buffer) := by
  have typeAhead : Ahead buffer (pos + 1) (beBytes16 QueryType.opt.toNum) := ahead.right.left
  have first : exec (getAt pos) buffer = (.ok 0, buffer) :=
    exec_getAt ahead.left (by simp : 0 < _)
  have high : exec (getAt (pos + 1)) buffer = (.ok 0, buffer) :=
    exec_getAt typeAhead (by simp [beBytes16] : 0 < _)
  have low : exec (getAt (pos + 2)) buffer = (.ok 41, buffer) :=
    exec_getAt typeAhead (by simp [beBytes16] : 1 < _)
  rw [DnsPacket.isOptAt, exec_bind_ok first, if_pos rfl, exec_bind_ok high, exec_bind_ok low]
  rfl

/-- The additional section reads back, with the OPT record at its end. -/
theorem readsAt_readResources {encode : DnsRecord → List UInt8} {resources : List DnsRecord}
    {edns : Option EdnsOpt}
    (coded : ∀ record ∈ resources, record.CodedAs (encode record))
    (short : ∀ record ∈ resources, (encode record).length ≤ bufSize)
    (notOpt : ∀ record ∈ resources, record.domain = [] → record.queryType.toNum ≠ 41)
    (optionsShort : ∀ opt, edns = some opt → opt.options.length < 2 ^ 16) :
    ReadsAt pos (DnsPacket.readResources (resources.length + edns.toList.length) none)
      (resources.flatMap encode ++ ednsOctets edns) (resources, edns) := by
  induction resources generalizing pos with
  | nil =>
      cases edns with
      | none => exact readsAt_pure _
      | some opt =>
          intro buffer posEq ahead
          have next : DnsPacket.readResources 1 none = get >>= fun buffer =>
              DnsPacket.isOptAt buffer.pos >>= fun isOpt =>
                if isOpt then EdnsOpt.read >>= fun opt => pure ([], some opt)
                else DnsRecord.read >>= fun record => pure ([record], none) := rfl
          change exec (DnsPacket.readResources 1 none) buffer = _
          rw [next, exec_get_bind, posEq, exec_bind_ok (exec_isOptAt_edns ahead), if_pos rfl]
          have reads : ReadsAt pos (EdnsOpt.read >>= fun opt => pure ([], some opt)) opt.octets
              (([] : List DnsRecord), some opt) :=
            (EdnsOpt.readsAt_read (optionsShort opt rfl)).map fun opt => ([], some opt)
          exact reads buffer posEq ahead
  | cons record resources ih =>
      have recordCoded := coded record (by simp)
      have reads : ReadsAt pos
          (DnsRecord.read >>= fun first =>
            DnsPacket.readResources (resources.length + edns.toList.length) none >>= fun rest =>
              pure (first :: rest.1, rest.2))
          (encode record ++ (resources.flatMap encode ++ ednsOctets edns))
          (record :: resources, edns) :=
        (recordCoded.readsAt (short record (by simp)) pos).bind
          ((ih (fun other otherMem => coded other (by simp [otherMem]))
            (fun other otherMem => short other (by simp [otherMem]))
            (fun other otherMem => notOpt other (by simp [otherMem]))).map
              fun rest => (record :: rest.1, rest.2))
      intro buffer posEq ahead
      rw [List.flatMap_cons, List.append_assoc] at ahead ⊢
      rw [List.length_cons, Nat.add_right_comm, DnsPacket.readResources, exec_get_bind, posEq,
        exec_bind_ok (exec_isOptAt recordCoded (notOpt record (by simp)) ahead.left),
        if_neg (by simp)]
      exact reads buffer posEq ahead

namespace DnsPacket

/-- The names in a packet. -/
def names (packet : DnsPacket) : List Text :=
  packet.questions.map DnsQuestion.name ++ packet.records.flatMap DnsRecord.names

/-- The names can be read, the fields fit into the wire form, and no record of
the additional section looks like an OPT record. -/
structure Encodable (packet : DnsPacket) : Prop where
  names : ∀ name ∈ packet.names, Producible name
  opcode : packet.header.opcode < 16
  fields : ∀ record ∈ packet.records, record.FieldsFit
  noOpt : ∀ record ∈ packet.resources, record.domain = [] → record.queryType.toNum ≠ 41

/-- The octets of a packet, given those of its questions and records. -/
def octets (encodeQuestion : DnsQuestion → List UInt8) (encode : DnsRecord → List UInt8)
    (packet : DnsPacket) : List UInt8 :=
  packet.countedHeader.octets ++ (packet.questions.flatMap encodeQuestion ++
    (packet.answers.flatMap encode ++ (packet.authorities.flatMap encode ++
      (packet.resources.flatMap encode ++ ednsOctets packet.edns))))

variable {packet : DnsPacket} {encodeQuestion : DnsQuestion → List UInt8}
  {encode : DnsRecord → List UInt8}

theorem mem_records_of_mem_answers {record : DnsRecord} (recordMem : record ∈ packet.answers) :
    record ∈ packet.records := by
  simp [records, recordMem]

theorem mem_records_of_mem_authorities {record : DnsRecord}
    (recordMem : record ∈ packet.authorities) : record ∈ packet.records := by
  simp [records, recordMem]

theorem mem_records_of_mem_resources {record : DnsRecord} (recordMem : record ∈ packet.resources) :
    record ∈ packet.records := by
  simp [records, recordMem]

theorem writes_write
    (questionsCoded : ∀ question ∈ packet.questions, question.CodedAs (encodeQuestion question))
    (coded : ∀ record ∈ packet.records, record.CodedAs (encode record)) :
    Writes packet.write (packet.octets encodeQuestion encode) := by
  have sectionWrites : ∀ entries : List DnsRecord, (∀ record ∈ entries, record ∈ packet.records) →
      Writes (entries.forM fun record => discard record.write) (entries.flatMap encode) :=
    fun entries inPacket => writes_forM fun record recordMem =>
      DnsRecord.writes_write (coded record (inPacket record recordMem))
  have questionWrites := writes_forM fun question questionMem =>
    (questionsCoded question questionMem).writes
  refine packet.countedHeader.writes_write.bind fun _ => questionWrites.bind fun _ =>
    (sectionWrites _ fun _ => mem_records_of_mem_answers).bind fun _ =>
    (sectionWrites _ fun _ => mem_records_of_mem_authorities).bind fun _ =>
    (sectionWrites _ fun _ => mem_records_of_mem_resources).bind fun _ => ?_
  cases packet.edns with
  | none => exact writes_pure ()
  | some edns => exact edns.writes_write

/-- The counts of a packet with short sections. -/
theorem toNat_counts_of_short (questions : packet.questions.length ≤ bufSize)
    (answers : packet.answers.length ≤ bufSize) (authorities : packet.authorities.length ≤ bufSize)
    (resources : packet.resources.length + packet.edns.toList.length ≤ bufSize) :
    packet.countedHeader.questions.toNat = packet.questions.length ∧
      packet.countedHeader.answers.toNat = packet.answers.length ∧
      packet.countedHeader.authoritativeEntries.toNat = packet.authorities.length ∧
      packet.countedHeader.resourceEntries.toNat =
        packet.resources.length + packet.edns.toList.length := by
  have size : bufSize = 4096 := rfl
  have toNatEq : ∀ count, count ≤ bufSize → count.toUInt16.toNat = count := by
    intro count small
    rw [Nat.toUInt16_eq, UInt16.toNat_ofNat', Nat.mod_eq_of_lt (by omega)]
  refine ⟨toNatEq _ questions, toNatEq _ answers, toNatEq _ authorities, ?_⟩
  rw [countedHeader, UInt16.toNat_add, toNatEq _ (by omega)]
  cases edns : packet.edns with
  | none => simp; omega
  | some opt =>
      rw [edns, Option.toList_some, List.length_singleton] at resources
      simp
      omega

/-- The counts of a packet that fits into a buffer. -/
theorem toNat_counts
    (questionsCoded : ∀ question ∈ packet.questions, question.CodedAs (encodeQuestion question))
    (coded : ∀ record ∈ packet.records, record.CodedAs (encode record))
    (fits : (packet.octets encodeQuestion encode).length ≤ bufSize) :
    packet.countedHeader.questions.toNat = packet.questions.length ∧
      packet.countedHeader.answers.toNat = packet.answers.length ∧
      packet.countedHeader.authoritativeEntries.toNat = packet.authorities.length ∧
      packet.countedHeader.resourceEntries.toNat =
        packet.resources.length + packet.edns.toList.length := by
  have nonempty : ∀ record ∈ packet.records, encode record ≠ [] := by
    intro record recordMem
    obtain ⟨owner, rdata, octetsEq, -⟩ := coded record recordMem
    simp [octetsEq, recordOctets, wireName]
  have questions := length_le_flatMap fun question questionMem =>
    (questionsCoded question questionMem).nonempty
  have answers := length_le_flatMap fun record (recordMem : record ∈ packet.answers) =>
    nonempty record (mem_records_of_mem_answers recordMem)
  have authorities := length_le_flatMap fun record (recordMem : record ∈ packet.authorities) =>
    nonempty record (mem_records_of_mem_authorities recordMem)
  have resources := length_le_flatMap fun record (recordMem : record ∈ packet.resources) =>
    nonempty record (mem_records_of_mem_resources recordMem)
  have edns : packet.edns.toList.length ≤ (ednsOctets packet.edns).length := by
    cases packet.edns with
    | none => exact Nat.zero_le _
    | some opt => simp [ednsOctets, EdnsOpt.octets]
  simp only [octets, List.length_append] at fits
  exact toNat_counts_of_short (by omega) (by omega) (by omega) (by omega)

theorem readsAt_fromBuffer
    (questionsCoded : ∀ question ∈ packet.questions, question.CodedAs (encodeQuestion question))
    (coded : ∀ record ∈ packet.records, record.CodedAs (encode record))
    (encodable : packet.Encodable)
    (fits : (packet.octets encodeQuestion encode).length ≤ bufSize) :
    ReadsAt pos fromBuffer (packet.octets encodeQuestion encode)
      { packet with header := packet.countedHeader } := by
  obtain ⟨questionCount, answerCount, authorityCount, resourceCount⟩ :=
    toNat_counts questionsCoded coded fits
  simp only [octets, List.length_append] at fits
  have size : bufSize < 2 ^ 16 := by decide
  have questions : ∀ pos, ReadsAt pos
      (readMany DnsQuestion.read packet.countedHeader.questions.toNat)
      (packet.questions.flatMap encodeQuestion) packet.questions := by
    intro pos
    rw [questionCount]
    exact readsAt_readMany fun question questionMem => (questionsCoded question questionMem).reads
  have answers : ∀ pos, ReadsAt pos (readMany DnsRecord.read packet.countedHeader.answers.toNat)
      (packet.answers.flatMap encode) packet.answers := by
    intro pos
    rw [answerCount]
    refine readsAt_readMany fun record recordMem => ?_
    have length : (encode record).length ≤ (packet.answers.flatMap encode).length :=
      length_le_flatMap_of_mem recordMem
    exact (coded record (mem_records_of_mem_answers recordMem)).readsAt (by omega)
  have authorities : ∀ pos, ReadsAt pos
      (readMany DnsRecord.read packet.countedHeader.authoritativeEntries.toNat)
      (packet.authorities.flatMap encode) packet.authorities := by
    intro pos
    rw [authorityCount]
    refine readsAt_readMany fun record recordMem => ?_
    have length : (encode record).length ≤ (packet.authorities.flatMap encode).length :=
      length_le_flatMap_of_mem recordMem
    exact (coded record (mem_records_of_mem_authorities recordMem)).readsAt (by omega)
  have resources : ∀ pos, ReadsAt pos
      (readResources packet.countedHeader.resourceEntries.toNat none)
      (packet.resources.flatMap encode ++ ednsOctets packet.edns)
      (packet.resources, packet.edns) := by
    intro pos
    rw [resourceCount]
    refine readsAt_readResources
      (fun record recordMem => coded record (mem_records_of_mem_resources recordMem))
      (fun record recordMem => ?_) encodable.noOpt ?_
    · have length : (encode record).length ≤ (packet.resources.flatMap encode).length :=
        length_le_flatMap_of_mem recordMem
      omega
    · intro opt isOpt
      simp only [isOpt, ednsOctets, EdnsOpt.octets, List.length_append] at fits
      omega
  have header : ReadsAt pos DnsHeader.read packet.countedHeader.octets packet.countedHeader :=
    DnsHeader.readsAt_read encodable.opcode
  exact header.bind ((questions _).bind ((answers _).bind ((authorities _).bind
    ((resources _).last rfl))))

/-- What a successful write leaves in the buffer. -/
theorem filled_of_write {buffer : BytePacketBuffer}
    (questionsCoded : ∀ question ∈ packet.questions, question.CodedAs (encodeQuestion question))
    (coded : ∀ record ∈ packet.records, record.CodedAs (encode record))
    (written : exec packet.write .new = (.ok (), buffer)) :
    (packet.octets encodeQuestion encode).length ≤ bufSize ∧
      buffer.filled = packet.octets encodeQuestion encode ∧
      buffer.pos = (packet.octets encodeQuestion encode).length := by
  obtain ⟨fit, overflow⟩ := writes_write questionsCoded coded .new (Nat.zero_le _)
  have atStart : new.pos = 0 := rfl
  rw [atStart, Nat.zero_add] at fit overflow
  have fits : (packet.octets encodeQuestion encode).length ≤ bufSize := by
    by_contra tooLong
    obtain ⟨after, failed, -⟩ := overflow (by omega)
    simp [written] at failed
  obtain ⟨value, after, ran, extended⟩ := fit fits
  obtain ⟨-, rfl⟩ : value = () ∧ after = buffer := by simpa [written, eq_comm] using ran
  refine ⟨fits, extended.filled (Nat.zero_le _), ?_⟩
  rw [extended.pos]
  exact Nat.zero_add _

/-- The round trip: a packet that is written reads back from the octets written
and from nothing else.  The counts are the lengths of the sections, and the
length before the data of every record is the length of the data. -/
theorem fromBuffer_write {buffer : BytePacketBuffer} (encodable : packet.Encodable)
    (canonical : ∀ question ∈ packet.questions,
      QueryType.fromNum question.qtype.toNum = question.qtype)
    (written : exec packet.write .new = (.ok (), buffer)) :
    (∃ after, exec fromBuffer (.fromBytes buffer.filled) =
        (.ok { packet with header := packet.countedHeader }, after) ∧ after.pos = buffer.pos) ∧
      (packet.countedHeader.questions.toNat = packet.questions.length ∧
        packet.countedHeader.answers.toNat = packet.answers.length ∧
        packet.countedHeader.authoritativeEntries.toNat = packet.authorities.length ∧
        packet.countedHeader.resourceEntries.toNat =
          packet.resources.length + packet.edns.toList.length) ∧
      ∃ encodeQuestion encode, buffer.filled = packet.octets encodeQuestion encode ∧
        ∀ record ∈ packet.records, ∃ owner rdata,
          encode record = recordOctets owner record.queryType.toNum record.ttl rdata ∧
            rdata.length < 2 ^ 16 := by
  have questionsCoded : ∀ question ∈ packet.questions, ∃ octets, question.CodedAs octets := by
    intro question questionMem
    refine DnsQuestion.exists_codedAs (encodable.names _ ?_) (canonical question questionMem)
    exact List.mem_append_left _ (List.mem_map_of_mem questionMem)
  have recordsCoded : ∀ record ∈ packet.records, ∃ octets, record.CodedAs octets := by
    intro record recordMem
    have producible : ∀ name ∈ record.names, Producible name := fun name nameMem =>
      encodable.names name (List.mem_append_right _ (List.mem_flatMap.mpr ⟨record, recordMem, nameMem⟩))
    obtain ⟨owner, rdata, coded⟩ :=
      DnsRecord.exists_coded producible (encodable.fields record recordMem)
    exact ⟨_, owner, rdata, rfl, coded⟩
  choose! encodeQuestion questionsCoded using questionsCoded
  choose! encode coded using recordsCoded
  obtain ⟨fits, filledEq, posEq⟩ := filled_of_write questionsCoded coded written
  refine ⟨?_, toNat_counts questionsCoded coded fits, encodeQuestion, encode, filledEq, ?_⟩
  · rw [filledEq, posEq]
    exact ⟨_, readsAt_fromBuffer questionsCoded coded encodable fits _ rfl (ahead_fromBytes fits),
      Nat.zero_add _⟩
  · intro record recordMem
    obtain ⟨owner, rdata, octetsEq, -⟩ := coded record recordMem
    refine ⟨_, rdata, octetsEq, ?_⟩
    have size : bufSize < 2 ^ 16 := by decide
    have length : (encode record).length ≤ (packet.records.flatMap encode).length :=
      length_le_flatMap_of_mem recordMem
    simp only [octets, records, List.length_append, List.flatMap_append] at fits length
    simp only [octetsEq, recordOctets, List.length_append] at length
    omega

end DnsPacket

/-! ## A packet with every section, and a question that changes -/

/-- A response with a question, records in every section and an OPT record. -/
def fullResponse : DnsPacket where
  header := { id := 0x1234, response := true, recursionAvailable := true, rescode := .nxdomain }
  questions := [⟨text "www.test", .a⟩]
  answers := [.cname (text "www.test") (text "host.test") 300]
  authorities :=
    [ .nsec3
        { domain := text "test", hashAlgorithm := 1, flags := 0, iterations := 0
          salt := [0xAB], nextHashedOwner := [1, 2, 3], typeBitmap := [0, 1, 0x40], ttl := 60 } ]
  resources := [.unknown (text "test") 16 [2, 104, 105] 5]
  edns := some { doBit := true, options := [0, 3, 0, 0] }

theorem producible_sample : Producible (text "www.test") ∧ Producible (text "host.test") ∧
    Producible (text "test") := by
  have www := producible_nameText [text "www", text "test"] (by decide +kernel) (by decide +kernel)
  have host :=
    producible_nameText [text "host", text "test"] (by decide +kernel) (by decide +kernel)
  have zone := producible_nameText [text "test"] (by decide +kernel) (by decide +kernel)
  have wwwEq : nameText [text "www", text "test"] = text "www.test" := by decide +kernel
  have hostEq : nameText [text "host", text "test"] = text "host.test" := by decide +kernel
  have zoneEq : nameText [text "test"] = text "test" := by decide +kernel
  exact ⟨wwwEq ▸ www, hostEq ▸ host, zoneEq ▸ zone⟩

theorem encodable_fullResponse : fullResponse.Encodable := by
  obtain ⟨www, host, zone⟩ := producible_sample
  exact
    { names := by
        simp [DnsPacket.names, DnsPacket.records, DnsRecord.names, fullResponse, www, host, zone]
      opcode := by decide
      fields := by
        simp [DnsPacket.records, fullResponse, DnsRecord.FieldsFit]
        decide
      noOpt := by decide +kernel }

theorem DnsPacket.fromBuffer_write_fullResponse :
    ∃ after, exec DnsPacket.fromBuffer (.fromBytes (exec fullResponse.write .new).2.filled) =
      (.ok { fullResponse with header := fullResponse.countedHeader }, after) ∧
        after.pos = (exec fullResponse.write .new).2.pos := by
  have written : (exec fullResponse.write .new).1 = .ok () := by decide +kernel
  exact (DnsPacket.fromBuffer_write encodable_fullResponse (by decide +kernel) (exec_eq_of_fst written)).1

/-- A question of type `UNKNOWN(1)`. -/
def unknownQuestion : DnsPacket where
  questions := [⟨[], .unknown 1⟩]

/-- The question of type `UNKNOWN(1)` reads back as one of type A. -/
theorem unknownQuestion_changes :
    unknownQuestion.Encodable ∧ (exec unknownQuestion.write .new).1 = .ok () ∧
      (exec DnsPacket.fromBuffer (.fromBytes (exec unknownQuestion.write .new).2.filled)).1 =
        .ok { unknownQuestion with
              header := unknownQuestion.countedHeader
              questions := [⟨[], .a⟩] } ∧
      (exec DnsPacket.fromBuffer (.fromBytes (exec unknownQuestion.write .new).2.filled)).1 ≠
        .ok { unknownQuestion with header := unknownQuestion.countedHeader } := by
  have root : Producible [] := producible_nameText [] (by simp) (by decide)
  refine ⟨⟨?_, by decide, by simp [DnsPacket.records, unknownQuestion], by decide +kernel⟩,
    by decide +kernel, by decide +kernel, by decide +kernel⟩
  simp [DnsPacket.names, DnsPacket.records, unknownQuestion, root]

end Numa
