import Numa.WithinMessage
import Numa.ScanAgreement

/-!
# Messages that are read within their bounds

The walk goes along with the parser over questions, records and whole messages.
So a message in which the walk finds all its octets is parsed alike whatever the
buffer holds behind it.
-/

namespace Numa

open BytePacketBuffer

theorem tracked_readQuestion : Tracked Traversal.question DnsQuestion.read :=
  tracked_readQname.andThen fun _ => tracked_readU16.andThen fun _ =>
    tracked_readU16.andThen fun _ => tracked_pure () _

/-! ## Record data -/

section Rdata

variable {α β : Type} {rdataStart dataLen : Nat}

theorem tracked_fixed {len : Nat} {action : BufferM α} {value : List UInt8 → α}
    (reads : ReadsOctets len action value) :
    Tracked (Traversal.rdataField rdataStart dataLen (.fixed len)) action := by
  have tracked : Tracked (Traversal.octets len >>= fun _ => pure ()) (action >>= pure) :=
    reads.tracked.andThen fun result => tracked_pure () result
  rwa [bind_pure] at tracked

theorem tracked_fixed1 : Tracked (Traversal.rdataField rdataStart dataLen (.fixed 1)) read :=
  tracked_fixed readsOctets_read

theorem tracked_fixed2 : Tracked (Traversal.rdataField rdataStart dataLen (.fixed 2)) readU16 :=
  tracked_fixed readsOctets_readU16

theorem tracked_fixed4 : Tracked (Traversal.rdataField rdataStart dataLen (.fixed 4)) readU32 :=
  have ⟨_, reads⟩ := readsOctets_readU32
  tracked_fixed reads

theorem tracked_name : Tracked (Traversal.rdataField rdataStart dataLen .name) readQname :=
  tracked_readQname

theorem tracked_readOctets (len : Nat) : Tracked (Traversal.octets len) (readOctets len) :=
  (readsOctets_readOctets len).tracked

theorem tracked_someOctets (len : Nat) :
    Tracked (Traversal.octets len >>= fun _ => pure ()) (readOctets len) := by
  have tracked : Tracked (Traversal.octets len >>= fun _ => pure ()) (readOctets len >>= pure) :=
    (tracked_readOctets _).andThen fun result => tracked_pure () result
  rwa [bind_pure] at tracked

theorem tracked_whole (dataLen : UInt16) :
    Tracked (Traversal.rdataField rdataStart dataLen.toNat .whole) (readOctets dataLen.toNat) :=
  tracked_someOctets _

/-- Octets behind an octet with their number. -/
theorem tracked_counted {walkNext : Traversal Unit} {next : List UInt8 → BufferM β}
    (later : ∀ octets, Tracked walkNext (next octets)) :
    Tracked (Traversal.rdataField rdataStart dataLen .counted >>= fun _ => walkNext)
      (read >>= fun count => readOctets count.toNat >>= next) := by
  have counted : Tracked (Traversal.rdataField rdataStart dataLen .counted)
      (read >>= fun count => readOctets count.toNat) :=
    readsOctets_read.trackedBind fun count => tracked_someOctets count.toNat
  rw [← bind_assoc]
  exact counted.andThen later

theorem tracked_rest (qtype : QueryType) (dataLen : UInt16) :
    Tracked (Traversal.rdataField rdataStart dataLen.toNat .rest)
      (readRest qtype rdataStart dataLen) := by
  have parts : ∀ pos, Tracked
      (if rdataStart + dataLen.toNat < pos then Traversal.malformed
        else Traversal.octets (rdataStart + dataLen.toNat - pos) >>= fun _ => pure ())
      (if rdataStart + dataLen.toNat < pos then throw (.dataLenTooShort qtype)
        else readOctets (rdataStart + dataLen.toNat - pos)) :=
    fun pos => .ite (tracked_throw _) (tracked_someOctets _)
  exact .cursor parts

/-- The walk goes along with the data of every type. -/
theorem tracked_readRdata (domain : Text) (qtypeNum : UInt16) (ttl : UInt32) (dataLen : UInt16)
    (rdataStart : Nat) :
    Tracked (Traversal.rdata rdataStart dataLen.toNat
        (Traversal.rdataFields (.fromNum qtypeNum)))
      (DnsRecord.readRdata domain qtypeNum ttl dataLen rdataStart) := by
  unfold DnsRecord.readRdata
  cases QueryType.fromNum qtypeNum
  case a => exact tracked_fixed4.andThen fun _ => tracked_pure () _
  case aaaa =>
    exact tracked_fixed4.andThen fun _ => tracked_fixed4.andThen fun _ =>
      tracked_fixed4.andThen fun _ => tracked_fixed4.andThen fun _ => tracked_pure () _
  case ns | cname | ptr => exact tracked_name.andThen fun _ => tracked_pure () _
  case mx => exact tracked_fixed2.andThen fun _ => tracked_name.andThen fun _ => tracked_pure () _
  case soa =>
    exact tracked_name.andThen fun _ => tracked_name.andThen fun _ =>
      tracked_fixed4.andThen fun _ => tracked_fixed4.andThen fun _ =>
      tracked_fixed4.andThen fun _ => tracked_fixed4.andThen fun _ =>
      tracked_fixed4.andThen fun _ => tracked_pure () _
  case dnskey | ds =>
    exact tracked_fixed2.andThen fun _ => tracked_fixed1.andThen fun _ =>
      tracked_fixed1.andThen fun _ => (tracked_rest _ _).andThen fun _ => tracked_pure () _
  case rrsig =>
    exact tracked_fixed2.andThen fun _ => tracked_fixed1.andThen fun _ =>
      tracked_fixed1.andThen fun _ => tracked_fixed4.andThen fun _ =>
      tracked_fixed4.andThen fun _ => tracked_fixed4.andThen fun _ =>
      tracked_fixed2.andThen fun _ => tracked_name.andThen fun _ =>
      (tracked_rest _ _).andThen fun _ => tracked_pure () _
  case nsec =>
    exact tracked_name.andThen fun _ => (tracked_rest _ _).andThen fun _ => tracked_pure () _
  case nsec3 =>
    exact tracked_fixed1.andThen fun _ => tracked_fixed1.andThen fun _ =>
      tracked_fixed2.andThen fun _ => tracked_counted fun _ => tracked_counted fun _ =>
      (tracked_rest _ _).andThen fun _ => tracked_pure () _
  all_goals exact (tracked_whole _).andThen fun _ => tracked_pure () _

end Rdata

/-! ## Records and messages -/

/-- Reading a record moves past the octets that the peek looks at. -/
theorem lt_of_exec_readRecord {buffer after : BytePacketBuffer} {record : DnsRecord}
    (ran : exec DnsRecord.read buffer = (.ok record, after)) : buffer.pos + 10 < after.pos := by
  obtain ⟨domain, pos, named, skipped, room, readData⟩ := DnsRecord.exec_read_eq_ok.mp ran
  have beyond := skipLabels_gt skipped
  have further := (tracked_readRdata _ _ _ _ _).moves readData
  simp only [movedTo_pos] at further
  omega

theorem tracked_readRecord : Tracked Traversal.record DnsRecord.read :=
  tracked_readQname.andThen fun domain => trackedBy_number.bindOf fun qtypeNum =>
    tracked_readU16.andThen fun _ => tracked_readU32.andThen fun ttl =>
    trackedBy_number.bindOf fun dataLen => .cursor fun rdataStart => tracked_readRdata domain qtypeNum ttl dataLen rdataStart

theorem tracked_readMany {α : Type} {item : Traversal Unit} {action : BufferM α}
    (tracked : Tracked item action) (count : Nat) :
    Tracked (Traversal.many item count) (readMany action count) := by
  induction count with
  | zero => exact tracked_pure () []
  | succ count ih =>
      exact tracked.andThen fun first => ih.map fun rest => first :: rest

theorem tracked_step : Tracked Traversal.stepOver (step 1) where
  moves := by
    intro buffer result after ran
    cases ran
    exact Nat.le_succ _
  tracks := by
    intro message first second same posEq inside
    rw [Traversal.stepOver]
    by_cases within : first.pos + 1 ≤ message.length
    · rw [if_pos within]
      refine ⟨Nat.le_succ _, within, (), trivial, rfl, ?_⟩
      rw [posEq]
      rfl
    · rw [if_neg within]
      intro result after ran
      cases ran
      exact Nat.lt_of_not_le within

theorem tracked_readEdns : Tracked Traversal.edns EdnsOpt.read :=
  tracked_step.andThen fun _ => tracked_readU16.andThen fun _ => tracked_readU16.andThen fun _ =>
    tracked_readU32.andThen fun _ => trackedBy_number.bindOf fun rdlength =>
    (tracked_readOctets rdlength.toNat).andThen fun _ => tracked_pure () _

/-! ## The additional section -/

section Peek

variable {α : Type} {message : List UInt8} {first second buffer : BytePacketBuffer} {pos : Nat}

theorem exec_isOptAt_succ {octet : UInt8} (got : exec (getAt pos) buffer = (.ok octet, buffer)) :
    exec (DnsPacket.isOptAt pos) buffer =
      if octet = 0 then exec (getAt (pos + 1) >>= fun high => getAt (pos + 2) >>= fun low =>
        pure (high.toUInt16 <<< 8 ||| low.toUInt16 == 41)) buffer
      else (.ok false, buffer) := by
  rw [DnsPacket.isOptAt, exec_bind_ok got]
  split <;> rfl

theorem bothFail_isOptAt (outside : bufSize ≤ pos) :
    BothFail (exec (DnsPacket.isOptAt pos) first) (exec (DnsPacket.isOptAt pos) second) :=
  bothFail_bind ⟨.endOfBuffer, by rw [exec_getAt_error outside], by rw [exec_getAt_error outside]⟩

/-- The peek sees the same in both buffers while it stays in the message. -/
theorem peek_tracked (same : SameMessage message first second) (pos : Nat) :
    match Traversal.isOpt message pos with
    | .ok (opt, reached) => reached = pos ∧ exec (DnsPacket.isOptAt pos) first = (.ok opt, first) ∧
        exec (DnsPacket.isOptAt pos) second = (.ok opt, second)
    | .error .malformed => BothFail (exec (DnsPacket.isOptAt pos) first)
        (exec (DnsPacket.isOptAt pos) second)
    | .error .pastEnd => message.length < pos + 3
    | .error .pointedPastEnd => True := by
  have fits := same.fits
  simp only [Traversal.isOpt, bind, Except.bind]
  rcases octetsIn_cases message .pastEnd pos 1 with
    ⟨within, octetsEq⟩ | ⟨outside, octetsEq⟩ | ⟨beyond, octetsEq⟩
  · rw [octetsEq]
    simp only
    have peekFirst := exec_isOptAt_succ (same.exec_getAt within)
    have peekSecond := exec_isOptAt_succ (same.symm.exec_getAt within)
    by_cases root : ((message.drop pos).take 1).getD 0 0 = 0
    · rw [if_pos root] at peekFirst peekSecond ⊢
      rcases octetsIn_cases message .pastEnd (pos + 1) 1 with
        ⟨highWithin, highEq⟩ | ⟨highOutside, highEq⟩ | ⟨highBeyond, highEq⟩
      · rw [highEq]
        simp only
        rw [exec_bind_ok (same.exec_getAt highWithin)] at peekFirst
        rw [exec_bind_ok (same.symm.exec_getAt highWithin)] at peekSecond
        rcases octetsIn_cases message .pastEnd (pos + 2) 1 with
          ⟨lowWithin, lowEq⟩ | ⟨lowOutside, lowEq⟩ | ⟨lowBeyond, lowEq⟩
        · rw [lowEq]
          rw [exec_bind_ok (same.exec_getAt lowWithin)] at peekFirst
          rw [exec_bind_ok (same.symm.exec_getAt lowWithin)] at peekSecond
          exact ⟨rfl, peekFirst, peekSecond⟩
        · rw [lowEq]
          refine ⟨.endOfBuffer, ?_, ?_⟩
          · rw [peekFirst, exec_bind_error (exec_getAt_error (by omega))]
          · rw [peekSecond, exec_bind_error (exec_getAt_error (by omega))]
        · rw [lowEq]
          exact lowBeyond
      · rw [highEq]
        refine ⟨.endOfBuffer, ?_, ?_⟩
        · rw [peekFirst, exec_bind_error (exec_getAt_error (by omega))]
        · rw [peekSecond, exec_bind_error (exec_getAt_error (by omega))]
      · rw [highEq]
        exact Nat.lt_succ_of_lt highBeyond
    · rw [if_neg root] at peekFirst peekSecond ⊢
      exact ⟨rfl, peekFirst, peekSecond⟩
  · rw [octetsEq]
    exact bothFail_isOptAt (by omega)
  · rw [octetsEq]
    exact beyond.trans (by omega)

/-- A reader that moves past the octets that the peek looks at. -/
def PassesPeek (action : BufferM α) : Prop :=
  ∀ ⦃buffer result after⦄, exec action buffer = (.ok result, after) → buffer.pos + 3 ≤ after.pos

/-- What is read may depend on the peek. -/
theorem tracked_peek {walkOpt walkRecord : Traversal Unit} {readOpt readRecord : BufferM α}
    (opt : Tracked walkOpt readOpt) (record : Tracked walkRecord readRecord)
    (optPasses : PassesPeek readOpt) (recordPasses : PassesPeek readRecord) :
    Tracked (Traversal.isOpt >>= fun isOpt => if isOpt then walkOpt else walkRecord)
      (get >>= fun buffer => DnsPacket.isOptAt buffer.pos >>= fun isOpt =>
        if isOpt then readOpt else readRecord) where
  moves := by
    intro buffer result after ran
    rw [exec_get_bind, exec_bind_eq_ok] at ran
    obtain ⟨isOpt, middle, peeked, ran⟩ := ran
    obtain ⟨rfl, -⟩ := exec_isOptAt_eq_ok peeked
    cases isOpt with
    | true => exact opt.moves ran
    | false => exact record.moves ran
  tracks := by
    intro message first second same posEq inside
    have peek := peek_tracked same first.pos
    rw [Traversal.bind_apply, exec_get_bind, exec_get_bind, ← posEq]
    cases walked : Traversal.isOpt message first.pos with
    | ok found =>
        obtain ⟨isOpt, pos⟩ := found
        rw [walked] at peek
        obtain ⟨rfl, peekFirst, peekSecond⟩ := peek
        rw [exec_bind_ok peekFirst, exec_bind_ok peekSecond]
        cases isOpt with
        | true => exact opt.tracks same posEq inside
        | false => exact record.tracks same posEq inside
    | error stop =>
        rw [walked] at peek
        cases stop with
        | malformed => exact bothFail_bind peek
        | pastEnd =>
            intro result after ran
            obtain ⟨isOpt, middle, peeked, ranNext⟩ := exec_bind_eq_ok.mp ran
            obtain ⟨rfl, -⟩ := exec_isOptAt_eq_ok peeked
            refine peek.trans_le ?_
            cases isOpt with
            | true => exact optPasses ranNext
            | false => exact recordPasses ranNext
        | pointedPastEnd => trivial

end Peek

theorem tracked_readResources (count : Nat) (edns : Option EdnsOpt) :
    Tracked (Traversal.resources count) (DnsPacket.readResources count edns) := by
  induction count generalizing edns with
  | zero => exact tracked_pure () _
  | succ count ih =>
      have opt : Tracked (Traversal.edns >>= fun _ => Traversal.resources count)
          (EdnsOpt.read >>= fun opt => DnsPacket.readResources count (some opt)) :=
        tracked_readEdns.andThen fun opt => ih (some opt)
      have record : Tracked (Traversal.record >>= fun _ => Traversal.resources count)
          (DnsRecord.read >>= fun record => DnsPacket.readResources count edns >>= fun rest =>
            pure (record :: rest.1, rest.2)) :=
        tracked_readRecord.andThen fun record =>
          (ih edns).map fun rest => (record :: rest.1, rest.2)
      refine tracked_peek opt record ?_ ?_
      · intro buffer result after ran
        obtain ⟨opt, middle, ranOpt, ranRest⟩ := exec_bind_eq_ok.mp ran
        obtain rfl := exec_readEdns_eq_ok ranOpt
        have further := (ih (some opt)).moves ranRest
        simp only [movedTo_pos] at further
        omega
      · intro buffer result after ran
        obtain ⟨record, middle, ranRecord, ranRest⟩ := exec_bind_eq_ok.mp ran
        have beyond := lt_of_exec_readRecord ranRecord
        have further := ((ih edns).map fun rest => (record :: rest.1, rest.2)).moves ranRest
        omega

/-! ## Whole messages -/

/-- The number of questions and those of the records of each section. -/
def DnsHeader.counts (header : DnsHeader) : UInt16 × UInt16 × UInt16 × UInt16 :=
  (header.questions, header.answers, header.authoritativeEntries, header.resourceEntries)

theorem trackedBy_readHeader :
    TrackedBy (fun counts header => counts = header.counts) Traversal.header DnsHeader.read :=
  tracked_readU16.andThen fun _ => tracked_readU16.andThen fun _ =>
    trackedBy_number.bindOf fun _ => trackedBy_number.bindOf fun _ =>
    trackedBy_number.bindOf fun _ => trackedBy_number.bindOf fun _ => trackedBy_pure rfl

/-- The walk goes along with the parser. -/
theorem tracked_fromBuffer : Tracked Traversal.message DnsPacket.fromBuffer :=
  trackedBy_readHeader.bindOf fun header =>
    (tracked_readMany tracked_readQuestion header.questions.toNat).andThen fun questions =>
    (tracked_readMany tracked_readRecord header.answers.toNat).andThen fun answers =>
    (tracked_readMany tracked_readRecord header.authoritativeEntries.toNat).andThen
      fun authorities => (tracked_readResources header.resourceEntries.toNat none).map
      fun resources => DnsPacket.mk header questions answers authorities resources.1 resources.2

end Numa
