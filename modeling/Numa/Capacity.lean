import Numa.PacketRoundTrip
import Numa.TextLabels

/-!
# The capacity of the buffer

Every writer of a packet either appends the octets of its part or fails, because
they do not fit or because a name in it is broken.  The overflow flag tells the
two failures apart, and the cursor never leaves the buffer.
-/

namespace Numa

open BytePacketBuffer

namespace BytePacketBuffer

variable {α β : Type} {low : Nat} {buffer : BytePacketBuffer}

/-! ## The flag and the cursor -/

/-- What an operation has left: the cursor between `low` and the end of the
buffer, and the flag raised iff the buffer was full. -/
def Settled (low : Nat) (before : BytePacketBuffer) :
    Except BufferError α × BytePacketBuffer → Prop
  | (.ok _, after) => low ≤ after.pos ∧ after.pos ≤ bufSize ∧ after.overflow = before.overflow
  | (.error error, after) =>
    after.pos ≤ bufSize ∧ after.overflow = (before.overflow || decide (error = .endOfBuffer))

/-- The operation keeps the cursor inside the buffer and the flag exact. -/
def Safe (action : BufferM α) : Prop :=
  ∀ buffer : BytePacketBuffer, buffer.pos ≤ bufSize →
    Settled buffer.pos buffer (exec action buffer)

theorem Settled.mono {lower : Nat} {outcome : Except BufferError α × BytePacketBuffer}
    (settled : Settled low buffer outcome) (le : lower ≤ low) : Settled lower buffer outcome := by
  obtain ⟨_ | value, after⟩ := outcome
  · exact settled
  · exact ⟨le.trans settled.1, settled.2⟩

theorem Settled.bind {lower : Nat} {first : BufferM α} {next : α → BufferM β}
    (firstSettled : Settled low buffer (exec first buffer))
    (nextSettled : ∀ value middle, low ≤ middle.pos → middle.pos ≤ bufSize →
      Settled lower middle (exec (next value) middle)) :
    Settled lower buffer (exec (first >>= next) buffer) := by
  rw [exec_bind]
  cases ran : exec first buffer with
  | mk result middle =>
      rw [ran] at firstSettled
      cases result with
      | error error => exact firstSettled
      | ok value =>
          obtain ⟨behind, inside, sameFlag⟩ := firstSettled
          have settled := nextSettled value middle behind inside
          dsimp only
          generalize exec (next value) middle = outcome at settled
          obtain ⟨_ | result, after⟩ := outcome
          · exact ⟨settled.1, by rw [settled.2, sameFlag]⟩
          · exact ⟨settled.1, settled.2.1, settled.2.2.trans sameFlag⟩

theorem Safe.bind {first : BufferM α} {next : α → BufferM β} (firstSafe : Safe first)
    (nextSafe : ∀ value, Safe (next value)) : Safe (first >>= next) := by
  intro buffer inside
  refine (firstSafe buffer inside).bind fun value middle behind middleInside => ?_
  exact (nextSafe value middle middleInside).mono behind

theorem safe_pure (value : α) : Safe (pure value) := by
  intro buffer inside
  exact ⟨le_rfl, inside, rfl⟩

theorem safe_get_bind {next : BytePacketBuffer → BufferM β} (nextSafe : ∀ state, Safe (next state)) :
    Safe (get >>= next) := by
  intro buffer inside
  rw [exec_get_bind]
  exact nextSafe buffer buffer inside

theorem settled_throw (inside : buffer.pos ≤ bufSize) {error : BufferError}
    (other : error ≠ .endOfBuffer) :
    Settled low buffer (exec (throw error : BufferM α) buffer) := by
  refine ⟨inside, ?_⟩
  rw [decide_eq_false other, Bool.or_false]

theorem safe_write (val : UInt8) : Safe (write val) := by
  intro buffer inside
  by_cases room : buffer.pos < bufSize
  · obtain ⟨after, ran, extended⟩ := exec_write_fits room val
    have posEq : after.pos = buffer.pos + 1 := extended.pos
    rw [ran]
    exact ⟨by omega, by omega, extended.overflow⟩
  · rw [exec_write_overflow (by omega)]
    exact ⟨inside, by simp⟩

theorem safe_writeBytes (data : List UInt8) : Safe (writeBytes data) := by
  intro buffer inside
  simp only [writeBytes, exec_get_bind]
  split
  · rename_i fits
    exact ⟨Nat.le_add_right _ _, fits, rfl⟩
  · exact ⟨inside, by simp⟩

theorem safe_writeU16 (val : UInt16) : Safe (writeU16 val) :=
  (safe_write _).bind fun _ => safe_write _

theorem safe_writeU32 (val : UInt32) : Safe (writeU32 val) :=
  (safe_write _).bind fun _ => (safe_write _).bind fun _ => (safe_write _).bind fun _ =>
    safe_write _

theorem safe_checkLabel (bodyStart : Nat) : Safe (checkLabel bodyStart) := by
  intro buffer inside
  simp only [checkLabel, exec_get_bind]
  split
  · exact settled_throw inside (by decide)
  · exact ⟨le_rfl, inside, rfl⟩

/-- A label is closed without leaving the buffer: its length octet is in front
of the cursor. -/
theorem settled_closeLabel {lenPos : Nat} (inside : buffer.pos ≤ bufSize) (front : lenPos < buffer.pos)
    (bodyStart : Nat) (atEnd : Bool) :
    Settled lenPos buffer (exec (closeLabel lenPos bodyStart atEnd) buffer) := by
  simp only [closeLabel, exec_get_bind]
  split
  · exact ⟨le_rfl, front.le.trans inside, rfl⟩
  · rw [exec_setAt (by omega)]
    exact ⟨front.le, inside, rfl⟩

/-- An octet of a label, and what follows it. -/
theorem settled_octet {lenPos : Nat} (inside : buffer.pos ≤ bufSize) (front : lenPos < buffer.pos)
    (val : UInt8) (bodyStart : Nat) {next : BufferM Unit}
    (nextSettled : ∀ after : BytePacketBuffer, after.pos ≤ bufSize → lenPos < after.pos →
      Settled lenPos after (exec next after)) :
    Settled lenPos buffer (exec (do write val; checkLabel bodyStart; next) buffer) := by
  refine (safe_write val buffer inside).bind fun _ middle behind middleInside => ?_
  refine (safe_checkLabel bodyStart middle middleInside).bind fun _ after later afterInside => ?_
  exact nextSettled after afterInside (by omega)

/-- A label is begun with an octet for its length. -/
theorem settled_startLabel {rest : Text} (inside : buffer.pos ≤ bufSize)
    (restSettled : ∀ bodyStart, ∀ after : BytePacketBuffer, after.pos ≤ bufSize →
      buffer.pos < after.pos →
        Settled buffer.pos after (exec (writeLabels buffer.pos bodyStart rest) after)) :
    Settled buffer.pos buffer (exec (startLabel rest) buffer) := by
  rw [startLabel, exec_get_bind]
  by_cases room : buffer.pos < bufSize
  · obtain ⟨after, ran, extended⟩ := exec_write_fits room 0
    have posEq : after.pos = buffer.pos + 1 := extended.pos
    have settled := restSettled after.pos after (by omega) (by omega)
    rw [exec_bind_ok ran, exec_get_bind]
    generalize exec (writeLabels buffer.pos after.pos rest) after = outcome at settled
    rcases outcome with ⟨_ | _, last⟩
    · exact ⟨settled.1, by rw [settled.2, extended.overflow]⟩
    · exact ⟨settled.1, settled.2.1, settled.2.2.trans extended.overflow⟩
  · rw [exec_bind_error (exec_write_overflow (by omega) 0)]
    exact ⟨inside, by simp⟩

theorem settled_writeLabels {lenPos : Nat} (bodyStart : Nat) (name : Text)
    (inside : buffer.pos ≤ bufSize) (front : lenPos < buffer.pos) :
    Settled lenPos buffer (exec (writeLabels lenPos bodyStart name) buffer) := by
  fun_induction writeLabels lenPos bodyStart name generalizing buffer
  case case1 => exact settled_closeLabel inside front _ true
  case case2 lenPos bodyStart rest ih =>
    -- the next label starts where the one before it ends, or in its place
    refine (settled_closeLabel inside front _ false).bind fun _ middle behind middleInside => ?_
    split
    · exact ⟨behind, middleInside, rfl⟩
    · have settled : Settled middle.pos middle (exec (startLabel rest) middle) :=
        settled_startLabel middleInside fun bodyStart after afterInside later =>
          ih middle { middle with pos := bodyStart } afterInside later
      exact settled.mono behind
  case case3 => exact settled_throw inside (by decide)
  case case4 => exact settled_throw inside (by simp)
  case case5 ih => exact settled_octet inside front _ _ fun after => ih
  case case6 => exact settled_throw inside (by decide)
  case case7 => exact settled_throw inside (by decide)
  case case8 ih => exact settled_octet inside front _ _ fun after => ih
  case case9 ih => exact settled_octet inside front _ _ fun after => ih

theorem safe_writeQname (name : Text) : Safe (writeQname name) := by
  intro buffer inside
  rw [writeQname]
  split
  · exact safe_write 0 buffer inside
  · have split : (do
        let lenPos := (← get).pos
        write 0
        writeLabels lenPos (← get).pos name
        write 0) = startLabel name >>= fun _ => write 0 := by
      simp only [startLabel, bind_assoc]
    rw [split]
    have begun := settled_startLabel inside fun bodyStart after afterInside later =>
      settled_writeLabels bodyStart name afterInside later
    refine begun.bind fun _ middle behind middleInside => ?_
    exact (safe_write 0 middle middleInside).mono behind

/-- An operation that succeeds has moved the cursor past its octets. -/
theorem Safe.settled {action : BufferM α} {octets : List UInt8} (safe : Safe action)
    (writes : Writes action octets) (inside : buffer.pos ≤ bufSize) :
    Settled (buffer.pos + octets.length) buffer (exec action buffer) := by
  have settled := safe buffer inside
  obtain ⟨fits, overflows⟩ := writes buffer inside
  by_cases room : buffer.pos + octets.length ≤ bufSize
  · obtain ⟨value, after, ran, extended⟩ := fits room
    rw [ran] at settled ⊢
    exact ⟨extended.pos.ge, settled.2⟩
  · obtain ⟨after, failed, -⟩ := overflows (by omega)
    rw [failed] at settled ⊢
    exact settled

/-- Data whose length is patched in: the cursor is behind the length. -/
theorem safe_writePatched {rdata : BufferM Unit} (rdataSafe : Safe rdata) :
    Safe (DnsRecord.writePatched rdata) := by
  intro buffer inside
  have two : (beBytes16 0).length = 2 := rfl
  have lengthField := (safe_writeU16 0).settled (writes_writeU16 0) inside
  rw [two] at lengthField
  rw [DnsRecord.writePatched, exec_get_bind]
  refine lengthField.bind fun _ middle behind middleInside => ?_
  refine (rdataSafe middle middleInside).bind fun _ after later afterInside => ?_
  obtain ⟨last, ran, -, posEq, flagEq⟩ := exec_setU16 after (by omega : buffer.pos + 1 < bufSize)
    (after.pos - (buffer.pos + 2)).toUInt16
  rw [exec_get_bind, ran]
  exact ⟨by omega, by omega, flagEq⟩

end BytePacketBuffer

/-! ## What a packet is written as -/

/-- Octets put together, if there are all of them. -/
def joinParts : List (Option (List UInt8)) → Option (List UInt8)
  | [] => some []
  | part :: parts => part.bind fun octets => (joinParts parts).map (octets ++ ·)

theorem joinParts_append (parts others : List (Option (List UInt8))) :
    joinParts (parts ++ others) =
      (joinParts parts).bind fun octets => (joinParts others).map (octets ++ ·) := by
  induction parts with
  | nil => simp [joinParts]
  | cons part parts ih =>
      rw [List.cons_append, joinParts, joinParts, ih]
      cases part with
      | none => rfl
      | some octets =>
          cases joinParts parts with
          | none => rfl
          | some behind => cases joinParts others <;> simp

theorem joinParts_map_some {α : Type} (encode : α → List UInt8) (items : List α) :
    joinParts (items.map fun item => some (encode item)) = some (items.flatMap encode) := by
  induction items with
  | nil => rfl
  | cons item items ih => rw [List.map_cons, joinParts, ih, List.flatMap_cons]; rfl

theorem joinParts_isSome_iff (parts : List (Option (List UInt8))) :
    (joinParts parts).isSome = true ↔ ∀ part ∈ parts, part.isSome = true := by
  induction parts with
  | nil => simp [joinParts]
  | cons part parts ih =>
      rw [joinParts, List.forall_mem_cons, ← ih]
      cases part <;> simp

/-- A name on the wire, without pointers. -/
def nameOctets (name : Text) : Option (List UInt8) :=
  (textLabels name).map wireName

theorem nameOctets_isSome_iff (name : Text) :
    (nameOctets name).isSome = true ↔ ¬ IsBroken name := by
  rw [nameOctets, Option.isSome_map, ← textLabels_eq_none_iff, Option.isSome_iff_ne_none]

def DnsQuestion.encoded (question : DnsQuestion) : Option (List UInt8) :=
  joinParts
    [nameOctets question.name, some (beBytes16 question.qtype.toNum), some (beBytes16 1)]

namespace DnsRecord

/-- The fields of the record data. -/
def rdataParts : DnsRecord → List (Option (List UInt8))
  | a _ addr _ => [some addr.toList]
  | ns _ host _ => [nameOctets host]
  | cname _ host _ => [nameOctets host]
  | ptr _ host _ => [nameOctets host]
  | mx _ priority host _ => [some (beBytes16 priority), nameOctets host]
  | soa start =>
    [nameOctets start.mname, nameOctets start.rname, some (beBytes32 start.serial),
      some (beBytes32 start.refresh), some (beBytes32 start.retry), some (beBytes32 start.expire),
      some (beBytes32 start.minimum)]
  | aaaa _ addr _ => [some addr.toList]
  | dnskey key =>
    [some (beBytes16 key.flags), some [key.protocol], some [key.algorithm], some key.publicKey]
  | ds delegation =>
    [some (beBytes16 delegation.keyTag), some [delegation.algorithm],
      some [delegation.digestType], some delegation.digest]
  | rrsig sig =>
    [some (beBytes16 sig.typeCovered), some [sig.algorithm], some [sig.labels],
      some (beBytes32 sig.originalTtl), some (beBytes32 sig.expiration),
      some (beBytes32 sig.inception), some (beBytes16 sig.keyTag), nameOctets sig.signerName,
      some sig.signature]
  | nsec denial => [nameOctets denial.nextDomain, some denial.typeBitmap]
  | nsec3 denial =>
    [some [denial.hashAlgorithm], some [denial.flags], some (beBytes16 denial.iterations),
      some [denial.salt.length.toUInt8], some denial.salt,
      some [denial.nextHashedOwner.length.toUInt8], some denial.nextHashedOwner,
      some denial.typeBitmap]
  | unknown _ _ data _ => [some data]

def encoded (record : DnsRecord) : Option (List UInt8) :=
  (nameOctets record.domain).bind fun owner => (joinParts record.rdataParts).map fun rdata =>
    recordOctets owner record.queryType.toNum record.ttl rdata

end DnsRecord

/-- The uncompressed encodings of all parts of a packet. -/
def DnsPacket.encoded (packet : DnsPacket) : Option (List UInt8) :=
  joinParts (some packet.countedHeader.octets ::
    (packet.questions.map DnsQuestion.encoded ++ (packet.answers.map DnsRecord.encoded ++
      (packet.authorities.map DnsRecord.encoded ++ (packet.resources.map DnsRecord.encoded ++
        [some (ednsOctets packet.edns)])))))

/-! ## Writers -/

/-- The operation appends these octets if there are any and they fit, and keeps
the flag exact. -/
structure Encodes {α : Type} (action : BufferM α) (octets : Option (List UInt8)) : Prop where
  writes : WritesIf action octets
  safe : Safe action

section Encodes

variable {α β : Type} {before later : Option (List UInt8)}

theorem Encodes.bind {first : BufferM α} {next : α → BufferM β} (firstEncodes : Encodes first before)
    (nextEncodes : ∀ value, Encodes (next value) later) :
    Encodes (first >>= next) (before.bind fun octets => later.map (octets ++ ·)) where
  writes := firstEncodes.writes.bind fun value => (nextEncodes value).writes
  safe := firstEncodes.safe.bind fun value => (nextEncodes value).safe

theorem encodes_pure (value : α) : Encodes (pure value) (some []) :=
  ⟨writes_pure value, safe_pure value⟩

theorem encodes_write (val : UInt8) : Encodes (write val) (some [val]) :=
  ⟨writes_write val, safe_write val⟩

theorem encodes_writeU16 (val : UInt16) : Encodes (writeU16 val) (some (beBytes16 val)) :=
  ⟨writes_writeU16 val, safe_writeU16 val⟩

theorem encodes_writeU32 (val : UInt32) : Encodes (writeU32 val) (some (beBytes32 val)) :=
  ⟨writes_writeU32 val, safe_writeU32 val⟩

theorem encodes_writeBytes (data : List UInt8) : Encodes (writeBytes data) (some data) :=
  ⟨writes_writeBytes data, safe_writeBytes data⟩

theorem encodes_writeQname (name : Text) : Encodes (writeQname name) (nameOctets name) :=
  ⟨writesIf_writeQname name, safe_writeQname name⟩

theorem joinParts_singleton (part : Option (List UInt8)) : joinParts [part] = part := by
  cases part <;> simp [joinParts]

/-- The last part. -/
theorem Encodes.last {action : BufferM α} {part : Option (List UInt8)}
    (encodes : Encodes action part) : Encodes action (joinParts [part]) := by
  rwa [joinParts_singleton]

theorem encodes_forM {item : α → BufferM PUnit} {encode : α → Option (List UInt8)}
    (itemEncodes : ∀ entry, Encodes (item entry) (encode entry)) (items : List α) :
    Encodes (items.forM item) (joinParts (items.map encode)) := by
  induction items with
  | nil => exact encodes_pure _
  | cons entry items ih =>
      exact (itemEncodes entry).bind fun _ => ih

theorem encodes_get_bind {next : BytePacketBuffer → BufferM β}
    (nextEncodes : ∀ state, Encodes (next state) later) : Encodes (get >>= next) later where
  writes := by
    cases later with
    | none => exact fun buffer inside => (nextEncodes buffer).writes buffer inside
    | some octets => exact writes_get_bind fun state => (nextEncodes state).writes
  safe := safe_get_bind fun state => (nextEncodes state).safe

/-- An operation followed by one that writes nothing. -/
theorem Encodes.silent {first : BufferM α} {next : α → BufferM β}
    (firstEncodes : Encodes first before) (nextEncodes : ∀ value, Encodes (next value) (some [])) :
    Encodes (first >>= next) before := by
  have both := firstEncodes.bind nextEncodes
  simpa using both

/-- Data whose length is patched in. -/
theorem Encodes.patched {rdata : BufferM Unit} (encodes : Encodes rdata later) :
    Encodes (DnsRecord.writePatched rdata)
      (later.map fun octets => beBytes16 octets.length.toUInt16 ++ octets) :=
  ⟨writesIf_writePatched encodes.writes, safe_writePatched encodes.safe⟩

/-- Data whose length is known before they are written. -/
theorem Encodes.sized {data : BufferM Unit} {octets : List UInt8} {length : UInt16}
    (encodes : Encodes data (some octets)) (lengthEq : length = octets.length.toUInt16) :
    Encodes (do writeU16 length; data) (some (beBytes16 octets.length.toUInt16 ++ octets)) := by
  rw [lengthEq]
  exact (encodes_writeU16 _).bind fun _ => encodes

end Encodes

namespace DnsRecord

theorem encodes_header (domain : Text) (qtype : UInt16) (ttl : UInt32) {data : BufferM Unit}
    {rdata : Option (List UInt8)}
    (encodes : Encodes data (rdata.map fun rdata => beBytes16 rdata.length.toUInt16 ++ rdata)) :
    Encodes (do writeHeader domain qtype ttl; data)
      ((nameOctets domain).bind fun owner => rdata.map fun rdata =>
        recordOctets owner qtype ttl rdata) := by
  have written := (encodes_writeQname domain).bind fun _ => (encodes_writeU16 qtype).bind fun _ =>
    (encodes_writeU16 1).bind fun _ => (encodes_writeU32 ttl).bind fun _ => encodes
  simp only [writeHeader, bind_assoc]
  cases owner : nameOctets domain with
  | none => simpa [owner] using written
  | some octets => cases rdata <;> simpa [owner, recordOctets] using written

/-- The writers of the types whose length is patched in. -/
theorem encodes_patched {record : DnsRecord} {rdata : BufferM Unit}
    (encodes : Encodes rdata (joinParts record.rdataParts))
    (writeEq : record.writeFields = do
      writeHeader record.domain record.queryType.toNum record.ttl
      writePatched rdata) : Encodes record.writeFields record.encoded := by
  rw [writeEq]
  exact encodes_header _ _ _ encodes.patched

/-- The writers of the types whose length is known. -/
theorem encodes_sized {record : DnsRecord} {data : BufferM Unit} {octets : List UInt8}
    {length : UInt16} (encodes : Encodes data (joinParts record.rdataParts))
    (parts : joinParts record.rdataParts = some octets)
    (lengthEq : length = octets.length.toUInt16)
    (writeEq : record.writeFields = do
      writeHeader record.domain record.queryType.toNum record.ttl
      writeU16 length
      data) : Encodes record.writeFields record.encoded := by
  rw [writeEq]
  refine encodes_header _ _ _ ?_
  rw [parts] at encodes ⊢
  exact encodes.sized lengthEq

theorem encodes_writeFields (record : DnsRecord) : Encodes record.writeFields record.encoded := by
  cases record with
  | unknown domain qtype data ttl =>
      exact encodes_sized (encodes_writeBytes data).last (joinParts_singleton _) rfl rfl
  | a domain addr ttl =>
      refine encodes_sized (encodes_writeBytes addr.toList).last (joinParts_singleton _) ?_ rfl
      rw [Vector.length_toList]
      rfl
  | ns domain host ttl => exact encodes_patched (encodes_writeQname host).last rfl
  | soa start =>
      refine encodes_patched ?_ rfl
      exact (encodes_writeQname _).bind fun _ => (encodes_writeQname _).bind fun _ =>
        (encodes_writeU32 _).bind fun _ => (encodes_writeU32 _).bind fun _ =>
        (encodes_writeU32 _).bind fun _ => (encodes_writeU32 _).bind fun _ =>
        (encodes_writeU32 _).last
  | cname domain host ttl => exact encodes_patched (encodes_writeQname host).last rfl
  | ptr domain host ttl => exact encodes_patched (encodes_writeQname host).last rfl
  | mx domain priority host ttl =>
      exact encodes_patched ((encodes_writeU16 _).bind fun _ => (encodes_writeQname host).last) rfl
  | aaaa domain addr ttl =>
      have segments : Encodes ((segmentsOf addr.toList).forM writeU16) (some addr.toList) := by
        have written := encodes_forM encodes_writeU16 (segmentsOf addr.toList)
        rwa [joinParts_map_some, flatMap_segmentsOf (by simp)] at written
      refine encodes_sized segments.last (joinParts_singleton _) ?_ rfl
      rw [Vector.length_toList]
      rfl
  | dnskey key =>
      refine encodes_sized ?_ (joinParts_map_some id
        [beBytes16 key.flags, [key.protocol], [key.algorithm], key.publicKey]) ?_ rfl
      · exact (encodes_writeU16 _).bind fun _ => (encodes_write _).bind fun _ =>
          (encodes_write _).bind fun _ => (encodes_writeBytes _).last
      · refine congrArg Nat.toUInt16 ?_
        simp [beBytes16]
        omega
  | ds delegation =>
      refine encodes_sized ?_ (joinParts_map_some id
        [beBytes16 delegation.keyTag, [delegation.algorithm], [delegation.digestType],
          delegation.digest]) ?_ rfl
      · exact (encodes_writeU16 _).bind fun _ => (encodes_write _).bind fun _ =>
          (encodes_write _).bind fun _ => (encodes_writeBytes _).last
      · refine congrArg Nat.toUInt16 ?_
        simp [beBytes16]
        omega
  | rrsig sig =>
      refine encodes_patched ?_ rfl
      exact (encodes_writeU16 _).bind fun _ => (encodes_write _).bind fun _ =>
        (encodes_write _).bind fun _ => (encodes_writeU32 _).bind fun _ =>
        (encodes_writeU32 _).bind fun _ => (encodes_writeU32 _).bind fun _ =>
        (encodes_writeU16 _).bind fun _ => (encodes_writeQname _).bind fun _ =>
        (encodes_writeBytes _).last
  | nsec denial =>
      exact encodes_patched
        ((encodes_writeQname _).bind fun _ => (encodes_writeBytes _).last) rfl
  | nsec3 denial =>
      refine encodes_sized ?_ (joinParts_map_some id
        [[denial.hashAlgorithm], [denial.flags], beBytes16 denial.iterations,
          [denial.salt.length.toUInt8], denial.salt, [denial.nextHashedOwner.length.toUInt8],
          denial.nextHashedOwner, denial.typeBitmap]) ?_ rfl
      · exact (encodes_write _).bind fun _ => (encodes_write _).bind fun _ =>
          (encodes_writeU16 _).bind fun _ => (encodes_write _).bind fun _ =>
          (encodes_writeBytes _).bind fun _ => (encodes_write _).bind fun _ =>
          (encodes_writeBytes _).bind fun _ => (encodes_writeBytes _).last
      · refine congrArg Nat.toUInt16 ?_
        simp [beBytes16]
        omega

/-- The number of octets that the writer returns is not used. -/
theorem encodes_write (record : DnsRecord) : Encodes (discard record.write) record.encoded := by
  have written : Encodes record.write record.encoded :=
    encodes_get_bind fun start => record.encodes_writeFields.silent fun _ =>
      encodes_get_bind fun stop => encodes_pure (stop.pos - start.pos)
  exact written.silent fun _ => encodes_pure ()

end DnsRecord

theorem DnsQuestion.encodes_write (question : DnsQuestion) :
    Encodes question.write question.encoded :=
  (encodes_writeQname _).bind fun _ => (encodes_writeU16 _).bind fun _ => (encodes_writeU16 _).last

theorem EdnsOpt.encodes_write (edns : EdnsOpt) : Encodes edns.write (some edns.octets) := by
  refine ⟨edns.writes_write, ?_⟩
  exact (safe_write _).bind fun _ => (safe_writeU16 _).bind fun _ => (safe_writeU16 _).bind fun _ =>
    (safe_writeU32 _).bind fun _ => (safe_writeU16 _).bind fun _ => safe_writeBytes _

theorem DnsHeader.encodes_write (header : DnsHeader) :
    Encodes header.write (some header.octets) := by
  refine ⟨header.writes_write, ?_⟩
  exact (safe_writeU16 _).bind fun _ => (safe_write _).bind fun _ => (safe_write _).bind fun _ =>
    (safe_writeU16 _).bind fun _ => (safe_writeU16 _).bind fun _ => (safe_writeU16 _).bind fun _ =>
    safe_writeU16 _

theorem DnsQuestion.encoded_isSome_iff (question : DnsQuestion) :
    question.encoded.isSome = true ↔ ¬ IsBroken question.name := by
  simp [DnsQuestion.encoded, joinParts_isSome_iff, nameOctets_isSome_iff]

theorem DnsRecord.encoded_isSome_iff (record : DnsRecord) :
    record.encoded.isSome = true ↔ ∀ name ∈ record.names, ¬ IsBroken name := by
  have parts : record.encoded.isSome = true ↔
      ¬ IsBroken record.domain ∧ ∀ part ∈ record.rdataParts, part.isSome = true := by
    rw [← joinParts_isSome_iff, ← nameOctets_isSome_iff, DnsRecord.encoded]
    cases nameOctets record.domain <;> simp
  rw [parts]
  cases record <;> simp [DnsRecord.domain, rdataParts, names, nameOctets_isSome_iff]

namespace DnsPacket

theorem encodes_write (packet : DnsPacket) : Encodes packet.write packet.encoded := by
  rw [encoded, joinParts, joinParts_append, joinParts_append, joinParts_append, joinParts_append]
  refine packet.countedHeader.encodes_write.bind fun _ =>
    (encodes_forM DnsQuestion.encodes_write _).bind fun _ =>
    (encodes_forM DnsRecord.encodes_write _).bind fun _ =>
    (encodes_forM DnsRecord.encodes_write _).bind fun _ =>
    (encodes_forM DnsRecord.encodes_write _).bind fun _ => Encodes.last ?_
  cases packet.edns with
  | none => exact encodes_pure ()
  | some edns => exact edns.encodes_write

/-- A packet has an encoding iff none of its names is broken. -/
theorem encoded_isSome_iff (packet : DnsPacket) :
    packet.encoded.isSome = true ↔ ∀ name ∈ packet.names, ¬ IsBroken name := by
  have questions : (∀ part ∈ packet.questions.map DnsQuestion.encoded, part.isSome = true) ↔
      ∀ name ∈ packet.questions.map DnsQuestion.name, ¬ IsBroken name := by
    simp only [List.forall_mem_map, DnsQuestion.encoded_isSome_iff]
  have inSection : ∀ records : List DnsRecord,
      (∀ part ∈ records.map DnsRecord.encoded, part.isSome = true) ↔
        ∀ name ∈ records.flatMap DnsRecord.names, ¬ IsBroken name := by
    intro records
    simp only [List.forall_mem_map, DnsRecord.encoded_isSome_iff, List.forall_mem_flatMap]
  rw [encoded, joinParts_isSome_iff, List.forall_mem_cons]
  simp only [List.forall_mem_append, questions, inSection, names, records, List.flatMap_append,
    List.forall_mem_singleton, Option.isSome_some, true_and, and_true, and_assoc]

end DnsPacket

/-! ## Any sequence of writes -/

/-- An operation of the buffer that writes. -/
inductive WriteOperation
  | write (val : UInt8)
  | writeU16 (val : UInt16)
  | writeU32 (val : UInt32)
  | writeQname (name : Text)
  | writeBytes (data : List UInt8)
  | set (pos : Nat) (val : UInt8)
  | setU16 (pos : Nat) (val : UInt16)

def WriteOperation.action : WriteOperation → BufferM Unit
  | write val => BytePacketBuffer.write val
  | writeU16 val => BytePacketBuffer.writeU16 val
  | writeU32 val => BytePacketBuffer.writeU32 val
  | writeQname name => BytePacketBuffer.writeQname name
  | writeBytes data => BytePacketBuffer.writeBytes data
  | set pos val => setAt pos val
  | setU16 pos val => BytePacketBuffer.setU16 pos val

/-- The buffer after an operation, whether or not it failed. -/
def WriteOperation.perform (buffer : BytePacketBuffer) (operation : WriteOperation) :
    BytePacketBuffer :=
  (exec operation.action buffer).2

theorem BytePacketBuffer.Safe.inside {α : Type} {action : BufferM α} (safe : Safe action)
    {buffer : BytePacketBuffer} (inside : buffer.pos ≤ bufSize) :
    (exec action buffer).2.pos ≤ bufSize := by
  have settled := safe buffer inside
  generalize exec action buffer = outcome at settled
  obtain ⟨_ | value, after⟩ := outcome
  · exact settled.1
  · exact settled.2.1

theorem pos_exec_setAt (buffer : BytePacketBuffer) (pos : Nat) (val : UInt8) :
    (exec (setAt pos val) buffer).2.pos = buffer.pos := by
  simp only [setAt, exec_get_bind]
  split <;> rfl

theorem pos_exec_setU16 (buffer : BytePacketBuffer) (pos : Nat) (val : UInt16) :
    (exec (setU16 pos val) buffer).2.pos = buffer.pos := by
  have first := pos_exec_setAt buffer pos (val >>> 8).toUInt8
  rw [setU16, exec_bind]
  cases ran : exec (setAt pos (val >>> 8).toUInt8) buffer with
  | mk result middle =>
      rw [ran] at first
      cases result with
      | error error => exact first
      | ok value => exact (pos_exec_setAt middle _ _).trans first

theorem WriteOperation.perform_inside {buffer : BytePacketBuffer} (inside : buffer.pos ≤ bufSize)
    (operation : WriteOperation) : (operation.perform buffer).pos ≤ bufSize := by
  cases operation with
  | write val => exact (safe_write val).inside inside
  | writeU16 val => exact (safe_writeU16 val).inside inside
  | writeU32 val => exact (safe_writeU32 val).inside inside
  | writeQname name => exact (safe_writeQname name).inside inside
  | writeBytes data => exact (safe_writeBytes data).inside inside
  | set pos val => exact (pos_exec_setAt buffer pos val).trans_le inside
  | setU16 pos val => exact (pos_exec_setU16 buffer pos val).trans_le inside

theorem foldl_perform_inside {buffer : BytePacketBuffer} (inside : buffer.pos ≤ bufSize)
    (operations : List WriteOperation) :
    (operations.foldl WriteOperation.perform buffer).pos ≤ bufSize := by
  induction operations generalizing buffer with
  | nil => exact inside
  | cons operation operations ih => exact ih (operation.perform_inside inside)

namespace DnsPacket

/-- A packet with an encoding is written iff the encoding fits, and overflows
the buffer otherwise. -/
theorem exec_write_of_encoded {packet : DnsPacket} {octets : List UInt8}
    (encoded : packet.encoded = some octets) :
    (octets.length ≤ bufSize ∧ ∃ after, exec packet.write .new = (.ok (), after) ∧
        after.pos = octets.length ∧ after.filled = octets) ∨
      (bufSize < octets.length ∧ ∃ after, exec packet.write .new = (.error .endOfBuffer, after) ∧
        after.overflow = true) := by
  have writes := packet.encodes_write.writes
  rw [encoded] at writes
  obtain ⟨fits, overflows⟩ := writes .new (Nat.zero_le _)
  have start : BytePacketBuffer.new.pos + octets.length = octets.length := Nat.zero_add _
  rw [start] at fits overflows
  rcases Nat.lt_or_ge bufSize octets.length with long | short
  · exact .inr ⟨long, overflows long⟩
  · obtain ⟨value, after, ran, extended⟩ := fits short
    refine .inl ⟨short, after, ran, extended.pos.trans start, ?_⟩
    rw [extended.filled (Nat.zero_le _)]
    rfl

/-- A packet without an encoding is not written. -/
theorem exec_write_of_encoded_eq_none {packet : DnsPacket} (broken : packet.encoded = none) :
    ∃ error after, exec packet.write .new = (.error error, after) := by
  have writes := packet.encodes_write.writes
  rw [broken] at writes
  exact writes .new (Nat.zero_le _)

/-- The capacity is exact.  A packet without broken names is written iff its
encoding has at most as many octets as the buffer, and the overflow flag is
raised iff it has more; a failure without the flag is due to a broken name. -/
theorem write_capacity (packet : DnsPacket) :
    ((∀ name ∈ packet.names, ¬ IsBroken name) →
      ∃ octets, packet.encoded = some octets ∧
        ((exec packet.write .new).1 = .ok () ↔ octets.length ≤ bufSize) ∧
        ((exec packet.write .new).1 = .ok () →
          (exec packet.write .new).2.pos = octets.length ∧
            (exec packet.write .new).2.filled = octets) ∧
        ((exec packet.write .new).1 ≠ .ok () → (exec packet.write .new).2.overflow = true)) ∧
      ((exec packet.write .new).1 ≠ .ok () → (exec packet.write .new).2.overflow = false →
        ∃ name ∈ packet.names, IsBroken name) ∧
      (exec packet.write .new).2.pos ≤ bufSize ∧
      ∀ operations : List WriteOperation,
        (operations.foldl WriteOperation.perform .new).pos ≤ bufSize := by
  have sound : (∀ name ∈ packet.names, ¬ IsBroken name) →
      ∃ octets, packet.encoded = some octets ∧
        ((exec packet.write .new).1 = .ok () ↔ octets.length ≤ bufSize) ∧
        ((exec packet.write .new).1 = .ok () →
          (exec packet.write .new).2.pos = octets.length ∧
            (exec packet.write .new).2.filled = octets) ∧
        ((exec packet.write .new).1 ≠ .ok () → (exec packet.write .new).2.overflow = true) := by
    intro whole
    obtain ⟨octets, encoded⟩ := Option.isSome_iff_exists.mp (packet.encoded_isSome_iff.mpr whole)
    refine ⟨octets, encoded, ?_⟩
    rcases exec_write_of_encoded encoded with
      ⟨short, after, ran, posEq, filledEq⟩ | ⟨long, after, failed, overflowed⟩
    · rw [ran]
      exact ⟨iff_of_true rfl short, fun _ => ⟨posEq, filledEq⟩, fun failed => absurd rfl failed⟩
    · rw [failed]
      exact ⟨iff_of_false nofun (by omega), nofun, fun _ => overflowed⟩
  refine ⟨sound, fun failed noFlag => ?_, packet.encodes_write.safe.inside (Nat.zero_le _),
    foldl_perform_inside (Nat.zero_le _)⟩
  by_contra whole
  obtain ⟨_, -, -, -, overflows⟩ := sound fun name mem broken => whole ⟨name, mem, broken⟩
  rw [overflows failed] at noFlag
  cases noFlag

end DnsPacket

end Numa
