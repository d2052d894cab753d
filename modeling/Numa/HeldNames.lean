import Numa.CnameChase
import Numa.DenotedName
import Numa.OverrideStore
import Numa.PacketRoundTrip
import Numa.ZoneMap

/-!
# The names the program holds

Names come from packets, from overrides and from the configuration, and of these
only a part can be written: the doors do not check what the writer checks.
-/

namespace Numa

open BytePacketBuffer

/-- `write_qname` writes the name into a fresh buffer, in at most 255 octets. -/
def NameWritable (name : Text) : Prop :=
  ∃ buffer, exec (writeQname name) .new = (.ok (), buffer) ∧ buffer.filled.length ≤ 255

/-- The text has no broken escape, its labels have at most 63 octets, and the
name has at most 255 octets on the wire. -/
def ValidName (name : Text) : Prop :=
  ∃ labels ∈ textLabels name, (wireName labels).length ≤ 255

instance (name : Text) : Decidable (ValidName name) :=
  inferInstanceAs (Decidable (∃ labels ∈ textLabels name, _))

theorem filled_of_extends_new {octets : List UInt8} {buffer : BytePacketBuffer}
    (extended : Extends .new octets buffer) : buffer.filled = octets := by
  rw [extended.filled (Nat.zero_le _)]
  rfl

theorem nameWritable_iff (name : Text) : NameWritable name ↔ ValidName name := by
  have settles : Settles .new (exec (writeQname name) .new) (textLabels name) :=
    settles_writeQname (Nat.zero_le _) name
  constructor
  · rintro ⟨buffer, ran, short⟩
    rw [ran] at settles
    cases found : textLabels name with
    | none =>
        rw [found] at settles
        obtain ⟨error, failed⟩ := settles
        cases failed
    | some labels =>
        rw [found] at settles
        refine ⟨labels, found, ?_⟩
        by_cases fits : (wireName labels).length ≤ bufSize
        · obtain ⟨-, extended⟩ := settles.1 (by simpa [BytePacketBuffer.new] using fits)
          rwa [filled_of_extends_new extended] at short
        · obtain ⟨failed, -⟩ := settles.2 (by simpa [BytePacketBuffer.new] using fits)
          cases failed
  · rintro ⟨labels, found, short⟩
    have fits : BytePacketBuffer.new.pos + (wireName labels).length ≤ bufSize := by
      simp only [BytePacketBuffer.new, bufSize]
      omega
    rw [Option.mem_def.mp found] at settles
    obtain ⟨done, extended⟩ := settles.1 fits
    exact ⟨_, Prod.ext done rfl, by rwa [filled_of_extends_new extended]⟩

/-- A name with labels of at most 63 octets is writable unless it is too long. -/
theorem nameWritable_nameText {labels : List (List UInt8)}
    (areLabels : ∀ label ∈ labels, IsWireLabel label) :
    NameWritable (nameText labels) ↔ (wireName labels).length ≤ 255 := by
  obtain ⟨fits, overflows⟩ := writes_writeQname areLabels .new (Nat.zero_le _)
  constructor
  · rintro ⟨buffer, ran, short⟩
    by_cases room : (wireName labels).length ≤ bufSize
    · obtain ⟨_, after, written, extended⟩ := fits (by simpa [BytePacketBuffer.new] using room)
      cases ran.symm.trans written
      rwa [filled_of_extends_new extended] at short
    · obtain ⟨after, failed, -⟩ := overflows (by simpa [BytePacketBuffer.new] using room)
      cases ran.symm.trans failed
  · intro short
    obtain ⟨_, after, written, extended⟩ := fits (by simp only [BytePacketBuffer.new, bufSize]; omega)
    exact ⟨after, written, by rwa [filled_of_extends_new extended]⟩

/-! ## Where a name is written -/

theorem NameWritable.nameToWire_isSome {name : Text} (writable : NameWritable name) :
    (nameToWire name).isSome = true := by
  obtain ⟨buffer, ran, -⟩ := writable
  simp [nameToWire, ran]

/-- A sub-query for a writable name can be written. -/
theorem NameWritable.query_written {name : Text} (writable : NameWritable name) (id : UInt16)
    (qtype : QueryType) : (exec (DnsPacket.query id name qtype).write .new).1.isOk = true := by
  obtain ⟨labels, found, short⟩ := (nameWritable_iff name).mp writable
  let query := DnsPacket.query id name qtype
  obtain ⟨header, -⟩ := query.countedHeader.writes_write .new (Nat.zero_le _)
  have length : query.countedHeader.octets.length = 12 := rfl
  obtain ⟨_, first, wroteHeader, headerExtends⟩ := header (by
    rw [length]
    decide)
  have firstPos : first.pos = 12 := headerExtends.pos
  have settles : Settles first (exec (writeQname name) first) (textLabels name) :=
    settles_writeQname (by rw [firstPos]; decide) name
  rw [Option.mem_def.mp found] at settles
  obtain ⟨done, nameExtends⟩ := settles.1 (by rw [firstPos, bufSize]; omega)
  have wroteName : exec (writeQname name) first = (.ok (), (exec (writeQname name) first).2) :=
    Prod.ext done rfl
  have numbers : Writes (writeU16 qtype.toNum >>= fun _ => writeU16 1)
      (beBytes16 qtype.toNum ++ beBytes16 1) :=
    (writes_writeU16 _).bind fun _ => writes_writeU16 _
  have namePos := nameExtends.pos
  obtain ⟨room, -⟩ := numbers (exec (writeQname name) first).2 (by rw [namePos, firstPos, bufSize]; omega)
  obtain ⟨_, last, wroteNumbers, -⟩ := room (by
    rw [namePos, firstPos, bufSize]
    simp [beBytes16]
    omega)
  have whole : query.write = query.countedHeader.write >>= fun _ =>
      writeQname name >>= fun _ => writeU16 qtype.toNum >>= fun _ => writeU16 1 := by
    simp [DnsPacket.write, query, DnsPacket.query, DnsQuestion.write]
  rw [whole, exec_bind_ok wroteHeader, exec_bind_ok wroteName, wroteNumbers]
  rfl

/-! ## The doors -/

/-- The host name in the target of an override. -/
def targetHost (target : Text) : Option Text :=
  if (parseIpv4 target).isSome ∨ (parseIpv6 target).isSome then none else some target

theorem names_parseTarget (domain target : Text) (ttl : UInt32) :
    (parseTarget domain target ttl).2.names = domain :: (targetHost target).toList := by
  unfold parseTarget targetHost
  cases parseIpv4 target with
  | some addr => simp [DnsRecord.names]
  | none => cases parseIpv6 target <;> simp [DnsRecord.names]

section Zones

variable (toLowercase toUppercase : Text → Text)

/-- The owner in the configuration of a record, without the label of a wildcard. -/
def zoneOwner (zone : ZoneRecord) : Text :=
  let raw := (toLowercase zone.domain).trimEndDots
  if Text.wildcard [] <+: raw then raw.drop 2 else raw

/-- The host name in the value of a configured record. -/
def zoneHost (zone : ZoneRecord) : Option Text :=
  let recordType := toUppercase zone.recordType
  if recordType = text "CNAME" ∨ recordType = text "PTR" ∨ recordType = text "NS" then
    some zone.value
  else if recordType = text "MX" then (splitAtSpace zone.value).map Prod.snd
  else none

variable {toLowercase toUppercase}

theorem zoneKey_eq_ok {zone : ZoneRecord} {isWildcard : Bool} {domain : Text}
    (keyed : zoneKey toLowercase zone = .ok (isWildcard, domain)) :
    domain = zoneOwner toLowercase zone := by
  unfold zoneKey at keyed
  unfold zoneOwner
  simp only [decide_eq_true_eq] at keyed ⊢
  split at keyed
  · rename_i underWildcard
    rw [if_pos underWildcard]
    split at keyed
    · cases keyed
    · cases keyed
      rfl
  · rename_i exactly
    rw [if_neg exactly]
    split at keyed
    · cases keyed
    · cases keyed
      rfl

theorem names_zoneData {zone : ZoneRecord} {domain : Text} {qtype : QueryType}
    {record : DnsRecord} (parsed : zoneData toUppercase zone domain = .ok (qtype, record)) :
    record.names = domain :: (zoneHost toUppercase zone).toList := by
  unfold zoneData at parsed
  unfold zoneHost
  simp only at parsed ⊢
  generalize toUppercase zone.recordType = recordType at parsed ⊢
  by_cases isA : recordType = text "A"
  · subst isA
    rw [if_pos rfl] at parsed
    rw [if_neg (by decide), if_neg (by decide)]
    cases found : parseIpv4 zone.value with
    | none => simp [found] at parsed
    | some addr =>
        simp only [found] at parsed
        cases parsed
        rfl
  rw [if_neg isA] at parsed
  by_cases isAaaa : recordType = text "AAAA"
  · subst isAaaa
    rw [if_pos rfl] at parsed
    rw [if_neg (by decide), if_neg (by decide)]
    cases found : parseIpv6 zone.value with
    | none => simp [found] at parsed
    | some addr =>
        simp only [found] at parsed
        cases parsed
        rfl
  rw [if_neg isAaaa] at parsed
  by_cases isCname : recordType = text "CNAME"
  · rw [if_pos isCname] at parsed
    cases parsed
    rw [if_pos (.inl isCname)]
    rfl
  rw [if_neg isCname] at parsed
  by_cases isPtr : recordType = text "PTR"
  · rw [if_pos isPtr] at parsed
    cases parsed
    rw [if_pos (.inr (.inl isPtr))]
    rfl
  rw [if_neg isPtr] at parsed
  by_cases isNs : recordType = text "NS"
  · rw [if_pos isNs] at parsed
    cases parsed
    rw [if_pos (.inr (.inr isNs))]
    rfl
  rw [if_neg isNs] at parsed
  split at parsed
  · rename_i isMx
    rw [if_neg (by simp [isCname, isPtr, isNs]), if_pos isMx]
    cases found : splitAtSpace zone.value with
    | none => simp [found] at parsed
    | some parts =>
        obtain ⟨priority, host⟩ := parts
        simp only [found] at parsed
        split at parsed
        · cases parsed
        · cases parsed
          rfl
  · cases parsed

/-- The names of a configured record are its owner and its host. -/
theorem BecomesRecord.names {zone : ZoneRecord} {record : DnsRecord}
    (becomes : BecomesRecord toLowercase toUppercase zone record) :
    record.names = zoneOwner toLowercase zone :: (zoneHost toUppercase zone).toList := by
  obtain ⟨isWildcard, domain, qtype, keyed, parsed⟩ := becomes
  rw [names_zoneData parsed, zoneKey_eq_ok keyed]

end Zones

/-- A name from a packet is writable unless the labels on the way through the
packet are too long together; an override and a zone map hold writable names if
the texts that they were given are those of names. -/
theorem heldNames_writable_iff (toLowercase toUppercase : Text → Text) :
    (∀ buffer name after, exec readQname buffer = (.ok name, after) →
      ∃ jumps labels, NameAt buffer.buf jumps buffer.pos labels ∧
        (NameWritable name ↔ (wireName labels).length ≤ 255)) ∧
    (∀ store now domain target ttl durationSecs after qtype,
      OverrideStore.insert toLowercase store now domain target ttl durationSecs =
          some (after, qtype) →
        ∃ entry, after.entries.lookup (toLowercase domain) = some entry ∧
          ((∀ name ∈ entry.record.names, NameWritable name) ↔
            ∀ name ∈ toLowercase domain :: (targetHost target).toList, ValidName name)) ∧
    (∀ zones map, buildZoneMap toLowercase toUppercase zones = .ok map →
      ((∀ record, map.Holds record → ∀ name ∈ record.names, NameWritable name) ↔
        ∀ zone ∈ zones, ∀ name ∈ zoneOwner toLowercase zone ::
          (zoneHost toUppercase zone).toList, ValidName name)) ∧
    ∀ name, NameWritable name → (nameToWire name).isSome = true ∧
      ∀ id qtype, (exec (DnsPacket.query id name qtype).write .new).1.isOk = true := by
  refine ⟨?packets, ?overrides, ?zones, fun name writable =>
    ⟨writable.nameToWire_isSome, writable.query_written⟩⟩
  case packets =>
    intro buffer name after ran
    obtain ⟨jumps, labels, -, named, areLabels, rfl⟩ := nameAt_of_exec_readQname ran
    exact ⟨jumps, labels, named, nameWritable_nameText areLabels⟩
  case overrides =>
    intro store now domain target ttl durationSecs after qtype inserted
    refine ⟨_, OverrideStore.lookup_insert inserted, ?_⟩
    simp only [names_parseTarget, nameWritable_iff]
  case zones =>
    intro zones map built
    simp only [holds_buildZoneMap built, nameWritable_iff]
    constructor
    · intro valid zone zoneMem name nameMem
      obtain ⟨record, becomes⟩ := exists_becomesRecord built zoneMem
      exact valid record ⟨zone, zoneMem, becomes⟩ name (by rwa [becomes.names])
    · rintro valid record ⟨zone, zoneMem, becomes⟩ name nameMem
      rw [becomes.names] at nameMem
      exact valid zone zoneMem name nameMem

/-- An override and a configured record with valid names only. -/
theorem heldNames_writable_iff_short :
    (∀ store after qtype, OverrideStore.insert Text.toLowercase store 0 (text "A.test")
        (text "b.test") 60 none = some (after, qtype) →
      ∃ entry, after.entries.lookup (text "a.test") = some entry ∧
        ∀ name ∈ entry.record.names, NameWritable name) ∧
    (∀ map, buildZoneMap Text.toLowercase (·.map toAsciiUppercase)
        [⟨text "*.Test.", text "mx", text "10 b.test", 300⟩] = .ok map →
      ∀ record, map.Holds record → ∀ name ∈ record.names, NameWritable name) := by
  obtain ⟨-, overrides, zones, -⟩ :=
    heldNames_writable_iff Text.toLowercase (·.map toAsciiUppercase)
  constructor
  · intro store after qtype inserted
    obtain ⟨entry, found, writable⟩ := overrides _ _ _ _ _ _ _ _ inserted
    exact ⟨entry, found, writable.mpr (by decide +kernel)⟩
  · intro map built
    exact (zones _ _ built).mpr (by decide +kernel)

/-- A packet whose question has a name of five labels with 63 octets each. -/
def fiveLabels : BytePacketBuffer :=
  .fromBytes (wireName (List.replicate 5 (List.replicate 63 120)))

/-- An override is accepted with a target that cannot be written, and a name of
321 octets is read from a packet. -/
theorem longNames_unwritable :
    (∃ after entry, OverrideStore.new.insert Text.toLowercase 0 (text "a.test") longLabel 60 none =
        some (after, .cname) ∧
      after.entries.lookup (text "a.test") = some entry ∧ longLabel ∈ entry.record.names ∧
      ¬ NameWritable longLabel ∧ nameToWire longLabel = none) ∧
    ∃ name after, exec readQname fiveLabels = (.ok name, after) ∧ ¬ NameWritable name := by
  have unwritable : ¬ NameWritable longLabel := by
    rw [nameWritable_iff]
    decide +kernel
  have named : longLabel ∈ (parseTarget (Text.toLowercase (text "a.test")) longLabel 60).2.names := by
    rw [names_parseTarget]
    decide +kernel
  refine ⟨⟨_, _, rfl, rfl, named, unwritable, by decide +kernel⟩, ?_⟩
  have read : (exec readQname fiveLabels).1 =
      .ok (nameText (List.replicate 5 (List.replicate 63 120))) := by decide +kernel
  cases ran : exec readQname fiveLabels with
  | mk result after =>
      rw [ran] at read
      refine ⟨_, after, congrArg (·, after) read, ?_⟩
      rw [nameWritable_iff]
      decide +kernel

end Numa
