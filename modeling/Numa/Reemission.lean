import Numa.CacheFidelity
import Numa.RdataNames
import Numa.TypeIdentity

/-!
# Names in a message that is written again

The parser takes the names out of the data of the types it knows and follows
their pointers, and the data of all other types it copies.  A written message has
no pointers of its own, so all names are kept unless copied data had some.
-/

namespace Numa

open BytePacketBuffer

/-! ## Reading the parts -/

/-- The text of a name. -/
def Denoted.text (name : Denoted) : Text :=
  nameText name.labels

/-- The name is one that the parser has read. -/
structure Denoted.IsRead (name : Denoted) : Prop where
  areLabels : ∀ label ∈ name.labels, IsWireLabel label
  producible : Producible name.text

/-- The reader passes these parts and returns a record with the names that stand
among them. -/
def ReadsParts (limit : Nat) (parts : List RdataPart) (before : List Text)
    (action : BufferM DnsRecord) : Prop :=
  ∀ ⦃buffer record after⦄, exec action buffer = (.ok record, after) →
    ∃ names last, after = buffer.movedTo last ∧
      DataNames buffer.buf limit parts buffer.pos names last ∧
      record.names = before ++ names.map Denoted.text ∧ ∀ name ∈ names, name.IsRead

section ReadsParts

variable {α : Type} {limit : Nat} {parts : List RdataPart} {before : List Text}

theorem readsParts_pure {record : DnsRecord} (namesEq : record.names = before) :
    ReadsParts limit [] before (pure record) := by
  intro buffer result after ran
  cases ran
  exact ⟨[], buffer.pos, rfl, .nil _, by simpa using namesEq, by simp⟩

/-- A reader that takes a fixed number of octets. -/
theorem readsParts_fixed {len : Nat} {action : BufferM α} {next : α → BufferM DnsRecord}
    (moves : ∀ {buffer value after}, exec action buffer = (.ok value, after) →
      after = buffer.movedTo (buffer.pos + len))
    (later : ∀ value, ReadsParts limit parts before (next value)) :
    ReadsParts limit (.fixed len :: parts) before (action >>= next) := by
  intro buffer record after ran
  obtain ⟨value, middle, ranFirst, ranNext⟩ := exec_bind_eq_ok.mp ran
  obtain rfl := moves ranFirst
  obtain ⟨names, last, afterEq, named, namesEq, areRead⟩ := later value ranNext
  exact ⟨names, last, afterEq, .fixed named, namesEq, areRead⟩

theorem readsParts_read {next : UInt8 → BufferM DnsRecord}
    (later : ∀ value, ReadsParts limit parts before (next value)) :
    ReadsParts limit (.fixed 1 :: parts) before (BytePacketBuffer.read >>= next) :=
  readsParts_fixed (fun ran => (exec_read_eq_ok.mp ran).2.2) later

theorem readsParts_readU16 {next : UInt16 → BufferM DnsRecord}
    (later : ∀ value, ReadsParts limit parts before (next value)) :
    ReadsParts limit (.fixed 2 :: parts) before (readU16 >>= next) :=
  readsParts_fixed (fun ran => (exec_readU16_eq_ok.mp ran).2.2) later

theorem readsParts_readU32 {next : UInt32 → BufferM DnsRecord}
    (later : ∀ value, ReadsParts limit parts before (next value)) :
    ReadsParts limit (.fixed 4 :: parts) before (readU32 >>= next) :=
  readsParts_fixed (fun ran => (exec_readU32_eq_ok.mp ran).2.2) later

theorem readsParts_readQname {next : Text → BufferM DnsRecord}
    (later : ∀ text, ReadsParts limit parts (before ++ [text]) (next text)) :
    ReadsParts limit (.name :: parts) before (readQname >>= next) := by
  intro buffer record after ran
  obtain ⟨text, middle, ranName, ranNext⟩ := exec_bind_eq_ok.mp ran
  obtain ⟨stop, skipped, rfl⟩ := exec_readQname_skip ranName
  obtain ⟨jumps, labels, -, denotes, areLabels, rfl⟩ := nameAt_of_exec_readQname ranName
  obtain ⟨names, last, afterEq, named, namesEq, areRead⟩ := later _ ranNext
  refine ⟨⟨labels, jumps⟩ :: names, last, afterEq, .name denotes skipped named, ?_, ?_⟩
  · simpa [Denoted.text] using namesEq
  · simp only [List.mem_cons, forall_eq_or_imp]
    exact ⟨⟨areLabels, _, _, ranName⟩, areRead⟩

theorem readsParts_counted {next : List UInt8 → BufferM DnsRecord}
    (later : ∀ octets, ReadsParts limit parts before (next octets)) :
    ReadsParts limit (.counted :: parts) before
      (BytePacketBuffer.read >>= fun count => readOctets count.toNat >>= next) := by
  intro buffer record after ran
  obtain ⟨count, middle, ranCount, ranRest⟩ := exec_bind_eq_ok.mp ran
  obtain ⟨room, countEq, rfl⟩ := exec_read_eq_ok.mp ranCount
  obtain ⟨octets, behind, ranOctets, ranNext⟩ := exec_bind_eq_ok.mp ranRest
  obtain ⟨-, -, rfl⟩ := exec_readOctets_eq_ok.mp ranOctets
  obtain ⟨names, last, afterEq, named, namesEq, areRead⟩ := later octets ranNext
  refine ⟨names, last, afterEq, .counted ?_ named, namesEq, areRead⟩
  have inside : buffer.pos < buffer.buf.length := by
    rw [buffer.size_eq]
    omega
  rw [countEq, wireOctet, List.getD_eq_getElem?_getD, List.getElem?_eq_getElem inside]
  rfl

theorem readsParts_readRest {qtype : QueryType} {rdataStart : Nat} {dataLen : UInt16}
    {build : List UInt8 → DnsRecord} (namesEq : ∀ octets, (build octets).names = before) :
    ReadsParts (rdataStart + dataLen.toNat) [.rest] before
      (readRest qtype rdataStart dataLen >>= fun octets => pure (build octets)) := by
  intro buffer record after ran
  obtain ⟨octets, middle, ranRest, result⟩ := exec_bind_eq_ok.mp ran
  obtain ⟨inside, -, -, rfl⟩ := exec_readRest_eq_ok.mp ranRest
  cases result
  exact ⟨[], _, rfl, .rest inside, by simpa using namesEq octets, by simp⟩

/-- Octets that are read in two steps. -/
theorem ReadsParts.joined {first second : Nat} {action : BufferM DnsRecord}
    (reads : ReadsParts limit (.fixed first :: .fixed second :: parts) before action) :
    ReadsParts limit (.fixed (first + second) :: parts) before action := by
  intro buffer record after ran
  obtain ⟨names, last, afterEq, named, rest⟩ := reads ran
  refine ⟨names, last, afterEq, ?_, rest⟩
  cases named with
  | fixed named =>
      cases named with
      | fixed named => exact .fixed (by rwa [← Nat.add_assoc])

end ReadsParts

/-- The types that the parser takes apart are read part by part. -/
theorem readsParts_readRdata {domain : Text} {qtypeNum : UInt16} {ttl : UInt32} {dataLen : UInt16}
    {rdataStart : Nat} (isNative : (QueryType.fromNum qtypeNum).isNative = true) :
    ReadsParts (rdataStart + dataLen.toNat) (rdataLayout qtypeNum) [domain]
      (DnsRecord.readRdata domain qtypeNum ttl dataLen rdataStart) := by
  have numEq := QueryType.toNum_fromNum qtypeNum
  unfold DnsRecord.readRdata
  cases isType : QueryType.fromNum qtypeNum
  all_goals
    rw [isType] at numEq isNative
    subst numEq
  case a => exact readsParts_readU32 fun _ => readsParts_pure rfl
  case aaaa =>
    have reads : ReadsParts (rdataStart + dataLen.toNat) _ [domain] _ :=
      readsParts_readU32 fun first => readsParts_readU32 fun second =>
      readsParts_readU32 fun third => readsParts_readU32 fun fourth =>
        readsParts_pure (rfl : (DnsRecord.aaaa domain (ipv6OfNums first second third fourth)
          ttl).names = [domain])
    exact reads.joined.joined.joined
  case ns | cname | ptr => exact readsParts_readQname fun _ => readsParts_pure rfl
  case mx => exact readsParts_readU16 fun _ => readsParts_readQname fun _ => readsParts_pure rfl
  case soa =>
    exact readsParts_readQname fun _ => readsParts_readQname fun _ => readsParts_readU32 fun _ =>
      readsParts_readU32 fun _ => readsParts_readU32 fun _ => readsParts_readU32 fun _ =>
      readsParts_readU32 fun _ => readsParts_pure rfl
  case dnskey | ds =>
    exact readsParts_readU16 fun _ => readsParts_read fun _ => readsParts_read fun _ =>
      readsParts_readRest fun _ => rfl
  case rrsig =>
    exact readsParts_readU16 fun _ => readsParts_read fun _ => readsParts_read fun _ =>
      readsParts_readU32 fun _ => readsParts_readU32 fun _ => readsParts_readU32 fun _ =>
      readsParts_readU16 fun _ => readsParts_readQname fun _ => readsParts_readRest fun _ => rfl
  case nsec => exact readsParts_readQname fun _ => readsParts_readRest fun _ => rfl
  case nsec3 =>
    exact readsParts_read fun _ => readsParts_read fun _ => readsParts_readU16 fun _ =>
      readsParts_counted fun _ => readsParts_counted fun _ => readsParts_readRest fun _ => rfl
  all_goals cases isNative

/-- The data of all other types are copied. -/
theorem exec_readRdata_opaque {domain : Text} {qtypeNum : UInt16} {ttl : UInt32}
    {dataLen : UInt16} {rdataStart : Nat} {buffer after : BytePacketBuffer} {record : DnsRecord}
    (isOpaque : (QueryType.fromNum qtypeNum).isNative = false)
    (ran : exec (DnsRecord.readRdata domain qtypeNum ttl dataLen rdataStart) buffer =
      (.ok record, after)) :
    record = .unknown domain qtypeNum (octetsAt buffer.buf buffer.pos dataLen.toNat) ttl ∧
      after = buffer.movedTo (buffer.pos + dataLen.toNat) := by
  rw [DnsRecord.readRdata_of_not_native isOpaque] at ran
  obtain ⟨data, middle, ranData, result⟩ := exec_bind_eq_ok.mp ran
  obtain ⟨-, rfl, rfl⟩ := exec_readOctets_eq_ok.mp ranData
  cases result
  exact ⟨rfl, rfl⟩

/-! ## Writing the parts -/

namespace PlainData

variable {parts : List RdataPart} {front later : List UInt8} {len : Nat}
  {labels : List (List UInt8)} {names : List (List (List UInt8))}

theorem sized (length : front.length = len) (rest : PlainData parts later names) :
    PlainData (.fixed len :: parts) (front ++ later) names :=
  length ▸ .fixed rest

theorem lastSized (length : front.length = len) : PlainData [.fixed len] front [] := by
  have data := sized length .nil
  rwa [List.append_nil] at data

theorem wire (areLabels : ∀ label ∈ labels, IsWireLabel label)
    (rest : PlainData parts later names) :
    PlainData (.name :: parts) (wireName labels ++ later) (labels :: names) := by
  have data := PlainData.name (fun label labelMem => isRawLabel_of_wire (areLabels label labelMem))
    rest
  rwa [lowerLabels_of_wire areLabels] at data

theorem lastWire (areLabels : ∀ label ∈ labels, IsWireLabel label) :
    PlainData [.name] (wireName labels) [labels] := by
  have data := wire areLabels .nil
  rwa [List.append_nil] at data

end PlainData

/-- The record is written with these data, which have its names and no pointers. -/
structure PlainCoded (record : DnsRecord) (owner : List (List UInt8)) (rdata : List UInt8)
    (labels : List (List (List UInt8))) : Prop where
  coded : record.Coded owner rdata
  data : PlainData (rdataLayout record.queryType.toNum) rdata labels
  names : record.names = nameText owner :: labels.map nameText
  areLabels : ∀ name ∈ labels, ∀ label ∈ name, IsWireLabel label

namespace DnsRecord

/-- A record of a type that the parser takes apart is written without pointers. -/
theorem exists_plainCoded {record : DnsRecord} (isNative : record.queryType.isNative = true)
    (producible : ∀ name ∈ record.names, Producible name) (fits : record.FieldsFit) :
    ∃ owner rdata labels, PlainCoded record owner rdata labels := by
  obtain ⟨owner, areLabels, ownerEq⟩ :=
    (producible record.domain record.domain_mem_names).exists_labels
  cases record with
  | unknown domain qtype data ttl => cases isNative
  | a domain addr ttl =>
      obtain rfl := ownerEq
      exact ⟨owner, _, [], coded_a areLabels, .lastSized (by simp), rfl, by simp⟩
  | ns domain host ttl =>
      obtain rfl := ownerEq
      obtain ⟨target, hostLabels, rfl⟩ := (producible host (by simp [names])).exists_labels
      exact ⟨owner, _, [target], coded_ns areLabels hostLabels, .lastWire hostLabels, rfl,
        by simpa using hostLabels⟩
  | soa start =>
      obtain ⟨domain, mname, rname, serial, refresh, retry, expire, minimum, ttl⟩ := start
      obtain rfl := ownerEq
      obtain ⟨server, mnameLabels, rfl⟩ := (producible mname (by simp [names])).exists_labels
      obtain ⟨contact, rnameLabels, rfl⟩ := (producible rname (by simp [names])).exists_labels
      refine ⟨owner, _, [server, contact], coded_soa areLabels mnameLabels rnameLabels, ?_, rfl,
        by simpa using ⟨mnameLabels, rnameLabels⟩⟩
      exact .wire mnameLabels (.wire rnameLabels (.sized rfl (.sized rfl (.sized rfl (.sized rfl
        (.lastSized rfl))))))
  | cname domain host ttl =>
      obtain rfl := ownerEq
      obtain ⟨target, hostLabels, rfl⟩ := (producible host (by simp [names])).exists_labels
      exact ⟨owner, _, [target], coded_cname areLabels hostLabels, .lastWire hostLabels, rfl,
        by simpa using hostLabels⟩
  | ptr domain host ttl =>
      obtain rfl := ownerEq
      obtain ⟨target, hostLabels, rfl⟩ := (producible host (by simp [names])).exists_labels
      exact ⟨owner, _, [target], coded_ptr areLabels hostLabels, .lastWire hostLabels, rfl,
        by simpa using hostLabels⟩
  | mx domain priority host ttl =>
      obtain rfl := ownerEq
      obtain ⟨target, hostLabels, rfl⟩ := (producible host (by simp [names])).exists_labels
      exact ⟨owner, _, [target], coded_mx areLabels hostLabels, .sized rfl (.lastWire hostLabels),
        rfl, by simpa using hostLabels⟩
  | aaaa domain addr ttl =>
      obtain rfl := ownerEq
      exact ⟨owner, _, [], coded_aaaa areLabels, .lastSized (by simp), rfl, by simp⟩
  | dnskey key =>
      obtain ⟨domain, flags, protocol, algorithm, publicKey, ttl⟩ := key
      obtain rfl := ownerEq
      exact ⟨owner, _, [], coded_dnskey areLabels,
        .sized rfl (.sized rfl (.sized rfl (.rest publicKey))), rfl, by simp⟩
  | ds delegation =>
      obtain ⟨domain, keyTag, algorithm, digestType, digest, ttl⟩ := delegation
      obtain rfl := ownerEq
      exact ⟨owner, _, [], coded_ds areLabels,
        .sized rfl (.sized rfl (.sized rfl (.rest digest))), rfl, by simp⟩
  | rrsig sig =>
      obtain ⟨domain, typeCovered, algorithm, labels, originalTtl, expiration, inception, keyTag,
        signerName, signature, ttl⟩ := sig
      obtain rfl := ownerEq
      obtain ⟨signer, signerLabels, rfl⟩ :=
        (producible signerName (by simp [names])).exists_labels
      refine ⟨owner, _, [signer], coded_rrsig areLabels signerLabels, ?_, rfl,
        by simpa using signerLabels⟩
      exact .sized rfl (.sized rfl (.sized rfl (.sized rfl (.sized rfl (.sized rfl (.sized rfl
        (.wire signerLabels (.rest signature))))))))
  | nsec denial =>
      obtain ⟨domain, nextDomain, typeBitmap, ttl⟩ := denial
      obtain rfl := ownerEq
      obtain ⟨next, nextLabels, rfl⟩ := (producible nextDomain (by simp [names])).exists_labels
      exact ⟨owner, _, [next], coded_nsec areLabels nextLabels,
        .wire nextLabels (.rest typeBitmap), rfl, by simpa using nextLabels⟩
  | nsec3 denial =>
      obtain ⟨domain, hashAlgorithm, flags, iterations, salt, nextHashedOwner, typeBitmap, ttl⟩ :=
        denial
      obtain rfl := ownerEq
      refine ⟨owner, _, [], coded_nsec3 areLabels fits.1 fits.2, ?_, rfl, by simp⟩
      exact .sized rfl (.sized rfl (.sized rfl
        (.counted (toNat_length_toUInt8 fits.1).symm
          (.counted (toNat_length_toUInt8 fits.2).symm (.rest typeBitmap)))))

end DnsRecord

end Numa
