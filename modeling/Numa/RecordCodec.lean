import Numa.NameCodec

/-!
# Records on the wire

A record is written as its owner, its type, class and TTL, the length of its
data and the data.  A record reads back as it was written when its names are
texts that `read_qname` produces and none of its lengths is cut off.
-/

namespace Numa

open BytePacketBuffer

/-- The octets of a record. -/
def recordOctets (owner : List UInt8) (qtype : UInt16) (ttl : UInt32) (rdata : List UInt8) :
    List UInt8 :=
  owner ++ (beBytes16 qtype ++ (beBytes16 1 ++ (beBytes32 ttl ++
    (beBytes16 rdata.length.toUInt16 ++ rdata))))

/-- The types whose data `DnsRecord::read` takes apart. -/
def QueryType.isNative : QueryType → Bool
  | a | aaaa | ns | cname | ptr | mx | dnskey | ds | rrsig | nsec | nsec3 | soa => true
  | _ => false

namespace DnsRecord

/-- The names in a record. -/
def names : DnsRecord → List Text
  | unknown domain .. => [domain]
  | a domain .. => [domain]
  | ns domain host _ => [domain, host]
  | soa start => [start.domain, start.mname, start.rname]
  | cname domain host _ => [domain, host]
  | ptr domain host _ => [domain, host]
  | mx domain _ host _ => [domain, host]
  | aaaa domain .. => [domain]
  | dnskey key => [key.domain]
  | ds delegation => [delegation.domain]
  | rrsig sig => [sig.domain, sig.signerName]
  | nsec denial => [denial.domain, denial.nextDomain]
  | nsec3 denial => [denial.domain]

/-- The fields of a record are values that its wire form can hold. -/
def FieldsFit : DnsRecord → Prop
  | unknown _ qtype _ _ => (QueryType.fromNum qtype).isNative = false
  | nsec3 denial => denial.salt.length ≤ 255 ∧ denial.nextHashedOwner.length ≤ 255
  | _ => True

theorem toNat_length_toUInt16 {octets : List UInt8} (short : octets.length < 2 ^ 16) :
    octets.length.toUInt16.toNat = octets.length := by
  rw [Nat.toUInt16_eq, UInt16.toNat_ofNat', Nat.mod_eq_of_lt short]

theorem toNat_length_toUInt8 {octets : List UInt8} (short : octets.length ≤ 255) :
    octets.length.toUInt8.toNat = octets.length := by
  rw [Nat.toUInt8_eq, UInt8.toNat_ofNat', Nat.mod_eq_of_lt (by omega)]

theorem domain_mem_names (record : DnsRecord) : record.domain ∈ record.names := by
  cases record <;> simp [domain, names]

variable {owner : List (List UInt8)} {pos : Nat}

theorem writes_writeHeader (areLabels : ∀ label ∈ owner, IsWireLabel label) (qtype : UInt16)
    (ttl : UInt32) {data : BufferM Unit} {rdata : List UInt8}
    (dataWrites : Writes data (beBytes16 rdata.length.toUInt16 ++ rdata)) :
    Writes (do writeHeader (nameText owner) qtype ttl; data)
      (recordOctets (wireName owner) qtype ttl rdata) := by
  simp only [writeHeader, bind_assoc]
  exact (writes_writeQname areLabels).bind fun _ => (writes_writeU16 qtype).bind fun _ =>
    (writes_writeU16 1).bind fun _ => (writes_writeU32 ttl).bind fun _ => dataWrites

/-- Data whose length is known before they are written. -/
theorem writes_sized {rdata : List UInt8} {length : UInt16} {data : BufferM Unit}
    (lengthEq : length = rdata.length.toUInt16) (dataWrites : Writes data rdata) :
    Writes (do writeU16 length; data) (beBytes16 rdata.length.toUInt16 ++ rdata) := by
  rw [lengthEq]
  exact (writes_writeU16 _).bind fun _ => dataWrites

/-- A record reads back when its data do. -/
theorem readsAt_read {qtype : UInt16} {ttl : UInt32} {rdata : List UInt8} {record : DnsRecord}
    (areLabels : ∀ label ∈ owner, IsWireLabel label)
    (dataReads : ∀ rdataStart, ReadsAt rdataStart
      (readRdata (nameText owner) qtype ttl rdata.length.toUInt16 rdataStart) rdata record) :
    ReadsAt pos read (recordOctets (wireName owner) qtype ttl rdata) record := by
  refine (readsAt_readQname areLabels).bind ((readsAt_readU16 qtype).bind
    ((readsAt_readU16 1).bind ((readsAt_readU32 ttl).bind
      ((readsAt_readU16 _).bind (readsAt_get_bind ?_)))))
  intro buffer posEq
  rw [posEq]
  exact dataReads _

/-- The record has this owner, is written with these data and reads back from
them. -/
structure Coded (record : DnsRecord) (owner : List (List UInt8)) (rdata : List UInt8) :
    Prop where
  areLabels : ∀ label ∈ owner, IsWireLabel label
  domain : record.domain = nameText owner
  writes : Writes record.writeFields
    (recordOctets (wireName owner) record.queryType.toNum record.ttl rdata)
  reads : rdata.length < 2 ^ 16 → ∀ rdataStart, ReadsAt rdataStart
    (readRdata (nameText owner) record.queryType.toNum record.ttl rdata.length.toUInt16
      rdataStart) rdata record

/-- The data of the types that are not taken apart are read as octets. -/
theorem readRdata_of_not_native {domain : Text} {qtype dataLen : UInt16} {ttl : UInt32}
    {rdataStart : Nat} (notNative : (QueryType.fromNum qtype).isNative = false) :
    readRdata domain qtype ttl dataLen rdataStart = (do
      let data ← readOctets dataLen.toNat
      pure (unknown domain qtype data ttl)) := by
  unfold readRdata
  split <;> simp_all [QueryType.isNative]

theorem coded_unknown {qtype : UInt16} {data : List UInt8} {ttl : UInt32}
    (areLabels : ∀ label ∈ owner, IsWireLabel label)
    (notNative : (QueryType.fromNum qtype).isNative = false) :
    (unknown (nameText owner) qtype data ttl).Coded owner data where
  areLabels := areLabels
  domain := rfl
  writes := writes_writeHeader areLabels qtype ttl (writes_sized rfl (writes_writeBytes data))
  reads := by
    intro short rdataStart
    change ReadsAt rdataStart (readRdata (nameText owner) qtype ttl data.length.toUInt16
      rdataStart) data _
    rw [readRdata_of_not_native notNative, toNat_length_toUInt16 short]
    exact (readsAt_readOctets data).map _

theorem coded_host {record : DnsRecord} {host : List (List UInt8)}
    (areLabels : ∀ label ∈ owner, IsWireLabel label)
    (hostLabels : ∀ label ∈ host, IsWireLabel label) (domain : record.domain = nameText owner)
    (writeEq : record.writeFields = (do
      writeHeader (nameText owner) record.queryType.toNum record.ttl
      writePatched (writeQname (nameText host))))
    (build : Text → DnsRecord) (built : build (nameText host) = record)
    (readEq : ∀ dataLen rdataStart, readRdata (nameText owner) record.queryType.toNum record.ttl
      dataLen rdataStart = (do
        let name ← readQname
        pure (build name))) :
    record.Coded owner (wireName host) where
  areLabels := areLabels
  domain := domain
  writes := by
    rw [writeEq]
    exact writes_writeHeader areLabels _ _ (writes_writePatched (writes_writeQname hostLabels))
  reads := by
    intro short rdataStart
    rw [readEq, ← built]
    exact (readsAt_readQname hostLabels).map build

theorem coded_ns {host : List (List UInt8)} {ttl : UInt32}
    (areLabels : ∀ label ∈ owner, IsWireLabel label)
    (hostLabels : ∀ label ∈ host, IsWireLabel label) :
    (ns (nameText owner) (nameText host) ttl).Coded owner (wireName host) :=
  coded_host areLabels hostLabels rfl rfl (ns (nameText owner) · ttl) rfl fun _ _ => rfl

theorem coded_cname {host : List (List UInt8)} {ttl : UInt32}
    (areLabels : ∀ label ∈ owner, IsWireLabel label)
    (hostLabels : ∀ label ∈ host, IsWireLabel label) :
    (cname (nameText owner) (nameText host) ttl).Coded owner (wireName host) :=
  coded_host areLabels hostLabels rfl rfl (cname (nameText owner) · ttl) rfl fun _ _ => rfl

theorem coded_ptr {host : List (List UInt8)} {ttl : UInt32}
    (areLabels : ∀ label ∈ owner, IsWireLabel label)
    (hostLabels : ∀ label ∈ host, IsWireLabel label) :
    (ptr (nameText owner) (nameText host) ttl).Coded owner (wireName host) :=
  coded_host areLabels hostLabels rfl rfl (ptr (nameText owner) · ttl) rfl fun _ _ => rfl

theorem coded_mx {host : List (List UInt8)} {priority : UInt16} {ttl : UInt32}
    (areLabels : ∀ label ∈ owner, IsWireLabel label)
    (hostLabels : ∀ label ∈ host, IsWireLabel label) :
    (mx (nameText owner) priority (nameText host) ttl).Coded owner
      (beBytes16 priority ++ wireName host) where
  areLabels := areLabels
  domain := rfl
  writes := writes_writeHeader areLabels _ _ (writes_writePatched
    ((writes_writeU16 priority).bind fun _ => writes_writeQname hostLabels))
  reads := fun _ _ => (readsAt_readU16 priority).bind ((readsAt_readQname hostLabels).map _)

theorem coded_soa {mname rname : List (List UInt8)}
    {serial refresh retry expire minimum ttl : UInt32}
    (areLabels : ∀ label ∈ owner, IsWireLabel label)
    (mnameLabels : ∀ label ∈ mname, IsWireLabel label)
    (rnameLabels : ∀ label ∈ rname, IsWireLabel label) :
    (soa ⟨nameText owner, nameText mname, nameText rname, serial, refresh, retry, expire, minimum,
      ttl⟩).Coded owner
      (wireName mname ++ (wireName rname ++ (beBytes32 serial ++ (beBytes32 refresh ++
        (beBytes32 retry ++ (beBytes32 expire ++ beBytes32 minimum)))))) where
  areLabels := areLabels
  domain := rfl
  writes := writes_writeHeader areLabels _ _ (writes_writePatched
    ((writes_writeQname mnameLabels).bind fun _ => (writes_writeQname rnameLabels).bind fun _ =>
      (writes_writeU32 _).bind fun _ => (writes_writeU32 _).bind fun _ =>
      (writes_writeU32 _).bind fun _ => (writes_writeU32 _).bind fun _ => writes_writeU32 _))
  reads := fun _ _ => (readsAt_readQname mnameLabels).bind ((readsAt_readQname rnameLabels).bind
    ((readsAt_readU32 _).bind ((readsAt_readU32 _).bind ((readsAt_readU32 _).bind
      ((readsAt_readU32 _).bind ((readsAt_readU32 _).map _))))))

theorem toList_ipv4OfNum (raw : UInt32) : (ipv4OfNum raw).toList = beBytes32 raw := by
  simp only [ipv4OfNum, toUInt8_and_mask32]
  rfl

theorem exists_ipv4OfNum (addr : Ipv4Addr) : ∃ raw, addr = ipv4OfNum raw := by
  obtain ⟨⟨octets⟩, four⟩ := addr
  match octets, four with
  | [first, second, third, fourth], four =>
    obtain ⟨raw, rawEq⟩ := exists_beBytes32 first second third fourth
    refine ⟨raw, Vector.toList_inj.mp ?_⟩
    rw [toList_ipv4OfNum, rawEq]
    rfl

theorem coded_a {addr : Ipv4Addr} {ttl : UInt32} (areLabels : ∀ label ∈ owner, IsWireLabel label) :
    (a (nameText owner) addr ttl).Coded owner addr.toList where
  areLabels := areLabels
  domain := rfl
  writes := writes_writeHeader areLabels _ _ (writes_sized (by simp) (writes_writeBytes _))
  reads := by
    intro _ rdataStart
    obtain ⟨raw, rfl⟩ := exists_ipv4OfNum addr
    rw [toList_ipv4OfNum]
    exact (readsAt_readU32 raw).map fun read => a (nameText owner) (ipv4OfNum read) ttl

theorem toList_ipv6OfNums (first second third fourth : UInt32) :
    (ipv6OfNums first second third fourth).toList =
      beBytes32 first ++ (beBytes32 second ++ (beBytes32 third ++ beBytes32 fourth)) := by
  rw [← beBytes16_halves first, ← beBytes16_halves second, ← beBytes16_halves third,
    ← beBytes16_halves fourth]
  rfl

theorem exists_ipv6OfNums (addr : Ipv6Addr) :
    ∃ first second third fourth, addr = ipv6OfNums first second third fourth := by
  obtain ⟨⟨octets⟩, sixteen⟩ := addr
  match octets, sixteen with
  | [a1, a2, a3, a4, b1, b2, b3, b4, c1, c2, c3, c4, d1, d2, d3, d4], sixteen =>
    obtain ⟨first, firstEq⟩ := exists_beBytes32 a1 a2 a3 a4
    obtain ⟨second, secondEq⟩ := exists_beBytes32 b1 b2 b3 b4
    obtain ⟨third, thirdEq⟩ := exists_beBytes32 c1 c2 c3 c4
    obtain ⟨fourth, fourthEq⟩ := exists_beBytes32 d1 d2 d3 d4
    refine ⟨first, second, third, fourth, Vector.toList_inj.mp ?_⟩
    rw [toList_ipv6OfNums, firstEq, secondEq, thirdEq, fourthEq]
    rfl

/-- The segments of an even number of octets have these octets. -/
theorem flatMap_segmentsOf : ∀ {octets : List UInt8}, octets.length % 2 = 0 →
    (segmentsOf octets).flatMap beBytes16 = octets
  | [], _ => rfl
  | [_], odd => by simp at odd
  | high :: low :: rest, even => by
    have later : (segmentsOf rest).flatMap beBytes16 = rest :=
      flatMap_segmentsOf (by simp only [List.length_cons] at even; omega)
    rw [segmentsOf, List.flatMap_cons, later, beBytes16_join]
    rfl

theorem coded_aaaa {addr : Ipv6Addr} {ttl : UInt32}
    (areLabels : ∀ label ∈ owner, IsWireLabel label) :
    (aaaa (nameText owner) addr ttl).Coded owner addr.toList where
  areLabels := areLabels
  domain := rfl
  writes := by
    have segments : Writes ((segmentsOf addr.toList).forM writeU16) addr.toList := by
      have written := writes_forM fun segment (_ : segment ∈ segmentsOf addr.toList) =>
        writes_writeU16 segment
      rwa [flatMap_segmentsOf (by simp)] at written
    exact writes_writeHeader areLabels _ _ (writes_sized (by simp) segments)
  reads := by
    intro _ rdataStart
    obtain ⟨first, second, third, fourth, rfl⟩ := exists_ipv6OfNums addr
    rw [toList_ipv6OfNums]
    exact (readsAt_readU32 first).bind ((readsAt_readU32 second).bind
      ((readsAt_readU32 third).bind ((readsAt_readU32 fourth).map _)))

/-- A record whose data are a number, two octets and the octets behind them. -/
theorem coded_tagged {record : DnsRecord} {qtype : QueryType} {tag : UInt16}
    {first second : UInt8} {octets : List UInt8} (areLabels : ∀ label ∈ owner, IsWireLabel label)
    (domain : record.domain = nameText owner)
    (writeEq : record.writeFields = (do
      writeHeader (nameText owner) record.queryType.toNum record.ttl
      writeU16 (4 + octets.length).toUInt16
      writeU16 tag
      BytePacketBuffer.write first
      BytePacketBuffer.write second
      writeBytes octets))
    (build : UInt16 → UInt8 → UInt8 → List UInt8 → DnsRecord)
    (built : build tag first second octets = record)
    (readEq : ∀ dataLen rdataStart, readRdata (nameText owner) record.queryType.toNum record.ttl
      dataLen rdataStart = (do
        let tag ← readU16
        let first ← BytePacketBuffer.read
        let second ← BytePacketBuffer.read
        let octets ← readRest qtype rdataStart dataLen
        pure (build tag first second octets))) :
    record.Coded owner (beBytes16 tag ++ ([first] ++ ([second] ++ octets))) where
  areLabels := areLabels
  domain := domain
  writes := by
    rw [writeEq]
    refine writes_writeHeader areLabels _ _ (writes_sized ?_ ((writes_writeU16 _).bind fun _ =>
      (writes_write _).bind fun _ => (writes_write _).bind fun _ => writes_writeBytes _))
    simp only [List.length_append, List.length_singleton, ← Nat.add_assoc]
    rfl
  reads := by
    intro short rdataStart
    rw [readEq, ← built]
    refine (readsAt_readU16 _).bind ((BytePacketBuffer.readsAt_read _).bind
      ((BytePacketBuffer.readsAt_read _).bind (ReadsAt.map (readsAt_readRest ?_) _)))
    rw [toNat_length_toUInt16 short]
    simp only [List.length_append]
    omega

theorem coded_dnskey {flags : UInt16} {protocol algorithm : UInt8} {publicKey : List UInt8}
    {ttl : UInt32} (areLabels : ∀ label ∈ owner, IsWireLabel label) :
    (dnskey ⟨nameText owner, flags, protocol, algorithm, publicKey, ttl⟩).Coded owner
      (beBytes16 flags ++ ([protocol] ++ ([algorithm] ++ publicKey))) :=
  coded_tagged areLabels rfl rfl
    (fun flags protocol algorithm publicKey =>
      dnskey ⟨nameText owner, flags, protocol, algorithm, publicKey, ttl⟩) rfl fun _ _ => rfl

theorem coded_ds {keyTag : UInt16} {algorithm digestType : UInt8} {digest : List UInt8}
    {ttl : UInt32} (areLabels : ∀ label ∈ owner, IsWireLabel label) :
    (ds ⟨nameText owner, keyTag, algorithm, digestType, digest, ttl⟩).Coded owner
      (beBytes16 keyTag ++ ([algorithm] ++ ([digestType] ++ digest))) :=
  coded_tagged areLabels rfl rfl
    (fun keyTag algorithm digestType digest =>
      ds ⟨nameText owner, keyTag, algorithm, digestType, digest, ttl⟩) rfl fun _ _ => rfl

theorem coded_rrsig {typeCovered keyTag : UInt16} {algorithm labels : UInt8}
    {originalTtl expiration inception ttl : UInt32} {signer : List (List UInt8)}
    {signature : List UInt8} (areLabels : ∀ label ∈ owner, IsWireLabel label)
    (signerLabels : ∀ label ∈ signer, IsWireLabel label) :
    (rrsig ⟨nameText owner, typeCovered, algorithm, labels, originalTtl, expiration, inception,
      keyTag, nameText signer, signature, ttl⟩).Coded owner
      (beBytes16 typeCovered ++ ([algorithm] ++ ([labels] ++ (beBytes32 originalTtl ++
        (beBytes32 expiration ++ (beBytes32 inception ++ (beBytes16 keyTag ++
          (wireName signer ++ signature)))))))) where
  areLabels := areLabels
  domain := rfl
  writes := writes_writeHeader areLabels _ _ (writes_writePatched
    ((writes_writeU16 _).bind fun _ => (writes_write _).bind fun _ => (writes_write _).bind fun _ =>
      (writes_writeU32 _).bind fun _ => (writes_writeU32 _).bind fun _ =>
      (writes_writeU32 _).bind fun _ => (writes_writeU16 _).bind fun _ =>
      (writes_writeQname signerLabels).bind fun _ => writes_writeBytes _))
  reads := by
    intro short rdataStart
    refine (readsAt_readU16 _).bind ((BytePacketBuffer.readsAt_read _).bind
      ((BytePacketBuffer.readsAt_read _).bind ((readsAt_readU32 _).bind ((readsAt_readU32 _).bind
        ((readsAt_readU32 _).bind ((readsAt_readU16 _).bind
          ((readsAt_readQname signerLabels).bind (ReadsAt.map (readsAt_readRest ?_) _))))))))
    rw [toNat_length_toUInt16 short]
    simp only [List.length_append]
    omega

theorem coded_nsec {next : List (List UInt8)} {typeBitmap : List UInt8} {ttl : UInt32}
    (areLabels : ∀ label ∈ owner, IsWireLabel label)
    (nextLabels : ∀ label ∈ next, IsWireLabel label) :
    (nsec ⟨nameText owner, nameText next, typeBitmap, ttl⟩).Coded owner
      (wireName next ++ typeBitmap) where
  areLabels := areLabels
  domain := rfl
  writes := writes_writeHeader areLabels _ _ (writes_writePatched
    ((writes_writeQname nextLabels).bind fun _ => writes_writeBytes _))
  reads := by
    intro short rdataStart
    refine (readsAt_readQname nextLabels).bind (ReadsAt.map (readsAt_readRest ?_) _)
    rw [toNat_length_toUInt16 short]
    simp only [List.length_append]
    omega

theorem coded_nsec3 {hashAlgorithm flags : UInt8} {iterations : UInt16}
    {salt nextHashedOwner typeBitmap : List UInt8} {ttl : UInt32}
    (areLabels : ∀ label ∈ owner, IsWireLabel label) (saltShort : salt.length ≤ 255)
    (hashShort : nextHashedOwner.length ≤ 255) :
    (nsec3 ⟨nameText owner, hashAlgorithm, flags, iterations, salt, nextHashedOwner, typeBitmap,
      ttl⟩).Coded owner
      ([hashAlgorithm] ++ ([flags] ++ (beBytes16 iterations ++ ([salt.length.toUInt8] ++ (salt ++
        ([nextHashedOwner.length.toUInt8] ++ (nextHashedOwner ++ typeBitmap))))))) where
  areLabels := areLabels
  domain := rfl
  writes := by
    refine writes_writeHeader areLabels _ _ (writes_sized ?_ ((writes_write _).bind fun _ =>
      (writes_write _).bind fun _ => (writes_writeU16 _).bind fun _ =>
      (writes_write _).bind fun _ => (writes_writeBytes _).bind fun _ =>
      (writes_write _).bind fun _ => (writes_writeBytes _).bind fun _ => writes_writeBytes _))
    have two : (beBytes16 iterations).length = 2 := rfl
    simp only [List.length_append, List.length_singleton, two, ← Nat.add_assoc]
  reads := by
    intro short rdataStart
    have saltReads : ∀ pos, ReadsAt pos (readOctets salt.length.toUInt8.toNat) salt salt := by
      intro pos
      rw [toNat_length_toUInt8 saltShort]
      exact readsAt_readOctets salt
    have hashReads : ∀ pos, ReadsAt pos (readOctets nextHashedOwner.length.toUInt8.toNat)
        nextHashedOwner nextHashedOwner := by
      intro pos
      rw [toNat_length_toUInt8 hashShort]
      exact readsAt_readOctets nextHashedOwner
    refine (BytePacketBuffer.readsAt_read _).bind ((BytePacketBuffer.readsAt_read _).bind
      ((readsAt_readU16 _).bind ((BytePacketBuffer.readsAt_read _).bind ((saltReads _).bind
        ((BytePacketBuffer.readsAt_read _).bind ((hashReads _).bind
          (ReadsAt.map (readsAt_readRest ?_) _)))))))
    rw [toNat_length_toUInt16 short]
    simp only [List.length_append]
    omega

/-- Every record with readable names and fitting fields has a wire form, in which
the TTL stands outside the owner and the data. -/
theorem exists_coded_withTtl {record : DnsRecord}
    (producible : ∀ name ∈ record.names, Producible name) (fits : record.FieldsFit) :
    ∃ owner rdata, ∀ ttl, (record.withTtl ttl).Coded owner rdata := by
  cases record with
  | unknown domain qtype data ttl =>
      obtain ⟨owner, areLabels, rfl⟩ := (producible domain (by simp [names])).exists_labels
      exact ⟨owner, _, fun _ => coded_unknown areLabels fits⟩
  | a domain addr ttl =>
      obtain ⟨owner, areLabels, rfl⟩ := (producible domain (by simp [names])).exists_labels
      exact ⟨owner, _, fun _ => coded_a areLabels⟩
  | ns domain host ttl =>
      obtain ⟨owner, areLabels, rfl⟩ := (producible domain (by simp [names])).exists_labels
      obtain ⟨target, hostLabels, rfl⟩ := (producible host (by simp [names])).exists_labels
      exact ⟨owner, _, fun _ => coded_ns areLabels hostLabels⟩
  | soa start =>
      obtain ⟨domain, mname, rname, serial, refresh, retry, expire, minimum, ttl⟩ := start
      obtain ⟨owner, areLabels, rfl⟩ := (producible domain (by simp [names])).exists_labels
      obtain ⟨server, mnameLabels, rfl⟩ := (producible mname (by simp [names])).exists_labels
      obtain ⟨contact, rnameLabels, rfl⟩ := (producible rname (by simp [names])).exists_labels
      exact ⟨owner, _, fun _ => coded_soa areLabels mnameLabels rnameLabels⟩
  | cname domain host ttl =>
      obtain ⟨owner, areLabels, rfl⟩ := (producible domain (by simp [names])).exists_labels
      obtain ⟨target, hostLabels, rfl⟩ := (producible host (by simp [names])).exists_labels
      exact ⟨owner, _, fun _ => coded_cname areLabels hostLabels⟩
  | ptr domain host ttl =>
      obtain ⟨owner, areLabels, rfl⟩ := (producible domain (by simp [names])).exists_labels
      obtain ⟨target, hostLabels, rfl⟩ := (producible host (by simp [names])).exists_labels
      exact ⟨owner, _, fun _ => coded_ptr areLabels hostLabels⟩
  | mx domain priority host ttl =>
      obtain ⟨owner, areLabels, rfl⟩ := (producible domain (by simp [names])).exists_labels
      obtain ⟨target, hostLabels, rfl⟩ := (producible host (by simp [names])).exists_labels
      exact ⟨owner, _, fun _ => coded_mx areLabels hostLabels⟩
  | aaaa domain addr ttl =>
      obtain ⟨owner, areLabels, rfl⟩ := (producible domain (by simp [names])).exists_labels
      exact ⟨owner, _, fun _ => coded_aaaa areLabels⟩
  | dnskey key =>
      obtain ⟨domain, flags, protocol, algorithm, publicKey, ttl⟩ := key
      obtain ⟨owner, areLabels, rfl⟩ := (producible domain (by simp [names])).exists_labels
      exact ⟨owner, _, fun _ => coded_dnskey areLabels⟩
  | ds delegation =>
      obtain ⟨domain, keyTag, algorithm, digestType, digest, ttl⟩ := delegation
      obtain ⟨owner, areLabels, rfl⟩ := (producible domain (by simp [names])).exists_labels
      exact ⟨owner, _, fun _ => coded_ds areLabels⟩
  | rrsig sig =>
      obtain ⟨domain, typeCovered, algorithm, labels, originalTtl, expiration, inception, keyTag,
        signerName, signature, ttl⟩ := sig
      obtain ⟨owner, areLabels, rfl⟩ := (producible domain (by simp [names])).exists_labels
      obtain ⟨signer, signerLabels, rfl⟩ :=
        (producible signerName (by simp [names])).exists_labels
      exact ⟨owner, _, fun _ => coded_rrsig areLabels signerLabels⟩
  | nsec denial =>
      obtain ⟨domain, nextDomain, typeBitmap, ttl⟩ := denial
      obtain ⟨owner, areLabels, rfl⟩ := (producible domain (by simp [names])).exists_labels
      obtain ⟨next, nextLabels, rfl⟩ := (producible nextDomain (by simp [names])).exists_labels
      exact ⟨owner, _, fun _ => coded_nsec areLabels nextLabels⟩
  | nsec3 denial =>
      obtain ⟨domain, hashAlgorithm, flags, iterations, salt, nextHashedOwner, typeBitmap, ttl⟩ :=
        denial
      obtain ⟨owner, areLabels, rfl⟩ := (producible domain (by simp [names])).exists_labels
      exact ⟨owner, _, fun _ => coded_nsec3 areLabels fits.1 fits.2⟩

theorem exists_coded {record : DnsRecord} (producible : ∀ name ∈ record.names, Producible name)
    (fits : record.FieldsFit) : ∃ owner rdata, record.Coded owner rdata := by
  obtain ⟨owner, rdata, coded⟩ := exists_coded_withTtl producible fits
  exact ⟨owner, rdata, withTtl_ttl record ▸ coded record.ttl⟩

end DnsRecord

end Numa
