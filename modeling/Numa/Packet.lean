import Numa.PacketBuffer
import Numa.Record

/-!
# Packets on the wire

The readers and writers of `header.rs`, `question.rs`, `record.rs` and
`packet.rs`.  A writer that precedes its data by their length either knows the
length beforehand or patches it in afterwards; both keep its low 16 bits only.
-/

namespace Numa

open BytePacketBuffer

namespace ResultCode

/-- `rescode as u8`. -/
def toNum : ResultCode → UInt8
  | noerror => 0
  | formerr => 1
  | servfail => 2
  | nxdomain => 3
  | notimp => 4
  | refused => 5

def fromNum (num : UInt8) : ResultCode :=
  if num = 1 then formerr
  else if num = 2 then servfail
  else if num = 3 then nxdomain
  else if num = 4 then notimp
  else if num = 5 then refused
  else noerror

end ResultCode

/-- `(octet & (1 << index)) > 0`. -/
def hasBit (octet index : UInt8) : Bool :=
  decide (0 < octet &&& (1 : UInt8) <<< index)

namespace DnsHeader

def read : BufferM DnsHeader := do
  let id ← readU16
  let flags ← readU16
  let a := (flags >>> 8).toUInt8
  let b := (flags &&& 0xFF).toUInt8
  let questions ← readU16
  let answers ← readU16
  let authoritativeEntries ← readU16
  let resourceEntries ← readU16
  pure
    { id := id
      recursionDesired := hasBit a 0
      truncatedMessage := hasBit a 1
      authoritativeAnswer := hasBit a 2
      opcode := a >>> 3 &&& 0x0F
      response := hasBit a 7
      rescode := .fromNum (b &&& 0x0F)
      checkingDisabled := hasBit b 4
      authedData := hasBit b 5
      z := hasBit b 6
      recursionAvailable := hasBit b 7
      questions := questions
      answers := answers
      authoritativeEntries := authoritativeEntries
      resourceEntries := resourceEntries }

/-- The first octet of the flags. -/
def firstFlags (header : DnsHeader) : UInt8 :=
  header.recursionDesired.toUInt8 ||| header.truncatedMessage.toUInt8 <<< 1 |||
    header.authoritativeAnswer.toUInt8 <<< 2 ||| header.opcode <<< 3 |||
    header.response.toUInt8 <<< 7

/-- The second octet of the flags. -/
def secondFlags (header : DnsHeader) : UInt8 :=
  header.rescode.toNum ||| header.checkingDisabled.toUInt8 <<< 4 |||
    header.authedData.toUInt8 <<< 5 ||| header.z.toUInt8 <<< 6 |||
    header.recursionAvailable.toUInt8 <<< 7

def write (header : DnsHeader) : BufferM Unit := do
  writeU16 header.id
  BytePacketBuffer.write header.firstFlags
  BytePacketBuffer.write header.secondFlags
  writeU16 header.questions
  writeU16 header.answers
  writeU16 header.authoritativeEntries
  writeU16 header.resourceEntries

end DnsHeader

namespace DnsQuestion

def read : BufferM DnsQuestion := do
  let name ← readQname
  let qtype ← readU16
  let _ ← readU16
  pure ⟨name, .fromNum qtype⟩

def write (question : DnsQuestion) : BufferM Unit := do
  writeQname question.name
  writeU16 question.qtype.toNum
  writeU16 1

end DnsQuestion

/-- The rest of the record data, of which the octets from `rdataStart` to the
cursor are read. -/
def readRest (qtype : QueryType) (rdataStart : Nat) (dataLen : UInt16) :
    BufferM (List UInt8) := do
  let buffer ← get
  if rdataStart + dataLen.toNat < buffer.pos then throw (.dataLenTooShort qtype)
  else readOctets (rdataStart + dataLen.toNat - buffer.pos)

/-- `Ipv4Addr::new` of the octets of a number. -/
def ipv4OfNum (raw : UInt32) : Ipv4Addr :=
  #v[(raw >>> 24 &&& 0xFF).toUInt8, (raw >>> 16 &&& 0xFF).toUInt8,
    (raw >>> 8 &&& 0xFF).toUInt8, (raw &&& 0xFF).toUInt8]

/-- The two segments in a number. -/
def segmentsOfNum (raw : UInt32) : List UInt16 :=
  [(raw >>> 16 &&& 0xFFFF).toUInt16, (raw &&& 0xFFFF).toUInt16]

/-- `Ipv6Addr::new` of the segments of four numbers. -/
def ipv6OfNums (first second third fourth : UInt32) : Ipv6Addr :=
  ⟨(((segmentsOfNum first ++ segmentsOfNum second ++ segmentsOfNum third ++
    segmentsOfNum fourth).flatMap beBytes16)).toArray, rfl⟩

/-- `Ipv6Addr::segments`. -/
def segmentsOf : List UInt8 → List UInt16
  | high :: low :: rest => (high.toUInt16 <<< 8 ||| low.toUInt16) :: segmentsOf rest
  | _ => []

namespace DnsRecord

/-- The record data of a type, whose first octet is at `rdataStart`. -/
def readRdata (domain : Text) (qtypeNum : UInt16) (ttl : UInt32) (dataLen : UInt16)
    (rdataStart : Nat) : BufferM DnsRecord :=
  match QueryType.fromNum qtypeNum with
  | .a => do
    let rawAddr ← readU32
    pure (.a domain (ipv4OfNum rawAddr) ttl)
  | .aaaa => do
    let rawAddr1 ← readU32
    let rawAddr2 ← readU32
    let rawAddr3 ← readU32
    let rawAddr4 ← readU32
    pure (.aaaa domain (ipv6OfNums rawAddr1 rawAddr2 rawAddr3 rawAddr4) ttl)
  | .ns => do
    let host ← readQname
    pure (.ns domain host ttl)
  | .cname => do
    let host ← readQname
    pure (.cname domain host ttl)
  | .ptr => do
    let host ← readQname
    pure (.ptr domain host ttl)
  | .mx => do
    let priority ← readU16
    let host ← readQname
    pure (.mx domain priority host ttl)
  | .dnskey => do
    let flags ← readU16
    let protocol ← BytePacketBuffer.read
    let algorithm ← BytePacketBuffer.read
    let publicKey ← readRest .dnskey rdataStart dataLen
    pure (.dnskey
      { domain := domain, flags := flags, protocol := protocol, algorithm := algorithm
        publicKey := publicKey, ttl := ttl })
  | .ds => do
    let keyTag ← readU16
    let algorithm ← BytePacketBuffer.read
    let digestType ← BytePacketBuffer.read
    let digest ← readRest .ds rdataStart dataLen
    pure (.ds
      { domain := domain, keyTag := keyTag, algorithm := algorithm, digestType := digestType
        digest := digest, ttl := ttl })
  | .rrsig => do
    let typeCovered ← readU16
    let algorithm ← BytePacketBuffer.read
    let labels ← BytePacketBuffer.read
    let originalTtl ← readU32
    let expiration ← readU32
    let inception ← readU32
    let keyTag ← readU16
    let signerName ← readQname
    let signature ← readRest .rrsig rdataStart dataLen
    pure (.rrsig
      { domain := domain, typeCovered := typeCovered, algorithm := algorithm, labels := labels
        originalTtl := originalTtl, expiration := expiration, inception := inception
        keyTag := keyTag, signerName := signerName, signature := signature, ttl := ttl })
  | .nsec => do
    let nextDomain ← readQname
    let typeBitmap ← readRest .nsec rdataStart dataLen
    pure (.nsec
      { domain := domain, nextDomain := nextDomain, typeBitmap := typeBitmap, ttl := ttl })
  | .nsec3 => do
    let hashAlgorithm ← BytePacketBuffer.read
    let flags ← BytePacketBuffer.read
    let iterations ← readU16
    let saltLength ← BytePacketBuffer.read
    let salt ← readOctets saltLength.toNat
    let hashLength ← BytePacketBuffer.read
    let nextHashedOwner ← readOctets hashLength.toNat
    let typeBitmap ← readRest .nsec3 rdataStart dataLen
    pure (.nsec3
      { domain := domain, hashAlgorithm := hashAlgorithm, flags := flags
        iterations := iterations, salt := salt, nextHashedOwner := nextHashedOwner
        typeBitmap := typeBitmap, ttl := ttl })
  | .soa => do
    let mname ← readQname
    let rname ← readQname
    let serial ← readU32
    let refresh ← readU32
    let retry ← readU32
    let expire ← readU32
    let minimum ← readU32
    pure (.soa
      { domain := domain, mname := mname, rname := rname, serial := serial
        refresh := refresh, retry := retry, expire := expire, minimum := minimum, ttl := ttl })
  | _ => do
    let data ← readOctets dataLen.toNat
    pure (.unknown domain qtypeNum data ttl)

def read : BufferM DnsRecord := do
  let domain ← readQname
  let qtypeNum ← readU16
  let _ ← readU16
  let ttl ← readU32
  let dataLen ← readU16
  let buffer ← get
  readRdata domain qtypeNum ttl dataLen buffer.pos

/-- `write_header`. -/
def writeHeader (domain : Text) (qtype : UInt16) (ttl : UInt32) : BufferM Unit := do
  writeQname domain
  writeU16 qtype
  writeU16 1
  writeU32 ttl

/-- Record data whose length is patched in when they are written. -/
def writePatched (rdata : BufferM Unit) : BufferM Unit := do
  let rdlenPos := (← get).pos
  writeU16 0
  rdata
  let rdlen := (← get).pos - (rdlenPos + 2)
  setU16 rdlenPos rdlen.toUInt16

/-- The fields of a record in wire form. -/
def writeFields : DnsRecord → BufferM Unit
  | a domain addr ttl => do
    writeHeader domain QueryType.a.toNum ttl
    writeU16 4
    writeBytes addr.toList
  | ns domain host ttl => do
    writeHeader domain QueryType.ns.toNum ttl
    writePatched (writeQname host)
  | cname domain host ttl => do
    writeHeader domain QueryType.cname.toNum ttl
    writePatched (writeQname host)
  | ptr domain host ttl => do
    writeHeader domain QueryType.ptr.toNum ttl
    writePatched (writeQname host)
  | mx domain priority host ttl => do
    writeHeader domain QueryType.mx.toNum ttl
    writePatched do
      writeU16 priority
      writeQname host
  | soa start => do
    writeHeader start.domain QueryType.soa.toNum start.ttl
    writePatched do
      writeQname start.mname
      writeQname start.rname
      writeU32 start.serial
      writeU32 start.refresh
      writeU32 start.retry
      writeU32 start.expire
      writeU32 start.minimum
  | aaaa domain addr ttl => do
    writeHeader domain QueryType.aaaa.toNum ttl
    writeU16 16
    (segmentsOf addr.toList).forM writeU16
  | dnskey key => do
    writeHeader key.domain QueryType.dnskey.toNum key.ttl
    writeU16 (4 + key.publicKey.length).toUInt16
    writeU16 key.flags
    BytePacketBuffer.write key.protocol
    BytePacketBuffer.write key.algorithm
    writeBytes key.publicKey
  | ds delegation => do
    writeHeader delegation.domain QueryType.ds.toNum delegation.ttl
    writeU16 (4 + delegation.digest.length).toUInt16
    writeU16 delegation.keyTag
    BytePacketBuffer.write delegation.algorithm
    BytePacketBuffer.write delegation.digestType
    writeBytes delegation.digest
  | rrsig sig => do
    writeHeader sig.domain QueryType.rrsig.toNum sig.ttl
    writePatched do
      writeU16 sig.typeCovered
      BytePacketBuffer.write sig.algorithm
      BytePacketBuffer.write sig.labels
      writeU32 sig.originalTtl
      writeU32 sig.expiration
      writeU32 sig.inception
      writeU16 sig.keyTag
      writeQname sig.signerName
      writeBytes sig.signature
  | nsec denial => do
    writeHeader denial.domain QueryType.nsec.toNum denial.ttl
    writePatched do
      writeQname denial.nextDomain
      writeBytes denial.typeBitmap
  | nsec3 denial => do
    writeHeader denial.domain QueryType.nsec3.toNum denial.ttl
    writeU16 (1 + 1 + 2 + 1 + denial.salt.length + 1 + denial.nextHashedOwner.length +
      denial.typeBitmap.length).toUInt16
    BytePacketBuffer.write denial.hashAlgorithm
    BytePacketBuffer.write denial.flags
    writeU16 denial.iterations
    BytePacketBuffer.write denial.salt.length.toUInt8
    writeBytes denial.salt
    BytePacketBuffer.write denial.nextHashedOwner.length.toUInt8
    writeBytes denial.nextHashedOwner
    writeBytes denial.typeBitmap
  | unknown domain qtype data ttl => do
    writeHeader domain qtype ttl
    writeU16 data.length.toUInt16
    writeBytes data

/-- `DnsRecord::write`, which returns the number of octets written. -/
def write (record : DnsRecord) : BufferM Nat := do
  let startPos := (← get).pos
  record.writeFields
  pure ((← get).pos - startPos)

end DnsRecord

namespace EdnsOpt

/-- The OPT record after the peek at its name and type. -/
def read : BufferM EdnsOpt := do
  step 1
  let _ ← readU16
  let udpPayloadSize ← readU16
  let ttlField ← readU32
  let rdlength ← readU16
  let options ← readOctets rdlength.toNat
  pure
    { udpPayloadSize := udpPayloadSize
      extendedRcode := (ttlField >>> 24 &&& 0xFF).toUInt8
      version := (ttlField >>> 16 &&& 0xFF).toUInt8
      doBit := decide (ttlField >>> 15 &&& 1 = 1)
      options := options }

/-- The flags in the TTL field of the OPT record. -/
def ttlField (edns : EdnsOpt) : UInt32 :=
  edns.extendedRcode.toUInt32 <<< 24 ||| edns.version.toUInt32 <<< 16 |||
    (if edns.doBit then (1 : UInt32) <<< 15 else 0)

def write (edns : EdnsOpt) : BufferM Unit := do
  BytePacketBuffer.write 0
  writeU16 QueryType.opt.toNum
  writeU16 edns.udpPayloadSize
  writeU32 edns.ttlField
  writeU16 edns.options.length.toUInt16
  writeBytes edns.options

end EdnsOpt

/-- Read a number of items one after the other. -/
def readMany {α : Type} (item : BufferM α) : Nat → BufferM (List α)
  | 0 => pure []
  | count + 1 => do
    let first ← item
    let rest ← readMany item count
    pure (first :: rest)

namespace DnsPacket

/-- Does an OPT record start at the position? -/
def isOptAt (peekPos : Nat) : BufferM Bool := do
  let nameByte ← getAt peekPos
  if nameByte = 0 then
    let typeHi ← getAt (peekPos + 1)
    let typeLo ← getAt (peekPos + 2)
    pure (typeHi.toUInt16 <<< 8 ||| typeLo.toUInt16 == 41)
  else pure false

/-- The additional section, whose last OPT record replaces the one before. -/
def readResources : Nat → Option EdnsOpt → BufferM (List DnsRecord × Option EdnsOpt)
  | 0, edns => pure ([], edns)
  | count + 1, edns => do
    let buffer ← get
    let isOpt ← isOptAt buffer.pos
    if isOpt then
      let opt ← EdnsOpt.read
      readResources count (some opt)
    else
      let record ← DnsRecord.read
      let (records, edns) ← readResources count edns
      pure (record :: records, edns)

def fromBuffer : BufferM DnsPacket := do
  let header ← DnsHeader.read
  let questions ← readMany DnsQuestion.read header.questions.toNat
  let answers ← readMany DnsRecord.read header.answers.toNat
  let authorities ← readMany DnsRecord.read header.authoritativeEntries.toNat
  let (resources, edns) ← readResources header.resourceEntries.toNat none
  pure
    { header := header
      questions := questions
      answers := answers
      authorities := authorities
      resources := resources
      edns := edns }

/-- The header with the counts that `write` gives it. -/
def countedHeader (packet : DnsPacket) : DnsHeader :=
  { packet.header with
    questions := packet.questions.length.toUInt16
    answers := packet.answers.length.toUInt16
    authoritativeEntries := packet.authorities.length.toUInt16
    resourceEntries := packet.resources.length.toUInt16 + if packet.edns.isSome then 1 else 0 }

def write (packet : DnsPacket) : BufferM Unit := do
  packet.countedHeader.write
  packet.questions.forM DnsQuestion.write
  packet.answers.forM fun record => discard record.write
  packet.authorities.forM fun record => discard record.write
  packet.resources.forM fun record => discard record.write
  match packet.edns with
  | some edns => edns.write
  | none => pure ()

end DnsPacket

end Numa
