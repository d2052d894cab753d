import Numa.QueryType

/-!
# Records and packets

The data of `record.rs`, `question.rs`, `header.rs` and `packet.rs`.  The
fields of the larger record variants are bundled into a structure of their
own; the variants and the fields are those of the source.
-/

namespace Numa

/-- The octets of an IPv4 address. -/
abbrev Ipv4Addr := Vector UInt8 4

/-- `Ipv4Addr::new`. -/
def Ipv4Addr.new (a b c d : UInt8) : Ipv4Addr :=
  #v[a, b, c, d]

/-- The octets of an IPv6 address. -/
abbrev Ipv6Addr := Vector UInt8 16

structure Soa where
  domain : Text
  mname : Text
  rname : Text
  serial : UInt32
  refresh : UInt32
  retry : UInt32
  expire : UInt32
  minimum : UInt32
  ttl : UInt32
  deriving DecidableEq

structure Dnskey where
  domain : Text
  flags : UInt16
  protocol : UInt8
  algorithm : UInt8
  publicKey : List UInt8
  ttl : UInt32
  deriving DecidableEq

structure Ds where
  domain : Text
  keyTag : UInt16
  algorithm : UInt8
  digestType : UInt8
  digest : List UInt8
  ttl : UInt32
  deriving DecidableEq

structure Rrsig where
  domain : Text
  typeCovered : UInt16
  algorithm : UInt8
  labels : UInt8
  originalTtl : UInt32
  expiration : UInt32
  inception : UInt32
  keyTag : UInt16
  signerName : Text
  signature : List UInt8
  ttl : UInt32
  deriving DecidableEq

structure Nsec where
  domain : Text
  nextDomain : Text
  typeBitmap : List UInt8
  ttl : UInt32
  deriving DecidableEq

structure Nsec3 where
  domain : Text
  hashAlgorithm : UInt8
  flags : UInt8
  iterations : UInt16
  salt : List UInt8
  nextHashedOwner : List UInt8
  typeBitmap : List UInt8
  ttl : UInt32
  deriving DecidableEq

inductive DnsRecord
  | unknown (domain : Text) (qtype : UInt16) (data : List UInt8) (ttl : UInt32)
  | a (domain : Text) (addr : Ipv4Addr) (ttl : UInt32)
  | ns (domain host : Text) (ttl : UInt32)
  | soa (start : Soa)
  | cname (domain host : Text) (ttl : UInt32)
  | ptr (domain host : Text) (ttl : UInt32)
  | mx (domain : Text) (priority : UInt16) (host : Text) (ttl : UInt32)
  | aaaa (domain : Text) (addr : Ipv6Addr) (ttl : UInt32)
  | dnskey (key : Dnskey)
  | ds (delegation : Ds)
  | rrsig (sig : Rrsig)
  | nsec (denial : Nsec)
  | nsec3 (denial : Nsec3)
  deriving DecidableEq

namespace DnsRecord

def domain : DnsRecord → Text
  | unknown domain .. => domain
  | a domain .. => domain
  | ns domain .. => domain
  | soa start => start.domain
  | cname domain .. => domain
  | ptr domain .. => domain
  | mx domain .. => domain
  | aaaa domain .. => domain
  | dnskey key => key.domain
  | ds delegation => delegation.domain
  | rrsig sig => sig.domain
  | nsec denial => denial.domain
  | nsec3 denial => denial.domain

def queryType : DnsRecord → QueryType
  | unknown _ qtype .. => .unknown qtype
  | a .. => .a
  | ns .. => .ns
  | soa _ => .soa
  | cname .. => .cname
  | ptr .. => .ptr
  | mx .. => .mx
  | aaaa .. => .aaaa
  | dnskey _ => .dnskey
  | ds _ => .ds
  | rrsig _ => .rrsig
  | nsec _ => .nsec
  | nsec3 _ => .nsec3

def ttl : DnsRecord → UInt32
  | unknown _ _ _ ttl => ttl
  | a _ _ ttl => ttl
  | ns _ _ ttl => ttl
  | soa start => start.ttl
  | cname _ _ ttl => ttl
  | ptr _ _ ttl => ttl
  | mx _ _ _ ttl => ttl
  | aaaa _ _ ttl => ttl
  | dnskey key => key.ttl
  | ds delegation => delegation.ttl
  | rrsig sig => sig.ttl
  | nsec denial => denial.ttl
  | nsec3 denial => denial.ttl

/-- `matches!(r, DnsRecord::RRSIG { .. })`. -/
def isRrsig : DnsRecord → Bool
  | rrsig _ => true
  | _ => false

/-- `matches!(r, DnsRecord::DNSKEY { .. })`. -/
def isDnskey : DnsRecord → Bool
  | dnskey _ => true
  | _ => false

/-- `matches!(r, DnsRecord::DS { .. })`. -/
def isDs : DnsRecord → Bool
  | ds _ => true
  | _ => false

/-- `matches!(r, DnsRecord::NSEC { .. })`. -/
def isNsec : DnsRecord → Bool
  | nsec _ => true
  | _ => false

/-- `matches!(r, DnsRecord::NSEC3 { .. })`. -/
def isNsec3 : DnsRecord → Bool
  | nsec3 _ => true
  | _ => false

/-- `set_ttl`. -/
def withTtl (ttl : UInt32) : DnsRecord → DnsRecord
  | unknown domain qtype data _ => unknown domain qtype data ttl
  | a domain addr _ => a domain addr ttl
  | ns domain host _ => ns domain host ttl
  | soa start => soa { start with ttl := ttl }
  | cname domain host _ => cname domain host ttl
  | ptr domain host _ => ptr domain host ttl
  | mx domain priority host _ => mx domain priority host ttl
  | aaaa domain addr _ => aaaa domain addr ttl
  | dnskey key => dnskey { key with ttl := ttl }
  | ds delegation => ds { delegation with ttl := ttl }
  | rrsig sig => rrsig { sig with ttl := ttl }
  | nsec denial => nsec { denial with ttl := ttl }
  | nsec3 denial => nsec3 { denial with ttl := ttl }

section WithTtl

variable (ttl : UInt32)

@[simp]
theorem withTtl_withTtl (other : UInt32) (record : DnsRecord) :
    (record.withTtl other).withTtl ttl = record.withTtl ttl := by
  cases record <;> rfl

@[simp]
theorem domain_withTtl (record : DnsRecord) : (record.withTtl ttl).domain = record.domain := by
  cases record <;> rfl

@[simp]
theorem queryType_withTtl (record : DnsRecord) :
    (record.withTtl ttl).queryType = record.queryType := by
  cases record <;> rfl

@[simp]
theorem ttl_withTtl (record : DnsRecord) : (record.withTtl ttl).ttl = ttl := by
  cases record <;> rfl

@[simp]
theorem withTtl_ttl (record : DnsRecord) : record.withTtl record.ttl = record := by
  cases record <;> rfl

end WithTtl

theorem isRrsig_iff {record : DnsRecord} :
    record.isRrsig = true ↔ ∃ sig, record = rrsig sig := by
  cases record <;> simp [isRrsig]

theorem isDnskey_iff {record : DnsRecord} :
    record.isDnskey = true ↔ ∃ key, record = dnskey key := by
  cases record <;> simp [isDnskey]

theorem isDs_iff {record : DnsRecord} :
    record.isDs = true ↔ ∃ delegation, record = ds delegation := by
  cases record <;> simp [isDs]

theorem isNsec_iff {record : DnsRecord} :
    record.isNsec = true ↔ ∃ denial, record = nsec denial := by
  cases record <;> simp [isNsec]

theorem isNsec3_iff {record : DnsRecord} :
    record.isNsec3 = true ↔ ∃ denial, record = nsec3 denial := by
  cases record <;> simp [isNsec3]

end DnsRecord

structure DnsQuestion where
  name : Text
  qtype : QueryType
  deriving DecidableEq

structure DnsHeader where
  id : UInt16 := 0
  recursionDesired : Bool := false
  truncatedMessage : Bool := false
  authoritativeAnswer : Bool := false
  opcode : UInt8 := 0
  response : Bool := false
  rescode : ResultCode := .noerror
  checkingDisabled : Bool := false
  authedData : Bool := false
  z : Bool := false
  recursionAvailable : Bool := false
  questions : UInt16 := 0
  answers : UInt16 := 0
  authoritativeEntries : UInt16 := 0
  resourceEntries : UInt16 := 0
  deriving DecidableEq

/-- The EDNS0 OPT pseudo-record, with the defaults of `EdnsOpt::default`. -/
structure EdnsOpt where
  udpPayloadSize : UInt16 := 1232
  extendedRcode : UInt8 := 0
  version : UInt8 := 0
  doBit : Bool := false
  options : List UInt8 := []
  deriving DecidableEq

structure DnsPacket where
  header : DnsHeader := {}
  questions : List DnsQuestion := []
  answers : List DnsRecord := []
  authorities : List DnsRecord := []
  resources : List DnsRecord := []
  edns : Option EdnsOpt := none
  deriving DecidableEq

/-- The records of the three sections. -/
def DnsPacket.records (packet : DnsPacket) : List DnsRecord :=
  packet.answers ++ packet.authorities ++ packet.resources

inductive DnssecStatus
  | secure
  | insecure
  | bogus
  | indeterminate
  deriving DecidableEq

end Numa
