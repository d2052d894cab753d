import Numa.ClientPolicy
import Numa.OverrideStore
import Numa.Pipeline
import Numa.ZoneMap

/-!
# Local data

`resolve_local` of `ctx.rs` with its sources: overrides, `.localhost`, zones,
special-use names, the services under the proxy's TLD, client policies, the
blocklist and the filter for AAAA records.
-/

namespace Numa

/-! ## Zones -/

namespace DnsRecord

def setDomain (domain : Text) : DnsRecord → DnsRecord
  | unknown _ qtype data ttl => .unknown domain qtype data ttl
  | a _ addr ttl => .a domain addr ttl
  | ns _ host ttl => .ns domain host ttl
  | soa start => .soa { start with domain := domain }
  | cname _ host ttl => .cname domain host ttl
  | ptr _ host ttl => .ptr domain host ttl
  | mx _ priority host ttl => .mx domain priority host ttl
  | aaaa _ addr ttl => .aaaa domain addr ttl
  | dnskey key => .dnskey { key with domain := domain }
  | ds delegation => .ds { delegation with domain := domain }
  | rrsig sig => .rrsig { sig with domain := domain }
  | nsec denial => .nsec { denial with domain := domain }
  | nsec3 denial => .nsec3 { denial with domain := domain }

@[simp]
theorem domain_setDomain (domain : Text) (record : DnsRecord) :
    (record.setDomain domain).domain = domain := by
  cases record <;> rfl

@[simp]
theorem queryType_setDomain (domain : Text) (record : DnsRecord) :
    (record.setDomain domain).queryType = record.queryType := by
  cases record <;> rfl

@[simp]
theorem isRrsig_setDomain (domain : Text) (record : DnsRecord) :
    (record.setDomain domain).isRrsig = record.isRrsig := by
  cases record <;> rfl

end DnsRecord

namespace ZoneMap

/-- The records of a type, or else the CNAMEs. -/
def select (records : AList fun _ : QueryType => List DnsRecord) (qtype : QueryType) :
    List DnsRecord :=
  match records.lookup qtype with
  | some rrs => rrs
  | none =>
    if qtype ≠ .cname then (records.lookup .cname).getD [] else []

/-- The search for a wildcard through the names above. -/
def lookupWildcard (map : ZoneMap) (qname : Text) (qtype : QueryType) :
    List Text → Option (List DnsRecord)
  | [] => none
  | parent :: parents =>
    if parent = [] then none
    else
      match map.wildcard.lookup parent with
      | some records => some ((select records qtype).map (DnsRecord.setDomain qname))
      | none => lookupWildcard map qname qtype parents

/-- `lookup`. -/
def lookup (map : ZoneMap) (qname : Text) (qtype : QueryType) : Option (List DnsRecord) :=
  match map.exact.lookup qname with
  | some records => some (select records qtype)
  | none => map.lookupWildcard qname qtype (tailsAfterDots qname)

end ZoneMap

/-! ## Special-use names -/

/-- `u8::from_str`. -/
def parseU8 (octets : Text) : Option UInt8 :=
  match parseU16 octets with
  | some value => if value ≤ 0xFF then some value.toUInt8 else none
  | none => none

/-- A reverse name of the block 172.16.0.0/12. -/
def isPrivateReverse172 (qname : Text) : Bool :=
  let suffix := text ".172.in-addr.arpa"
  if suffix.isSuffixOf qname then
    match parseU8 (afterLastDot (qname.take (qname.length - suffix.length))) with
    | some octet => 16 ≤ octet && octet ≤ 31
    | none => false
  else false

def isSpecialUseDomain (qname : Text) : Bool :=
  if (text ".in-addr.arpa").isSuffixOf qname then
    [".10.in-addr.arpa", ".168.192.in-addr.arpa", ".127.in-addr.arpa", ".254.169.in-addr.arpa",
        ".0.in-addr.arpa"].any (fun suffix => (text suffix).isSuffixOf qname) ||
      decide (text "_dns-sd._udp" <:+: qname) || isPrivateReverse172 qname
  else
    qname == text "_dns.resolver.arpa" || (text "._dns.resolver.arpa").isSuffixOf qname ||
      qname == text "ipv4only.arpa" || qname == text "local" || (text ".local").isSuffixOf qname

/-- `special_use_response`, by its response code and its answers. -/
def specialUseResponse (qname : Text) (qtype : QueryType) : ResultCode × List DnsRecord :=
  if qname = text "ipv4only.arpa" then
    (.noerror,
      match qtype with
      | .a => [.a qname (.new 192 0 0 170) 300, .a qname (.new 192 0 0 171) 300]
      | .aaaa =>
        [.aaaa qname #v[0x00, 0x64, 0xFF, 0x9B, 0, 0, 0, 0, 0, 0, 0, 0, 0xC0, 0x00, 0x00, 0xAA] 300]
      | _ => [])
  else (.nxdomain, [])

/-- `answer_record`: an answer of the family that is asked for, if there is one. -/
def answerRecord (domain : Text) (qtype : QueryType) (v4 : Option Ipv4Addr) (v6 : Option Ipv6Addr)
    (ttl : UInt32) : List DnsRecord :=
  match qtype with
  | .a => (v4.map fun addr => DnsRecord.a domain addr ttl).toList
  | .aaaa => (v6.map fun addr => DnsRecord.aaaa domain addr ttl).toList
  | _ => []

/-! ## Services -/

/-- `PeerStore`: the address and the port of a service, and when it was last heard of. -/
structure PeerStore where
  peers : AList fun _ : Text => IpAddr × UInt16 × Nat
  timeout : Nat

/-- `lookup`.  An entry that has timed out is not found, and it is removed. -/
def PeerStore.lookup (toLowercase : Text → Text) (store : PeerStore) (now : Nat) (name : Text) :
    Option (IpAddr × UInt16) × PeerStore :=
  let key := toLowercase name
  match store.peers.lookup key with
  | none => (none, store)
  | some (ip, port, seen) =>
    if store.timeout < now - seen then (none, { store with peers := store.peers.erase key })
    else (some (ip, port), store)

def ipv4Localhost : Ipv4Addr :=
  .new 127 0 0 1

def ipv4Unspecified : Ipv4Addr :=
  .new 0 0 0 0

def ipv6Unspecified : Ipv6Addr :=
  #v[0, 0, 0, 0, 0, 0, 0, 0, 0, 0, 0, 0, 0, 0, 0, 0]

/-- What `resolve_local` reads that does not change. -/
structure LocalCtx where
  /-- `str::to_lowercase`. -/
  toLowercase : Text → Text
  zoneMap : ZoneMap
  forwardingRules : List ForwardingRule
  proxyTld : Text
  proxyTldSuffix : Text
  clientPolicy : ClientPolicySet
  filterAaaa : Bool
  /-- `lan::local_ip_toward`, which asks the routing table. -/
  localIpToward : IpAddr → Option Ipv4Addr

/-- What `resolve_local` reads under locks.  Of the services only the names are read. -/
structure LocalStores where
  overrides : OverrideStore
  blocklist : BlocklistStore
  services : Finset Text
  lanPeers : PeerStore
  lanIp : Ipv4Addr

abbrev LocalResponse := DnsPacket × QueryPath × DnssecStatus

/-- A response with the code and the answers. -/
def localResponse (query : DnsPacket) (rescode : ResultCode) (answers : List DnsRecord)
    (path : QueryPath) : LocalResponse :=
  ({ DnsPacket.responseFrom query rescode with answers := answers }, path, .indeterminate)

section Resolve

variable (ctx : LocalCtx) (stores : LocalStores) (now : Nat) (query : DnsPacket) (srcIp : IpAddr)
  (qname : Text) (qtype : QueryType)

/-- `strip_suffix(..).unwrap_or(qname)`. -/
def serviceName : Text :=
  if ctx.proxyTldSuffix.isSuffixOf qname then
    qname.take (qname.length - ctx.proxyTldSuffix.length)
  else qname

/-- The answers of a service of this host. -/
def serviceAnswers : List DnsRecord :=
  let isRemote := !srcIp.isLoopback
  let v4 := if isRemote then (ctx.localIpToward srcIp).getD stores.lanIp else ipv4Localhost
  let v6 := if v4 = ipv4Localhost then ipv6Localhost else toIpv6Mapped v4
  answerRecord qname qtype (some v4) (some v6) 300

/-- The answers of a service of a peer. -/
def peerAnswers (ip : IpAddr) : List DnsRecord :=
  match ip with
  | .v4 v4 => answerRecord qname qtype (some v4) (some (toIpv6Mapped v4)) 300
  | .v6 v6 => answerRecord qname qtype none (some v6) 300

def resolveProxyTld : LocalResponse :=
  let serviceName := serviceName ctx qname
  if ctx.toLowercase serviceName ∈ stores.services then
    localResponse query .noerror (serviceAnswers ctx stores srcIp qname qtype) .localData
  else
    match (stores.lanPeers.lookup ctx.toLowercase now serviceName).1 with
    | some (ip, _) => localResponse query .noerror (peerAnswers qname qtype ip) .localData
    | none => localResponse query .nxdomain [] .localData

/-- The answer for a name that is blocked. -/
def sinkhole : LocalResponse :=
  localResponse query .noerror
    (answerRecord qname qtype (some ipv4Unspecified) (some ipv6Unspecified) 60) .blocked

/-- What is left of the pipeline where the policies allow the name or say nothing. -/
def resolveUnlessBlocked (policyAllow : Bool) : Option LocalResponse :=
  if !policyAllow && stores.blocklist.isBlocked ctx.toLowercase now qname then
    some (sinkhole query qname qtype)
  else if qtype = .aaaa ∧ ctx.clientPolicy.effectiveFilterAaaa srcIp ctx.filterAaaa then
    some (localResponse query .noerror [] .localData)
  else none

/-- What is left of the pipeline behind the names of the proxy. -/
def resolveByPolicy : Option LocalResponse :=
  if ctx.clientPolicy.isEnabled then
    match ctx.clientPolicy.evaluate ctx.toLowercase now srcIp qname with
    | .block => some (sinkhole query qname qtype)
    | .allow => resolveUnlessBlocked ctx stores now query srcIp qname qtype true
    | .passthrough => resolveUnlessBlocked ctx stores now query srcIp qname qtype false
  else resolveUnlessBlocked ctx stores now query srcIp qname qtype false

/-- What is left of the pipeline behind the overrides. -/
def resolveUnlessOverridden : Option LocalResponse :=
  if qname = text "localhost" ∨ (text ".localhost").isSuffixOf qname then
    some (localResponse query .noerror
      (answerRecord qname qtype (some ipv4Localhost) (some ipv6Localhost) 300) .localData)
  else
    match ctx.zoneMap.lookup qname qtype with
    | some records => some (localResponse query .noerror records .localData)
    | none =>
      if isSpecialUseDomain qname ∧ matchForwardingRule qname ctx.forwardingRules = false then
        let (rescode, answers) := specialUseResponse qname qtype
        some (localResponse query rescode answers .localData)
      else if ctx.proxyTldSuffix ≠ [] ∧
          (ctx.proxyTldSuffix.isSuffixOf qname ∨ qname = ctx.proxyTld) then
        some (resolveProxyTld ctx stores now query srcIp qname qtype)
      else resolveByPolicy ctx stores now query srcIp qname qtype

/-- `resolve_local`.  The outer `none` is the panic of an expiry. -/
def resolveLocal : Option (Option LocalResponse) :=
  match stores.overrides.lookup now qname with
  | none => none
  | some (some record) => some (some (localResponse query .noerror [record] .overridden))
  | some none => some (resolveUnlessOverridden ctx stores now query srcIp qname qtype)

end Resolve

end Numa
