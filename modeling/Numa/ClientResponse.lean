import Numa.Cache
import Numa.Svcb

/-!
# The response to a client

What `ctx.rs` does to a resolved response before a client gets it: the filter
of `rebind.rs` strips private addresses, `shape_response_for_client` adapts the
response to the query, and `serialize_with_fallback` writes it, or a shorter
response in its place.
-/

namespace Numa

/-- The filter, with the tests of its address ranges and of its list of
allowed domains. -/
structure RebindFilter where
  enabled : Bool
  isPrivate : IpAddr → Bool
  isAllowed : Text → Bool

/-- Is the record an address record with a private address? -/
def hasPrivateAddr (isPrivate : IpAddr → Bool) : DnsRecord → Bool
  | .a _ addr _ => isPrivate (.v4 addr)
  | .aaaa _ addr _ => isPrivate (.v6 addr)
  | _ => false

/-- Edit the data of an SVCB or HTTPS record. -/
def editSvcb (edit : List UInt8 → Option (List UInt8)) : DnsRecord → Option DnsRecord
  | .unknown domain qtype data ttl =>
    if qtype = QueryType.https.toNum ∨ qtype = QueryType.svcb.toNum then
      (edit data).map fun data => .unknown domain qtype data ttl
    else none
  | _ => none

/-- A section without private addresses, and the number of records removed or
scrubbed. -/
def scrubSection (isPrivate : IpAddr → Bool) (records : List DnsRecord) :
    List DnsRecord × Nat :=
  let kept := records.filter fun record => !hasPrivateAddr isPrivate record
  let scrub := editSvcb (stripPrivateHints · isPrivate)
  (kept.map fun record => (scrub record).getD record,
    records.length - kept.length + kept.countP fun record => (scrub record).isSome)

def RebindFilter.apply (filter : RebindFilter) (qname : Text) (response : DnsPacket) :
    DnsPacket × Nat :=
  if !filter.enabled || filter.isAllowed qname then (response, 0)
  else
    let (answers, first) := scrubSection filter.isPrivate response.answers
    let (authorities, second) := scrubSection filter.isPrivate response.authorities
    let (resources, third) := scrubSection filter.isPrivate response.resources
    ({ response with answers := answers, authorities := authorities, resources := resources },
      first + second + third)

/-- The response behind the filter.  A stripped answer is no longer the
validated one. -/
def RebindFilter.filterResponse (filter : RebindFilter) (qname : Text) (response : DnsPacket) :
    DnsPacket :=
  let (response, stripped) := filter.apply qname response
  if 0 < stripped then
    { response with header := { response.header with authedData := false } }
  else response

def isDnssecRecord (record : DnsRecord) : Bool :=
  match record.queryType with
  | .rrsig | .dnskey | .ds | .nsec | .nsec3 => true
  | _ => false

namespace DnsPacket

def stripDnssecRecords (packet : DnsPacket) : DnsPacket :=
  { packet with
    answers := packet.answers.filter fun record => !isDnssecRecord record
    authorities := packet.authorities.filter fun record => !isDnssecRecord record
    resources := packet.resources.filter fun record => !isDnssecRecord record }

def stripSvcbIpv6Hints (packet : DnsPacket) : DnsPacket :=
  let strip := fun record => (editSvcb stripIpv6hint record).getD record
  { packet with
    answers := packet.answers.map strip
    authorities := packet.authorities.map strip
    resources := packet.resources.map strip }

/-- The records that a client is given, by its DO bit. -/
def stripForClient (clientDo filterAaaa : Bool) (packet : DnsPacket) : DnsPacket :=
  if clientDo then packet
  else if filterAaaa then packet.stripDnssecRecords.stripSvcbIpv6Hints
  else packet.stripDnssecRecords

/-- `shape_response_for_client`. -/
def shapeForClient (response query : DnsPacket) (filterAaaa : Bool) : DnsPacket :=
  let clientDo := query.edns.any EdnsOpt.doBit
  { response.stripForClient clientDo filterAaaa with
    header := { response.header with authoritativeAnswer := false }
    edns := query.edns.map fun _ => { response.edns.getD {} with doBit := clientDo } }

/-- `serialize_with_fallback`: the packet that is sent, with its octets. -/
def serializeWithFallback (response query : DnsPacket) (filterAaaa : Bool) :
    Option (DnsPacket × List UInt8) :=
  match BytePacketBuffer.exec response.write .new with
  | (.ok _, buf) => some (response, buf.filled)
  | (.error _, buf) =>
    let tc := responseFrom query response.header.rescode
    let fallback :=
      if buf.overflow then { tc with header := { tc.header with truncatedMessage := true } }
      else responseFrom query .servfail
    let shaped := fallback.shapeForClient query filterAaaa
    match BytePacketBuffer.exec shaped.write .new with
    | (.ok _, out) => some (shaped, out.filled)
    | (.error _, _) => none

end DnsPacket

/-! ## What stays on the way -/

theorem RebindFilter.apply_header (filter : RebindFilter) (qname : Text) (response : DnsPacket) :
    (filter.apply qname response).1.header = response.header := by
  unfold apply
  split <;> rfl

theorem RebindFilter.filterResponse_questions (filter : RebindFilter) (qname : Text)
    (response : DnsPacket) :
    (filter.filterResponse qname response).questions = response.questions := by
  have same : (filter.apply qname response).1.questions = response.questions := by
    unfold apply
    split <;> rfl
  unfold filterResponse
  dsimp only
  split <;> exact same

/-- The filter clears the AD bit at most. -/
theorem RebindFilter.filterResponse_header (filter : RebindFilter) (qname : Text)
    (response : DnsPacket) :
    (filter.filterResponse qname response).header = response.header ∨
      (filter.filterResponse qname response).header =
        { response.header with authedData := false } := by
  unfold filterResponse
  dsimp only
  split
  · right
    rw [apply_header]
  · left
    rw [apply_header]

namespace DnsPacket

theorem shapeForClient_header (response query : DnsPacket) (filterAaaa : Bool) :
    (response.shapeForClient query filterAaaa).header =
      { response.header with authoritativeAnswer := false } :=
  rfl

theorem shapeForClient_questions (response query : DnsPacket) (filterAaaa : Bool) :
    (response.shapeForClient query filterAaaa).questions = response.questions := by
  change (response.stripForClient _ filterAaaa).questions = response.questions
  unfold stripForClient
  split
  · rfl
  · split <;> rfl

/-- What is sent is the response, or a shaped response built from the query
that makes no claim of authenticity. -/
theorem serializeWithFallback_cases {response query message : DnsPacket} {filterAaaa : Bool}
    {octets : List UInt8}
    (serialized : response.serializeWithFallback query filterAaaa = some (message, octets)) :
    message = response ∨
      message.header.id = query.header.id ∧ message.questions = query.questions ∧
        message.header.authedData = false := by
  unfold serializeWithFallback at serialized
  split at serialized
  · cases serialized
    exact .inl rfl
  · dsimp only at serialized
    split at serialized
    · cases serialized
      right
      rw [shapeForClient_header, shapeForClient_questions]
      split <;> exact ⟨rfl, rfl, rfl⟩
    · cases serialized

end DnsPacket

end Numa
