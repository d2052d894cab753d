import Numa.Denial

/-!
# The validator

The asynchronous part of `dnssec.rs`: fetching keys, walking the chain of
trust and validating a response.  The cache, the clock and the network are a
state of arbitrary type with the operations the validator uses; in particular
`resolve_iterative` is an arbitrary oracle whose answers may contradict each
other, and everything it touches may change at each call.  A panic is the
value `none`.
-/

namespace Numa

/-- What the validator sees of the resolver.  The clock is read from the state,
so it may move whenever the validator waits. -/
structure World (W : Type) where
  /-- `SystemTime::now` in seconds, truncated to 32 bits. -/
  now : W → UInt32
  /-- `DnsCache::lookup`. -/
  lookup : W → Text → QueryType → Option DnsPacket
  /-- `DnsCache::insert`. -/
  insert : Text → QueryType → DnsPacket → W → W
  /-- `resolve_iterative` with depths zero. -/
  resolveIterative : Text → QueryType → W → Except Unit DnsPacket × W

structure ValidationCtx (W : Type) extends World W where
  ring : Ring
  trustAnchors : List DnsRecord

inductive RrsetVerdict
  | verified
  | bogus
  deriving DecidableEq

inductive RrsigOutcome
  | verified
  | chainBogus
  | noMatchingKey
  deriving DecidableEq

inductive KeyOutcome
  | verified
  | chainBogus
  | skip
  deriving DecidableEq

/-- `MAX_CHAIN_DEPTH`. -/
def maxChainDepth : Nat := 10

/-- `ROOT_KSK_2017_PUBLIC_KEY`. -/
def rootKsk2017PublicKey : List UInt8 :=
  [
    0x03, 0x01, 0x00, 0x01, 0xac, 0xff, 0xb4, 0x09, 0xbc, 0xc9, 0x39, 0xf8, 0x31,
    0xf7, 0xa1, 0xe5, 0xec, 0x88, 0xf7, 0xa5, 0x92, 0x55, 0xec, 0x53, 0x04, 0x0b,
    0xe4, 0x32, 0x02, 0x73, 0x90, 0xa4, 0xce, 0x89, 0x6d, 0x6f, 0x90, 0x86, 0xf3,
    0xc5, 0xe1, 0x77, 0xfb, 0xfe, 0x11, 0x81, 0x63, 0xaa, 0xec, 0x7a, 0xf1, 0x46,
    0x2c, 0x47, 0x94, 0x59, 0x44, 0xc4, 0xe2, 0xc0, 0x26, 0xbe, 0x5e, 0x98, 0xbb,
    0xcd, 0xed, 0x25, 0x97, 0x82, 0x72, 0xe1, 0xe3, 0xe0, 0x79, 0xc5, 0x09, 0x4d,
    0x57, 0x3f, 0x0e, 0x83, 0xc9, 0x2f, 0x02, 0xb3, 0x2d, 0x35, 0x13, 0xb1, 0x55,
    0x0b, 0x82, 0x69, 0x29, 0xc8, 0x0d, 0xd0, 0xf9, 0x2c, 0xac, 0x96, 0x6d, 0x17,
    0x76, 0x9f, 0xd5, 0x86, 0x7b, 0x64, 0x7c, 0x3f, 0x38, 0x02, 0x9a, 0xbd, 0xc4,
    0x81, 0x52, 0xeb, 0x8f, 0x20, 0x71, 0x59, 0xec, 0xc5, 0xd2, 0x32, 0xc7, 0xc1,
    0x53, 0x7c, 0x79, 0xf4, 0xb7, 0xac, 0x28, 0xff, 0x11, 0x68, 0x2f, 0x21, 0x68,
    0x1b, 0xf6, 0xd6, 0xab, 0xa5, 0x55, 0x03, 0x2b, 0xf6, 0xf9, 0xf0, 0x36, 0xbe,
    0xb2, 0xaa, 0xa5, 0xb3, 0x77, 0x8d, 0x6e, 0xeb, 0xfb, 0xa6, 0xbf, 0x9e, 0xa1,
    0x91, 0xbe, 0x4a, 0xb0, 0xca, 0xea, 0x75, 0x9e, 0x2f, 0x77, 0x3a, 0x1f, 0x90,
    0x29, 0xc7, 0x3e, 0xcb, 0x8d, 0x57, 0x35, 0xb9, 0x32, 0x1d, 0xb0, 0x85, 0xf1,
    0xb8, 0xe2, 0xd8, 0x03, 0x8f, 0xe2, 0x94, 0x19, 0x92, 0x54, 0x8c, 0xee, 0x0d,
    0x67, 0xdd, 0x45, 0x47, 0xe1, 0x1d, 0xd6, 0x3a, 0xf9, 0xc9, 0xfc, 0x1c, 0x54,
    0x66, 0xfb, 0x68, 0x4c, 0xf0, 0x09, 0xd7, 0x19, 0x7c, 0x2c, 0xf7, 0x9e, 0x79,
    0x2a, 0xb5, 0x01, 0xe6, 0xa8, 0xa1, 0xca, 0x51, 0x9a, 0xf2, 0xcb, 0x9b, 0x5f,
    0x63, 0x67, 0xe9, 0x4c, 0x0d, 0x47, 0x50, 0x24, 0x51, 0x35, 0x7b, 0xe1, 0xb5]

/-- `ROOT_KSK_2024_PUBLIC_KEY`. -/
def rootKsk2024PublicKey : List UInt8 :=
  [
    0x03, 0x01, 0x00, 0x01, 0xaf, 0x7a, 0x8d, 0xeb, 0xa4, 0x9d, 0x99, 0x5a, 0x79,
    0x2a, 0xef, 0xc8, 0x02, 0x63, 0xe9, 0x91, 0xef, 0xdb, 0xc8, 0x61, 0x38, 0xa9,
    0x31, 0xde, 0xb2, 0xc6, 0x5d, 0x56, 0x82, 0xea, 0xb5, 0xd3, 0xb0, 0x37, 0x38,
    0xe3, 0xdf, 0xdc, 0x89, 0xd9, 0x6d, 0xa6, 0x4c, 0x86, 0xc0, 0x22, 0x4d, 0x9c,
    0xe0, 0x25, 0x14, 0xd2, 0x85, 0xda, 0x30, 0x68, 0xb1, 0x90, 0x54, 0xe5, 0xe7,
    0x87, 0xb2, 0x96, 0x90, 0x58, 0xe9, 0x8e, 0x12, 0x56, 0x6c, 0x8c, 0x80, 0x8c,
    0x40, 0xc0, 0xb7, 0x69, 0xe1, 0xdb, 0x1a, 0x24, 0xa1, 0xbd, 0x9b, 0x31, 0xe3,
    0x03, 0x18, 0x4a, 0x31, 0xfc, 0x7b, 0xb5, 0x6b, 0x85, 0xbb, 0xba, 0x8a, 0xbc,
    0x02, 0xcd, 0x50, 0x40, 0xa4, 0x44, 0xa3, 0x6d, 0x47, 0x69, 0x59, 0x69, 0x84,
    0x9e, 0x16, 0xad, 0x85, 0x6b, 0xb5, 0x8e, 0x8f, 0xac, 0x88, 0x55, 0x22, 0x44,
    0x00, 0x31, 0x9b, 0xda, 0xb2, 0x24, 0xd8, 0x3f, 0xc0, 0xe6, 0x6a, 0xab, 0x32,
    0xff, 0x74, 0xbf, 0xea, 0xf0, 0xf9, 0x1c, 0x45, 0x4e, 0x68, 0x50, 0xa1, 0x29,
    0x52, 0x07, 0xbb, 0xd4, 0xcd, 0xde, 0x8f, 0x6f, 0xfb, 0x08, 0xfa, 0xa9, 0x75,
    0x5c, 0x2e, 0x32, 0x84, 0xef, 0xa0, 0x1f, 0x99, 0x39, 0x3e, 0x18, 0x78, 0x6c,
    0xb1, 0x32, 0xf1, 0xe6, 0x6e, 0xbc, 0x65, 0x17, 0x31, 0x8e, 0x1c, 0xe8, 0xa3,
    0xb7, 0x33, 0x7e, 0xbb, 0x54, 0xd0, 0x35, 0xab, 0x57, 0xd9, 0x70, 0x6e, 0xcd,
    0x93, 0x50, 0xd4, 0xaf, 0xac, 0xd8, 0x25, 0xe4, 0x3c, 0x86, 0x68, 0xee, 0xce,
    0x89, 0x81, 0x9c, 0xaf, 0x68, 0x17, 0xaf, 0x62, 0xdc, 0x4f, 0xbd, 0x82, 0xf0,
    0xe3, 0x3f, 0x66, 0x47, 0xb2, 0xb6, 0xbd, 0xa1, 0x75, 0xf1, 0x46, 0x07, 0xf5,
    0x9f, 0x46, 0x35, 0x45, 0x1e, 0x6b, 0x27, 0xdf, 0x28, 0x2e, 0xf7, 0x3d, 0x87]

/-- `TRUST_ANCHORS`. -/
def rootTrustAnchors : List DnsRecord :=
  [rootKsk2017PublicKey, rootKsk2024PublicKey].map fun publicKey =>
    .dnskey
      { domain := [dot]
        flags := 257
        protocol := 3
        algorithm := 8
        publicKey := publicKey
        ttl := 172800 }

variable {W : Type} (ctx : ValidationCtx W)

/-- The common body of `fetch_dnskeys` and `fetch_ds`: the answers the cache
holds, else those of a resolution, which the cache then keeps. -/
def fetchAnswers (qtype : QueryType) (name : Text) (world : W) : List DnsRecord × W :=
  match ctx.lookup world name qtype with
  | some packet => (packet.answers, world)
  | none =>
    match ctx.resolveIterative name qtype world with
    | (.ok packet, world) => (packet.answers, ctx.insert name qtype packet world)
    | (.error _, world) => ([], world)

def fetchDnskeys (zone : Text) : Exec W (List DnsRecord) :=
  fun world => some (fetchAnswers ctx .dnskey zone world)

def fetchDs (child : Text) : Exec W (List DnsRecord) :=
  fun world => some (fetchAnswers ctx .ds child world)

/-- The keys of the zone that one of the DS records commits to. -/
def authenticatedKsks (zone : Text) (dsRecords zoneDnskeys : List DnsRecord) :
    Option (List DnsRecord) :=
  zoneDnskeys.filterM fun dk => dsRecords.anyM fun ds => verifyDs ctx.ring ds dk zone

/-- `validate_chain` with the given number of levels left before the depth
exceeds `MAX_CHAIN_DEPTH`. -/
def walkChain : (levels : Nat) → Text → List DnsRecord → Exec W DnssecStatus
  | 0, _, _ => pure .indeterminate
  | levels + 1, zone, zoneRecords => do
    let zoneDnskeys := zoneRecords.filter DnsRecord.isDnskey
    if zoneDnskeys.any fun dk => ctx.trustAnchors.any (sameDnskey dk) then
      let signed ← verifyRrsetSigned ctx.ring (ctx.now (← get)) zoneRecords .dnskey
        ctx.trustAnchors
      if signed then pure .secure else pure .bogus
    else if zone = [dot] ∨ zone = [] then pure .indeterminate
    else
      let parent := parentZone zone
      let dsResponse ← fetchDs ctx zone
      let dsRecords := dsResponse.filter DnsRecord.isDs
      if dsRecords = [] then pure .insecure
      else
        let dsAuthenticatedKsks ← authenticatedKsks ctx zone dsRecords zoneDnskeys
        if dsAuthenticatedKsks = [] then pure .bogus
        else
          let keysSigned ← verifyRrsetSigned ctx.ring (ctx.now (← get)) zoneRecords
            .dnskey dsAuthenticatedKsks
          if !keysSigned then pure .bogus
          else
            let parentRecords ← fetchDnskeys ctx parent
            if parentRecords = [] then pure .indeterminate
            else
              let parentStatus ← walkChain levels parent parentRecords
              if parentStatus ≠ .secure then pure parentStatus
              else
                let dsSigned ← verifyRrsetSigned ctx.ring (ctx.now (← get)) dsResponse
                  .ds parentRecords
                if !dsSigned then pure .bogus else pure .secure

/-- Walk the chain of trust from the DNSKEY answer of a zone to a trust
anchor. -/
def validateChain (zone : Text) (zoneRecords : List DnsRecord) (depth : Nat) :
    Exec W DnssecStatus :=
  walkChain ctx (maxChainDepth + 1 - depth) zone zoneRecords

def tryVerifyWithKey (rrsig : DnsRecord) (rrset : List DnsRecord) (signerName : Text)
    (dnskeyResponse : List DnsRecord) (dk : DnsRecord) : Exec W KeyOutcome := do
  let verified ← rrsigVerifiedBy ctx.ring (ctx.now (← get)) rrsig dk rrset
  if !verified then pure .skip
  else
    let chainStatus ← validateChain ctx signerName dnskeyResponse 0
    match chainStatus with
    | .secure => pure .verified
    | .bogus => pure .chainBogus
    | _ => pure .skip

/-- The loop of `try_verify_rrsig` over the keys of the signer. -/
def tryKeys (rrsig : DnsRecord) (rrset : List DnsRecord) (signerName : Text)
    (dnskeyResponse : List DnsRecord) : List DnsRecord → Exec W RrsigOutcome
  | [] => pure .noMatchingKey
  | dk :: dks => do
    let outcome ← tryVerifyWithKey ctx rrsig rrset signerName dnskeyResponse dk
    match outcome with
    | .verified => pure .verified
    | .chainBogus => pure .chainBogus
    | .skip => tryKeys rrsig rrset signerName dnskeyResponse dks

def tryVerifyRrsig (rrset : List DnsRecord) (rrsig : DnsRecord) : Exec W RrsigOutcome :=
  match rrsig with
  | .rrsig sig => do
    let dnskeyResponse ← fetchDnskeys ctx sig.signerName
    let dnskeys := dnskeyResponse.filter DnsRecord.isDnskey
    if dnskeys = [] then pure .noMatchingKey
    else tryKeys ctx rrsig rrset sig.signerName dnskeyResponse dnskeys
  | _ => pure .noMatchingKey

/-- Verify an RRset by the first of its RRSIGs that reaches a verdict. -/
def verifyRrset (rrset : List DnsRecord) : (matchingRrsigs : List DnsRecord) →
    Exec W RrsetVerdict
  | [] => pure .bogus
  | rrsig :: rrsigs => do
    let outcome ← tryVerifyRrsig ctx rrset rrsig
    match outcome with
    | .verified => pure .verified
    | .chainBogus => pure .bogus
    | .noMatchingKey => verifyRrset rrset rrsigs

def matchingRrsigsFor (allRrsigs : List DnsRecord) (name : Text) (qtype : QueryType) :
    List DnsRecord :=
  allRrsigs.filter (matchesRrset name qtype)

/-- The lowercased signers of the RRSIGs, without repetition. -/
def signerZones (allRrsigs : List DnsRecord) : List Text :=
  allRrsigs.foldl (fun zones record => match record with
    | .rrsig sig =>
      let lower := sig.signerName.toLowercase
      if zones.contains lower then zones else zones ++ [lower]
    | _ => zones) []

def prefetchZones : List Text → Exec W Unit
  | [] => pure ()
  | zone :: zones => do
    let _ ← fetchDnskeys ctx zone
    prefetchZones zones

def prefetchSignerDnskeys (allRrsigs : List DnsRecord) : Exec W Unit :=
  prefetchZones ctx (signerZones allRrsigs)

/-- The RRSIGs of the three sections. -/
def allRrsigsOf (response : DnsPacket) : List DnsRecord :=
  (response.answers ++ response.authorities ++ response.resources).filter DnsRecord.isRrsig

/-- The loop of `validate_response` over the answer RRsets; `false` is the
early return of `Bogus`. -/
def verifyRrsets (allRrsigs : List DnsRecord) : List RrsetGroup → Exec W Bool
  | [] => pure true
  | group :: groups => do
    let matchingRrsigs := matchingRrsigsFor allRrsigs group.name group.qtype
    if matchingRrsigs = [] then verifyRrsets allRrsigs groups
    else
      let verdict ← verifyRrset ctx group.rrset matchingRrsigs
      match verdict with
      | .bogus => pure false
      | .verified => verifyRrsets allRrsigs groups

/-- `validate_response` in the given context. -/
def validateResponseIn (response : DnsPacket) : Exec W DnssecStatus := do
  let allRrsigs := allRrsigsOf response
  if allRrsigs = [] then pure .insecure
  else
    prefetchSignerDnskeys ctx allRrsigs
    let rrsets := groupRrsets response.answers
    let verified ← verifyRrsets ctx allRrsigs rrsets
    if !verified then pure .bogus
    else if rrsets = [] then
      let (qname, qtypeNum) := match response.questions.head? with
        | some question => (question.name, question.qtype.toNum)
        | none => ([], 0)
      let isNxdomain := decide (response.header.rescode = .nxdomain)
      let world ← get
      validateDenial ctx.ring (ctx.now world) response.authorities allRrsigs qname qtypeNum
        isNxdomain (ctx.lookup world)
    else pure .secure

/-- Verify the DNSSEC chain of trust of a response against the root trust
anchors. -/
def validateResponse (world : World W) (ring : Ring) (response : DnsPacket) :
    Exec W DnssecStatus :=
  validateResponseIn { world with ring := ring, trustAnchors := rootTrustAnchors } response

end Numa
