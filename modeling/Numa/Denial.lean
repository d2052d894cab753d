import Numa.SignedData

/-!
# Denial of existence

The NSEC and NSEC3 part of `dnssec.rs`.  The shared cache is the function that
`DnsCache::lookup` computes on it at the time of the call.
-/

namespace Numa

/-- One group of `group_rrsets`: a lowercased owner, a type and its records. -/
structure RrsetGroup where
  name : Text
  qtype : QueryType
  rrset : List DnsRecord
  deriving DecidableEq

/-- Add a record to the first group of its owner and type, or start a group. -/
def addToGroups (record : DnsRecord) : List RrsetGroup → List RrsetGroup
  | [] => [⟨record.domain.toLowercase, record.queryType, [record]⟩]
  | group :: groups =>
    if group.name == record.domain.toLowercase && group.qtype == record.queryType then
      { group with rrset := group.rrset ++ [record] } :: groups
    else group :: addToGroups record groups

def groupRrsets (records : List DnsRecord) : List RrsetGroup :=
  (records.filter fun record => !record.isRrsig).foldl
    (fun groups record => addToGroups record groups) []

/-- Is the record an RRSIG with this owner that covers this type? -/
def matchesRrset (name : Text) (qtype : QueryType) : DnsRecord → Bool
  | .rrsig sig =>
    sig.domain.eqIgnoreAsciiCase name && QueryType.fromNum sig.typeCovered == qtype
  | _ => false

/-- The window scan of `type_bitmap_contains`: `skip` octets of the current
window are still to be passed over. -/
def scanWindows (targetWindow : UInt8) (byteOffset : Nat) (bitMask : UInt8) :
    (skip : Nat) → List UInt8 → Bool
  | _, [] => false
  | skip + 1, _ :: rest => scanWindows targetWindow byteOffset bitMask skip rest
  | 0, window :: rest =>
    match rest with
    | [] => false
    | bmapLen :: rest =>
      if rest.length < bmapLen.toNat then false
      else if window = targetWindow ∧ byteOffset < bmapLen.toNat then
        decide (rest.getD byteOffset 0 &&& bitMask ≠ 0)
      else scanWindows targetWindow byteOffset bitMask bmapLen.toNat rest

def typeBitmapContains (bitmap : List UInt8) (qtype : UInt16) : Bool :=
  let targetWindow := (qtype / 256).toUInt8
  let targetBit := (qtype % 256).toUInt8
  scanWindows targetWindow (targetBit / 8).toNat (0x80 >>> (targetBit % 8)) 0 bitmap

/-- The comparison of the common labels from the root, ignoring case. -/
def compareLabels : List Text → List Text → Ordering
  | first :: firsts, second :: seconds =>
    match compare first.toLowercase second.toLowercase with
    | .eq => compareLabels firsts seconds
    | other => other
  | _, _ => .eq

def canonicalDnsNameOrder (a b : Text) : Ordering :=
  match compareLabels a.labels.reverse b.labels.reverse with
  | .eq => compare a.labels.length b.labels.length
  | other => other

def nsecCoversName (owner next qname : Text) : Bool :=
  let on := canonicalDnsNameOrder owner next
  let qo := canonicalDnsNameOrder qname owner
  let qn := canonicalDnsNameOrder qname next
  if on = .gt ∨ on = .eq then qo == .gt || qn == .lt
  else qo == .gt && qn == .lt

/-- The non-empty tails of a list of labels, longest first. -/
def nonEmptyTails : List Text → List (List Text)
  | [] => []
  | label :: labels => (label :: labels) :: nonEmptyTails labels

/-- Does some NSEC of the list have this owner? -/
def ownsNsec (nsecs : List DnsRecord) (candidate : Text) : Bool :=
  nsecs.any fun record => match record with
    | .nsec denial => denial.domain.eqIgnoreAsciiCase candidate
    | _ => false

/-- The longest ancestor of `qname`, itself included, that owns one of the
NSEC records. -/
def closestEncloser (qname : Text) (nsecs : List DnsRecord) : Option Text :=
  ((nonEmptyTails qname.labels).map Text.join).find? (ownsNsec nsecs)

def nsecProvesNodata (owner qname : Text) (bitmap : List UInt8) (qtype : UInt16) : Bool :=
  owner.eqIgnoreAsciiCase qname && !typeBitmapContains bitmap qtype &&
    !typeBitmapContains bitmap QueryType.cname.toNum

/-- `MAX_NSEC3_ITERATIONS`. -/
def maxNsec3Iterations : UInt16 := 500

/-- The additional rounds of the iterated hash. -/
def rehash (ring : Ring) (salt : List UInt8) : Nat → List UInt8 → List UInt8
  | 0, hash => hash
  | rounds + 1, hash => rehash ring salt rounds (ring.sha1 (hash ++ salt))

/-- The iterated salted hash of a name.  The outer `none` is the panic of
`name_to_wire`, the inner one an unsupported parameter. -/
def nsec3Hash (ring : Ring) (name : Text) (algorithm : UInt8) (iterations : UInt16)
    (salt : List UInt8) : Option (Option (List UInt8)) :=
  if algorithm ≠ 1 then some none
  else if maxNsec3Iterations < iterations then some none
  else do
    let wireName ← nameToWire name
    some (some (rehash ring salt iterations.toNat (ring.sha1 (wireName ++ salt))))

/-- The value of a base32hex digit in the table `LUT`. -/
def base32hexValue (ch : UInt8) : Option Nat :=
  if 0x30 ≤ ch ∧ ch ≤ 0x39 then some (ch.toNat - 0x30)
  else if 0x41 ≤ ch ∧ ch ≤ 0x56 then some (ch.toNat - 0x41 + 10)
  else if 0x61 ≤ ch ∧ ch ≤ 0x76 then some (ch.toNat - 0x61 + 10)
  else none

/-- The decoding loop, with the 64-bit accumulator `bits` of which `bitCount`
bits are still to be output. -/
def base32hexDecodeFrom (bits bitCount : Nat) : Text → Option (List UInt8)
  | [] => some []
  | ch :: rest =>
    if ch = 0x3D then some []
    else do
      let val ← base32hexValue ch
      let bits := (bits * 32 + val) % 2 ^ 64
      let bitCount := bitCount + 5
      if 8 ≤ bitCount then
        let bitCount := bitCount - 8
        let output ← base32hexDecodeFrom (bits % 2 ^ bitCount) bitCount rest
        some ((bits / 2 ^ bitCount).toUInt8 :: output)
      else base32hexDecodeFrom bits bitCount rest

def base32hexDecode (input : Text) : Option (List UInt8) :=
  base32hexDecodeFrom 0 0 input

/-- The hash in the first label of an NSEC3 owner. -/
def nsec3OwnerHash (domain : Text) : Option (List UInt8) :=
  base32hexDecode ((domain.splitOn dot).headD [])

def nsec3HashInRange (ownerHash nextHash targetHash : List UInt8) : Bool :=
  if compare ownerHash nextHash = .lt then
    compare targetHash ownerHash == .gt && compare targetHash nextHash == .lt
  else compare targetHash ownerHash == .gt || compare targetHash nextHash == .lt

def nsec3AnyCovers (decoded : List (List UInt8 × DnsRecord)) (target : List UInt8) : Bool :=
  decoded.any fun (ownerHash, record) => match record with
    | .nsec3 denial => nsec3HashInRange ownerHash denial.nextHashedOwner target
    | _ => false

/-- The NSEC3 records whose owner decodes, with their hashes. -/
def decodeOwners (nsec3s : List DnsRecord) : List (List UInt8 × DnsRecord) :=
  nsec3s.filterMap fun record => match record with
    | .nsec3 denial => (nsec3OwnerHash denial.domain).map fun hash => (hash, record)
    | _ => none

section Checks

variable (ring : Ring) (now : UInt32)

/-- Does one of the keys make `rrsig` a signature of the data?  This is the
copy of the signature gate inside `verify_authority_rrsigs`. -/
def anyKeyVerifies (sig : Rrsig) (signedData : List UInt8) (dnskeys : List DnsRecord) : Bool :=
  dnskeys.any fun dk => match dk with
    | .dnskey key =>
      if key.algorithm ≠ sig.algorithm then false
      else if computeKeyTag key ≠ sig.keyTag then false
      else verifySignature ring sig.algorithm key.publicKey signedData sig.signature
    | _ => false

/-- The body of the loop of `verify_authority_rrsigs` for one RRset. -/
def authorityRrsetVerified (allRrsigs : List DnsRecord)
    (cache : Text → QueryType → Option DnsPacket) (group : RrsetGroup) : Option Bool :=
  match allRrsigs.find? (matchesRrset group.name group.qtype) with
  | some (.rrsig sig) =>
    if isRrsigTimeValid now sig.expiration sig.inception then
      match cache sig.signerName .dnskey with
      | none => some false
      | some packet => do
        let signedData ← buildSignedData (.rrsig sig) group.rrset
        some (anyKeyVerifies ring sig signedData packet.answers)
    else some false
  | _ => some false

/-- Are the NSEC or NSEC3 RRsets of the authority section signed by keys the
cache holds for their signers? -/
def verifyAuthorityRrsigs (authorities allRrsigs : List DnsRecord) (denialType : QueryType)
    (cache : Text → QueryType → Option DnsPacket) : Option Bool :=
  let denialRrsets := groupRrsets (rrsetOfType denialType authorities)
  if denialRrsets = [] then some false
  else denialRrsets.allM (authorityRrsetVerified ring now allRrsigs cache)

/-- Does some NSEC of the list cover the name? -/
def nsecsCover (nsecs : List DnsRecord) (name : Text) : Bool :=
  nsecs.any fun record => match record with
    | .nsec denial => nsecCoversName denial.domain denial.nextDomain name
    | _ => false

/-- The wildcard check at the closest encloser, which passes when there is
none. -/
def nsecWildcardDenied (nsecs : List DnsRecord) (qname : Text) : Bool :=
  match closestEncloser qname nsecs with
  | some ce =>
    nsecs.any fun record => match record with
      | .nsec denial =>
        nsecCoversName denial.domain denial.nextDomain ce.wildcard ||
          denial.domain.eqIgnoreAsciiCase ce.wildcard
      | _ => false
  | none => true

/-- Does some NSEC of the list prove that the type is absent? -/
def nsecsProveNodata (nsecs : List DnsRecord) (qname : Text) (qtype : UInt16) : Bool :=
  nsecs.any fun record => match record with
    | .nsec denial => nsecProvesNodata denial.domain qname denial.typeBitmap qtype
    | _ => false

/-- The loop of the NSEC3 NXDOMAIN proof over the candidates for the closest
encloser with their hashes, `nextCloser` being the hash one label down. -/
def nsec3NxdomainLoop (params : Nsec3) (decoded : List (List UInt8 × DnsRecord)) :
    (nextCloser : Option (List UInt8)) →
      List (List Text × Option (List UInt8)) → Option Bool
  | _, [] => some false
  | nextCloser, (candidate, ceHash) :: rest =>
    let further := nsec3NxdomainLoop params decoded ceHash rest
    match ceHash, nextCloser with
    | some ce, some nc =>
      if decoded.any (fun entry => entry.1 == ce) && nsec3AnyCovers decoded nc then do
        let wcHash ← nsec3Hash ring (Text.join candidate).wildcard params.hashAlgorithm
          params.iterations params.salt
        match wcHash with
        | some wc => if nsec3AnyCovers decoded wc then some true else further
        | none => further
      else further
    | _, _ => further

/-- The closest-encloser proof of RFC 5155 over all ancestors of `qname`. -/
def nsec3ProvesNxdomain (params : Nsec3) (decoded : List (List UInt8 × DnsRecord))
    (qname : Text) : Option Bool := do
  let candidates := nonEmptyTails qname.labels
  let ancestorHashes ← candidates.mapM fun labels =>
    nsec3Hash ring (Text.join labels) params.hashAlgorithm params.iterations params.salt
  match candidates.zip ancestorHashes with
  | [] => some false
  | (_, hash) :: rest => nsec3NxdomainLoop ring params decoded hash rest

/-- Does some decoded NSEC3 match the hash with the type absent? -/
def nsec3ProvesNodata (decoded : List (List UInt8 × DnsRecord)) (qnameHash : List UInt8)
    (qtype : UInt16) : Bool :=
  decoded.any fun (ownerHash, record) => match record with
    | .nsec3 denial =>
      ownerHash == qnameHash && !typeBitmapContains denial.typeBitmap qtype &&
        !typeBitmapContains denial.typeBitmap QueryType.cname.toNum
    | _ => false

/-- Validate a denial of existence by the NSEC or NSEC3 records of the
authority section. -/
def validateDenial (authorities allRrsigs : List DnsRecord) (qname : Text) (qtype : UInt16)
    (isNxdomain : Bool) (cache : Text → QueryType → Option DnsPacket) :
    Option DnssecStatus :=
  let nsecs := authorities.filter DnsRecord.isNsec
  let nsec3s := authorities.filter DnsRecord.isNsec3
  if nsecs ≠ [] then do
    let verified ← verifyAuthorityRrsigs ring now authorities allRrsigs .nsec cache
    if !verified then some .indeterminate
    else if isNxdomain then
      if nsecsCover nsecs qname && nsecWildcardDenied nsecs qname then some .secure
      else some .bogus
    else if nsecsProveNodata nsecs qname qtype then some .secure
    else some .bogus
  else
    match nsec3s with
    | .nsec3 params :: _ => do
      let verified ← verifyAuthorityRrsigs ring now authorities allRrsigs .nsec3 cache
      if !verified then some .indeterminate
      else
        let qnameHash ←
          nsec3Hash ring qname params.hashAlgorithm params.iterations params.salt
        match qnameHash with
        | none => some .indeterminate
        | some qnameHash =>
          let decoded := decodeOwners nsec3s
          if isNxdomain then do
            let proven ← nsec3ProvesNxdomain ring params decoded qname
            if proven then some .secure else some .bogus
          else if nsec3ProvesNodata decoded qnameHash qtype then some .secure
          else some .bogus
    | _ => some .indeterminate

end Checks

end Numa
