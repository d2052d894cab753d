import Mathlib.Data.List.Sort
import Numa.Exec
import Numa.PacketBuffer
import Numa.Record

/-!
# Signatures and digests

The cryptographic checks of `dnssec.rs` down to the operations the program
takes from the `ring` library, which are parameters.  Canonical forms go
through `name_to_wire`, whose `expect` panics on a name that has no wire form;
such a panic is the value `none`.
-/

namespace Numa

/-- The operations of the `ring` library the validator calls. -/
structure Ring where
  /-- `RSA_PKCS1_2048_8192_SHA256` with a DER key. -/
  rsaPkcs1Sha256 : (key signedData signature : List UInt8) → Bool
  /-- `ECDSA_P256_SHA256_FIXED` with an uncompressed point. -/
  ecdsaP256Sha256 : (key signedData signature : List UInt8) → Bool
  /-- `ED25519`. -/
  ed25519 : (key signedData signature : List UInt8) → Bool
  sha1 : List UInt8 → List UInt8
  sha256 : List UInt8 → List UInt8
  sha384 : List UInt8 → List UInt8

/-- The RDATA of a DNSKEY. -/
def dnskeyRdata (key : Dnskey) : List UInt8 :=
  beBytes16 key.flags ++ key.protocol :: key.algorithm :: key.publicKey

/-- The sum of the 16-bit words of an RDATA, the first octet being the high
octet of a word when `high` is set. -/
def keyTagSum : (high : Bool) → List UInt8 → Nat
  | _, [] => 0
  | true, octet :: rest => octet.toNat * 256 + keyTagSum false rest
  | false, octet :: rest => octet.toNat + keyTagSum true rest

def computeKeyTag (key : Dnskey) : UInt16 :=
  let ac := keyTagSum true (dnskeyRdata key)
  (ac + ac / 65536 % 65536).toUInt16

def asn1Length (len : Nat) : List UInt8 :=
  if len < 128 then [len.toUInt8]
  else if len < 256 then [0x81, len.toUInt8]
  else [0x82, (len / 256).toUInt8, len.toUInt8]

def asn1Integer (bytes : List UInt8) : List UInt8 :=
  let stripped := match bytes.dropWhile (· == 0) with
    | [] => [0]
    | nonzero => nonzero
  let needsPad := decide (0x80 ≤ stripped.headD 0)
  let len := stripped.length + if needsPad then 1 else 0
  0x02 :: asn1Length len ++ (if needsPad then [0x00] else []) ++ stripped

/-- The length and the start of the exponent of an RFC 3110 key. -/
def rsaExponent (publicKey : List UInt8) : Option (Nat × Nat) :=
  match publicKey with
  | [] => none
  | first :: rest =>
    if first = 0 then
      match rest with
      | high :: low :: _ => some (high.toNat * 256 + low.toNat, 3)
      | _ => none
    else some (first.toNat, 1)

def rsaDnskeyToDer (publicKey : List UInt8) : Option (List UInt8) :=
  match rsaExponent publicKey with
  | none => none
  | some (expLen, expStart) =>
    if publicKey.length < expStart + expLen then none
    else
      let exponent := (publicKey.drop expStart).take expLen
      let modulus := publicKey.drop (expStart + expLen)
      if modulus = [] then none
      else
        let modDer := asn1Integer modulus
        let expDer := asn1Integer exponent
        some (0x30 :: asn1Length (modDer.length + expDer.length) ++ modDer ++ expDer)

section Crypto

variable (ring : Ring)

def verifyRsaSha256 (publicKey signedData signature : List UInt8) : Bool :=
  match rsaDnskeyToDer publicKey with
  | some der => ring.rsaPkcs1Sha256 der signedData signature
  | none => false

def verifyEcdsaP256 (publicKey signedData signature : List UInt8) : Bool :=
  if publicKey.length ≠ 64 ∨ signature.length ≠ 64 then false
  else ring.ecdsaP256Sha256 (0x04 :: publicKey) signedData signature

def verifyEd25519 (publicKey signedData signature : List UInt8) : Bool :=
  if publicKey.length ≠ 32 ∨ signature.length ≠ 64 then false
  else ring.ed25519 publicKey signedData signature

def verifySignature (algorithm : UInt8)
    (publicKey signedData signature : List UInt8) : Bool :=
  if algorithm = 8 then verifyRsaSha256 ring publicKey signedData signature
  else if algorithm = 13 then verifyEcdsaP256 ring publicKey signedData signature
  else if algorithm = 15 then verifyEd25519 ring publicKey signedData signature
  else false

end Crypto

/-- The canonical RDATA of a record, with the names in it lowercased. -/
def recordRdataCanonical : DnsRecord → Option (List UInt8)
  | .a _ addr _ => some addr.toList
  | .aaaa _ addr _ => some addr.toList
  | .ns _ host _ => nameToWire host
  | .cname _ host _ => nameToWire host
  | .ptr _ host _ => nameToWire host
  | .mx _ priority host _ => do
    let hostWire ← nameToWire host
    some (beBytes16 priority ++ hostWire)
  | .dnskey key => some (dnskeyRdata key)
  | .ds delegation =>
    some (beBytes16 delegation.keyTag ++
      delegation.algorithm :: delegation.digestType :: delegation.digest)
  | .nsec denial => do
    let next ← nameToWire denial.nextDomain
    some (next ++ denial.typeBitmap)
  | .nsec3 denial =>
    some (denial.hashAlgorithm :: denial.flags :: beBytes16 denial.iterations ++
      denial.salt.length.toUInt8 :: denial.salt ++
      denial.nextHashedOwner.length.toUInt8 :: denial.nextHashedOwner ++
      denial.typeBitmap)
  | .soa start => do
    let mname ← nameToWire start.mname
    let rname ← nameToWire start.rname
    some (mname ++ rname ++ beBytes32 start.serial ++ beBytes32 start.refresh ++
      beBytes32 start.retry ++ beBytes32 start.expire ++ beBytes32 start.minimum)
  | .unknown _ _ data _ => some data
  | .rrsig _ => some []

def recordToCanonicalWire (originalTtl : UInt32) (record : DnsRecord) :
    Option (List UInt8) := do
  let owner ← nameToWire record.domain
  let rdata ← recordRdataCanonical record
  some (owner ++ beBytes16 record.queryType.toNum ++ beBytes16 1 ++
    beBytes32 originalTtl ++ beBytes16 rdata.length.toUInt16 ++ rdata)

/-- The signed data has the original TTL of the RRSIG for every record. -/
theorem recordToCanonicalWire_withTtl (ttl originalTtl : UInt32) (record : DnsRecord) :
    recordToCanonicalWire originalTtl (record.withTtl ttl) =
      recordToCanonicalWire originalTtl record := by
  cases record <;> rfl

theorem mapM_recordToCanonicalWire_withTtl (ttl originalTtl : UInt32) (rrset : List DnsRecord) :
    (rrset.map (DnsRecord.withTtl ttl)).mapM (recordToCanonicalWire originalTtl) =
      rrset.mapM (recordToCanonicalWire originalTtl) := by
  rw [List.mapM_map]
  exact congrArg (rrset.mapM ·) (funext (recordToCanonicalWire_withTtl ttl originalTtl))

/-- The order of `Vec<u8>`: lexicographic, a proper initial segment first. -/
def bytesLe (first second : List UInt8) : Prop :=
  (compare first second).isLE = true

instance : DecidableRel bytesLe :=
  fun _ _ => inferInstanceAs (Decidable (_ = true))

/-- The octets an RRSIG signs: its RDATA without the signature and the sorted
canonical forms of the RRset. -/
def buildSignedData (rrsig : DnsRecord) (rrset : List DnsRecord) :
    Option (List UInt8) :=
  match rrsig with
  | .rrsig sig => do
    let signer ← nameToWire sig.signerName
    let canonicalRecords ← rrset.mapM (recordToCanonicalWire sig.originalTtl)
    some (beBytes16 sig.typeCovered ++ sig.algorithm :: sig.labels ::
      beBytes32 sig.originalTtl ++ beBytes32 sig.expiration ++
      beBytes32 sig.inception ++ beBytes16 sig.keyTag ++ signer ++
      (canonicalRecords.insertionSort bytesLe).flatten)
  | _ => some []

/-- The clock-skew tolerance `FUDGE` of the validity window. -/
def fudge : UInt32 := 300

/-- The validity window of an RRSIG at the clock reading `now`, in 32-bit
wrapping arithmetic. -/
def isRrsigTimeValid (now expiration inception : UInt32) : Bool :=
  let inceptionOk := decide (now - inception < 0x80000000)
  let expirationOk := decide (expiration - now < 0x80000000)
  (inceptionOk || decide (inception ≤ now + fudge)) && expirationOk

/-- The signature gate: does the key make `rrsig` a time-valid signature over
the RRset? -/
def rrsigVerifiedBy (ring : Ring) (now : UInt32) (rrsig dk : DnsRecord)
    (rrset : List DnsRecord) : Option Bool :=
  match rrsig, dk with
  | .rrsig sig, .dnskey key =>
    if key.algorithm == sig.algorithm && computeKeyTag key == sig.keyTag &&
        isRrsigTimeValid now sig.expiration sig.inception then do
      let signedData ← buildSignedData rrsig rrset
      some (verifySignature ring sig.algorithm key.publicKey signedData sig.signature)
    else some false
  | _, _ => some false

theorem recordToCanonicalWire_isSome_congr (first second : UInt32) (record : DnsRecord) :
    (recordToCanonicalWire first record).isSome =
      (recordToCanonicalWire second record).isSome := by
  unfold recordToCanonicalWire
  cases nameToWire record.domain <;> cases recordRdataCanonical record <;> rfl

/-- The signed data exists when the signer and the records have wire forms. -/
theorem buildSignedData_isSome_iff {sig : Rrsig} {rrset : List DnsRecord} :
    (buildSignedData (.rrsig sig) rrset).isSome = true ↔
      (nameToWire sig.signerName).isSome = true ∧
        ∀ record ∈ rrset, (recordToCanonicalWire 0 record).isSome = true := by
  have records : (rrset.mapM (recordToCanonicalWire sig.originalTtl)).isSome = true ↔
      ∀ record ∈ rrset, (recordToCanonicalWire 0 record).isSome = true := by
    simp only [mapM_isSome_iff, recordToCanonicalWire_isSome_congr sig.originalTtl 0]
  rw [← records, buildSignedData]
  cases nameToWire sig.signerName <;>
    cases rrset.mapM (recordToCanonicalWire sig.originalTtl) <;> simp

/-- What the signature gate checks. -/
theorem rrsigVerifiedBy_eq_true_iff {ring : Ring} {now : UInt32} {sig : Rrsig}
    {dk : DnsRecord} {rrset : List DnsRecord} :
    rrsigVerifiedBy ring now (.rrsig sig) dk rrset = some true ↔
      ∃ key signedData, dk = .dnskey key ∧ key.algorithm = sig.algorithm ∧
        computeKeyTag key = sig.keyTag ∧
        isRrsigTimeValid now sig.expiration sig.inception = true ∧
        buildSignedData (.rrsig sig) rrset = some signedData ∧
        verifySignature ring sig.algorithm key.publicKey signedData sig.signature = true := by
  cases dk with
  | dnskey key =>
      simp only [rrsigVerifiedBy]
      split
      · rename_i checked
        simp only [Bool.and_eq_true, beq_iff_eq] at checked
        obtain ⟨⟨sameAlgorithm, sameTag⟩, timeValid⟩ := checked
        cases built : buildSignedData (.rrsig sig) rrset <;>
          simp [sameAlgorithm, sameTag, timeValid]
      · rename_i unchecked
        simp only [Bool.and_eq_true, beq_iff_eq, not_and, Bool.not_eq_true] at unchecked
        constructor
        · simp
        · rintro ⟨_, _, ⟨⟩, sameAlgorithm, sameTag, timeValid, -⟩
          simp [unchecked ⟨sameAlgorithm, sameTag⟩] at timeValid
  | _ => simp [rrsigVerifiedBy]

/-- The signature gate returns when the signed data exists. -/
theorem rrsigVerifiedBy_ne_none {ring : Ring} {now : UInt32} {sig : Rrsig}
    {rrset : List DnsRecord} (built : (buildSignedData (.rrsig sig) rrset).isSome = true)
    (dk : DnsRecord) : rrsigVerifiedBy ring now (.rrsig sig) dk rrset ≠ none := by
  obtain ⟨signedData, build⟩ := Option.isSome_iff_exists.mp built
  cases dk with
  | dnskey key =>
      simp only [rrsigVerifiedBy]
      split <;> simp [build]
  | _ => simp [rrsigVerifiedBy]

/-- Is the record an RRSIG that covers the type? -/
def coversType (rrsetType : QueryType) : DnsRecord → Bool
  | .rrsig sig => QueryType.fromNum sig.typeCovered == rrsetType
  | _ => false

/-- The records of one type. -/
def rrsetOfType (rrsetType : QueryType) (records : List DnsRecord) : List DnsRecord :=
  records.filter fun record => record.queryType == rrsetType

/-- Does the RRset of the given type in `records` carry an RRSIG made by one
of the signing keys? -/
def verifyRrsetSigned (ring : Ring) (now : UInt32) (records : List DnsRecord)
    (rrsetType : QueryType) (signingKeys : List DnsRecord) : Option Bool :=
  if rrsetOfType rrsetType records = [] then some false
  else records.anyM fun record =>
    if coversType rrsetType record then
      signingKeys.anyM fun dk =>
        rrsigVerifiedBy ring now record dk (rrsetOfType rrsetType records)
    else some false

/-- Does the DS commit to the DNSKEY of the zone `owner`? -/
def verifyDs (ring : Ring) (ds dnskey : DnsRecord) (owner : Text) : Option Bool :=
  match ds, dnskey with
  | .ds delegation, .dnskey key =>
    if computeKeyTag key ≠ delegation.keyTag ∨ key.algorithm ≠ delegation.algorithm then
      some false
    else do
      let ownerWire ← nameToWire owner
      let input := ownerWire ++ dnskeyRdata key
      if delegation.digestType = 2 then some (ring.sha256 input == delegation.digest)
      else if delegation.digestType = 4 then some (ring.sha384 input == delegation.digest)
      else some false
  | _, _ => some false

/-- Same algorithm and public key. -/
def sameDnskey : DnsRecord → DnsRecord → Bool
  | .dnskey first, .dnskey second =>
    first.algorithm == second.algorithm && first.publicKey == second.publicKey
  | _, _ => false

end Numa
