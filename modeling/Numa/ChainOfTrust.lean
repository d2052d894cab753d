import Numa.Validator

/-!
# Soundness of the chain of trust

`validate_chain` walks from the DNSKEY answer of a zone towards the root.  A
trust derivation records what such a walk has to establish at every level,
together with the answers the oracle gave and the states it gave them in.
Every walk that ends in `Secure` has a derivation, whatever the oracle
answers.
-/

namespace Numa

/-- The RRset of the type in `records` carries an RRSIG that `rrsig_verified_by`
accepts under the key. -/
def SignedBy (ring : Ring) (now : UInt32) (records : List DnsRecord)
    (rrsetType : QueryType) (dk : DnsRecord) : Prop :=
  ∃ rrsig ∈ records, coversType rrsetType rrsig = true ∧
    rrsigVerifiedBy ring now rrsig dk (rrsetOfType rrsetType records) = some true

instance (ring : Ring) (now : UInt32) (records : List DnsRecord) (rrsetType : QueryType)
    (dk : DnsRecord) : Decidable (SignedBy ring now records rrsetType dk) :=
  inferInstanceAs (Decidable (∃ rrsig ∈ records, coversType rrsetType rrsig = true ∧
    rrsigVerifiedBy ring now rrsig dk (rrsetOfType rrsetType records) = some true))

theorem exists_signedBy_of_verifyRrsetSigned {ring : Ring} {now : UInt32}
    {records : List DnsRecord} {rrsetType : QueryType} {signingKeys : List DnsRecord}
    (signed : verifyRrsetSigned ring now records rrsetType signingKeys = some true) :
    ∃ dk ∈ signingKeys, SignedBy ring now records rrsetType dk := by
  unfold verifyRrsetSigned at signed
  split at signed
  · simp at signed
  · obtain ⟨rrsig, rrsigMem, accepted⟩ := exists_of_anyM_eq_true signed
    split at accepted
    · rename_i covers
      obtain ⟨dk, dkMem, verified⟩ := exists_of_anyM_eq_true accepted
      exact ⟨dk, dkMem, rrsig, rrsigMem, covers, verified⟩
    · simp at accepted

variable {W : Type} (ctx : ValidationCtx W)

/-- A finite trust derivation for the record list of a zone, with its number
of levels and the states before and after the fetches it rests on. -/
inductive TrustDerivation : Nat → Text → List DnsRecord → W → W → Prop
  /-- The list holds a key of a trust anchor, and a trust anchor signed it. -/
  | anchored {zone : Text} {records : List DnsRecord} {world : W}
      {key anchor signer : DnsRecord}
      (keyMem : key ∈ records) (anchorMem : anchor ∈ ctx.trustAnchors)
      (sameKey : sameDnskey key anchor = true)
      (signerMem : signer ∈ ctx.trustAnchors)
      (signed : SignedBy ctx.ring (ctx.now world) records .dnskey signer) :
      TrustDerivation 1 zone records world world
  /-- A fetched DS commits to a key that signed the list, and a key of the
  parent's trusted list signed the fetched DS set. -/
  | delegated {levels : Nat} {zone : Text} {records dsResponse parentRecords : List DnsRecord}
      {world dsWorld parentWorld final : W} {ds key parentKey : DnsRecord}
      (dsFetched : fetchDs ctx zone world = some (dsResponse, dsWorld))
      (dsMem : ds ∈ dsResponse) (keyMem : key ∈ records)
      (committed : verifyDs ctx.ring ds key zone = some true)
      (keysSigned : SignedBy ctx.ring (ctx.now dsWorld) records .dnskey key)
      (parentFetched :
        fetchDnskeys ctx (parentZone zone) dsWorld = some (parentRecords, parentWorld))
      (parentTrusted :
        TrustDerivation levels (parentZone zone) parentRecords parentWorld final)
      (parentKeyMem : parentKey ∈ parentRecords)
      (dsSigned : SignedBy ctx.ring (ctx.now final) dsResponse .ds parentKey) :
      TrustDerivation (levels + 1) zone records world final

variable {ctx}

/-- One level of a walk that ends in `Secure`: it ended at a trust anchor, or
went on to the parent. -/
theorem walkChain_succ_secure {levels : Nat} {zone : Text} {records : List DnsRecord}
    {world final : W}
    (ran : walkChain ctx (levels + 1) zone records world = some (.secure, final)) :
    (world = final ∧
      (∃ key ∈ records, ∃ anchor ∈ ctx.trustAnchors, sameDnskey key anchor = true) ∧
      verifyRrsetSigned ctx.ring (ctx.now world) records .dnskey ctx.trustAnchors =
        some true) ∨
    ∃ dsResponse dsWorld ksks parentRecords parentWorld,
      fetchDs ctx zone world = some (dsResponse, dsWorld) ∧
      authenticatedKsks ctx zone (dsResponse.filter DnsRecord.isDs)
        (records.filter DnsRecord.isDnskey) = some ksks ∧
      verifyRrsetSigned ctx.ring (ctx.now dsWorld) records .dnskey ksks = some true ∧
      fetchDnskeys ctx (parentZone zone) dsWorld = some (parentRecords, parentWorld) ∧
      walkChain ctx levels (parentZone zone) parentRecords parentWorld =
        some (.secure, final) ∧
      verifyRrsetSigned ctx.ring (ctx.now final) dsResponse .ds parentRecords =
        some true := by
  rw [walkChain] at ran
  split at ran
  · rename_i anchorPresent
    left
    simp only [Exec.bind_eq_some, Exec.get_eq_some, Exec.liftM_eq_some] at ran
    obtain ⟨_, _, ⟨rfl, rfl⟩, signed, _, ⟨verified, rfl⟩, returned⟩ := ran
    cases signed <;> simp at returned
    obtain ⟨key, keyMem, matched⟩ := List.any_eq_true.mp anchorPresent
    obtain ⟨anchor, anchorMem, same⟩ := List.any_eq_true.mp matched
    exact ⟨returned, ⟨key, List.mem_of_mem_filter keyMem, anchor, anchorMem, same⟩, verified⟩
  · split at ran
    · simp at ran
    · right
      simp only [Exec.bind_eq_some] at ran
      obtain ⟨dsResponse, dsWorld, dsFetched, ran⟩ := ran
      split at ran
      · simp at ran
      · simp only [Exec.bind_eq_some, Exec.liftM_eq_some] at ran
        obtain ⟨ksks, _, ⟨authenticated, rfl⟩, ran⟩ := ran
        split at ran
        · simp at ran
        · simp only [Exec.bind_eq_some, Exec.get_eq_some, Exec.liftM_eq_some] at ran
          obtain ⟨_, _, ⟨rfl, rfl⟩, keysSigned, _, ⟨keysVerified, rfl⟩, ran⟩ := ran
          cases keysSigned with
          | false => simp at ran
          | true =>
              simp only [Bool.not_true, Bool.false_eq_true, if_false,
                Exec.bind_eq_some] at ran
              obtain ⟨parentRecords, parentWorld, parentFetched, ran⟩ := ran
              split at ran
              · simp at ran
              · simp only [Exec.bind_eq_some] at ran
                obtain ⟨parentStatus, parentFinal, parentRan, ran⟩ := ran
                split at ran
                · rename_i notSecure
                  exact absurd (Exec.pure_eq_some.mp ran).1 notSecure
                · rename_i secure
                  simp only [Exec.bind_eq_some, Exec.get_eq_some,
                    Exec.liftM_eq_some] at ran
                  obtain ⟨_, _, ⟨rfl, rfl⟩, dsSigned, _, ⟨dsVerified, rfl⟩, returned⟩ := ran
                  cases dsSigned <;> simp at returned
                  subst returned
                  have parentSecure : parentStatus = .secure := by simpa using secure
                  subst parentSecure
                  exact ⟨dsResponse, dsWorld, ksks, parentRecords, parentWorld, dsFetched,
                    authenticated, keysVerified, parentFetched, parentRan, dsVerified⟩

/-- Does the list hold the key of a trust anchor? -/
def anchorPresent (ctx : ValidationCtx W) (records : List DnsRecord) : Bool :=
  (records.filter DnsRecord.isDnskey).any fun dk => ctx.trustAnchors.any (sameDnskey dk)

/-- A walk ends at once where a trust anchor signed the keys. -/
theorem walkChain_anchored {levels : Nat} {zone : Text} {records : List DnsRecord} {world : W}
    (present : anchorPresent ctx records = true)
    (signed : verifyRrsetSigned ctx.ring (ctx.now world) records .dnskey ctx.trustAnchors =
      some true) :
    walkChain ctx (levels + 1) zone records world = some (.secure, world) := by
  have taken : ((records.filter DnsRecord.isDnskey).any fun dk =>
      ctx.trustAnchors.any (sameDnskey dk)) = true := present
  simp only [walkChain, taken, if_true, Exec.bind_eq_some, Exec.get_eq_some,
    Exec.liftM_eq_some]
  exact ⟨world, world, ⟨rfl, rfl⟩, true, world, ⟨signed, rfl⟩, by simp⟩

/-- A walk that ends in `Secure` has a derivation within its levels. -/
theorem exists_trustDerivation_of_walkChain {levels : Nat} {zone : Text}
    {records : List DnsRecord} {world final : W}
    (ran : walkChain ctx levels zone records world = some (.secure, final)) :
    ∃ count ≤ levels, TrustDerivation ctx count zone records world final := by
  induction levels generalizing zone records world with
  | zero => simp [walkChain] at ran
  | succ levels ih =>
      rcases walkChain_succ_secure ran with
        ⟨rfl, ⟨key, keyMem, anchor, anchorMem, same⟩, signed⟩ |
        ⟨dsResponse, dsWorld, ksks, parentRecords, parentWorld, dsFetched, authenticated,
          keysSigned, parentFetched, parentRan, dsSigned⟩
      · obtain ⟨signer, signerMem, signedBy⟩ := exists_signedBy_of_verifyRrsetSigned signed
        exact ⟨1, by omega, .anchored keyMem anchorMem same signerMem signedBy⟩
      · obtain ⟨count, countLe, parentTrusted⟩ := ih parentRan
        obtain ⟨key, keyMem, signedByKey⟩ := exists_signedBy_of_verifyRrsetSigned keysSigned
        obtain ⟨parentKey, parentKeyMem, signedByParent⟩ :=
          exists_signedBy_of_verifyRrsetSigned dsSigned
        rw [(filterM_eq_some_iff.mp authenticated).2, List.mem_filter] at keyMem
        obtain ⟨ds, dsMem, committed⟩ := exists_of_anyM_eq_true (by simpa using keyMem.2)
        exact ⟨count + 1, by omega,
          .delegated dsFetched (List.mem_of_mem_filter dsMem)
            (List.mem_of_mem_filter keyMem.1) committed signedByKey parentFetched
            parentTrusted parentKeyMem signedByParent⟩

/-- Soundness of the chain of trust: a `Secure` zone has a trust derivation of
at most `MAX_CHAIN_DEPTH + 1` levels, counted from the depth of the call. -/
theorem validateChain_sound {zone : Text} {records : List DnsRecord} {depth : Nat}
    {world final : W}
    (returned : validateChain ctx zone records depth world = some (.secure, final)) :
    ∃ count, count + depth ≤ maxChainDepth + 1 ∧
      TrustDerivation ctx count zone records world final := by
  obtain ⟨count, countLe, derivation⟩ := exists_trustDerivation_of_walkChain returned
  have positive : 0 < count := by cases derivation <;> omega
  exact ⟨count, by omega, derivation⟩

/-! ## A worked delegation

The zone `test` delegated by a root with its own trust anchor, signed with the
Ed25519 keys of the first two test vectors of RFC 8032.  The signatures and the
digest are the real ones; `sampleRing` is the `ring` library on them.
-/

/-- The big-endian octets of a number. -/
def octets : (count : Nat) → (value : Nat) → List UInt8
  | 0, _ => []
  | count + 1, value => (value / 256 ^ count).toUInt8 :: octets count value

def sampleRootKey : List UInt8 :=
  octets 32 0xd75a980182b10ab7d54bfed3c964073a0ee172f3daa62325af021a68f707511a

def sampleZoneKey : List UInt8 :=
  octets 32 0x3d4017c3e843895a92b70aa74d1b7ebc9c982ccf2ec4968cc0cd55f12af4660c

/-- The `ring` library as far as tables tell it: the key, the signed data and
the signature of the verifications that succeed, and some digests. -/
def tableRing (signatures : List (List UInt8 × List UInt8 × List UInt8))
    (sha1s sha256s : List (List UInt8 × List UInt8)) : Ring where
  rsaPkcs1Sha256 _ _ _ := false
  ecdsaP256Sha256 _ _ _ := false
  ed25519 key signedData signature := signatures.contains (key, signedData, signature)
  sha1 input := (sha1s.lookup input).getD []
  sha256 input := (sha256s.lookup input).getD []
  sha384 _ := []

def sampleSignatures : List (List UInt8 × List UInt8 × List UInt8) :=
  [ (sampleRootKey,
      octets 66 0x00300f0000000e107fffffff0000000136c100000030000100000e1000240101030fd75a980182b10ab7d54bfed3c964073a0ee172f3daa62325af021a68f707511a,
      octets 64 0xf3d75bf8315232b7c82ff5de0476d6d260f931a4f8915870a6870c103ea3a0809d92097e84d0695943d1f605dcdf4109c93f9297fab29ebe0fc44f7c90810b09),
    (sampleZoneKey,
      octets 76 0x00300f0100000e107fffffff000000016a600474657374000474657374000030000100000e1000240101030f3d4017c3e843895a92b70aa74d1b7ebc9c982ccf2ec4968cc0cd55f12af4660c,
      octets 64 0x81ba62fb0c9bfc6bf6c0b71999b8b7b41c4bfde9ad021d89c636595f3197c58bcad762c9943243cc427d553dbba1f321b8029e2241543658a7ee5fc628f81909),
    (sampleRootKey,
      octets 71 0x002b0f0100000e107fffffff0000000136c100047465737400002b000100000e1000246a600f0283298effecea8d0a22a7d0ae4623b5b61e855ae317906c248cf9b0c4e520961f,
      octets 64 0xb69e66ee25f05bc3e660153ec2e2e92b5c2367736c08ad73de8cf86b9c69014b2371d0627fdab04806cfa45fcca8e0a9d9d22ec7bb25e8453234ccbda46ed100) ]

def sampleDigests : List (List UInt8 × List UInt8) :=
  [ (octets 42 0x0474657374000101030f3d4017c3e843895a92b70aa74d1b7ebc9c982ccf2ec4968cc0cd55f12af4660c,
      octets 32 0x83298effecea8d0a22a7d0ae4623b5b61e855ae317906c248cf9b0c4e520961f) ]

def sampleRing : Ring :=
  tableRing sampleSignatures [] sampleDigests

def sampleDnskey (domain : Text) (publicKey : List UInt8) : DnsRecord :=
  .dnskey
    { domain := domain
      flags := 257
      protocol := 3
      algorithm := 15
      publicKey := publicKey
      ttl := 3600 }

def sampleRrsig (domain : Text) (typeCovered : QueryType) (labels : UInt8) (keyTag : UInt16)
    (signerName : Text) (signature : Nat) : DnsRecord :=
  .rrsig
    { domain := domain
      typeCovered := typeCovered.toNum
      algorithm := 15
      labels := labels
      originalTtl := 3600
      expiration := 2147483647
      inception := 1
      keyTag := keyTag
      signerName := signerName
      signature := octets 64 signature
      ttl := 3600 }

def sampleRootRecords : List DnsRecord :=
  [ sampleDnskey [dot] sampleRootKey,
    sampleRrsig [dot] .dnskey 0 14017 [dot]
      0xf3d75bf8315232b7c82ff5de0476d6d260f931a4f8915870a6870c103ea3a0809d92097e84d0695943d1f605dcdf4109c93f9297fab29ebe0fc44f7c90810b09 ]

def sampleZoneRecords : List DnsRecord :=
  [ sampleDnskey (text "test") sampleZoneKey,
    sampleRrsig (text "test") .dnskey 1 27232 (text "test")
      0x81ba62fb0c9bfc6bf6c0b71999b8b7b41c4bfde9ad021d89c636595f3197c58bcad762c9943243cc427d553dbba1f321b8029e2241543658a7ee5fc628f81909 ]

def sampleDsRecords : List DnsRecord :=
  [ .ds
      { domain := text "test"
        keyTag := 27232
        algorithm := 15
        digestType := 2
        digest := octets 32 0x83298effecea8d0a22a7d0ae4623b5b61e855ae317906c248cf9b0c4e520961f
        ttl := 3600 },
    sampleRrsig (text "test") .ds 1 14017 [dot]
      0xb69e66ee25f05bc3e660153ec2e2e92b5c2367736c08ad73de8cf86b9c69014b2371d0627fdab04806cfa45fcca8e0a9d9d22ec7bb25e8453234ccbda46ed100 ]

/-- A resolver whose cache holds the given answers and whose servers are
unreachable. -/
def sampleWorld (answers : List ((Text × QueryType) × List DnsRecord)) : World Unit where
  now _ := 1700000000
  lookup _ name qtype := (answers.lookup (name, qtype)).map fun records => { answers := records }
  insert _ _ _ world := world
  resolveIterative _ _ world := (.error (), world)

/-- The validator of the worked delegation. -/
def sampleCtx : ValidationCtx Unit :=
  { sampleWorld
      [ (([dot], .dnskey), sampleRootRecords),
        ((text "test", .dnskey), sampleZoneRecords),
        ((text "test", .ds), sampleDsRecords) ] with
    ring := sampleRing
    trustAnchors := [sampleDnskey [dot] sampleRootKey] }

theorem validateChain_sound_delegation :
    validateChain sampleCtx (text "test") sampleZoneRecords 0 () = some (.secure, ()) ∧
      ∃ count, count + 0 ≤ maxChainDepth + 1 ∧
        TrustDerivation sampleCtx count (text "test") sampleZoneRecords () () := by
  have secure :
      validateChain sampleCtx (text "test") sampleZoneRecords 0 () = some (.secure, ()) := by
    decide +kernel
  exact ⟨secure, validateChain_sound secure⟩

end Numa
