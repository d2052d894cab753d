import Numa.AnswerSoundness

/-!
# The signer of a verified RRset

RFC 4035 asks that the signer of an RRSIG be the zone of the RRset or one above
it.  No function between `verify_rrset` and `validate_chain` compares the two
names, so the rule holds of the verified RRsets exactly as far as it holds of
all the RRSIGs that some key makes valid: for any other RRSIG there are keys
whose holder gets the RRset verified.
-/

namespace Numa

/-- The signer is the owner or an ancestor of it, label by label. -/
def InZone (signer owner : Text) : Prop :=
  ∃ signerLabels ownerLabels, wireLabels signer = some signerLabels ∧
    wireLabels owner = some ownerLabels ∧ signerLabels <:+ ownerLabels

/-- Some key makes the RRSIG a signature over the RRset at some time. -/
def Verifiable (sig : Rrsig) (rrset : List DnsRecord) : Prop :=
  ∃ ring now dk, rrsigVerifiedBy ring now (.rrsig sig) dk rrset = some true

/-- The record is an RRSIG that some key makes valid for the RRset although its
signer is not above all of it. -/
def Foreign (rrset : List DnsRecord) (rrsig : DnsRecord) : Prop :=
  ∃ sig, rrsig = .rrsig sig ∧ Verifiable sig rrset ∧
    ∃ record ∈ rrset, ¬ InZone sig.signerName record.domain

/-- The `ring` library of a party that can forge every signature. -/
def acceptingRing : Ring where
  rsaPkcs1Sha256 _ _ _ := true
  ecdsaP256Sha256 _ _ _ := true
  ed25519 _ _ _ := true
  sha1 _ := []
  sha256 _ := []
  sha384 _ := []

theorem verifySignature_acceptingRing {ring : Ring} {algorithm : UInt8}
    {publicKey signedData signature : List UInt8} (otherData : List UInt8)
    (verified : verifySignature ring algorithm publicKey signedData signature = true) :
    verifySignature acceptingRing algorithm publicKey otherData signature = true := by
  unfold verifySignature at verified ⊢
  split
  · rename_i rsa
    simp only [rsa, if_true, verifyRsaSha256] at verified ⊢
    cases der : rsaDnskeyToDer publicKey with
    | none => simp [der] at verified
    | some => rfl
  · rename_i notRsa
    simp only [notRsa, if_false, verifyEcdsaP256, verifyEd25519] at verified ⊢
    split <;> split <;> simp_all [acceptingRing]

section Holder

variable (sig : Rrsig) (key : Dnskey) (now : UInt32)

/-- The key under the name of the root, where it serves as trust anchor. -/
def anchorKey : DnsRecord :=
  .dnskey { key with domain := [dot] }

/-- The RRSIG of the anchor over its own DNSKEY RRset, with the algorithm and
the times of the given RRSIG. -/
def anchorSig : Rrsig :=
  { sig with domain := [dot], typeCovered := QueryType.dnskey.toNum, signerName := [dot] }

/-- A resolver in which only the signer has keys, namely those of a zone that
is `Secure` by itself. -/
def holderCtx : ValidationCtx Unit where
  now _ := now
  lookup _ name qtype :=
    if name = sig.signerName ∧ qtype = .dnskey then
      some { answers := [anchorKey key, .rrsig (anchorSig sig)] }
    else none
  insert _ _ _ world := world
  resolveIterative _ _ world := (.error (), world)
  ring := acceptingRing
  trustAnchors := [anchorKey key]

variable {sig key now} {ring : Ring} {rrset : List DnsRecord}

theorem rrsigVerifiedBy_anchorKey
    (verified : rrsigVerifiedBy ring now (.rrsig sig) (.dnskey key) rrset = some true) :
    rrsigVerifiedBy acceptingRing now (.rrsig sig) (anchorKey key) rrset = some true := by
  obtain ⟨_, signedData, same, sameAlgorithm, sameTag, timeValid, built, accepted⟩ :=
    rrsigVerifiedBy_eq_true_iff.mp verified
  obtain rfl := DnsRecord.dnskey.inj same
  exact rrsigVerifiedBy_eq_true_iff.mpr ⟨_, signedData, rfl, sameAlgorithm, sameTag, timeValid,
    built, verifySignature_acceptingRing signedData accepted⟩

/-- The anchor signs its own DNSKEY RRset. -/
theorem rrsigVerifiedBy_anchorSig
    (verified : rrsigVerifiedBy ring now (.rrsig sig) (.dnskey key) rrset = some true) :
    rrsigVerifiedBy acceptingRing now (.rrsig (anchorSig sig)) (anchorKey key)
      [anchorKey key] = some true := by
  obtain ⟨_, signedData, same, sameAlgorithm, sameTag, timeValid, -, accepted⟩ :=
    rrsigVerifiedBy_eq_true_iff.mp verified
  obtain rfl := DnsRecord.dnskey.inj same
  have rootEncodes : nameToWire [dot] = some [0] := by decide +kernel
  have encodes : (buildSignedData (.rrsig (anchorSig sig)) [anchorKey key]).isSome = true := by
    refine buildSignedData_isSome_iff.mpr ⟨by simp [anchorSig, rootEncodes], ?_⟩
    simp [recordToCanonicalWire, anchorKey, DnsRecord.domain, rootEncodes,
      recordRdataCanonical]
  obtain ⟨anchorData, built⟩ := Option.isSome_iff_exists.mp encodes
  exact rrsigVerifiedBy_eq_true_iff.mpr ⟨_, anchorData, rfl, sameAlgorithm, sameTag, timeValid,
    built, verifySignature_acceptingRing anchorData accepted⟩

theorem fetchDnskeys_holderCtx (name : Text) :
    fetchDnskeys (holderCtx sig key now) name () =
      some (if name = sig.signerName then [anchorKey key, .rrsig (anchorSig sig)] else [],
        ()) := by
  by_cases same : name = sig.signerName <;>
    simp [fetchDnskeys, fetchAnswers, holderCtx, same]

theorem validateChain_holderCtx
    (verified : rrsigVerifiedBy ring now (.rrsig sig) (.dnskey key) rrset = some true) :
    validateChain (holderCtx sig key now) sig.signerName
      [anchorKey key, .rrsig (anchorSig sig)] 0 () = some (.secure, ()) := by
  have signed : verifyRrsetSigned acceptingRing now [anchorKey key, .rrsig (anchorSig sig)]
      .dnskey [anchorKey key] = some true := by
    have keys : rrsetOfType .dnskey [anchorKey key, .rrsig (anchorSig sig)] =
        [anchorKey key] := rfl
    have covers : coversType .dnskey (.rrsig (anchorSig sig)) = true := rfl
    have covered : coversType .dnskey (anchorKey key) = false := rfl
    simp [verifyRrsetSigned, keys, covers, covered, rrsigVerifiedBy_anchorSig verified]
  have present : anchorPresent (holderCtx sig key now)
      [anchorKey key, .rrsig (anchorSig sig)] = true := by
    simp [anchorPresent, holderCtx, anchorKey, DnsRecord.isDnskey, sameDnskey]
  exact walkChain_anchored present signed

/-- The RRSIG of the holder gets its RRset verified. -/
theorem tryVerifyRrsig_holderCtx
    (verified : rrsigVerifiedBy ring now (.rrsig sig) (.dnskey key) rrset = some true) :
    tryVerifyRrsig (holderCtx sig key now) rrset (.rrsig sig) () = some (.verified, ()) := by
  have keys : [anchorKey key, .rrsig (anchorSig sig)].filter DnsRecord.isDnskey =
      [anchorKey key] := rfl
  simp only [tryVerifyRrsig, Exec.bind_eq_some, fetchDnskeys_holderCtx, if_true]
  refine ⟨_, (), rfl, ?_⟩
  rw [keys, if_neg (List.cons_ne_nil _ _), tryKeys, Exec.bind_eq_some]
  exact ⟨.verified, (), tryVerifyWithKey_of_accepted (rrsigVerifiedBy_anchorKey verified)
    (validateChain_holderCtx verified), by simp⟩

/-- Every other RRSIG of the list finds no matching key, unless it is
verifiable with the same signer. -/
theorem tryVerifyRrsig_holderCtx_other {rrsig : DnsRecord}
    (built : (buildSignedData (.rrsig sig) rrset).isSome = true)
    (unverifiable : ∀ other, rrsig = .rrsig other → other.signerName = sig.signerName →
      ¬ Verifiable other rrset) :
    tryVerifyRrsig (holderCtx sig key now) rrset rrsig () = some (.noMatchingKey, ()) := by
  cases rrsig with
  | rrsig other =>
      simp only [tryVerifyRrsig, Exec.bind_eq_some, fetchDnskeys_holderCtx]
      by_cases same : other.signerName = sig.signerName
      · have otherBuilt : (buildSignedData (.rrsig other) rrset).isSome = true := by
          have encodes := buildSignedData_isSome_iff.mp built
          exact buildSignedData_isSome_iff.mpr ⟨same ▸ encodes.1, encodes.2⟩
        have rejected : rrsigVerifiedBy acceptingRing now (.rrsig other) (anchorKey key) rrset =
            some false := by
          obtain ⟨verified, gate⟩ := Option.ne_none_iff_exists'.mp
            (rrsigVerifiedBy_ne_none otherBuilt (anchorKey key))
          cases verified with
          | false => exact gate
          | true => exact absurd ⟨_, _, _, gate⟩ (unverifiable other rfl same)
        have keys : [anchorKey key, .rrsig (anchorSig sig)].filter DnsRecord.isDnskey =
            [anchorKey key] := rfl
        refine ⟨_, (), by rw [if_pos same], ?_⟩
        rw [keys, if_neg (List.cons_ne_nil _ _), tryKeys, Exec.bind_eq_some]
        exact ⟨.skip, (), tryVerifyWithKey_of_rejected rejected, by simp [tryKeys]⟩
      · exact ⟨[], (), by simp [same], by simp⟩
  | _ => simp [tryVerifyRrsig]

end Holder

theorem verifiedThrough_append {ctx : ValidationCtx Unit} {rrset before after : List DnsRecord}
    {rrsig : DnsRecord}
    (skipped : ∀ earlier ∈ before,
      tryVerifyRrsig ctx rrset earlier () = some (.noMatchingKey, ()))
    (verified : tryVerifyRrsig ctx rrset rrsig () = some (.verified, ())) :
    VerifiedThrough ctx rrset (before ++ rrsig :: after) () rrsig () := by
  induction before with
  | nil => exact .here verified
  | cons earlier before ih =>
      exact .later (skipped earlier (by simp))
        (ih fun other otherMem => skipped other (by simp [otherMem]))

/-- An RRset is verified through RRSIGs of signers above it only, whatever the
keys, exactly when all its RRSIGs that some key makes valid name such a
signer. -/
theorem verifyRrset_inZone_iff (rrset rrsigs : List DnsRecord) :
    (∀ (W : Type) (ctx : ValidationCtx W) (world final : W) (sig : Rrsig),
      VerifiedThrough ctx rrset rrsigs world (.rrsig sig) final →
      ∀ record ∈ rrset, InZone sig.signerName record.domain) ↔
    ∀ sig, .rrsig sig ∈ rrsigs → Verifiable sig rrset →
      ∀ record ∈ rrset, InZone sig.signerName record.domain := by
  constructor
  · intro rule
    by_contra broken
    have foreign : ∃ rrsig ∈ rrsigs, Foreign rrset rrsig := by
      push Not at broken
      obtain ⟨sig, sigMem, verifiable, outside⟩ := broken
      exact ⟨_, sigMem, sig, rfl, verifiable, outside⟩
    obtain ⟨before, rrsig, after, rfl, ⟨sig, rfl, verifiable, record, recordMem, outside⟩,
      first⟩ := exists_first_of_exists_mem foreign
    obtain ⟨ring, now, dk, verified⟩ := verifiable
    obtain ⟨key, signedData, rfl, -, -, -, built, -⟩ := rrsigVerifiedBy_eq_true_iff.mp verified
    have through : VerifiedThrough (holderCtx sig key now) rrset
        (before ++ .rrsig sig :: after) () (.rrsig sig) () := by
      refine verifiedThrough_append (fun earlier earlierMem => ?_)
        (tryVerifyRrsig_holderCtx verified)
      refine tryVerifyRrsig_holderCtx_other
        (Option.isSome_iff_exists.mpr ⟨signedData, built⟩) ?_
      intro other isOther sameSigner otherVerifiable
      exact first earlier earlierMem
        ⟨other, isOther, otherVerifiable, record, recordMem, sameSigner ▸ outside⟩
    exact outside (rule Unit _ () () sig through record recordMem)
  · intro allInZone W ctx world final sig through
    obtain ⟨same, matched, asked, fetched, tried, walked, response, dk, _, _, _, _, verified, _⟩ :=
      through.verifiedBetween
    obtain rfl := DnsRecord.rrsig.inj matched
    exact allInZone sig through.mem ⟨ctx.ring, ctx.now tried, dk, verified⟩

def foreignRrsig : DnsRecord :=
  sampleRrsig (text "www.bank") .a 2 27232 (text "test")
    0x1fa7534a8f7f527293e14e2f7a52b6601f28c0f7db1815aef4a010bb43dc296ad409d93db247418be7baa9710a83bb83b3ba9a06ab56368abd55e7dd9e2bd602

/-- The key of the secure zone `test` makes an address of `www.bank` verified,
and a response with it `Secure`. -/
theorem verifyRrset_foreignRrsig :
    ∃ sig, VerifiedThrough answerCtx [sampleAddress (text "www.bank")] [foreignRrsig] ()
        (.rrsig sig) () ∧
      validateResponseIn answerCtx
        { answers := [sampleAddress (text "www.bank"), foreignRrsig] } () =
          some (.secure, ()) ∧
      ¬ InZone sig.signerName (text "www.bank") := by
  refine ⟨_, .here (show tryVerifyRrsig answerCtx _ foreignRrsig () = _ by decide +kernel),
    by decide +kernel, ?_⟩
  rintro ⟨signerLabels, ownerLabels, signer, owner, above⟩
  have signerEq : wireLabels (text "test") = some [text "test"] := by decide +kernel
  have ownerEq : wireLabels (text "www.bank") = some [text "www", text "bank"] := by
    decide +kernel
  obtain rfl := Option.some.inj (signerEq.symm.trans signer)
  obtain rfl := Option.some.inj (ownerEq.symm.trans owner)
  revert above
  decide +kernel

end Numa
