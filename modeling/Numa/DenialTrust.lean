import Numa.AnswerSoundness

/-!
# What a denial of existence rests on

A denial is accepted when the NSEC or NSEC3 RRsets of the authority section are
signed by keys in the cache and prove the absence.  The keys are taken as they
are: the chain of their zone is never walked, so every denial that some cache
gets accepted is accepted with keys that have no chain of trust.
-/

namespace Numa

section Secure

variable {ring : Ring} {now : UInt32} {authorities allRrsigs : List DnsRecord} {qname : Text}
  {qtype : UInt16} {isNxdomain : Bool} {cache : Text → QueryType → Option DnsPacket}

/-- The two ways a denial is accepted. -/
theorem validateDenial_secure
    (accepted : validateDenial ring now authorities allRrsigs qname qtype isNxdomain cache =
      some .secure) :
    (authorities.filter DnsRecord.isNsec ≠ [] ∧
      verifyAuthorityRrsigs ring now authorities allRrsigs .nsec cache = some true ∧
      (if isNxdomain then
        nsecsCover (authorities.filter DnsRecord.isNsec) qname = true ∧
          nsecWildcardDenied (authorities.filter DnsRecord.isNsec) qname = true
      else
        nsecsProveNodata (authorities.filter DnsRecord.isNsec) qname qtype = true)) ∨
    (authorities.filter DnsRecord.isNsec = [] ∧
      verifyAuthorityRrsigs ring now authorities allRrsigs .nsec3 cache = some true ∧
      ∃ params rest qnameHash,
        authorities.filter DnsRecord.isNsec3 = .nsec3 params :: rest ∧
        nsec3Hash ring qname params.hashAlgorithm params.iterations params.salt =
          some (some qnameHash) ∧
        if isNxdomain then
          nsec3ProvesNxdomain ring params
            (decodeOwners (authorities.filter DnsRecord.isNsec3)) qname = some true
        else
          nsec3ProvesNodata (decodeOwners (authorities.filter DnsRecord.isNsec3)) qnameHash
            qtype = true) := by
  unfold validateDenial at accepted
  simp only [ne_eq, Option.bind_eq_bind, ite_not] at accepted
  split at accepted
  · rename_i noNsecs
    right
    split at accepted
    · rename_i params rest isNsec3s
      obtain ⟨verified, verify, accepted⟩ := Option.bind_eq_some_iff.mp accepted
      cases verified with
      | false => simp at accepted
      | true =>
          simp only [Bool.not_true, Bool.false_eq_true, if_false] at accepted
          obtain ⟨hashed, hash, accepted⟩ := Option.bind_eq_some_iff.mp accepted
          cases hashed with
          | none => simp at accepted
          | some qnameHash =>
              refine ⟨noNsecs, verify, params, rest, qnameHash, isNsec3s, hash, ?_⟩
              rw [isNsec3s]
              cases isNxdomain with
              | true =>
                  obtain ⟨proven, proof, accepted⟩ := Option.bind_eq_some_iff.mp accepted
                  cases proven <;> simp_all
              | false => simp_all
    · simp at accepted
  · rename_i hasNsecs
    left
    obtain ⟨verified, verify, accepted⟩ := Option.bind_eq_some_iff.mp accepted
    cases verified with
    | false => simp at accepted
    | true => cases isNxdomain <;> simp_all

/-- The type of the records a denial is checked by. -/
def denialType (authorities : List DnsRecord) : QueryType :=
  if authorities.filter DnsRecord.isNsec = [] then .nsec3 else .nsec

theorem verifyAuthorityRrsigs_of_secure
    (accepted : validateDenial ring now authorities allRrsigs qname qtype isNxdomain cache =
      some .secure) :
    verifyAuthorityRrsigs ring now authorities allRrsigs (denialType authorities) cache =
      some true := by
  rcases validateDenial_secure accepted with ⟨hasNsecs, verified, -⟩ | ⟨noNsecs, verified, -⟩
  · rwa [denialType, if_neg hasNsecs]
  · rwa [denialType, if_pos noNsecs]

/-- An accepted authority section has an RRset with an RRSIG. -/
theorem exists_group_of_verifyAuthorityRrsigs {denialType : QueryType}
    (verified : verifyAuthorityRrsigs ring now authorities allRrsigs denialType cache =
      some true) :
    allRrsigs ≠ [] ∧ groupRrsets (rrsetOfType denialType authorities) ≠ [] := by
  unfold verifyAuthorityRrsigs at verified
  simp only at verified
  split at verified
  · simp at verified
  · rename_i nonempty
    refine ⟨?_, nonempty⟩
    rintro rfl
    obtain ⟨group, groups, split⟩ := List.exists_cons_of_ne_nil nonempty
    have first := forall_of_allM_eq_true verified group (by simp [split])
    simp [authorityRrsetVerified] at first

/-- The keys of a cache without their signatures. -/
def bareKeys (cache : Text → QueryType → Option DnsPacket) (name : Text) (qtype : QueryType) :
    Option DnsPacket :=
  if qtype = .dnskey then
    (cache name .dnskey).map fun packet =>
      { answers := packet.answers.filter DnsRecord.isDnskey }
  else none

theorem anyKeyVerifies_filter (sig : Rrsig) (signedData : List UInt8) (dnskeys : List DnsRecord) :
    anyKeyVerifies ring sig signedData (dnskeys.filter DnsRecord.isDnskey) =
      anyKeyVerifies ring sig signedData dnskeys := by
  induction dnskeys with
  | nil => rfl
  | cons dk dnskeys ih =>
      cases dk with
      | dnskey key => simpa [anyKeyVerifies, DnsRecord.isDnskey] using congrArg _ ih
      | _ => simpa [anyKeyVerifies, DnsRecord.isDnskey] using ih

theorem authorityRrsetVerified_bareKeys (group : RrsetGroup) :
    authorityRrsetVerified ring now allRrsigs (bareKeys cache) group =
      authorityRrsetVerified ring now allRrsigs cache group := by
  unfold authorityRrsetVerified
  split
  · split
    · rename_i sig _ _
      cases cached : cache sig.signerName .dnskey with
      | none => simp [bareKeys, cached]
      | some packet => simp [bareKeys, cached, anyKeyVerifies_filter]
    · rfl
  · rfl

/-- A denial is accepted by the bare keys alone. -/
theorem validateDenial_bareKeys :
    validateDenial ring now authorities allRrsigs qname qtype isNxdomain (bareKeys cache) =
      validateDenial ring now authorities allRrsigs qname qtype isNxdomain cache := by
  have same : authorityRrsetVerified ring now allRrsigs (bareKeys cache) =
      authorityRrsetVerified ring now allRrsigs cache :=
    funext authorityRrsetVerified_bareKeys
  simp only [validateDenial, verifyAuthorityRrsigs, same]

end Secure

/-- The question a denial answers. -/
def denialQuestion (response : DnsPacket) : Text × UInt16 :=
  match response.questions.head? with
  | some question => (question.name, question.qtype.toNum)
  | none => ([], 0)

/-- `validate_denial` on a response, with the keys of the cache. -/
def validateDenialOf (ring : Ring) (now : UInt32) (response : DnsPacket)
    (cache : Text → QueryType → Option DnsPacket) : Option DnssecStatus :=
  validateDenial ring now response.authorities (allRrsigsOf response)
    (denialQuestion response).1 (denialQuestion response).2
    (decide (response.header.rescode = .nxdomain)) cache

theorem groupRrsets_eq_nil {records : List DnsRecord}
    (negative : ∀ record ∈ records, record.isRrsig = true) : groupRrsets records = [] := by
  have none : records.filter (fun record => !record.isRrsig) = [] := by
    simpa using negative
  rw [groupRrsets, none, List.foldl_nil]

section Response

variable {W : Type} {ctx : ValidationCtx W} {response : DnsPacket}

/-- Without answers to check, a response with RRSIGs is as secure as its
denial in the state after the prefetch. -/
theorem validateResponseIn_eq_secure_iff
    (negative : ∀ record ∈ response.answers, record.isRrsig = true) {start final : W} :
    validateResponseIn ctx response start = some (.secure, final) ↔
      allRrsigsOf response ≠ [] ∧
        prefetchSignerDnskeys ctx (allRrsigsOf response) start = some ((), final) ∧
        validateDenialOf ctx.ring (ctx.now final) response (ctx.lookup final) =
          some .secure := by
  simp only [validateResponseIn, groupRrsets_eq_nil negative, verifyRrsets, if_true]
  by_cases unsigned : allRrsigsOf response = []
  · simp [unsigned]
  · rw [if_neg unsigned, Exec.bind_eq_some]
    constructor
    · rintro ⟨_, prefetched, prefetch, ran⟩
      simp only [Exec.bind_eq_some, Exec.pure_eq_some] at ran
      obtain ⟨_, _, ⟨rfl, rfl⟩, ran⟩ := ran
      simp only [Bool.not_true, Bool.false_eq_true, if_false, Exec.bind_eq_some,
        Exec.get_eq_some, Exec.liftM_eq_some] at ran
      obtain ⟨_, _, ⟨rfl, rfl⟩, denied, rfl⟩ := ran
      exact ⟨unsigned, prefetch, denied⟩
    · rintro ⟨-, prefetch, denied⟩
      refine ⟨(), final, prefetch, ?_⟩
      simp only [Exec.bind_eq_some, Exec.pure_eq_some]
      refine ⟨true, final, ⟨rfl, rfl⟩, ?_⟩
      simp only [Bool.not_true, Bool.false_eq_true, if_false, Exec.bind_eq_some,
        Exec.get_eq_some, Exec.liftM_eq_some]
      exact ⟨final, final, ⟨rfl, rfl⟩, denied, rfl⟩

/-- A chain is not `Secure` from keys that no RRSIG covers. -/
theorem validateChain_ne_secure {zone : Text} {records : List DnsRecord} {depth : Nat}
    {world final : W} (bare : ∀ record ∈ records, record.isRrsig = false) :
    validateChain ctx zone records depth world ≠ some (.secure, final) := by
  have unsigned : ∀ now keys,
      verifyRrsetSigned ctx.ring now records .dnskey keys ≠ some true := by
    intro now keys signed
    obtain ⟨dk, -, rrsig, rrsigMem, covers, -⟩ := exists_signedBy_of_verifyRrsetSigned signed
    have notRrsig := bare rrsig rrsigMem
    cases rrsig <;> simp [coversType, DnsRecord.isRrsig] at covers notRrsig
  intro ran
  unfold validateChain at ran
  cases levels : maxChainDepth + 1 - depth with
  | zero => simp [levels, walkChain] at ran
  | succ fewer =>
      rw [levels] at ran
      rcases walkChain_succ_secure ran with ⟨-, -, signed⟩ | ⟨_, _, _, _, _, _, _, signed, -⟩
      · exact unsigned _ _ signed
      · exact unsigned _ _ signed

/-- A validator whose cache holds the bare keys of another one. -/
def bareCtx (ring : Ring) (now : UInt32) (cache : Text → QueryType → Option DnsPacket) :
    ValidationCtx Unit where
  now _ := now
  lookup _ := bareKeys cache
  insert _ _ _ world := world
  resolveIterative _ _ world := (.error (), world)
  ring := ring
  trustAnchors := rootTrustAnchors

theorem isRrsig_of_mem_fetchAnswers_bareCtx {ring : Ring} {now : UInt32}
    {cache : Text → QueryType → Option DnsPacket} {qtype : QueryType} {name : Text}
    {world : Unit} :
    ∀ record ∈ (fetchAnswers (bareCtx ring now cache) qtype name world).1,
      record.isRrsig = false := by
  intro record recordMem
  unfold fetchAnswers at recordMem
  simp only [bareCtx, bareKeys] at recordMem
  by_cases keys : qtype = .dnskey
  · cases cached : cache name .dnskey with
    | none => simp [keys, cached] at recordMem
    | some packet =>
        simp only [keys, if_true, cached, Option.map_some, List.mem_filter] at recordMem
        obtain ⟨key, rfl⟩ := DnsRecord.isDnskey_iff.mp recordMem.2
        rfl
  · simp [keys] at recordMem

theorem prefetchZones_bareCtx {ring : Ring} {now : UInt32}
    {cache : Text → QueryType → Option DnsPacket} (zones : List Text) :
    prefetchZones (bareCtx ring now cache) zones () = some ((), ()) := by
  have returns : ∃ final, prefetchZones (bareCtx ring now cache) zones () = some ((), final) :=
    prefetchZones_returns zones ()
  obtain ⟨⟨⟩, ran⟩ := returns
  exact ran

variable (ctx response) in
/-- Each RRset the denial is checked by carries an RRSIG that a key of its
signer makes valid, and the chain of the signer is `Secure`. -/
def DenialTrusted (start : W) : Prop :=
  ∀ group ∈ groupRrsets (rrsetOfType (denialType response.authorities) response.authorities),
    ∃ sig, .rrsig sig ∈ allRrsigsOf response ∧
      sig.domain.eqIgnoreAsciiCase group.name = true ∧
      QueryType.fromNum sig.typeCovered = group.qtype ∧
      ∃ walked, VerifiedBetween ctx start walked group.rrset sig

theorem not_denialTrusted_bareCtx {ring : Ring} {now : UInt32}
    {cache : Text → QueryType → Option DnsPacket}
    (nonempty : groupRrsets (rrsetOfType (denialType response.authorities)
      response.authorities) ≠ []) :
    ¬ DenialTrusted (bareCtx ring now cache) response () := by
  intro trusted
  obtain ⟨group, groups, split⟩ := List.exists_cons_of_ne_nil nonempty
  obtain ⟨sig, _, _, _, walked, _, _, _, _, records, _, _, _, fetched, _, _, secure, _⟩ :=
    trusted group (by simp [split])
  refine validateChain_ne_secure ?_ secure
  obtain ⟨rfl, -⟩ := Prod.ext_iff.mp (Option.some.inj fetched)
  exact isRrsig_of_mem_fetchAnswers_bareCtx

end Response

/-- A signed denial of AAAA records at `www.test`. -/
def signedDenial : DnsPacket where
  questions := [⟨text "www.test", .aaaa⟩]
  authorities :=
    [ .nsec
        { domain := text "www.test"
          nextDomain := text "test"
          typeBitmap := octets 8 0x0006400000000003
          ttl := 3600 },
      sampleRrsig (text "www.test") .nsec 2 27232 (text "test")
        0x99951f705ec05fa509e296adf8dace9a92357df4111cbffe3d1607160bf8b385e443d58e40541b9ab60d8fb7ab8764c63392d10cc101688f0f839c95a445d30b ]

def denialRing : Ring :=
  tableRing
    [ (sampleZoneKey,
        octets 58 0x002f0f0200000e107fffffff000000016a6004746573740003777777047465737400002f000100000e10000e0474657374000006400000000003,
        octets 64 0x99951f705ec05fa509e296adf8dace9a92357df4111cbffe3d1607160bf8b385e443d58e40541b9ab60d8fb7ab8764c63392d10cc101688f0f839c95a445d30b) ]
    [] []

/-- A cache with a key for `test` that nothing vouches for. -/
def forgedKeys (name : Text) (qtype : QueryType) : Option DnsPacket :=
  if name = text "test" ∧ qtype = .dnskey then
    some { answers := [sampleDnskey (text "test") sampleZoneKey] }
  else none

end Numa
