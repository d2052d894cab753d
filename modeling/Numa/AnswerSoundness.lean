import Numa.ChainOfTrust

/-!
# Positive answers

What a `Secure` or `Bogus` verdict on the answer RRsets rests on.  Every step
of a validation moves the world by fetches only, so each key the verdict rests
on was fetched, and each chain walked, in a state between its start and its
end.
-/

namespace Numa

variable {W : Type} (ctx : ValidationCtx W)

/-- One fetch takes the world from the first state to the second. -/
def Fetches (world final : W) : Prop :=
  ∃ qtype name, (fetchAnswers ctx qtype name world).2 = final

/-- Finitely many fetches take the world from the first state to the second. -/
def Reaches : W → W → Prop :=
  Relation.ReflTransGen (Fetches ctx)

section Movement

theorem reaches_refl : Std.Refl (Reaches ctx) :=
  ⟨fun _ => .refl⟩

theorem reaches_trans : IsTrans W (Reaches ctx) :=
  ⟨fun _ _ _ => .trans⟩

theorem fetchDnskeys_moves (zone : Text) : Exec.Moves (Reaches ctx) (fetchDnskeys ctx zone) := by
  intro world records final ran
  obtain ⟨-, rfl⟩ := Prod.ext_iff.mp (Option.some.inj ran)
  exact .single ⟨.dnskey, zone, rfl⟩

theorem fetchDs_moves (child : Text) : Exec.Moves (Reaches ctx) (fetchDs ctx child) := by
  intro world records final ran
  obtain ⟨-, rfl⟩ := Prod.ext_iff.mp (Option.some.inj ran)
  exact .single ⟨.ds, child, rfl⟩

theorem moves_pure {α : Type} (value : α) :
    Exec.Moves (Reaches ctx) (pure value : Exec W α) :=
  Exec.moves_pure (reaches_refl ctx) value

theorem moves_check {α : Type} {check : W → Option Bool} {next : Bool → Exec W α}
    (nextMoves : ∀ result, Exec.Moves (Reaches ctx) (next result)) :
    Exec.Moves (Reaches ctx) (do
      let result ← check (← get)
      next result) :=
  Exec.moves_bind (reaches_trans ctx) (Exec.moves_get (reaches_refl ctx)) fun _ =>
    Exec.moves_bind (reaches_trans ctx) (Exec.moves_liftM (reaches_refl ctx) _) nextMoves

theorem walkChain_moves (levels : Nat) (zone : Text) (records : List DnsRecord) :
    Exec.Moves (Reaches ctx) (walkChain ctx levels zone records) := by
  induction levels generalizing zone records with
  | zero => exact moves_pure ctx _
  | succ levels ih =>
      rw [walkChain]
      refine Exec.moves_ite (moves_check ctx fun signed => ?_) ?_
      · exact Exec.moves_ite (moves_pure ctx _) (moves_pure ctx _)
      refine Exec.moves_ite (moves_pure ctx _) ?_
      refine Exec.moves_bind (reaches_trans ctx) (fetchDs_moves ctx zone) fun dsResponse => ?_
      refine Exec.moves_ite (moves_pure ctx _) ?_
      refine Exec.moves_bind (reaches_trans ctx)
        (Exec.moves_liftM (reaches_refl ctx) _) fun ksks => ?_
      refine Exec.moves_ite (moves_pure ctx _) ?_
      refine moves_check ctx fun keysSigned => ?_
      refine Exec.moves_ite (moves_pure ctx _) ?_
      refine Exec.moves_bind (reaches_trans ctx) (fetchDnskeys_moves ctx _)
        fun parentRecords => ?_
      refine Exec.moves_ite (moves_pure ctx _) ?_
      refine Exec.moves_bind (reaches_trans ctx) (ih _ _) fun parentStatus => ?_
      refine Exec.moves_ite (moves_pure ctx _) ?_
      refine moves_check ctx fun dsSigned => ?_
      exact Exec.moves_ite (moves_pure ctx _) (moves_pure ctx _)

theorem tryVerifyWithKey_moves (rrsig : DnsRecord) (rrset : List DnsRecord)
    (signerName : Text) (dnskeyResponse : List DnsRecord) (dk : DnsRecord) :
    Exec.Moves (Reaches ctx)
      (tryVerifyWithKey ctx rrsig rrset signerName dnskeyResponse dk) := by
  refine moves_check ctx fun verified => ?_
  refine Exec.moves_ite (moves_pure ctx _) ?_
  refine Exec.moves_bind (reaches_trans ctx) (walkChain_moves ctx _ _ _) fun status => ?_
  cases status <;> exact moves_pure ctx _

theorem tryKeys_moves (rrsig : DnsRecord) (rrset : List DnsRecord) (signerName : Text)
    (dnskeyResponse dks : List DnsRecord) :
    Exec.Moves (Reaches ctx) (tryKeys ctx rrsig rrset signerName dnskeyResponse dks) := by
  induction dks with
  | nil => exact moves_pure ctx _
  | cons dk dks ih =>
      refine Exec.moves_bind (reaches_trans ctx) (tryVerifyWithKey_moves ctx _ _ _ _ _)
        fun outcome => ?_
      cases outcome with
      | verified => exact moves_pure ctx _
      | chainBogus => exact moves_pure ctx _
      | skip => exact ih

theorem tryVerifyRrsig_moves (rrset : List DnsRecord) (rrsig : DnsRecord) :
    Exec.Moves (Reaches ctx) (tryVerifyRrsig ctx rrset rrsig) := by
  unfold tryVerifyRrsig
  split
  · refine Exec.moves_bind (reaches_trans ctx) (fetchDnskeys_moves ctx _) fun response => ?_
    exact Exec.moves_ite (moves_pure ctx _) (tryKeys_moves ctx _ _ _ _ _)
  · exact moves_pure ctx _

theorem verifyRrset_moves (rrset rrsigs : List DnsRecord) :
    Exec.Moves (Reaches ctx) (verifyRrset ctx rrset rrsigs) := by
  induction rrsigs with
  | nil => exact moves_pure ctx _
  | cons rrsig rrsigs ih =>
      refine Exec.moves_bind (reaches_trans ctx) (tryVerifyRrsig_moves ctx _ _)
        fun outcome => ?_
      cases outcome with
      | verified => exact moves_pure ctx _
      | chainBogus => exact moves_pure ctx _
      | noMatchingKey => exact ih

theorem prefetchZones_moves (zones : List Text) :
    Exec.Moves (Reaches ctx) (prefetchZones ctx zones) := by
  induction zones with
  | nil => exact moves_pure ctx _
  | cons zone zones ih =>
      exact Exec.moves_bind (reaches_trans ctx) (fetchDnskeys_moves ctx _) fun _ => ih

theorem verifyRrsets_moves (allRrsigs : List DnsRecord) (groups : List RrsetGroup) :
    Exec.Moves (Reaches ctx) (verifyRrsets ctx allRrsigs groups) := by
  induction groups with
  | nil => exact moves_pure ctx _
  | cons group groups ih =>
      rw [verifyRrsets]
      refine Exec.moves_ite ih ?_
      refine Exec.moves_bind (reaches_trans ctx) (verifyRrset_moves ctx _ _) fun verdict => ?_
      cases verdict with
      | bogus => exact moves_pure ctx _
      | verified => exact ih

end Movement

/-- Between the two states, a DNSKEY fetched for the signer makes the RRSIG a
signature over exactly this RRset, and the chain of the signer is `Secure`. -/
def VerifiedBetween (start finish : W) (rrset : List DnsRecord) (sig : Rrsig) : Prop :=
  ∃ asked fetched tried walked dnskeyResponse, ∃ dk ∈ dnskeyResponse,
    Reaches ctx start asked ∧
    fetchDnskeys ctx sig.signerName asked = some (dnskeyResponse, fetched) ∧
    Reaches ctx fetched tried ∧
    rrsigVerifiedBy ctx.ring (ctx.now tried) (.rrsig sig) dk rrset = some true ∧
    validateChain ctx sig.signerName dnskeyResponse 0 tried = some (.secure, walked) ∧
    Reaches ctx walked finish

/-- A verification of the RRset by the RRSIGs of the list that stops at the
given one: all the earlier ones had no matching key. -/
inductive VerifiedThrough (rrset : List DnsRecord) :
    List DnsRecord → W → DnsRecord → W → Prop
  | here {rrsig : DnsRecord} {rrsigs : List DnsRecord} {world final : W}
      (ran : tryVerifyRrsig ctx rrset rrsig world = some (.verified, final)) :
      VerifiedThrough rrset (rrsig :: rrsigs) world rrsig final
  | later {head rrsig : DnsRecord} {rrsigs : List DnsRecord} {world middle final : W}
      (skipped : tryVerifyRrsig ctx rrset head world = some (.noMatchingKey, middle))
      (through : VerifiedThrough rrset rrsigs middle rrsig final) :
      VerifiedThrough rrset (head :: rrsigs) world rrsig final

variable {ctx}

theorem VerifiedBetween.mono {start first last finish : W} {rrset : List DnsRecord}
    {sig : Rrsig} (verified : VerifiedBetween ctx first last rrset sig)
    (before : Reaches ctx start first) (after : Reaches ctx last finish) :
    VerifiedBetween ctx start finish rrset sig := by
  obtain ⟨asked, fetched, tried, walked, response, dk, dkMem, reached, fetch, moved,
    accepted, secure, ended⟩ := verified
  exact ⟨asked, fetched, tried, walked, response, dk, dkMem, before.trans reached, fetch,
    moved, accepted, secure, ended.trans after⟩

theorem VerifiedThrough.mem {rrset rrsigs : List DnsRecord} {rrsig : DnsRecord}
    {world final : W} (through : VerifiedThrough ctx rrset rrsigs world rrsig final) :
    rrsig ∈ rrsigs := by
  induction through with
  | here => simp
  | later _ _ ih => exact List.mem_cons_of_mem _ ih

theorem verifyRrset_eq_verified_iff {rrset rrsigs : List DnsRecord} {world final : W} :
    verifyRrset ctx rrset rrsigs world = some (.verified, final) ↔
      ∃ rrsig, VerifiedThrough ctx rrset rrsigs world rrsig final := by
  induction rrsigs generalizing world with
  | nil =>
      constructor
      · simp [verifyRrset]
      · rintro ⟨_, ⟨⟩⟩
  | cons head rrsigs ih =>
      rw [verifyRrset, Exec.bind_eq_some]
      constructor
      · rintro ⟨outcome, middle, tried, ran⟩
        cases outcome with
        | verified =>
            obtain ⟨-, rfl⟩ := Exec.pure_eq_some.mp ran
            exact ⟨head, .here tried⟩
        | chainBogus => simp at ran
        | noMatchingKey =>
            obtain ⟨rrsig, through⟩ := ih.mp ran
            exact ⟨rrsig, .later tried through⟩
      · rintro ⟨rrsig, through⟩
        cases through with
        | here ran => exact ⟨_, _, ran, by simp⟩
        | later skipped through => exact ⟨_, _, skipped, ih.mpr ⟨rrsig, through⟩⟩

theorem tryVerifyWithKey_verified {rrsig dk : DnsRecord} {rrset dnskeyResponse : List DnsRecord}
    {signerName : Text} {world final : W}
    (ran : tryVerifyWithKey ctx rrsig rrset signerName dnskeyResponse dk world =
      some (.verified, final)) :
    rrsigVerifiedBy ctx.ring (ctx.now world) rrsig dk rrset = some true ∧
      validateChain ctx signerName dnskeyResponse 0 world = some (.secure, final) := by
  simp only [tryVerifyWithKey, Exec.bind_eq_some, Exec.get_eq_some, Exec.liftM_eq_some] at ran
  obtain ⟨_, _, ⟨rfl, rfl⟩, verified, _, ⟨accepted, rfl⟩, ran⟩ := ran
  cases verified with
  | false => simp at ran
  | true =>
      simp only [Bool.not_true, Bool.false_eq_true, if_false, Exec.bind_eq_some] at ran
      obtain ⟨status, walked, chain, returned⟩ := ran
      cases status <;> simp at returned
      exact ⟨accepted, returned ▸ chain⟩

theorem tryVerifyWithKey_of_rejected {rrsig dk : DnsRecord}
    {rrset dnskeyResponse : List DnsRecord} {signerName : Text} {world : W}
    (rejected : rrsigVerifiedBy ctx.ring (ctx.now world) rrsig dk rrset = some false) :
    tryVerifyWithKey ctx rrsig rrset signerName dnskeyResponse dk world =
      some (.skip, world) := by
  simp only [tryVerifyWithKey, Exec.bind_eq_some, Exec.get_eq_some, Exec.liftM_eq_some]
  exact ⟨world, world, by simp, false, world, ⟨rejected, by simp⟩, by simp⟩

theorem tryVerifyWithKey_of_accepted {rrsig dk : DnsRecord}
    {rrset dnskeyResponse : List DnsRecord} {signerName : Text} {status : DnssecStatus}
    {world final : W}
    (accepted : rrsigVerifiedBy ctx.ring (ctx.now world) rrsig dk rrset = some true)
    (chain : validateChain ctx signerName dnskeyResponse 0 world = some (status, final)) :
    tryVerifyWithKey ctx rrsig rrset signerName dnskeyResponse dk world =
      some (match status with
        | .secure => .verified
        | .bogus => .chainBogus
        | _ => .skip, final) := by
  simp only [tryVerifyWithKey, Exec.bind_eq_some, Exec.get_eq_some, Exec.liftM_eq_some]
  refine ⟨world, world, by simp, true, world, ⟨accepted, by simp⟩, ?_⟩
  simp only [Bool.not_true, Bool.false_eq_true, if_false, Exec.bind_eq_some]
  exact ⟨status, final, chain, by cases status <;> simp⟩

/-- A key that verifies the RRSIG is one of the list, and the chain was walked
from a state reached by trying the keys before it. -/
theorem tryKeys_verified {rrsig : DnsRecord} {rrset dnskeyResponse dks : List DnsRecord}
    {signerName : Text} {world final : W}
    (ran : tryKeys ctx rrsig rrset signerName dnskeyResponse dks world =
      some (.verified, final)) :
    ∃ dk ∈ dks, ∃ tried, Reaches ctx world tried ∧
      rrsigVerifiedBy ctx.ring (ctx.now tried) rrsig dk rrset = some true ∧
      validateChain ctx signerName dnskeyResponse 0 tried = some (.secure, final) := by
  induction dks generalizing world with
  | nil => simp [tryKeys] at ran
  | cons dk dks ih =>
      rw [tryKeys, Exec.bind_eq_some] at ran
      obtain ⟨outcome, middle, tried, ran⟩ := ran
      cases outcome with
      | verified =>
          obtain ⟨-, rfl⟩ := Exec.pure_eq_some.mp ran
          obtain ⟨accepted, secure⟩ := tryVerifyWithKey_verified tried
          exact ⟨dk, by simp, world, .refl, accepted, secure⟩
      | chainBogus => simp at ran
      | skip =>
          obtain ⟨later, laterMem, reached, moved, accepted, secure⟩ := ih ran
          exact ⟨later, by simp [laterMem], reached,
            (tryVerifyWithKey_moves ctx _ _ _ _ _ _ _ _ tried).trans moved, accepted, secure⟩

theorem tryVerifyRrsig_verified {rrset : List DnsRecord} {rrsig : DnsRecord} {world final : W}
    (ran : tryVerifyRrsig ctx rrset rrsig world = some (.verified, final)) :
    ∃ sig, rrsig = .rrsig sig ∧ VerifiedBetween ctx world final rrset sig := by
  unfold tryVerifyRrsig at ran
  split at ran
  · rename_i sig
    rw [Exec.bind_eq_some] at ran
    obtain ⟨response, fetched, fetch, ran⟩ := ran
    split at ran
    · simp at ran
    · obtain ⟨dk, dkMem, tried, moved, accepted, secure⟩ := tryKeys_verified ran
      exact ⟨sig, rfl, world, fetched, tried, final, response, dk,
        List.mem_of_mem_filter dkMem, .refl, fetch, moved, accepted, secure, .refl⟩
  · simp at ran

theorem VerifiedThrough.verifiedBetween {rrset rrsigs : List DnsRecord} {rrsig : DnsRecord}
    {world final : W} (through : VerifiedThrough ctx rrset rrsigs world rrsig final) :
    ∃ sig, rrsig = .rrsig sig ∧ VerifiedBetween ctx world final rrset sig := by
  induction through with
  | here ran => exact tryVerifyRrsig_verified ran
  | later skipped _ ih =>
      obtain ⟨sig, rfl, verified⟩ := ih
      exact ⟨sig, rfl, verified.mono (tryVerifyRrsig_moves ctx _ _ _ _ _ skipped) .refl⟩

/-- The loop over the answer RRsets runs to its end only if it verified every
RRset that has a matching RRSIG. -/
theorem verifyRrsets_true {allRrsigs : List DnsRecord} {groups : List RrsetGroup}
    {world final : W} (ran : verifyRrsets ctx allRrsigs groups world = some (true, final)) :
    ∀ group ∈ groups, matchingRrsigsFor allRrsigs group.name group.qtype ≠ [] →
      ∃ sig, .rrsig sig ∈ matchingRrsigsFor allRrsigs group.name group.qtype ∧
        VerifiedBetween ctx world final group.rrset sig := by
  induction groups generalizing world with
  | nil => simp
  | cons head groups ih =>
      intro group groupMem signed
      rw [verifyRrsets] at ran
      split at ran
      · rename_i unsigned
        rcases List.mem_cons.mp groupMem with rfl | later
        · exact absurd unsigned signed
        · exact ih ran group later signed
      · rw [Exec.bind_eq_some] at ran
        obtain ⟨verdict, middle, verify, ran⟩ := ran
        cases verdict with
        | bogus => simp at ran
        | verified =>
            rcases List.mem_cons.mp groupMem with rfl | later
            · obtain ⟨rrsig, through⟩ := verifyRrset_eq_verified_iff.mp verify
              obtain ⟨sig, rfl, verified⟩ := through.verifiedBetween
              exact ⟨sig, through.mem,
                verified.mono .refl (verifyRrsets_moves ctx _ _ _ _ _ ran)⟩
            · obtain ⟨sig, sigMem, verified⟩ := ih ran group later signed
              exact ⟨sig, sigMem,
                verified.mono (verifyRrset_moves ctx _ _ _ _ _ verify) .refl⟩

theorem addToGroups_ne_nil (record : DnsRecord) (groups : List RrsetGroup) :
    addToGroups record groups ≠ [] := by
  cases groups with
  | nil => simp [addToGroups]
  | cons group groups =>
      rw [addToGroups]
      split <;> simp

/-- A section with a record other than RRSIGs has an RRset. -/
theorem groupRrsets_ne_nil {records : List DnsRecord}
    (positive : ∃ record ∈ records, record.isRrsig = false) : groupRrsets records ≠ [] := by
  obtain ⟨record, recordMem, notRrsig⟩ := positive
  have kept : records.filter (fun record => !record.isRrsig) ≠ [] :=
    List.ne_nil_of_mem (List.mem_filter.mpr ⟨recordMem, by simp [notRrsig]⟩)
  rw [groupRrsets, ← List.dropLast_append_getLast kept, List.foldl_append]
  exact addToGroups_ne_nil _ _

theorem mem_matchingRrsigsFor {allRrsigs : List DnsRecord} {name : Text} {qtype : QueryType}
    {sig : Rrsig} :
    .rrsig sig ∈ matchingRrsigsFor allRrsigs name qtype ↔
      .rrsig sig ∈ allRrsigs ∧ sig.domain.eqIgnoreAsciiCase name = true ∧
        QueryType.fromNum sig.typeCovered = qtype := by
  simp [matchingRrsigsFor, matchesRrset]

/-- A validation that ends in `Secure` with answers to check ran its loop to
the end. -/
theorem verifyRrsets_of_validateResponseIn_secure {response : DnsPacket} {start final : W}
    (positive : groupRrsets response.answers ≠ [])
    (returned : validateResponseIn ctx response start = some (.secure, final)) :
    ∃ prefetched, Reaches ctx start prefetched ∧
      verifyRrsets ctx (allRrsigsOf response) (groupRrsets response.answers) prefetched =
        some (true, final) := by
  simp only [validateResponseIn] at returned
  split at returned
  · simp at returned
  · simp only [Exec.bind_eq_some] at returned
    obtain ⟨_, prefetched, prefetch, verified, looped, loop, returned⟩ := returned
    cases verified with
    | false => simp at returned
    | true =>
        simp only [Bool.not_true, Bool.false_eq_true, if_false,
          Exec.pure_eq_some, true_and] at returned
        subst returned
        exact ⟨prefetched, prefetchZones_moves ctx _ _ _ _ prefetch, loop⟩

/-- A `Secure` positive answer has every RRset verified by a key with a
`Secure` chain exactly when every RRset has an RRSIG of its owner and type. -/
theorem validateResponseIn_secure_iff {response : DnsPacket} {start final : W}
    (positive : ∃ record ∈ response.answers, record.isRrsig = false)
    (returned : validateResponseIn ctx response start = some (.secure, final)) :
    (∀ group ∈ groupRrsets response.answers, ∃ sig, .rrsig sig ∈ allRrsigsOf response ∧
      sig.domain.eqIgnoreAsciiCase group.name = true ∧
      QueryType.fromNum sig.typeCovered = group.qtype ∧
      VerifiedBetween ctx start final group.rrset sig) ↔
    ∀ group ∈ groupRrsets response.answers,
      matchingRrsigsFor (allRrsigsOf response) group.name group.qtype ≠ [] := by
  constructor
  · intro verified group groupMem
    obtain ⟨sig, sigMem, sameOwner, covers, -⟩ := verified group groupMem
    exact List.ne_nil_of_mem (mem_matchingRrsigsFor.mpr ⟨sigMem, sameOwner, covers⟩)
  · intro signed group groupMem
    obtain ⟨prefetched, prefetch, loop⟩ :=
      verifyRrsets_of_validateResponseIn_secure (groupRrsets_ne_nil positive) returned
    obtain ⟨sig, sigMem, verified⟩ := verifyRrsets_true loop group groupMem
      (signed group groupMem)
    obtain ⟨sigMem, sameOwner, covers⟩ := mem_matchingRrsigsFor.mp sigMem
    exact ⟨sig, sigMem, sameOwner, covers, verified.mono prefetch .refl⟩

/-- The sample zone signs an address of `www.test`, and one of `www.bank`
that it has no authority over. -/
def answerRing : Ring :=
  tableRing (sampleSignatures ++
    [ (sampleZoneKey,
        octets 48 0x00010f0200000e107fffffff000000016a60047465737400037777770474657374000001000100000e100004c0000201,
        octets 64 0x165b638f01b0166d9b0b26ca45643869f5b7ae19ceccd5894ed58ad82408e2e0a1feecc4e7d84b01c6654b1ca221d7729522389bc1fb1e6f888a70c26599fd05),
      (sampleZoneKey,
        octets 48 0x00010f0200000e107fffffff000000016a60047465737400037777770462616e6b000001000100000e100004c0000201,
        octets 64 0x1fa7534a8f7f527293e14e2f7a52b6601f28c0f7db1815aef4a010bb43dc296ad409d93db247418be7baa9710a83bb83b3ba9a06ab56368abd55e7dd9e2bd602) ])
    [] sampleDigests

def answerCtx : ValidationCtx Unit :=
  { sampleCtx with ring := answerRing }

def sampleAddress (domain : Text) : DnsRecord :=
  .a domain (.new 192 0 2 1) 3600

def sampleAddressRrsig : DnsRecord :=
  sampleRrsig (text "www.test") .a 2 27232 (text "test")
    0x165b638f01b0166d9b0b26ca45643869f5b7ae19ceccd5894ed58ad82408e2e0a1feecc4e7d84b01c6654b1ca221d7729522389bc1fb1e6f888a70c26599fd05

def signedAnswer : DnsPacket where
  answers := [sampleAddress (text "www.test"), sampleAddressRrsig]

/-- A signed RRset followed by one without any signature. -/
def mixedAnswer : DnsPacket where
  answers := [sampleAddress (text "www.test"), sampleAddressRrsig,
    sampleAddress (text "www.bank")]

theorem validateResponseIn_secure_iff_signedAnswer :
    validateResponseIn answerCtx signedAnswer () = some (.secure, ()) ∧
      ∀ group ∈ groupRrsets signedAnswer.answers,
        ∃ sig, .rrsig sig ∈ allRrsigsOf signedAnswer ∧
          sig.domain.eqIgnoreAsciiCase group.name = true ∧
          QueryType.fromNum sig.typeCovered = group.qtype ∧
          VerifiedBetween answerCtx () () group.rrset sig := by
  have secure : validateResponseIn answerCtx signedAnswer () = some (.secure, ()) := by decide +kernel
  exact ⟨secure,
    (validateResponseIn_secure_iff ⟨sampleAddress (text "www.test"), by decide⟩ secure).mpr
      (by decide)⟩

theorem mixedAnswer_secure_unverified :
    validateResponseIn answerCtx mixedAnswer () = some (.secure, ()) ∧
      ¬ ∀ group ∈ groupRrsets mixedAnswer.answers,
        ∃ sig, .rrsig sig ∈ allRrsigsOf mixedAnswer ∧
          sig.domain.eqIgnoreAsciiCase group.name = true ∧
          QueryType.fromNum sig.typeCovered = group.qtype ∧
          VerifiedBetween answerCtx () () group.rrset sig := by
  refine ⟨by decide +kernel, fun verified => ?_⟩
  obtain ⟨sig, sigMem, sameOwner, covers, -⟩ := verified
    ⟨text "www.bank", .a, [sampleAddress (text "www.bank")]⟩ (by decide)
  have unsigned : matchingRrsigsFor (allRrsigsOf mixedAnswer) (text "www.bank") .a = [] := by
    decide
  exact List.ne_nil_of_mem (mem_matchingRrsigsFor.mpr ⟨sigMem, sameOwner, covers⟩) unsigned

/-! ## Signed zones without a DS

A zone that signs its records but has no DS at its parent is `Insecure`.  The
outcome enums have no case for it, so every key of such a signer is skipped.
-/

variable (ctx) in
/-- The chain of the signer is `Insecure` for all the keys a validation may
fetch, in every state it may walk the chain in. -/
def SignerInsecure (start : W) (sig : Rrsig) : Prop :=
  ∀ asked fetched tried dnskeyResponse, Reaches ctx start asked →
    fetchDnskeys ctx sig.signerName asked = some (dnskeyResponse, fetched) →
    Reaches ctx fetched tried →
    ∃ walked, validateChain ctx sig.signerName dnskeyResponse 0 tried =
      some (.insecure, walked)

theorem SignerInsecure.mono {start later : W} {sig : Rrsig}
    (insecure : SignerInsecure ctx start sig) (reached : Reaches ctx start later) :
    SignerInsecure ctx later sig := by
  intro asked fetched tried dnskeyResponse moved
  exact insecure asked fetched tried dnskeyResponse (reached.trans moved)

/-- Keys with an `Insecure` chain are all skipped. -/
theorem tryKeys_eq_noMatchingKey {sig : Rrsig} {rrset dnskeyResponse : List DnsRecord}
    {fetched : W} (built : (buildSignedData (.rrsig sig) rrset).isSome = true)
    (insecure : ∀ tried, Reaches ctx fetched tried → ∃ walked,
      validateChain ctx sig.signerName dnskeyResponse 0 tried = some (.insecure, walked))
    (dks : List DnsRecord) (world : W) (reached : Reaches ctx fetched world) :
    ∃ final, tryKeys ctx (.rrsig sig) rrset sig.signerName dnskeyResponse dks world =
      some (.noMatchingKey, final) := by
  induction dks generalizing world with
  | nil => exact ⟨world, by simp [tryKeys]⟩
  | cons dk dks ih =>
      have skipped : ∃ middle, tryVerifyWithKey ctx (.rrsig sig) rrset sig.signerName
          dnskeyResponse dk world = some (.skip, middle) := by
        have returns :
            rrsigVerifiedBy ctx.ring (ctx.now world) (.rrsig sig) dk rrset ≠ none :=
          rrsigVerifiedBy_ne_none built dk
        obtain ⟨verified, gate⟩ := Option.ne_none_iff_exists'.mp returns
        obtain ⟨walked, chain⟩ := insecure world reached
        cases verified with
        | false => exact ⟨world, tryVerifyWithKey_of_rejected gate⟩
        | true => exact ⟨walked, tryVerifyWithKey_of_accepted gate chain⟩
      obtain ⟨middle, skip⟩ := skipped
      obtain ⟨final, ran⟩ := ih middle
        (reached.trans (tryVerifyWithKey_moves ctx _ _ _ _ _ _ _ _ skip))
      exact ⟨final, by simpa [tryKeys] using ⟨.skip, middle, skip, ran⟩⟩

theorem tryVerifyRrsig_eq_noMatchingKey {sig : Rrsig} {rrset : List DnsRecord} {world : W}
    (built : (buildSignedData (.rrsig sig) rrset).isSome = true)
    (insecure : SignerInsecure ctx world sig) :
    ∃ final, tryVerifyRrsig ctx rrset (.rrsig sig) world = some (.noMatchingKey, final) := by
  obtain ⟨dnskeyResponse, fetched, fetch⟩ : ∃ dnskeyResponse fetched,
      fetchDnskeys ctx sig.signerName world = some (dnskeyResponse, fetched) :=
    ⟨_, _, rfl⟩
  by_cases keyless : dnskeyResponse.filter DnsRecord.isDnskey = []
  · refine ⟨fetched, ?_⟩
    simp only [tryVerifyRrsig, Exec.bind_eq_some]
    exact ⟨dnskeyResponse, fetched, fetch, by simp [keyless]⟩
  · obtain ⟨final, ran⟩ := tryKeys_eq_noMatchingKey built
      (fun tried => insecure world fetched tried dnskeyResponse .refl fetch)
      (dnskeyResponse.filter DnsRecord.isDnskey) fetched .refl
    refine ⟨final, ?_⟩
    simp only [tryVerifyRrsig, Exec.bind_eq_some]
    exact ⟨dnskeyResponse, fetched, fetch, by rw [if_neg keyless]; exact ran⟩

theorem verifyRrset_eq_bogus {rrset rrsigs : List DnsRecord} {world : W}
    (insecure : ∀ rrsig ∈ rrsigs, ∃ sig, rrsig = .rrsig sig ∧
      (buildSignedData rrsig rrset).isSome = true ∧ SignerInsecure ctx world sig) :
    ∃ final, verifyRrset ctx rrset rrsigs world = some (.bogus, final) := by
  induction rrsigs generalizing world with
  | nil => exact ⟨world, by simp [verifyRrset]⟩
  | cons rrsig rrsigs ih =>
      obtain ⟨sig, rfl, built, signerInsecure⟩ := insecure rrsig (by simp)
      obtain ⟨middle, skipped⟩ := tryVerifyRrsig_eq_noMatchingKey built signerInsecure
      have moved := tryVerifyRrsig_moves ctx _ _ _ _ _ skipped
      have laterInsecure : ∀ later ∈ rrsigs, ∃ sig, later = .rrsig sig ∧
          (buildSignedData later rrset).isSome = true ∧ SignerInsecure ctx middle sig := by
        intro later laterMem
        obtain ⟨laterSig, rfl, laterBuilt, notSecure⟩ := insecure later (by simp [laterMem])
        exact ⟨laterSig, rfl, laterBuilt, notSecure.mono moved⟩
      obtain ⟨final, ran⟩ := ih laterInsecure
      exact ⟨final, by simpa [verifyRrset] using ⟨.noMatchingKey, middle, skipped, ran⟩⟩

theorem prefetchZones_returns (zones : List Text) (world : W) :
    ∃ final, prefetchZones ctx zones world = some ((), final) := by
  induction zones generalizing world with
  | nil => exact ⟨world, by simp [prefetchZones]⟩
  | cons zone zones ih =>
      obtain ⟨final, ran⟩ := ih (fetchAnswers ctx .dnskey zone world).2
      exact ⟨final, by simpa [prefetchZones] using ⟨_, _, rfl, ran⟩⟩

/-- Islands of security are never answered: where each answer RRset has an
RRSIG that verifies, and the chain of every signer involved is `Insecure`, the
response is `Bogus`. -/
theorem validateResponseIn_bogus_of_insecure {response : DnsPacket} {start : W}
    (positive : ∃ record ∈ response.answers, record.isRrsig = false)
    (encodable : ∀ sig, .rrsig sig ∈ allRrsigsOf response →
      (nameToWire sig.signerName).isSome = true)
    (accepted : ∀ group ∈ groupRrsets response.answers, ∃ sig,
      .rrsig sig ∈ matchingRrsigsFor (allRrsigsOf response) group.name group.qtype ∧
      ∃ asked fetched dnskeyResponse, ∃ dk ∈ dnskeyResponse, Reaches ctx start asked ∧
        fetchDnskeys ctx sig.signerName asked = some (dnskeyResponse, fetched) ∧
        rrsigVerifiedBy ctx.ring (ctx.now fetched) (.rrsig sig) dk group.rrset = some true)
    (insecure : ∀ group ∈ groupRrsets response.answers, ∀ sig,
      .rrsig sig ∈ matchingRrsigsFor (allRrsigsOf response) group.name group.qtype →
      SignerInsecure ctx start sig) :
    ∃ final, validateResponseIn ctx response start = some (.bogus, final) := by
  obtain ⟨group, groups, answerRrsets⟩ :=
    List.exists_cons_of_ne_nil (groupRrsets_ne_nil positive)
  have groupMem : group ∈ groupRrsets response.answers := by simp [answerRrsets]
  obtain ⟨prefetched, prefetch⟩ := prefetchZones_returns (signerZones (allRrsigsOf response))
    start
  have moved := prefetchZones_moves ctx _ _ _ _ prefetch
  obtain ⟨acceptedSig, acceptedMem, _, _, _, dk, _, _, _, verified⟩ := accepted group groupMem
  obtain ⟨_, signedData, _, _, _, _, acceptedBuilt, _⟩ :=
    rrsigVerifiedBy_eq_true_iff.mp verified
  have recordsEncode := (buildSignedData_isSome_iff.mp
    (Option.isSome_iff_exists.mpr ⟨signedData, acceptedBuilt⟩)).2
  have allInsecure :
      ∀ rrsig ∈ matchingRrsigsFor (allRrsigsOf response) group.name group.qtype,
        ∃ sig, rrsig = .rrsig sig ∧ (buildSignedData rrsig group.rrset).isSome = true ∧
          SignerInsecure ctx prefetched sig := by
    intro rrsig rrsigMem
    obtain ⟨sig, rfl⟩ := DnsRecord.isRrsig_iff.mp
      (List.mem_filter.mp (List.mem_filter.mp rrsigMem).1).2
    exact ⟨sig, rfl, buildSignedData_isSome_iff.mpr
      ⟨encodable sig (List.mem_filter.mp rrsigMem).1, recordsEncode⟩,
      (insecure group groupMem sig rrsigMem).mono moved⟩
  obtain ⟨final, bogus⟩ := verifyRrset_eq_bogus allInsecure
  have loop : verifyRrsets ctx (allRrsigsOf response) (groupRrsets response.answers)
      prefetched = some (false, final) := by
    rw [answerRrsets, verifyRrsets, if_neg (List.ne_nil_of_mem acceptedMem),
      Exec.bind_eq_some]
    exact ⟨.bogus, final, bogus, by simp⟩
  have signed : allRrsigsOf response ≠ [] :=
    List.ne_nil_of_mem (mem_matchingRrsigsFor.mp acceptedMem).1
  refine ⟨final, ?_⟩
  simp only [validateResponseIn, if_neg signed, Exec.bind_eq_some]
  exact ⟨(), prefetched, prefetch, false, final, loop, by simp⟩

/-- The sample zone as an island of security: its parent answers that it has no
DS. -/
def islandWorld : World Unit :=
  sampleWorld [((text "test", .dnskey), sampleZoneRecords), ((text "test", .ds), [])]

def islandCtx : ValidationCtx Unit :=
  { islandWorld with ring := answerRing, trustAnchors := rootTrustAnchors }

theorem signedAnswer_signer {sig : Rrsig} {name : Text} {qtype : QueryType}
    (sigMem : .rrsig sig ∈ matchingRrsigsFor (allRrsigsOf signedAnswer) name qtype) :
    .rrsig sig = sampleAddressRrsig ∧ sig.signerName = text "test" := by
  have only : allRrsigsOf signedAnswer = [sampleAddressRrsig] := by decide +kernel
  have same : .rrsig sig = sampleAddressRrsig := by
    simpa [only] using (mem_matchingRrsigsFor.mp sigMem).1
  obtain rfl := DnsRecord.rrsig.inj same
  exact ⟨rfl, rfl⟩

theorem signedAnswer_accepted : ∀ group ∈ groupRrsets signedAnswer.answers, ∃ sig,
    .rrsig sig ∈ matchingRrsigsFor (allRrsigsOf signedAnswer) group.name group.qtype ∧
    ∃ asked fetched dnskeyResponse, ∃ dk ∈ dnskeyResponse, Reaches islandCtx () asked ∧
      fetchDnskeys islandCtx sig.signerName asked = some (dnskeyResponse, fetched) ∧
      rrsigVerifiedBy islandCtx.ring (islandCtx.now fetched) (.rrsig sig) dk group.rrset =
        some true := by
  have only : groupRrsets signedAnswer.answers =
      [⟨text "www.test", .a, [sampleAddress (text "www.test")]⟩] := by decide +kernel
  intro group groupMem
  obtain rfl : group = _ := by simpa [only] using groupMem
  refine ⟨_, show sampleAddressRrsig ∈ _ by decide +kernel, (), (), sampleZoneRecords,
    sampleDnskey (text "test") sampleZoneKey, by decide +kernel, .refl, by decide +kernel,
    by decide +kernel⟩

theorem signedAnswer_insecure : ∀ group ∈ groupRrsets signedAnswer.answers, ∀ sig,
    .rrsig sig ∈ matchingRrsigsFor (allRrsigsOf signedAnswer) group.name group.qtype →
    SignerInsecure islandCtx () sig := by
  intro group _ sig sigMem asked fetched tried dnskeyResponse _ fetch _
  rw [(signedAnswer_signer sigMem).2] at fetch ⊢
  have known : fetchDnskeys islandCtx (text "test") asked = some (sampleZoneRecords, ()) := by
    cases asked
    decide +kernel
  obtain ⟨rfl, -⟩ := Prod.mk.inj (Option.some.inj (known.symm.trans fetch))
  cases tried
  exact ⟨(), by decide +kernel⟩

theorem validateResponseIn_bogus_of_insecure_signedAnswer :
    ∃ final, validateResponseIn islandCtx signedAnswer () = some (.bogus, final) :=
  validateResponseIn_bogus_of_insecure ⟨sampleAddress (text "www.test"), by decide +kernel⟩
    (fun sig sigMem => by
      have only : allRrsigsOf signedAnswer = [sampleAddressRrsig] := by decide +kernel
      have same : .rrsig sig = sampleAddressRrsig := by simpa [only] using sigMem
      obtain rfl := DnsRecord.rrsig.inj same
      decide +kernel)
    signedAnswer_accepted signedAnswer_insecure

theorem signedAnswer_island_bogus :
    ¬ ((∃ record ∈ signedAnswer.answers, record.isRrsig = false) →
      (∀ group ∈ groupRrsets signedAnswer.answers, ∃ sig,
        .rrsig sig ∈ matchingRrsigsFor (allRrsigsOf signedAnswer) group.name group.qtype ∧
        ∃ asked fetched dnskeyResponse, ∃ dk ∈ dnskeyResponse, Reaches islandCtx () asked ∧
          fetchDnskeys islandCtx sig.signerName asked = some (dnskeyResponse, fetched) ∧
          rrsigVerifiedBy islandCtx.ring (islandCtx.now fetched) (.rrsig sig) dk
            group.rrset = some true) →
      (∀ group ∈ groupRrsets signedAnswer.answers, ∀ sig,
        .rrsig sig ∈ matchingRrsigsFor (allRrsigsOf signedAnswer) group.name group.qtype →
        SignerInsecure islandCtx () sig) →
      ∀ final, validateResponse islandWorld answerRing signedAnswer () ≠
        some (.bogus, final)) := by
  intro resolvable
  exact resolvable ⟨sampleAddress (text "www.test"), by decide +kernel⟩ signedAnswer_accepted
    signedAnswer_insecure () (by decide +kernel)

end Numa
