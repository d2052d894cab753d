import Numa.Cache
import Numa.Validator

/-!
# What the validator reads of a response

The status of a response depends on its records without their TTLs, on its
first question and on its result code.  So a response keeps its status when
the cache patches it and when its flags change.
-/

namespace Numa

section Records

variable (ttl : UInt32)

@[simp]
theorem isRrsig_withTtl (record : DnsRecord) : (record.withTtl ttl).isRrsig = record.isRrsig := by
  cases record <;> rfl

@[simp]
theorem isNsec_withTtl (record : DnsRecord) : (record.withTtl ttl).isNsec = record.isNsec := by
  cases record <;> rfl

@[simp]
theorem isNsec3_withTtl (record : DnsRecord) :
    (record.withTtl ttl).isNsec3 = record.isNsec3 := by
  cases record <;> rfl

@[simp]
theorem matchesRrset_withTtl (name : Text) (qtype : QueryType) (record : DnsRecord) :
    matchesRrset name qtype (record.withTtl ttl) = matchesRrset name qtype record := by
  cases record <;> rfl

theorem filter_map_withTtl {test : DnsRecord → Bool}
    (ignores : ∀ record, test (record.withTtl ttl) = test record) (records : List DnsRecord) :
    (records.map (DnsRecord.withTtl ttl)).filter test =
      (records.filter test).map (DnsRecord.withTtl ttl) := by
  rw [List.filter_map]
  exact congrArg _ (List.filter_congr fun record _ => ignores record)

theorem any_map_withTtl {test : DnsRecord → Bool}
    (ignores : ∀ record, test (record.withTtl ttl) = test record) (records : List DnsRecord) :
    (records.map (DnsRecord.withTtl ttl)).any test = records.any test := by
  induction records with
  | nil => rfl
  | cons record records ih => rw [List.map_cons, List.any_cons, List.any_cons, ih, ignores]

theorem buildSignedData_withTtl (rrsig : DnsRecord) (rrset : List DnsRecord) :
    buildSignedData (rrsig.withTtl ttl) (rrset.map (DnsRecord.withTtl ttl)) =
      buildSignedData rrsig rrset := by
  cases rrsig with
  | rrsig sig =>
      simp only [buildSignedData, DnsRecord.withTtl, mapM_recordToCanonicalWire_withTtl]
  | _ => rfl

theorem rrsigVerifiedBy_withTtl (ring : Ring) (now : UInt32) (rrsig dk : DnsRecord)
    (rrset : List DnsRecord) :
    rrsigVerifiedBy ring now (rrsig.withTtl ttl) dk (rrset.map (DnsRecord.withTtl ttl)) =
      rrsigVerifiedBy ring now rrsig dk rrset := by
  have signed := buildSignedData_withTtl ttl rrsig rrset
  cases rrsig with
  | rrsig sig =>
      cases dk with
      | dnskey key =>
          simp only [rrsigVerifiedBy, DnsRecord.withTtl] at signed ⊢
          rw [signed]
      | _ => rfl
  | _ => rfl

/-! ## The RRsets of the answer -/

/-- A group with other TTLs. -/
def RrsetGroup.withTtl (group : RrsetGroup) : RrsetGroup :=
  { group with rrset := group.rrset.map (DnsRecord.withTtl ttl) }

theorem addToGroups_withTtl (record : DnsRecord) (groups : List RrsetGroup) :
    addToGroups (record.withTtl ttl) (groups.map (RrsetGroup.withTtl ttl)) =
      (addToGroups record groups).map (RrsetGroup.withTtl ttl) := by
  induction groups with
  | nil => simp [addToGroups, RrsetGroup.withTtl]
  | cons group groups ih =>
      rw [List.map_cons, addToGroups, addToGroups, DnsRecord.domain_withTtl,
        DnsRecord.queryType_withTtl, ih]
      split
      · rename_i matches_
        have same : (group.name == record.domain.toLowercase && group.qtype == record.queryType) =
            true := matches_
        rw [if_pos same]
        simp [RrsetGroup.withTtl]
      · rename_i differs
        have other : ¬ (group.name == record.domain.toLowercase &&
            group.qtype == record.queryType) = true := differs
        rw [if_neg other, List.map_cons]

theorem groupRrsets_withTtl (records : List DnsRecord) :
    groupRrsets (records.map (DnsRecord.withTtl ttl)) =
      (groupRrsets records).map (RrsetGroup.withTtl ttl) := by
  have folded : ∀ (kept : List DnsRecord) (groups : List RrsetGroup),
      (kept.map (DnsRecord.withTtl ttl)).foldl (fun groups record => addToGroups record groups)
          (groups.map (RrsetGroup.withTtl ttl)) =
        (kept.foldl (fun groups record => addToGroups record groups) groups).map
          (RrsetGroup.withTtl ttl) := by
    intro kept
    induction kept with
    | nil => exact fun _ => rfl
    | cons record kept ih =>
        intro groups
        rw [List.map_cons, List.foldl_cons, List.foldl_cons, addToGroups_withTtl, ih]
  rw [groupRrsets, groupRrsets, filter_map_withTtl ttl (by simp)]
  exact folded _ []

theorem signerZones_withTtl (rrsigs : List DnsRecord) :
    signerZones (rrsigs.map (DnsRecord.withTtl ttl)) = signerZones rrsigs := by
  rw [signerZones, List.foldl_map, signerZones]
  refine congrArg (fun step => rrsigs.foldl step []) (funext fun zones => funext fun record => ?_)
  cases record <;> rfl

section Walk

variable {W : Type} (ctx : ValidationCtx W)

theorem tryKeys_withTtl (rrsig : DnsRecord) (rrset : List DnsRecord) (signerName : Text)
    (dnskeyResponse dnskeys : List DnsRecord) :
    tryKeys ctx (rrsig.withTtl ttl) (rrset.map (DnsRecord.withTtl ttl)) signerName dnskeyResponse
        dnskeys =
      tryKeys ctx rrsig rrset signerName dnskeyResponse dnskeys := by
  induction dnskeys with
  | nil => rfl
  | cons dk dnskeys ih =>
      simp only [tryKeys, tryVerifyWithKey, rrsigVerifiedBy_withTtl, ih]

theorem tryVerifyRrsig_withTtl (rrset : List DnsRecord) (rrsig : DnsRecord) :
    tryVerifyRrsig ctx (rrset.map (DnsRecord.withTtl ttl)) (rrsig.withTtl ttl) =
      tryVerifyRrsig ctx rrset rrsig := by
  cases rrsig with
  | rrsig sig =>
      have keys := tryKeys_withTtl ttl ctx (.rrsig sig) rrset sig.signerName
      simp only [tryVerifyRrsig, DnsRecord.withTtl] at keys ⊢
      simp only [keys]
  | _ => rfl

theorem verifyRrset_withTtl (rrset rrsigs : List DnsRecord) :
    verifyRrset ctx (rrset.map (DnsRecord.withTtl ttl)) (rrsigs.map (DnsRecord.withTtl ttl)) =
      verifyRrset ctx rrset rrsigs := by
  induction rrsigs with
  | nil => rfl
  | cons rrsig rrsigs ih =>
      simp only [List.map_cons, verifyRrset, tryVerifyRrsig_withTtl, ih]

theorem verifyRrsets_withTtl (rrsigs : List DnsRecord) (groups : List RrsetGroup) :
    verifyRrsets ctx (rrsigs.map (DnsRecord.withTtl ttl)) (groups.map (RrsetGroup.withTtl ttl)) =
      verifyRrsets ctx rrsigs groups := by
  induction groups with
  | nil => rfl
  | cons group groups ih =>
      have matching : matchingRrsigsFor (rrsigs.map (DnsRecord.withTtl ttl)) group.name
          group.qtype = (matchingRrsigsFor rrsigs group.name group.qtype).map
            (DnsRecord.withTtl ttl) :=
        filter_map_withTtl ttl (matchesRrset_withTtl ttl group.name group.qtype) rrsigs
      simp only [List.map_cons, verifyRrsets, RrsetGroup.withTtl, matching, List.map_eq_nil_iff,
        verifyRrset_withTtl, ih]

end Walk

/-! ## Denials -/

section Denial

variable (ring : Ring) (now : UInt32) (cache : Text → QueryType → Option DnsPacket)

theorem find?_map_withTtl {test : DnsRecord → Bool}
    (ignores : ∀ record, test (record.withTtl ttl) = test record) (records : List DnsRecord) :
    (records.map (DnsRecord.withTtl ttl)).find? test =
      (records.find? test).map (DnsRecord.withTtl ttl) := by
  rw [List.find?_map]
  exact congrArg (fun check => (records.find? check).map _) (funext ignores)

theorem authorityRrsetVerified_withTtl (allRrsigs : List DnsRecord) (group : RrsetGroup) :
    authorityRrsetVerified ring now (allRrsigs.map (DnsRecord.withTtl ttl)) cache
        (group.withTtl ttl) =
      authorityRrsetVerified ring now allRrsigs cache group := by
  have found := find?_map_withTtl ttl (matchesRrset_withTtl ttl group.name group.qtype) allRrsigs
  simp only [authorityRrsetVerified, RrsetGroup.withTtl] at found ⊢
  rw [found]
  cases allRrsigs.find? (matchesRrset group.name group.qtype) with
  | none => rfl
  | some record =>
      cases record with
      | rrsig sig =>
          have signed := buildSignedData_withTtl ttl (.rrsig sig) group.rrset
          simp only [DnsRecord.withTtl] at signed
          simp only [Option.map_some, DnsRecord.withTtl, signed]
          rfl
      | _ => rfl

theorem verifyAuthorityRrsigs_withTtl (authorities allRrsigs : List DnsRecord)
    (denialType : QueryType) :
    verifyAuthorityRrsigs ring now (authorities.map (DnsRecord.withTtl ttl))
        (allRrsigs.map (DnsRecord.withTtl ttl)) denialType cache =
      verifyAuthorityRrsigs ring now authorities allRrsigs denialType cache := by
  have ofType : rrsetOfType denialType (authorities.map (DnsRecord.withTtl ttl)) =
      (rrsetOfType denialType authorities).map (DnsRecord.withTtl ttl) :=
    filter_map_withTtl ttl (by simp) authorities
  have groups : ∀ groups : List RrsetGroup,
      (groups.map (RrsetGroup.withTtl ttl)).allM
          (authorityRrsetVerified ring now (allRrsigs.map (DnsRecord.withTtl ttl)) cache) =
        groups.allM (authorityRrsetVerified ring now allRrsigs cache) := by
    intro groups
    induction groups with
    | nil => rfl
    | cons group groups ih =>
        simp only [List.map_cons, List.allM_cons, authorityRrsetVerified_withTtl, ih]
  simp only [verifyAuthorityRrsigs, ofType, groupRrsets_withTtl, groups, List.map_eq_nil_iff]

/-- A test that looks at the NSEC records of a list only. -/
theorem any_nsec_withTtl {test : Nsec → Bool}
    (ignores : ∀ denial, test { denial with ttl := ttl } = test denial)
    (records : List DnsRecord) :
    ((records.map (DnsRecord.withTtl ttl)).any fun record => match record with
        | .nsec denial => test denial
        | _ => false) =
      records.any fun record => match record with
        | .nsec denial => test denial
        | _ => false := by
  apply any_map_withTtl
  intro record
  cases record with
  | nsec denial => exact ignores denial
  | _ => rfl

theorem nsecsCover_withTtl (nsecs : List DnsRecord) (name : Text) :
    nsecsCover (nsecs.map (DnsRecord.withTtl ttl)) name = nsecsCover nsecs name :=
  any_nsec_withTtl ttl (fun _ => rfl) nsecs

theorem nsecWildcardDenied_withTtl (nsecs : List DnsRecord) (qname : Text) :
    nsecWildcardDenied (nsecs.map (DnsRecord.withTtl ttl)) qname =
      nsecWildcardDenied nsecs qname := by
  have owns : ownsNsec (nsecs.map (DnsRecord.withTtl ttl)) = ownsNsec nsecs :=
    funext fun _ => any_nsec_withTtl ttl (fun _ => rfl) nsecs
  rw [nsecWildcardDenied, closestEncloser, owns, nsecWildcardDenied, closestEncloser]
  cases ((nonEmptyTails qname.labels).map Text.join).find? (ownsNsec nsecs) with
  | none => rfl
  | some ce => exact any_nsec_withTtl ttl (fun _ => rfl) nsecs

theorem nsecsProveNodata_withTtl (nsecs : List DnsRecord) (qname : Text) (qtype : UInt16) :
    nsecsProveNodata (nsecs.map (DnsRecord.withTtl ttl)) qname qtype =
      nsecsProveNodata nsecs qname qtype :=
  any_nsec_withTtl ttl (fun _ => rfl) nsecs

/-- A decoded NSEC3 with another TTL. -/
def decodedWithTtl (entry : List UInt8 × DnsRecord) : List UInt8 × DnsRecord :=
  (entry.1, entry.2.withTtl ttl)

theorem decodeOwners_withTtl (nsec3s : List DnsRecord) :
    decodeOwners (nsec3s.map (DnsRecord.withTtl ttl)) =
      (decodeOwners nsec3s).map (decodedWithTtl ttl) := by
  rw [decodeOwners, decodeOwners, List.filterMap_map, List.map_filterMap]
  refine congrArg (nsec3s.filterMap ·) (funext fun record => ?_)
  cases record with
  | nsec3 denial =>
      simp only [Function.comp_apply, DnsRecord.withTtl, Option.map_map]
      rfl
  | _ => rfl

/-- A test of a decoded NSEC3 that ignores its TTL. -/
theorem any_decodedWithTtl {test : List UInt8 × DnsRecord → Bool}
    (ignores : ∀ entry, test (decodedWithTtl ttl entry) = test entry)
    (decoded : List (List UInt8 × DnsRecord)) :
    (decoded.map (decodedWithTtl ttl)).any test = decoded.any test := by
  rw [List.any_map]
  exact congrArg (decoded.any ·) (funext ignores)

theorem nsec3AnyCovers_withTtl (decoded : List (List UInt8 × DnsRecord)) (target : List UInt8) :
    nsec3AnyCovers (decoded.map (decodedWithTtl ttl)) target = nsec3AnyCovers decoded target := by
  apply any_decodedWithTtl
  rintro ⟨ownerHash, record⟩
  cases record <;> rfl

theorem nsec3ProvesNodata_withTtl (decoded : List (List UInt8 × DnsRecord))
    (qnameHash : List UInt8) (qtype : UInt16) :
    nsec3ProvesNodata (decoded.map (decodedWithTtl ttl)) qnameHash qtype =
      nsec3ProvesNodata decoded qnameHash qtype := by
  apply any_decodedWithTtl
  rintro ⟨ownerHash, record⟩
  cases record <;> rfl

theorem nsec3NxdomainLoop_withTtl (params : Nsec3) (decoded : List (List UInt8 × DnsRecord))
    (nextCloser : Option (List UInt8))
    (candidates : List (List Text × Option (List UInt8))) :
    nsec3NxdomainLoop ring { params with ttl := ttl } (decoded.map (decodedWithTtl ttl))
        nextCloser candidates =
      nsec3NxdomainLoop ring params decoded nextCloser candidates := by
  have matching : ∀ ce, (decoded.map (decodedWithTtl ttl)).any (fun entry => entry.1 == ce) =
      decoded.any fun entry => entry.1 == ce :=
    fun ce => any_decodedWithTtl ttl (fun _ => rfl) decoded
  induction candidates generalizing nextCloser with
  | nil => rfl
  | cons candidate candidates ih =>
      obtain ⟨labels, ceHash⟩ := candidate
      simp only [nsec3NxdomainLoop, matching, nsec3AnyCovers_withTtl, ih]

theorem nsec3ProvesNxdomain_withTtl (params : Nsec3) (decoded : List (List UInt8 × DnsRecord))
    (qname : Text) :
    nsec3ProvesNxdomain ring { params with ttl := ttl } (decoded.map (decodedWithTtl ttl))
        qname =
      nsec3ProvesNxdomain ring params decoded qname := by
  simp only [nsec3ProvesNxdomain, nsec3NxdomainLoop_withTtl]

theorem validateDenial_withTtl (authorities allRrsigs : List DnsRecord) (qname : Text)
    (qtype : UInt16) (isNxdomain : Bool) :
    validateDenial ring now (authorities.map (DnsRecord.withTtl ttl))
        (allRrsigs.map (DnsRecord.withTtl ttl)) qname qtype isNxdomain cache =
      validateDenial ring now authorities allRrsigs qname qtype isNxdomain cache := by
  have nsecs := filter_map_withTtl ttl (isNsec_withTtl ttl) authorities
  have nsec3s := filter_map_withTtl ttl (isNsec3_withTtl ttl) authorities
  simp only [validateDenial, nsecs, nsec3s, verifyAuthorityRrsigs_withTtl, nsecsCover_withTtl,
    nsecWildcardDenied_withTtl, nsecsProveNodata_withTtl, ne_eq, List.map_eq_nil_iff]
  split
  · rfl
  · have decoded := decodeOwners_withTtl ttl (authorities.filter DnsRecord.isNsec3)
    revert decoded
    cases authorities.filter DnsRecord.isNsec3 with
    | nil => exact fun _ => rfl
    | cons first rest =>
        intro decoded
        cases first with
        | nsec3 params =>
            simp only [List.map_cons, DnsRecord.withTtl] at decoded ⊢
            simp only [decoded, nsec3ProvesNxdomain_withTtl, nsec3ProvesNodata_withTtl]
        | _ => rfl

end Denial

end Records

/-! ## The status of a response -/

/-- The responses have the same records but for their TTLs, the same first
question and the same result code. -/
structure SameContent (first second : DnsPacket) : Prop where
  rescode : first.header.rescode = second.header.rescode
  question : first.questions.head? = second.questions.head?
  answers : first.answers.map (DnsRecord.withTtl 0) = second.answers.map (DnsRecord.withTtl 0)
  authorities : first.authorities.map (DnsRecord.withTtl 0) =
    second.authorities.map (DnsRecord.withTtl 0)
  resources : first.resources.map (DnsRecord.withTtl 0) =
    second.resources.map (DnsRecord.withTtl 0)

theorem sameContent_patch (id : UInt16) (ttl : UInt32) (packet : DnsPacket) :
    SameContent (packet.patch id ttl) packet where
  rescode := rfl
  question := rfl
  answers := by simp [DnsPacket.patch]
  authorities := by simp [DnsPacket.patch]
  resources := by simp [DnsPacket.patch]

/-- The response with all TTLs zero. -/
def DnsPacket.withoutTtls (packet : DnsPacket) : DnsPacket :=
  { packet with
    answers := packet.answers.map (DnsRecord.withTtl 0)
    authorities := packet.authorities.map (DnsRecord.withTtl 0)
    resources := packet.resources.map (DnsRecord.withTtl 0) }

theorem allRrsigsOf_withoutTtls (response : DnsPacket) :
    allRrsigsOf response.withoutTtls = (allRrsigsOf response).map (DnsRecord.withTtl 0) := by
  simp only [allRrsigsOf, DnsPacket.withoutTtls, ← List.map_append]
  exact filter_map_withTtl 0 (isRrsig_withTtl 0) _

variable {W : Type} (ctx : ValidationCtx W)

theorem validateResponseIn_withoutTtls (response : DnsPacket) :
    validateResponseIn ctx response.withoutTtls = validateResponseIn ctx response := by
  have groups : groupRrsets response.withoutTtls.answers =
      (groupRrsets response.answers).map (RrsetGroup.withTtl 0) :=
    groupRrsets_withTtl 0 response.answers
  simp only [validateResponseIn, allRrsigsOf_withoutTtls, groups, prefetchSignerDnskeys,
    signerZones_withTtl, verifyRrsets_withTtl, List.map_eq_nil_iff]
  simp only [DnsPacket.withoutTtls, validateDenial_withTtl]
  rfl

/-- The validator cannot tell responses of the same content apart. -/
theorem validateResponseIn_eq_of_sameContent {first second : DnsPacket}
    (same : SameContent first second) :
    validateResponseIn ctx first = validateResponseIn ctx second := by
  rw [← validateResponseIn_withoutTtls, ← validateResponseIn_withoutTtls ctx second]
  simp only [validateResponseIn, allRrsigsOf, DnsPacket.withoutTtls, same.rescode, same.question,
    same.answers, same.authorities, same.resources]
  rfl

end Numa
