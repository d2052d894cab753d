import Mathlib.Data.Bool.AllAny
import Numa.NsecDenial
import Numa.TypeBitmap

/-!
# Completeness of denial by NSEC

An authoritative server denies a name or a type with the NSEC records of RFC
4035 section 3.1.3: the one that matches or covers the name and, when the name
does not exist, the one that matches or covers the wildcard at its closest
encloser.  The validator guesses the closest encloser from the owners of these
records, and never expands a wildcard.
-/

namespace Numa

/-- A zone signed with NSEC, with the types at its names. -/
structure DenialZone extends NsecZone where
  types : Name → List UInt16
  normal : ∀ owner ∈ owners, IsNormal owner

namespace DenialZone

variable (zone : DenialZone) (qname : Name)

/-- The name has records or names below it. -/
def Exists (name : Name) : Prop :=
  ∃ owner ∈ zone.owners, name <:+ owner

instance (name : Name) : Decidable (zone.Exists name) :=
  inferInstanceAs (Decidable (∃ owner ∈ zone.owners, name <:+ owner))

/-- The longest ancestor that exists. -/
def IsClosestEncloser (encloser : Name) : Prop :=
  encloser <:+ qname ∧ zone.Exists encloser ∧
    ∀ longer, longer <:+ qname → zone.Exists longer → longer.length ≤ encloser.length

/-- Neither the type nor a CNAME is at the name. -/
def Lacks (name : Name) (qtype : UInt16) : Prop :=
  qtype ∉ zone.types name ∧ QueryType.cname.toNum ∉ zone.types name

instance (name : Name) (qtype : UInt16) : Decidable (zone.Lacks name qtype) :=
  inferInstanceAs (Decidable (qtype ∉ zone.types name ∧ QueryType.cname.toNum ∉ zone.types name))

/-- The zone does not answer the question, from the name itself or from the
wildcard at its closest encloser. -/
def Unanswered (qtype : UInt16) : Prop :=
  zone.apex <:+ qname ∧ (qname ∈ zone.owners → zone.Lacks qname qtype) ∧
    ∀ encloser, ¬ zone.Exists qname → zone.IsClosestEncloser qname encloser →
      wildcardOf encloser ∈ zone.owners → zone.Lacks (wildcardOf encloser) qtype

/-- The response code is NXDOMAIN. -/
def NameError : Prop :=
  ¬ zone.Exists qname ∧
    ∀ encloser, zone.IsClosestEncloser qname encloser → ¬ zone.Exists (wildcardOf encloser)

/-- The NSEC of this owner matches or covers the name. -/
def Accounts (name owner : Name) : Prop :=
  IsFloor canonicalOrder zone.owners name owner

instance (name owner : Name) : Decidable (zone.Accounts name owner) :=
  inferInstanceAs (Decidable (IsFloor canonicalOrder zone.owners name owner))

/-- The server has to send the NSEC of this owner. -/
def Obliged (owner : Name) : Prop :=
  zone.Accounts qname owner ∨
    ¬ zone.Exists qname ∧
      ∃ encloser, zone.IsClosestEncloser qname encloser ∧ zone.Accounts (wildcardOf encloser) owner

/-- The zone has this NSEC record at the owner. -/
def PublishesAt (owner : Name) (nsec : Nsec) : Prop :=
  (∃ next, Linked zone.owners owner next ∧ nsec.domain = nameText owner ∧
    nsec.nextDomain = nameText next) ∧ EncodesTypes nsec.typeBitmap (zone.types owner)

/-- The NSEC records of the authority section are those that the server has to
send. -/
structure DeniedBy (authorities : List DnsRecord) : Prop where
  genuine : ∀ nsec, .nsec nsec ∈ authorities →
    ∃ owner, zone.Obliged qname owner ∧ zone.PublishesAt owner nsec
  complete : ∀ owner, zone.Obliged qname owner →
    ∃ nsec, .nsec nsec ∈ authorities ∧ zone.PublishesAt owner nsec

/-! ## The condition -/

/-- No name in the question and in the records that are sent needs an escape. -/
def PlainDenial : Prop :=
  IsPlain qname ∧ ∀ owner next, zone.Obliged qname owner → Linked zone.owners owner next →
    IsPlain owner ∧ IsPlain next

/-- The longest ancestor, other than the root, that owns a record that is sent.
The program takes it for the closest encloser. -/
def IsClosestSent (encloser : Name) : Prop :=
  encloser ≠ [] ∧ encloser <:+ qname ∧ zone.Obliged qname encloser ∧
    ∀ longer, longer <:+ qname → zone.Obliged qname longer → longer.length ≤ encloser.length

/-- The record that accounts for the wildcard at the supposed closest encloser
is one of those sent. -/
def WildcardSent : Prop :=
  ∀ encloser, zone.IsClosestSent qname encloser →
    ∃ owner, zone.Obliged qname owner ∧ zone.Accounts (wildcardOf encloser) owner

/-- The name has records, or the response is NXDOMAIN, no name needs an escape,
and the record for the wildcard that the program asks for is sent. -/
def Provable : Prop :=
  qname ∈ zone.owners ∨
    zone.NameError qname ∧ zone.PlainDenial qname ∧ zone.WildcardSent qname

variable {zone qname} {name owner encloser : Name}

theorem Accounts.mem_owners (accounts : zone.Accounts name owner) : owner ∈ zone.owners :=
  accounts.1

theorem Obliged.mem_owners (obliged : zone.Obliged qname owner) : owner ∈ zone.owners := by
  rcases obliged with accounts | ⟨-, _, -, accounts⟩
  · exact accounts.mem_owners
  · exact accounts.mem_owners

theorem exists_of_mem (ownerMem : owner ∈ zone.owners) : zone.Exists owner :=
  ⟨owner, ownerMem, List.suffix_refl owner⟩

/-- Every name of the zone has a record that accounts for it. -/
theorem exists_accounts (below : zone.apex <:+ name) : ∃ owner, zone.Accounts name owner :=
  exists_isFloor ⟨zone.apex, zone.apex_mem, canonicalOrder_isLE_of_suffix below⟩

theorem not_mem_owners_of_not_exists (absent : ¬ zone.Exists qname) : qname ∉ zone.owners :=
  fun qnameMem => absent (exists_of_mem qnameMem)

/-- The program's test of a record, on names that need no escape, is whether
the record accounts for the name. -/
theorem accounts_iff {nsec : Nsec} {next : Name} (linked : Linked zone.owners owner next)
    (domainEq : nsec.domain = nameText owner) (nextEq : nsec.nextDomain = nameText next)
    (ownerPlain : IsPlain owner) (nextPlain : IsPlain next) (plain : IsPlain name)
    (below : zone.apex <:+ name) :
    zone.Accounts name owner ↔
      owner = name ∨ nsecCoversName nsec.domain nsec.nextDomain (nameText name) = true := by
  have some : ∃ other ∈ zone.owners, (canonicalOrder other name).isLE = true :=
    ⟨zone.apex, zone.apex_mem, canonicalOrder_isLE_of_suffix below⟩
  rw [Accounts, linked.isFloor_iff zone.sorted some, domainEq, nextEq,
    ownerPlain.nsecCoversName_iff nextPlain plain, Std.LawfulEqCmp.compare_eq_iff_eq]

end DenialZone

section Complete

variable {ring : Ring} {now : UInt32} {authorities allRrsigs : List DnsRecord} {qtype : UInt16}
  {isNxdomain : Bool} {cache : Text → QueryType → Option DnsPacket} {zone : DenialZone}
  {qname encloser : Name}

/-- What `validate_denial` does with a verified authority section. -/
theorem validateDenial_of_verified {name : Text}
    (verified : verifyAuthorityRrsigs ring now authorities allRrsigs .nsec cache = some true)
    (some : authorities.filter DnsRecord.isNsec ≠ []) :
    validateDenial ring now authorities allRrsigs name qtype isNxdomain cache =
      .some (if isNxdomain then
        (if nsecsCover (authorities.filter DnsRecord.isNsec) name &&
            nsecWildcardDenied (authorities.filter DnsRecord.isNsec) name then .secure
          else .bogus)
      else if nsecsProveNodata (authorities.filter DnsRecord.isNsec) name qtype then .secure
        else .bogus) := by
  simp only [validateDenial, if_pos some, verified, Option.bind_eq_bind, Option.bind_some,
    Bool.not_true, Bool.false_eq_true, if_false]
  cases isNxdomain <;> simp only [if_true, if_false, Bool.false_eq_true, apply_ite Option.some]

theorem DenialZone.DeniedBy.published (denied : zone.DeniedBy qname authorities) :
    ∀ nsec, .nsec nsec ∈ authorities → zone.toNsecZone.Publishes nsec := by
  intro nsec nsecMem
  obtain ⟨owner, -, ⟨next, linked, domainEq, nextEq⟩, -⟩ := denied.genuine nsec nsecMem
  exact ⟨owner, next, linked, domainEq, nextEq⟩

theorem DenialZone.DeniedBy.nsecs_ne_nil (denied : zone.DeniedBy qname authorities)
    (below : zone.apex <:+ qname) : authorities.filter DnsRecord.isNsec ≠ [] := by
  obtain ⟨owner, accounts⟩ := DenialZone.exists_accounts below
  obtain ⟨nsec, nsecMem, -⟩ := denied.complete owner (.inl accounts)
  exact List.ne_nil_of_mem (List.mem_filter.mpr ⟨nsecMem, rfl⟩)

/-- The records that are sent are found by the names of their owners. -/
theorem DenialZone.DeniedBy.ownsNsec_iff (denied : zone.DeniedBy qname authorities)
    {owner : Name} (normal : IsNormal owner) :
    OwnsNsec authorities owner ↔ zone.Obliged qname owner := by
  constructor
  · rintro ⟨nsec, nsecMem, domainEq⟩
    obtain ⟨other, obliged, ⟨_, linked, otherEq, -⟩, -⟩ := denied.genuine nsec nsecMem
    have same : other = owner :=
      (zone.normal other linked.left_mem).eq_of_nameText normal (otherEq.symm.trans domainEq)
    exact same ▸ obliged
  · intro obliged
    obtain ⟨nsec, nsecMem, ⟨_, _, domainEq, _⟩, _⟩ := denied.complete owner obliged
    exact ⟨nsec, nsecMem, domainEq⟩

/-! ## Types -/

/-- The record of a name that has records proves that the type is absent, and
no other record does. -/
theorem DenialZone.DeniedBy.nsecsProveNodata_iff (denied : zone.DeniedBy qname authorities)
    (normal : IsNormal qname) (unanswered : zone.Unanswered qname qtype) :
    nsecsProveNodata (authorities.filter DnsRecord.isNsec) (nameText qname) qtype = true ↔
      qname ∈ zone.owners := by
  rw [nsecsProveNodata, any_nsecs_iff]
  constructor
  · rintro ⟨nsec, nsecMem, proves⟩
    obtain ⟨owner, obliged, ⟨_, linked, domainEq, -⟩, -⟩ := denied.genuine nsec nsecMem
    simp only [nsecProvesNodata, Bool.and_eq_true, domainEq] at proves
    have same : owner = qname :=
      ((zone.normal owner linked.left_mem).eqIgnoreAsciiCase_iff normal).mp proves.1.1
    exact same ▸ obliged.mem_owners
  · intro qnameMem
    obtain ⟨nsec, nsecMem, ⟨next, linked, domainEq, nextEq⟩, encodes⟩ :=
      denied.complete qname (.inl (isFloor_self qnameMem))
    obtain ⟨noType, noCname⟩ := unanswered.2.1 qnameMem
    have absent : ∀ other, other ∉ zone.types qname →
        typeBitmapContains nsec.typeBitmap other = false := by
      intro other missing
      rw [← Bool.not_eq_true, encodes.typeBitmapContains_iff]
      exact missing
    refine ⟨nsec, nsecMem, ?_⟩
    simp [nsecProvesNodata, domainEq, absent qtype noType, absent _ noCname]

/-! ## Names -/

/-- One of the records covers a name that does not exist. -/
theorem DenialZone.DeniedBy.nsecsCover (denied : zone.DeniedBy qname authorities)
    (below : zone.apex <:+ qname) (plain : zone.PlainDenial qname)
    (absent : ¬ zone.Exists qname) :
    nsecsCover (authorities.filter DnsRecord.isNsec) (nameText qname) = true := by
  obtain ⟨owner, accounts⟩ := DenialZone.exists_accounts below
  obtain ⟨nsec, nsecMem, ⟨next, linked, domainEq, nextEq⟩, -⟩ := denied.complete owner (.inl accounts)
  obtain ⟨ownerPlain, nextPlain⟩ := plain.2 owner next (.inl accounts) linked
  have covers := (DenialZone.accounts_iff linked domainEq nextEq ownerPlain nextPlain plain.1
    below).mp accounts
  rw [Numa.nsecsCover, any_nsecs_iff]
  refine ⟨nsec, nsecMem, covers.resolve_left ?_⟩
  rintro rfl
  exact absent (DenialZone.exists_of_mem accounts.mem_owners)

/-- One of the records covers or matches the wildcard below a name exactly when
the record that accounts for the wildcard is sent. -/
theorem DenialZone.DeniedBy.wildcardDenied_iff (denied : zone.DeniedBy qname authorities)
    (plain : zone.PlainDenial qname) (notRoot : encloser ≠ []) (above : encloser <:+ qname)
    (below : zone.apex <:+ encloser) :
    ((authorities.filter DnsRecord.isNsec).any fun record => match record with
      | .nsec denial =>
        nsecCoversName denial.domain denial.nextDomain (nameText encloser).wildcard ||
          denial.domain.eqIgnoreAsciiCase (nameText encloser).wildcard
      | _ => false) = true ↔
      ∃ owner, zone.Obliged qname owner ∧ zone.Accounts (wildcardOf encloser) owner := by
  have wildcardPlain := (plain.1.of_suffix above).wildcardOf
  have wildcardBelow : zone.apex <:+ wildcardOf encloser := below.trans (List.suffix_cons _ _)
  -- The test of one record, which is the owner's, with the program's disjunction.
  have test : ∀ nsec owner, zone.Obliged qname owner → zone.PublishesAt owner nsec →
      ((nsecCoversName nsec.domain nsec.nextDomain (nameText encloser).wildcard ||
        nsec.domain.eqIgnoreAsciiCase (nameText encloser).wildcard) = true ↔
          zone.Accounts (wildcardOf encloser) owner) := by
    rintro nsec owner obliged ⟨⟨next, linked, domainEq, nextEq⟩, -⟩
    obtain ⟨ownerPlain, nextPlain⟩ := plain.2 owner next obliged linked
    rw [DenialZone.accounts_iff linked domainEq nextEq ownerPlain nextPlain wildcardPlain
      wildcardBelow, ← nameText_wildcardOf notRoot, Bool.or_eq_true, or_comm, domainEq,
      ownerPlain.isNormal.eqIgnoreAsciiCase_iff wildcardPlain.isNormal]
  rw [any_nsecs_iff]
  constructor
  · rintro ⟨nsec, nsecMem, denies⟩
    obtain ⟨owner, obliged, published⟩ := denied.genuine nsec nsecMem
    exact ⟨owner, obliged, (test nsec owner obliged published).mp denies⟩
  · rintro ⟨owner, obliged, accounts⟩
    obtain ⟨nsec, nsecMem, published⟩ := denied.complete owner obliged
    exact ⟨nsec, nsecMem, (test nsec owner obliged published).mpr accounts⟩

theorem DenialZone.DeniedBy.isClosestOwner (denied : zone.DeniedBy qname authorities)
    (plain : IsPlain qname) (closest : zone.IsClosestSent qname encloser) :
    IsClosestOwner authorities qname encloser := by
  obtain ⟨notRoot, above, obliged, longest⟩ := closest
  have normal : ∀ {tail : Name}, tail <:+ qname → IsNormal tail :=
    fun isTail => (plain.of_suffix isTail).isNormal
  refine ⟨notRoot, above, (denied.ownsNsec_iff (normal above)).mpr obliged, ?_⟩
  intro longer isTail owns
  exact longest longer isTail ((denied.ownsNsec_iff (normal isTail)).mp owns)

/-- An ancestor that owns a record that is sent has a longest one above the
name. -/
theorem DenialZone.exists_isClosestSent (above : encloser <:+ qname) (notRoot : encloser ≠ [])
    (obliged : zone.Obliged qname encloser) : ∃ closest, zone.IsClosestSent qname closest := by
  by_contra none
  simp only [not_exists] at none
  -- There is a longer one for each of them, but none is longer than the name.
  have longer : ∀ size, ∃ other, other ≠ [] ∧ other <:+ qname ∧ zone.Obliged qname other ∧
      size ≤ other.length := by
    intro size
    induction size with
    | zero => exact ⟨encloser, notRoot, above, obliged, Nat.zero_le _⟩
    | succ size ih =>
        obtain ⟨other, otherNotRoot, otherAbove, otherObliged, long⟩ := ih
        have notLongest := none other
        simp only [IsClosestSent, otherAbove, otherObliged, otherNotRoot, ne_eq,
          not_false_eq_true, true_and, not_forall, not_le, exists_prop] at notLongest
        obtain ⟨next, nextAbove, nextObliged, grown⟩ := notLongest
        refine ⟨next, List.ne_nil_of_length_pos (by omega), nextAbove, nextObliged, by omega⟩
  obtain ⟨other, -, otherAbove, -, long⟩ := longer (qname.length + 1)
  have := otherAbove.length_le
  omega

/-- The wildcard check passes exactly when the record that it asks for is
sent. -/
theorem DenialZone.DeniedBy.nsecWildcardDenied_iff (denied : zone.DeniedBy qname authorities)
    (plain : zone.PlainDenial qname) :
    nsecWildcardDenied (authorities.filter DnsRecord.isNsec) (nameText qname) = true ↔
      zone.WildcardSent qname := by
  by_cases some : ∃ encloser, zone.IsClosestSent qname encloser
  · obtain ⟨encloser, closest⟩ := some
    have below : zone.apex <:+ encloser := zone.below encloser closest.2.2.1.mem_owners
    rw [nsecWildcardDenied, closestEncloser_eq denied.published zone.normal plain.1
      (denied.isClosestOwner plain.1 closest)]
    refine (denied.wildcardDenied_iff plain closest.1 closest.2.1 below).trans ⟨?_, ?_⟩
    · intro sent other otherClosest
      have sameLength : other.length = encloser.length :=
        Nat.le_antisymm (closest.2.2.2 other otherClosest.2.1 otherClosest.2.2.1)
          (otherClosest.2.2.2 encloser closest.2.1 closest.2.2.1)
      have same : other = encloser :=
        (List.suffix_of_suffix_length_le otherClosest.2.1 closest.2.1
          (Nat.le_of_eq sameLength)).eq_of_length sameLength
      exact same ▸ sent
    · exact fun sent => sent encloser closest
  · have none : ∀ encloser, encloser ≠ [] → encloser <:+ qname →
        ¬ OwnsNsec authorities encloser := by
      intro encloser notRoot above owns
      have obliged := (denied.ownsNsec_iff (plain.1.of_suffix above).isNormal).mp owns
      exact some (DenialZone.exists_isClosestSent above notRoot obliged)
    rw [nsecWildcardDenied, closestEncloser_eq_none denied.published zone.normal plain.1 none]
    simp only [true_iff]
    exact fun encloser closest => absurd ⟨encloser, closest⟩ some

/-- A name error whose closest encloser has records passes the wildcard check:
the records that are sent lie at or after the encloser, so the program does not
take another name for it. -/
theorem DenialZone.wildcardSent_of_encloser_mem (absent : ¬ zone.Exists qname)
    (closest : zone.IsClosestEncloser qname encloser) (encloserMem : encloser ∈ zone.owners) :
    zone.WildcardSent qname := by
  intro sent sentClosest
  obtain ⟨above, encloserExists, longest⟩ := closest
  obtain ⟨-, sentAbove, obliged, -⟩ := sentClosest
  have after : (canonicalOrder encloser sent).isLE = true := by
    rcases obliged with accounts | ⟨-, other, otherClosest, accounts⟩
    · exact accounts.2.2 encloser encloserMem (canonicalOrder_isLE_of_suffix above)
    · have short : encloser.length ≤ other.length :=
        otherClosest.2.2 encloser above encloserExists
      have below : encloser <:+ other :=
        List.suffix_of_suffix_length_le above otherClosest.1 short
      exact accounts.2.2 encloser encloserMem
        (canonicalOrder_isLE_of_suffix (below.trans (List.suffix_cons _ other)))
  have before : sent <:+ encloser :=
    List.suffix_of_suffix_length_le sentAbove above
      (longest sent sentAbove (DenialZone.exists_of_mem obliged.mem_owners))
  have same : sent = encloser :=
    Std.LawfulEqCmp.eq_of_compare
      (Std.OrientedCmp.isLE_antisymm (canonicalOrder_isLE_of_suffix before) after)
  subst same
  have below : zone.apex <:+ wildcardOf sent :=
    (zone.below sent encloserMem).trans (List.suffix_cons _ sent)
  obtain ⟨owner, accounts⟩ := DenialZone.exists_accounts below
  exact ⟨owner, .inr ⟨absent, sent, ⟨above, encloserExists, longest⟩, accounts⟩, accounts⟩

/-- Every denial that the server has to send and that is provable is accepted.
Any other one is called bogus, or is a name error with names that need an
escape. -/
theorem validateDenial_obliged (normal : IsNormal qname)
    (unanswered : zone.Unanswered qname qtype) (denied : zone.DeniedBy qname authorities)
    (nxdomain : isNxdomain = true ↔ zone.NameError qname)
    (verified : verifyAuthorityRrsigs ring now authorities allRrsigs .nsec cache = some true) :
    (zone.Provable qname →
      validateDenial ring now authorities allRrsigs (nameText qname) qtype isNxdomain cache =
        some .secure) ∧
    (¬ zone.Provable qname → (zone.NameError qname → zone.PlainDenial qname) →
      validateDenial ring now authorities allRrsigs (nameText qname) qtype isNxdomain cache =
        some .bogus) := by
  have below := unanswered.1
  rw [validateDenial_of_verified verified (denied.nsecs_ne_nil below)]
  cases isNxdomain with
  | false =>
      have noError : ¬ zone.NameError qname := fun error => by simpa using nxdomain.mpr error
      have provable : zone.Provable qname ↔ qname ∈ zone.owners :=
        ⟨fun either => either.resolve_right fun both => noError both.1, .inl⟩
      rw [provable, ← denied.nsecsProveNodata_iff normal unanswered]
      constructor
      · intro proven
        simp [proven]
      · intro unproven _
        simp [unproven]
  | true =>
      have error : zone.NameError qname := nxdomain.mp rfl
      have noRecords := DenialZone.not_mem_owners_of_not_exists error.1
      constructor
      · intro provable
        obtain ⟨-, plain, sent⟩ := provable.resolve_left noRecords
        simp [denied.nsecsCover below plain error.1, (denied.nsecWildcardDenied_iff plain).mpr sent]
      · intro unprovable plain
        have notSent : ¬ zone.WildcardSent qname :=
          fun sent => unprovable (.inr ⟨error, plain error, sent⟩)
        rw [← denied.nsecWildcardDenied_iff (plain error)] at notSent
        simp [notSent]

end Complete

/-! ## The denials of two sample zones -/

section Samples

variable {zone : DenialZone} {qname encloser first second : Name} {authorities : List DnsRecord}

theorem DenialZone.IsClosestEncloser.unique {other : Name}
    (closest : zone.IsClosestEncloser qname encloser)
    (otherClosest : zone.IsClosestEncloser qname other) : other = encloser := by
  have sameLength : other.length = encloser.length :=
    Nat.le_antisymm (closest.2.2 other otherClosest.1 otherClosest.2.1)
      (otherClosest.2.2 encloser closest.1 closest.2.1)
  exact (List.suffix_of_suffix_length_le otherClosest.1 closest.1
    (Nat.le_of_eq sameLength)).eq_of_length sameLength

theorem DenialZone.isClosestEncloser_of_cons {label : List UInt8}
    (absent : ¬ zone.Exists (label :: encloser)) (present : zone.Exists encloser) :
    zone.IsClosestEncloser (label :: encloser) encloser := by
  refine ⟨List.suffix_cons label encloser, present, fun longer isTail longerExists => ?_⟩
  rcases List.suffix_cons_iff.mp isTail with rfl | shorter
  · exact absurd longerExists absent
  · exact shorter.length_le

/-- The records for a name that does not exist are two. -/
theorem DenialZone.deniedBy_of_absent {one two : Nsec} (absent : ¬ zone.Exists qname)
    (closest : zone.IsClosestEncloser qname encloser) (accountsName : zone.Accounts qname first)
    (accountsWildcard : zone.Accounts (wildcardOf encloser) second)
    (firstPublished : zone.PublishesAt first one) (secondPublished : zone.PublishesAt second two)
    (nsecs : ∀ nsec, .nsec nsec ∈ authorities ↔ nsec = one ∨ nsec = two) :
    zone.DeniedBy qname authorities where
  genuine := by
    intro nsec nsecMem
    rcases (nsecs nsec).mp nsecMem with rfl | rfl
    · exact ⟨first, .inl accountsName, firstPublished⟩
    · exact ⟨second, .inr ⟨absent, encloser, closest, accountsWildcard⟩, secondPublished⟩
  complete := by
    rintro owner (accounts | ⟨-, other, otherClosest, accounts⟩)
    · obtain rfl := accounts.unique accountsName
      exact ⟨one, (nsecs one).mpr (.inl rfl), firstPublished⟩
    · obtain rfl := closest.unique otherClosest
      obtain rfl := accounts.unique accountsWildcard
      exact ⟨two, (nsecs two).mpr (.inr rfl), secondPublished⟩

end Samples

/-- The types of the sample zones. -/
def apexAndAddresses (name : Name) : List UInt16 :=
  if name = [text "test"] then [2, 6, 46, 47, 48] else [1, 46, 47]

def plainDenialZone : DenialZone where
  toNsecZone := plainNsecZone
  types := apexAndAddresses
  normal := by decide +kernel

def wildcardDenialZone : DenialZone where
  toNsecZone := wildcardNsecZone
  types := apexAndAddresses
  normal := by decide +kernel

theorem encodesTypes_address : EncodesTypes (octets 8 0x0006400000000003) [1, 46, 47] := by
  have window : octets 8 0x0006400000000003 =
      0 :: (octets 6 0x400000000003).length.toUInt8 :: octets 6 0x400000000003 := by decide +kernel
  rw [window]
  exact encodesTypes_of_window (by decide +kernel) (by decide +kernel)
    (List.all_iff_forall_prop.mp (by decide +kernel)) (by decide +kernel)

theorem encodesTypes_apex :
    EncodesTypes (octets 9 0x000722000000000380) [2, 6, 46, 47, 48] := by
  have window : octets 9 0x000722000000000380 =
      0 :: (octets 7 0x22000000000380).length.toUInt8 :: octets 7 0x22000000000380 := by
    decide +kernel
  rw [window]
  exact encodesTypes_of_window (by decide +kernel) (by decide +kernel)
    (List.all_iff_forall_prop.mp (by decide +kernel)) (by decide +kernel)

/-- The name that the sample zones do not have. -/
def missingName : Name :=
  [text "b", text "test"]

theorem publishesAt_of_linked {zone : DenialZone} {owner next : Name} {bitmap : List UInt8}
    {types : List UInt16} (linked : Linked zone.owners owner next)
    (sameTypes : zone.types owner = types) (encodes : EncodesTypes bitmap types) :
    zone.PublishesAt owner ⟨nameText owner, nameText next, bitmap, 3600⟩ :=
  ⟨⟨next, linked, rfl, rfl⟩, sameTypes ▸ encodes⟩

theorem missingName_deniedBy_plain :
    plainDenialZone.DeniedBy missingName (apexNsec ++ coveringNsec) := by
  have absent : ¬ plainDenialZone.Exists missingName := by decide +kernel
  have closest : plainDenialZone.IsClosestEncloser missingName [text "test"] :=
    DenialZone.isClosestEncloser_of_cons absent (by decide +kernel)
  have forName : plainDenialZone.Accounts missingName [text "a", text "test"] := by decide +kernel
  have forWildcard : plainDenialZone.Accounts (wildcardOf [text "test"]) [text "test"] := by
    decide +kernel
  have covering : Linked plainDenialZone.owners [text "a", text "test"] [text "c", text "test"] := by
    decide +kernel
  have apex : Linked plainDenialZone.owners [text "test"] [text "a", text "test"] := by
    decide +kernel
  apply DenialZone.deniedBy_of_absent absent closest forName forWildcard
    (publishesAt_of_linked covering (by decide +kernel) encodesTypes_address)
    (publishesAt_of_linked apex (by decide +kernel) encodesTypes_apex)
  intro nsec
  have texts : nameText [text "test"] = text "test" ∧ nameText [text "a", text "test"] =
      text "a.test" ∧ nameText [text "c", text "test"] = text "c.test" := by decide +kernel
  simp only [apexNsec, coveringNsec, sampleNsec, sampleRrsig, List.cons_append, List.nil_append,
    List.mem_cons, DnsRecord.nsec.injEq, reduceCtorEq, List.not_mem_nil, or_false, false_or, texts]
  exact or_comm

theorem missingName_nameError_plain : plainDenialZone.NameError missingName := by
  have absent : ¬ plainDenialZone.Exists missingName := by decide +kernel
  have closest : plainDenialZone.IsClosestEncloser missingName [text "test"] :=
    DenialZone.isClosestEncloser_of_cons absent (by decide +kernel)
  refine ⟨absent, fun encloser isClosest => ?_⟩
  obtain rfl := closest.unique isClosest
  decide +kernel

/-- The records of the apex and of `a.test` prove that `b.test` does not
exist. -/
theorem validateDenial_obliged_missingName :
    plainDenialZone.Provable missingName ∧
      validateDenial nsecRing 1700000000 (apexNsec ++ coveringNsec)
        ((apexNsec ++ coveringNsec).filter DnsRecord.isRrsig) (nameText missingName) 1 true
        forgedKeys = some .secure := by
  have error := missingName_nameError_plain
  have closest : plainDenialZone.IsClosestEncloser missingName [text "test"] :=
    DenialZone.isClosestEncloser_of_cons error.1 (by decide +kernel)
  have plainOwners : ∀ owner ∈ plainDenialZone.owners, IsPlain owner := by decide +kernel
  have plain : plainDenialZone.PlainDenial missingName :=
    ⟨by decide +kernel, fun owner next _ linked =>
      ⟨plainOwners owner linked.left_mem, plainOwners next linked.right_mem⟩⟩
  have provable : plainDenialZone.Provable missingName :=
    .inr ⟨error, plain, DenialZone.wildcardSent_of_encloser_mem error.1 closest (by decide +kernel)⟩
  have unanswered : plainDenialZone.Unanswered missingName 1 := by
    refine ⟨by decide +kernel, by decide +kernel, fun encloser _ isClosest wildcardMem => ?_⟩
    exact absurd (DenialZone.exists_of_mem wildcardMem) (error.2 encloser isClosest)
  have verified : verifyAuthorityRrsigs nsecRing 1700000000 (apexNsec ++ coveringNsec)
      ((apexNsec ++ coveringNsec).filter DnsRecord.isRrsig) .nsec forgedKeys = some true := by
    decide +kernel
  exact ⟨provable, (validateDenial_obliged plain.1.isNormal unanswered missingName_deniedBy_plain
    (by simp [error]) verified).1 provable⟩

/-! ## A wildcard without the type -/

/-- The NSEC of `*.test`, with its RRSIG. -/
def wildcardNsec : List DnsRecord :=
  [ sampleNsec (text "*.test") (text "a.test") (octets 8 0x0006400000000003),
    sampleRrsig (text "*.test") .nsec 1 27232 (text "test")
      0x016a458e89d1632c0d24edfa80d763082791b348c56e02cf1c58b8c60af586194d2bb92fc29f9cc8b302f9fce288d161cda396abf4998a448da3e2642ac82609 ]

def wildcardRing : Ring :=
  tableRing
    [ (sampleZoneKey,
        octets 58 0x002f0f0200000e107fffffff000000016a600474657374000161047465737400002f000100000e10001001630474657374000006400000000003,
        octets 64 0x079dd054ce8a02fa4881d77f101c134e0f5b13a05083e49d9c6d34084396cc084bb8c7bc349fad5579bd913d62619681d113f352e4832277c634a5b024e6b906),
      (sampleZoneKey,
        octets 58 0x002f0f0100000e107fffffff000000016a60047465737400012a047465737400002f000100000e10001001610474657374000006400000000003,
        octets 64 0x016a458e89d1632c0d24edfa80d763082791b348c56e02cf1c58b8c60af586194d2bb92fc29f9cc8b302f9fce288d161cda396abf4998a448da3e2642ac82609) ]
    [] []

theorem missingName_deniedBy_wildcard :
    wildcardDenialZone.DeniedBy missingName (wildcardNsec ++ coveringNsec) := by
  have absent : ¬ wildcardDenialZone.Exists missingName := by decide +kernel
  have closest : wildcardDenialZone.IsClosestEncloser missingName [text "test"] :=
    DenialZone.isClosestEncloser_of_cons absent (by decide +kernel)
  have forName : wildcardDenialZone.Accounts missingName [text "a", text "test"] := by
    decide +kernel
  have forWildcard : wildcardDenialZone.Accounts (wildcardOf [text "test"])
      [text "*", text "test"] := by decide +kernel
  have covering : Linked wildcardDenialZone.owners [text "a", text "test"]
      [text "c", text "test"] := by decide +kernel
  have wildcard : Linked wildcardDenialZone.owners [text "*", text "test"]
      [text "a", text "test"] := by decide +kernel
  apply DenialZone.deniedBy_of_absent absent closest forName forWildcard
    (publishesAt_of_linked covering (by decide +kernel) encodesTypes_address)
    (publishesAt_of_linked wildcard (by decide +kernel) encodesTypes_address)
  intro nsec
  have texts : nameText [text "*", text "test"] = text "*.test" ∧
      nameText [text "a", text "test"] = text "a.test" ∧
        nameText [text "c", text "test"] = text "c.test" := by decide +kernel
  simp only [wildcardNsec, coveringNsec, sampleNsec, sampleRrsig, List.cons_append,
    List.nil_append, List.mem_cons, DnsRecord.nsec.injEq, reduceCtorEq, List.not_mem_nil, or_false,
    false_or, texts]
  exact or_comm

/-- The zone has an A RRset at `*.test` and denies `b.test` AAAA as it has to,
but the denial is called bogus. -/
theorem missingName_wildcard_bogus :
    wildcardDenialZone.Unanswered missingName QueryType.aaaa.toNum ∧
      wildcardDenialZone.DeniedBy missingName (wildcardNsec ++ coveringNsec) ∧
      ¬ wildcardDenialZone.NameError missingName ∧
      verifyAuthorityRrsigs wildcardRing 1700000000 (wildcardNsec ++ coveringNsec)
        ((wildcardNsec ++ coveringNsec).filter DnsRecord.isRrsig) .nsec forgedKeys = some true ∧
      validateDenial wildcardRing 1700000000 (wildcardNsec ++ coveringNsec)
        ((wildcardNsec ++ coveringNsec).filter DnsRecord.isRrsig) (nameText missingName)
        QueryType.aaaa.toNum false forgedKeys = some .bogus := by
  have absent : ¬ wildcardDenialZone.Exists missingName := by decide +kernel
  have closest : wildcardDenialZone.IsClosestEncloser missingName [text "test"] :=
    DenialZone.isClosestEncloser_of_cons absent (by decide +kernel)
  refine ⟨⟨by decide +kernel, by decide +kernel, ?_⟩, missingName_deniedBy_wildcard, ?_,
    by decide +kernel, by decide +kernel⟩
  · intro encloser _ isClosest _
    obtain rfl := closest.unique isClosest
    decide +kernel
  · intro error
    exact error.2 _ closest (by decide +kernel)

end Numa
