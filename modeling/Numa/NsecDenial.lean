import Numa.CanonicalName
import Numa.DenialTrust

/-!
# Denial of names by NSEC

A zone publishes an NSEC record for every owner name, with the next owner name
in canonical order, the last one leading back to the first.  Whatever subset of
these records a response carries, an accepted denial is about a name that is no
owner name of the zone.
-/

namespace Numa

/-- A zone signed with NSEC: its owner names in canonical order. -/
structure NsecZone where
  apex : Name
  owners : List Name
  apex_mem : apex ∈ owners
  below : ∀ owner ∈ owners, apex <:+ owner
  sorted : StrictlySorted canonicalOrder owners

/-- The zone has this NSEC record. -/
def NsecZone.Publishes (zone : NsecZone) (nsec : Nsec) : Prop :=
  ∃ owner next, Linked zone.owners owner next ∧ nsec.domain = nameText owner ∧
    nsec.nextDomain = nameText next

/-- The authority section has an NSEC record of this owner. -/
def OwnsNsec (authorities : List DnsRecord) (owner : Name) : Prop :=
  ∃ nsec, .nsec nsec ∈ authorities ∧ nsec.domain = nameText owner

/-- The longest ancestor of a name, itself included but not the root, that owns
an NSEC record of the authority section. -/
def IsClosestOwner (authorities : List DnsRecord) (qname encloser : Name) : Prop :=
  encloser ≠ [] ∧ encloser <:+ qname ∧ OwnsNsec authorities encloser ∧
    ∀ longer, longer <:+ qname → OwnsNsec authorities longer →
      longer.length ≤ encloser.length

section Sound

variable {ring : Ring} {now : UInt32} {authorities allRrsigs : List DnsRecord} {qtype : UInt16}
  {cache : Text → QueryType → Option DnsPacket} {zone : NsecZone} {qname encloser : Name}

theorem any_nsecs_iff {check : DnsRecord → Bool} :
    (authorities.filter DnsRecord.isNsec).any check = true ↔
      ∃ nsec, .nsec nsec ∈ authorities ∧ check (.nsec nsec) = true := by
  rw [List.any_eq_true]
  constructor
  · rintro ⟨record, recordMem, checked⟩
    obtain ⟨recordMem, isNsec⟩ := List.mem_filter.mp recordMem
    obtain ⟨nsec, rfl⟩ := DnsRecord.isNsec_iff.mp isNsec
    exact ⟨nsec, recordMem, checked⟩
  · rintro ⟨nsec, nsecMem, checked⟩
    exact ⟨_, List.mem_filter.mpr ⟨nsecMem, rfl⟩, checked⟩

/-- A name in the gap of a published NSEC is no owner name. -/
theorem NsecZone.Publishes.not_mem_owners {nsec : Nsec} (published : zone.Publishes nsec)
    (plainOwners : ∀ owner ∈ zone.owners, IsPlain owner) (plain : IsPlain qname)
    (covers : nsecCoversName nsec.domain nsec.nextDomain (nameText qname) = true) :
    qname ∉ zone.owners := by
  obtain ⟨owner, next, linked, domainEq, nextEq⟩ := published
  rw [domainEq, nextEq, (plainOwners owner linked.left_mem).nsecCoversName_iff
    (plainOwners next linked.right_mem) plain] at covers
  exact linked.not_mem_of_inGap zone.sorted covers

/-- The program finds the owners of NSEC records by their names. -/
theorem ownsNsec_iff (genuine : ∀ nsec, .nsec nsec ∈ authorities → zone.Publishes nsec)
    (normalOwners : ∀ owner ∈ zone.owners, IsNormal owner) (normal : IsNormal qname) :
    ownsNsec (authorities.filter DnsRecord.isNsec) (nameText qname) = true ↔
      OwnsNsec authorities qname := by
  rw [ownsNsec, any_nsecs_iff]
  constructor
  · rintro ⟨nsec, nsecMem, sameOwner⟩
    obtain ⟨owner, next, linked, domainEq, -⟩ := genuine nsec nsecMem
    have same : owner = qname :=
      ((normalOwners owner linked.left_mem).eqIgnoreAsciiCase_iff normal).mp
        (domainEq ▸ sameOwner)
    exact ⟨nsec, nsecMem, same ▸ domainEq⟩
  · rintro ⟨nsec, nsecMem, domainEq⟩
    exact ⟨nsec, nsecMem, by simp [domainEq]⟩

/-- The closest encloser of the program is the closest owner. -/
theorem closestEncloser_eq
    (genuine : ∀ nsec, .nsec nsec ∈ authorities → zone.Publishes nsec)
    (normalOwners : ∀ owner ∈ zone.owners, IsNormal owner) (plain : IsPlain qname)
    (closest : IsClosestOwner authorities qname encloser) :
    closestEncloser (nameText qname) (authorities.filter DnsRecord.isNsec) =
      some (nameText encloser) := by
  obtain ⟨notRoot, above, owns, longest⟩ := closest
  have joined : ∀ {tail : Name}, tail <:+ qname → Text.join tail = nameText tail :=
    fun isTail => (plain.of_suffix isTail).nameText_eq.symm
  have found : (nonEmptyTails qname).find?
      (fun tail => ownsNsec (authorities.filter DnsRecord.isNsec) (Text.join tail)) =
        some encloser := by
    refine find_nonEmptyTails_eq notRoot above ?_ ?_
    · rw [joined above, ownsNsec_iff genuine normalOwners (plain.of_suffix above).isNormal]
      exact owns
    · intro longer isTail ownsLonger
      rw [joined isTail,
        ownsNsec_iff genuine normalOwners (plain.of_suffix isTail).isNormal] at ownsLonger
      exact longest longer isTail ownsLonger
  rw [closestEncloser, plain.labels_nameText, List.find?_map, Function.comp_def, found,
    Option.map_some, joined above]

/-- Without a closest owner the program finds no encloser. -/
theorem closestEncloser_eq_none
    (genuine : ∀ nsec, .nsec nsec ∈ authorities → zone.Publishes nsec)
    (normalOwners : ∀ owner ∈ zone.owners, IsNormal owner) (plain : IsPlain qname)
    (none : ∀ encloser, encloser ≠ [] → encloser <:+ qname → ¬ OwnsNsec authorities encloser) :
    closestEncloser (nameText qname) (authorities.filter DnsRecord.isNsec) = .none := by
  rw [closestEncloser, List.find?_eq_none]
  intro candidate candidateMem
  rw [plain.labels_nameText] at candidateMem
  obtain ⟨tail, tailMem, rfl⟩ := List.mem_map.mp candidateMem
  obtain ⟨notRoot, isTail⟩ := suffix_of_mem_nonEmptyTails tailMem
  rw [← (plain.of_suffix isTail).nameText_eq,
    ownsNsec_iff genuine normalOwners (plain.of_suffix isTail).isNormal]
  exact none tail notRoot isTail

end Sound

/-! ## The sample zone with and without a wildcard -/

def sampleNsec (domain nextDomain : Text) (typeBitmap : List UInt8) : DnsRecord :=
  .nsec { domain := domain, nextDomain := nextDomain, typeBitmap := typeBitmap, ttl := 3600 }

/-- The NSEC of `a.test`, which covers `b.test`, with its RRSIG. -/
def coveringNsec : List DnsRecord :=
  [ sampleNsec (text "a.test") (text "c.test") (octets 8 0x0006400000000003),
    sampleRrsig (text "a.test") .nsec 2 27232 (text "test")
      0x079dd054ce8a02fa4881d77f101c134e0f5b13a05083e49d9c6d34084396cc084bb8c7bc349fad5579bd913d62619681d113f352e4832277c634a5b024e6b906 ]

/-- The NSEC of the apex, which covers `*.test`, with its RRSIG. -/
def apexNsec : List DnsRecord :=
  [ sampleNsec (text "test") (text "a.test") (octets 9 0x000722000000000380),
    sampleRrsig (text "test") .nsec 1 27232 (text "test")
      0x7a8b6ca159cdc28bf36a53d8064b4960fcafe2e176c2d40e86b3b1419a24ae35bd4368cbfe2c0de1f49829f62600c44475c75794dbca110279daf05de15b1409 ]

def nsecRing : Ring :=
  tableRing
    [ (sampleZoneKey,
        octets 58 0x002f0f0200000e107fffffff000000016a600474657374000161047465737400002f000100000e10001001630474657374000006400000000003,
        octets 64 0x079dd054ce8a02fa4881d77f101c134e0f5b13a05083e49d9c6d34084396cc084bb8c7bc349fad5579bd913d62619681d113f352e4832277c634a5b024e6b906),
      (sampleZoneKey,
        octets 57 0x002f0f0100000e107fffffff000000016a60047465737400047465737400002f000100000e1000110161047465737400000722000000000380,
        octets 64 0x7a8b6ca159cdc28bf36a53d8064b4960fcafe2e176c2d40e86b3b1419a24ae35bd4368cbfe2c0de1f49829f62600c44475c75794dbca110279daf05de15b1409) ]
    [] []

def plainNsecZone : NsecZone where
  apex := [text "test"]
  owners := [[text "test"], [text "a", text "test"], [text "c", text "test"]]
  apex_mem := by decide +kernel
  below := by decide +kernel
  sorted := by decide +kernel

def wildcardNsecZone : NsecZone where
  apex := [text "test"]
  owners := [[text "test"], [text "*", text "test"], [text "a", text "test"],
    [text "c", text "test"]]
  apex_mem := by decide +kernel
  below := by decide +kernel
  sorted := by decide +kernel

theorem apexNsec_published : ∀ nsec, .nsec nsec ∈ apexNsec → plainNsecZone.Publishes nsec := by
  intro nsec nsecMem
  obtain rfl : nsec = _ := by simpa [apexNsec, sampleNsec, sampleRrsig] using nsecMem
  exact ⟨[text "test"], [text "a", text "test"], by decide +kernel, by decide +kernel,
    by decide +kernel⟩

theorem coveringNsec_published {zone : NsecZone}
    (linked : Linked zone.owners [text "a", text "test"] [text "c", text "test"]) :
    ∀ nsec, .nsec nsec ∈ coveringNsec → zone.Publishes nsec := by
  intro nsec nsecMem
  obtain rfl : nsec = _ := by simpa [coveringNsec, sampleNsec, sampleRrsig] using nsecMem
  exact ⟨_, _, linked, by decide +kernel, by decide +kernel⟩

end Numa
