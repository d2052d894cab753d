import Numa.Nsec3Denial
import Numa.NsecDenial
import Numa.TypeBitmap

/-!
# Trees of signed zones

The zones of a tree meet at delegations: the parent has an NS RRset at the name
where the child has its apex, so both publish a record about that name.  Data
at the name belongs to the child, except for the DS RRset, which belongs to the
parent.
-/

namespace Numa

/-- The chain of NSEC or NSEC3 records of a zone. -/
inductive DenialChain (ring : Ring)
  | nsec (zone : NsecZone)
  | nsec3 (zone : Nsec3Zone ring)

namespace DenialChain

variable {ring : Ring}

def apex : DenialChain ring → Name
  | nsec zone => zone.apex
  | nsec3 zone => zone.apex

/-- The names of the zone, for NSEC3 with the empty non-terminals. -/
def names : DenialChain ring → List Name
  | nsec zone => zone.owners
  | nsec3 zone => zone.names

theorem below (chain : DenialChain ring) : ∀ name ∈ chain.names, chain.apex <:+ name :=
  match chain with
  | nsec zone => zone.below
  | nsec3 zone => zone.below

/-- The name is a delegation when the zone has these types. -/
def IsCut (chain : DenialChain ring) (types : Name → List UInt16) (name : Name) : Prop :=
  name ∈ chain.names ∧ name ≠ chain.apex ∧ QueryType.ns.toNum ∈ types name

end DenialChain

/-- One more type at a name. -/
def withType (types : Name → List UInt16) (qname : Name) (qtype : UInt16) (name : Name) :
    List UInt16 :=
  if name = qname then qtype :: types name else types name

theorem mem_withType {types : Name → List UInt16} {qname name : Name} {qtype other : UInt16} :
    other ∈ withType types qname qtype name ↔
      name = qname ∧ other = qtype ∨ other ∈ types name := by
  unfold withType
  split
  · rename_i same
    simp [same]
  · rename_i different
    simp [different]

/-- A type at the apex, or one other than NS, makes no delegation. -/
theorem DenialChain.isCut_withType {ring : Ring} {chain : DenialChain ring}
    {types : Name → List UInt16} {qname : Name} {qtype : UInt16}
    (keeps : qname = chain.apex ∨ qtype ≠ QueryType.ns.toNum) (name : Name) :
    chain.IsCut (withType types qname qtype) name ↔ chain.IsCut types name := by
  simp only [IsCut, mem_withType]
  constructor
  · rintro ⟨nameMem, notApex, ⟨same, isNs⟩ | hasNs⟩
    · rcases keeps with atApex | notNs
      · exact absurd (same.trans atApex) notApex
      · exact absurd isNs.symm notNs
    · exact ⟨nameMem, notApex, hasNs⟩
  · rintro ⟨nameMem, notApex, hasNs⟩
    exact ⟨nameMem, notApex, .inr hasNs⟩

/-- A signed zone with the types at its names.  Only the apex has a SOA RRset,
and no name below a delegation belongs to the zone. -/
structure TreeZone (ring : Ring) where
  chain : DenialChain ring
  types : Name → List UInt16
  apex_mem : chain.apex ∈ chain.names
  normal : ∀ name ∈ chain.names, IsNormal name
  soa_iff : ∀ name ∈ chain.names, QueryType.soa.toNum ∈ types name ↔ name = chain.apex
  uncut : ∀ cut name, chain.IsCut types cut → name ∈ chain.names → cut <:+ name → name = cut

namespace TreeZone

variable {ring : Ring}

def apex (zone : TreeZone ring) : Name :=
  zone.chain.apex

def names (zone : TreeZone ring) : List Name :=
  zone.chain.names

/-- The zone delegates the name. -/
def IsCut (zone : TreeZone ring) (name : Name) : Prop :=
  zone.chain.IsCut zone.types name

/-- The zone has an RRset of the type at the name. -/
def Has (zone : TreeZone ring) (name : Name) (qtype : UInt16) : Prop :=
  name ∈ zone.names ∧ qtype ∈ zone.types name

/-- The zone publishes this record about the name. -/
inductive Publishes (zone : TreeZone ring) (name : Name) : DnsRecord → Prop
  | nsec {chain : NsecZone} {next : Name} {nsec : Nsec} (isChain : zone.chain = .nsec chain)
      (linked : Linked chain.owners name next) (domain_eq : nsec.domain = nameText name)
      (next_eq : nsec.nextDomain = nameText next)
      (encodes : EncodesTypes nsec.typeBitmap (zone.types name)) :
      Publishes zone name (.nsec nsec)
  | nsec3 {chain : Nsec3Zone ring} {nsec3 : Nsec3} {hash : List UInt8}
      (isChain : zone.chain = .nsec3 chain) (published : chain.Publishes nsec3)
      (name_mem : name ∈ chain.names)
      (hashes : HashesTo ring chain.iterations chain.salt name hash)
      (owns : nsec3OwnerHash nsec3.domain = some hash)
      (encodes : EncodesTypes nsec3.typeBitmap (zone.types name)) :
      Publishes zone name (.nsec3 nsec3)

theorem IsCut.apex_suffix {zone : TreeZone ring} {cut : Name} (isCut : zone.IsCut cut) :
    zone.apex <:+ cut :=
  zone.chain.below cut isCut.1

/-- The zone with one more type at a name. -/
def addType (zone : TreeZone ring) (qname : Name) (qtype : UInt16)
    (keeps : qname = zone.apex ∨
      qtype ≠ QueryType.soa.toNum ∧ qtype ≠ QueryType.ns.toNum) : TreeZone ring where
  chain := zone.chain
  types := withType zone.types qname qtype
  apex_mem := zone.apex_mem
  normal := zone.normal
  soa_iff := by
    intro name nameMem
    rw [mem_withType, zone.soa_iff name nameMem]
    constructor
    · rintro (⟨same, isSoa⟩ | atApex)
      · rcases keeps with isApex | ⟨notSoa, -⟩
        · exact same.trans isApex
        · exact absurd isSoa.symm notSoa
      · exact atApex
    · exact .inr
  uncut := by
    intro cut name isCut nameMem below
    rw [DenialChain.isCut_withType (keeps.imp_right And.right)] at isCut
    exact zone.uncut cut name isCut nameMem below

section AddType

variable {zone : TreeZone ring} {qname : Name} {qtype : UInt16}
  {keeps : qname = zone.apex ∨ qtype ≠ QueryType.soa.toNum ∧ qtype ≠ QueryType.ns.toNum}

theorem addType_isCut_iff (name : Name) :
    (zone.addType qname qtype keeps).IsCut name ↔ zone.IsCut name :=
  DenialChain.isCut_withType (keeps.imp_right And.right) name

theorem addType_has (qnameMem : qname ∈ zone.names) :
    (zone.addType qname qtype keeps).Has qname qtype :=
  ⟨qnameMem, mem_withType.mpr (.inl ⟨rfl, rfl⟩)⟩

/-- The records about other names stay. -/
theorem Publishes.addType {name : Name} {record : DnsRecord}
    (published : zone.Publishes name record) (other : name ≠ qname) :
    (zone.addType qname qtype keeps).Publishes name record := by
  have sameTypes : (zone.addType qname qtype keeps).types name = zone.types name :=
    if_neg other
  cases published with
  | nsec isChain linked domainEq nextEq encodes =>
      exact .nsec isChain linked domainEq nextEq (sameTypes ▸ encodes)
  | nsec3 isChain published nameMem hashes owns encodes =>
      exact .nsec3 isChain published nameMem hashes owns (sameTypes ▸ encodes)

end AddType

end TreeZone

/-- A tree of signed zones: the zones below the root are those delegated. -/
structure ZoneTree (ring : Ring) where
  zones : Set (TreeZone ring)
  unique : ∀ first ∈ zones, ∀ second ∈ zones, first.apex = second.apex → first = second
  parent : ∀ zone ∈ zones, zone.apex ≠ [] → ∃ parent ∈ zones, parent.IsCut zone.apex
  child : ∀ zone ∈ zones, ∀ cut, zone.IsCut cut → ∃ child ∈ zones, child.apex = cut

namespace ZoneTree

variable {ring : Ring} {tree : ZoneTree ring} {first second zone : TreeZone ring}
  {qname : Name} {qtype : UInt16}

/-- A zone below another one is below one of its delegations. -/
theorem exists_cut_between (firstMem : first ∈ tree.zones) (secondMem : second ∈ tree.zones)
    (below : first.apex <:+ second.apex) (different : first.apex ≠ second.apex) :
    ∃ cut, first.IsCut cut ∧ cut <:+ second.apex := by
  -- The parent of the lower zone is the upper zone, below it or above it; in
  -- the last case it would have the lower apex below another delegation.
  induction length : second.apex.length using Nat.strong_induction_on
    generalizing first second with
  | _ size ih =>
      subst length
      have notRoot : second.apex ≠ [] := by
        intro root
        rw [root] at below different
        exact different (List.suffix_nil.mp below)
      obtain ⟨parent, parentMem, isCut⟩ := tree.parent second secondMem notRoot
      have shorter : parent.apex.length < second.apex.length := by
        refine lt_of_le_of_ne isCut.apex_suffix.length_le fun sameLength => ?_
        exact isCut.2.1 (isCut.apex_suffix.eq_of_length sameLength).symm
      by_cases same : first.apex = parent.apex
      · rw [tree.unique first firstMem parent parentMem same]
        exact ⟨second.apex, isCut, List.suffix_refl _⟩
      · rcases Nat.le_total first.apex.length parent.apex.length with above | above
        · have parentBelow := List.suffix_of_suffix_length_le below isCut.apex_suffix above
          obtain ⟨cut, firstCut, cutAbove⟩ :=
            ih parent.apex.length shorter firstMem parentMem parentBelow same rfl
          exact ⟨cut, firstCut, cutAbove.trans isCut.apex_suffix⟩
        · have firstBelow := List.suffix_of_suffix_length_le isCut.apex_suffix below above
          have firstShorter : first.apex.length < second.apex.length :=
            lt_of_le_of_ne below.length_le fun sameLength =>
              different (below.eq_of_length sameLength)
          obtain ⟨cut, parentCut, cutAbove⟩ :=
            ih first.apex.length firstShorter parentMem firstMem firstBelow (Ne.symm same) rfl
          have cutEq : second.apex = cut :=
            parent.uncut cut second.apex parentCut isCut.1 (cutAbove.trans below)
          have := (cutEq ▸ cutAbove).length_le
          omega

/-- The zone that data of this name and type belongs to. -/
structure Authoritative (tree : ZoneTree ring) (zone : TreeZone ring) (qname : Name)
    (qtype : UInt16) : Prop where
  mem : zone ∈ tree.zones
  below : zone.apex <:+ qname
  cuts : ∀ cut, zone.IsCut cut → cut <:+ qname → cut = qname ∧ qtype = QueryType.ds.toNum
  parentSide : qtype = QueryType.ds.toNum → zone.apex = qname → qname = []

theorem Authoritative.not_above (firstOwns : tree.Authoritative first qname qtype)
    (secondOwns : tree.Authoritative second qname qtype)
    (above : first.apex.length ≤ second.apex.length) : first = second := by
  have nested := List.suffix_of_suffix_length_le firstOwns.below secondOwns.below above
  by_contra different
  have apart : first.apex ≠ second.apex :=
    fun same => different (tree.unique first firstOwns.mem second secondOwns.mem same)
  obtain ⟨cut, isCut, cutAbove⟩ :=
    exists_cut_between firstOwns.mem secondOwns.mem nested apart
  obtain ⟨cutEq, isDs⟩ := firstOwns.cuts cut isCut (cutAbove.trans secondOwns.below)
  have atApex : second.apex = qname :=
    secondOwns.below.eq_of_length_le (cutEq ▸ cutAbove).length_le
  have root := secondOwns.parentSide isDs atApex
  rw [atApex, root] at nested apart
  exact apart (List.suffix_nil.mp nested)

/-- Data belongs to one zone. -/
theorem Authoritative.unique (firstOwns : tree.Authoritative first qname qtype)
    (secondOwns : tree.Authoritative second qname qtype) : first = second := by
  rcases Nat.le_total first.apex.length second.apex.length with above | above
  · exact firstOwns.not_above secondOwns above
  · exact (secondOwns.not_above firstOwns above).symm

/-- A child owns what is at its apex, except for the DS RRset. -/
theorem authoritative_of_apex (zoneMem : zone ∈ tree.zones) (atApex : zone.apex = qname)
    (notDs : qtype ≠ QueryType.ds.toNum) : tree.Authoritative zone qname qtype where
  mem := zoneMem
  below := atApex ▸ List.suffix_refl _
  cuts := by
    intro cut isCut above
    rw [← atApex] at above
    have same : zone.apex = cut := isCut.apex_suffix.eq_of_length_le above.length_le
    exact absurd same.symm isCut.2.1
  parentSide := fun isDs => absurd isDs notDs

/-- A parent owns the DS RRset at its delegation. -/
theorem authoritative_of_isCut (zoneMem : zone ∈ tree.zones) (isCut : zone.IsCut qname) :
    tree.Authoritative zone qname QueryType.ds.toNum where
  mem := zoneMem
  below := isCut.apex_suffix
  cuts := fun cut otherCut above =>
    ⟨(zone.uncut cut qname otherCut isCut.1 above).symm, rfl⟩
  parentSide := fun _ atApex => absurd atApex.symm isCut.2.1

/-- The tree with one of its zones replaced by a zone of the same shape. -/
def replace (tree : ZoneTree ring) (old new : TreeZone ring) (oldMem : old ∈ tree.zones)
    (apexEq : new.apex = old.apex) (cutIff : ∀ name, new.IsCut name ↔ old.IsCut name) :
    ZoneTree ring where
  zones := {zone | zone = new ∨ zone ∈ tree.zones ∧ zone ≠ old}
  unique := by
    have apart : ∀ zone ∈ tree.zones, zone ≠ old → zone.apex ≠ new.apex :=
      fun zone zoneMem notOld same =>
        notOld (tree.unique zone zoneMem old oldMem (same.trans apexEq))
    rintro first (rfl | ⟨firstMem, firstOther⟩) second (rfl | ⟨secondMem, secondOther⟩) same
    · rfl
    · exact absurd same.symm (apart second secondMem secondOther)
    · exact absurd same (apart first firstMem firstOther)
    · exact tree.unique first firstMem second secondMem same
  parent := by
    have moved : ∀ name, (∃ parent ∈ tree.zones, parent.IsCut name) →
        ∃ parent, (parent = new ∨ parent ∈ tree.zones ∧ parent ≠ old) ∧ parent.IsCut name := by
      rintro name ⟨parent, parentMem, isCut⟩
      by_cases isOld : parent = old
      · exact ⟨new, .inl rfl, (cutIff name).mpr (isOld ▸ isCut)⟩
      · exact ⟨parent, .inr ⟨parentMem, isOld⟩, isCut⟩
    rintro zone (rfl | ⟨zoneMem, -⟩) notRoot
    · rw [apexEq] at notRoot ⊢
      exact moved _ (tree.parent old oldMem notRoot)
    · exact moved _ (tree.parent zone zoneMem notRoot)
  child := by
    have moved : ∀ name, (∃ child ∈ tree.zones, child.apex = name) →
        ∃ child, (child = new ∨ child ∈ tree.zones ∧ child ≠ old) ∧ child.apex = name := by
      rintro name ⟨child, childMem, atApex⟩
      by_cases isOld : child = old
      · exact ⟨new, .inl rfl, by rw [apexEq, ← isOld, atApex]⟩
      · exact ⟨child, .inr ⟨childMem, isOld⟩, atApex⟩
    rintro zone (rfl | ⟨zoneMem, -⟩) cut isCut
    · exact moved cut (tree.child old oldMem cut ((cutIff cut).mp isCut))
    · exact moved cut (tree.child zone zoneMem cut isCut)

end ZoneTree

end Numa
