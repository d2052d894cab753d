import Numa.ZoneTree

/-!
# Denial of types

A response without data is accepted on an NSEC or NSEC3 record about the name
whose bitmap has neither the type nor CNAME.  At a delegation both the parent
and the child have such a record, and the program takes either.  The denial is
sound exactly when one of the records shown is from the side that the type
belongs to, which its NS and SOA bits tell.
-/

namespace Numa

/-- Is the bitmap from the side of a delegation that the type belongs to?  The
apex of a child has SOA, the delegation in its parent has NS only. -/
def rightSide (bitmap : List UInt8) (qname : Name) (qtype : UInt16) : Bool :=
  if qtype = QueryType.ds.toNum ∧ qname ≠ [] then
    !typeBitmapContains bitmap QueryType.soa.toNum
  else
    !typeBitmapContains bitmap QueryType.ns.toNum ||
      typeBitmapContains bitmap QueryType.soa.toNum

section About

variable (ring : Ring) (qname : Name)

/-- The record is about the name, by its owner or by its hash, and has the
bitmap. -/
inductive About : DnsRecord → List UInt8 → Prop
  | nsec {nsec : Nsec}
      (owner : nsec.domain.eqIgnoreAsciiCase (nameText qname) = true) :
      About (.nsec nsec) nsec.typeBitmap
  | nsec3 {nsec3 : Nsec3} {hash : List UInt8}
      (owns : nsec3OwnerHash nsec3.domain = some hash)
      (hashed : nsec3Hash ring (nameText qname) nsec3.hashAlgorithm nsec3.iterations
        nsec3.salt = some (some hash)) :
      About (.nsec3 nsec3) nsec3.typeBitmap

/-- The record shows from the right side that the name has neither the type
nor CNAME. -/
def ProvesNodata (qtype : UInt16) (record : DnsRecord) : Prop :=
  ∃ bitmap, About ring qname record bitmap ∧ typeBitmapContains bitmap qtype = false ∧
    typeBitmapContains bitmap QueryType.cname.toNum = false ∧
    rightSide bitmap qname qtype = true

end About

namespace ZoneTree

variable {ring : Ring}

/-- The NSEC and NSEC3 records of the section are those of zones of the tree. -/
def Genuine (tree : ZoneTree ring) (authorities : List DnsRecord) : Prop :=
  ∀ record ∈ authorities, record.isNsec = true ∨ record.isNsec3 = true →
    ∃ zone ∈ tree.zones, ∃ name, zone.Publishes name record

/-- No other name of an NSEC3 zone has the hash of the queried name, with the
parameters of any zone. -/
def HashInjective (tree : ZoneTree ring) (qname : Name) : Prop :=
  ∀ first ∈ tree.zones, ∀ firstChain, first.chain = .nsec3 firstChain →
    ∀ second ∈ tree.zones, ∀ secondChain, second.chain = .nsec3 secondChain →
      ∀ name ∈ secondChain.names, ∀ hash,
        HashesTo ring firstChain.iterations firstChain.salt qname hash →
        HashesTo ring secondChain.iterations secondChain.salt name hash → name = qname

/-- The zone that the type belongs to has neither the type nor CNAME at the
name. -/
def NoData (tree : ZoneTree ring) (qname : Name) (qtype : UInt16) : Prop :=
  ∀ zone, tree.Authoritative zone qname qtype →
    ¬ zone.Has qname qtype ∧ ¬ zone.Has qname QueryType.cname.toNum

section Sides

variable {tree : ZoneTree ring} {zone : TreeZone ring} {qname : Name} {qtype : UInt16}

/-- The bits of a record tell whether its zone is the authoritative one. -/
theorem rightSide_iff_authoritative {bitmap : List UInt8} (zoneMem : zone ∈ tree.zones)
    (qnameMem : qname ∈ zone.names) (encodes : EncodesTypes bitmap (zone.types qname)) :
    rightSide bitmap qname qtype = true ↔ tree.Authoritative zone qname qtype := by
  have soaBit : typeBitmapContains bitmap QueryType.soa.toNum = true ↔ qname = zone.apex :=
    (encodes.typeBitmapContains_iff _).trans (zone.soa_iff qname qnameMem)
  have nsBit := encodes.typeBitmapContains_iff QueryType.ns.toNum
  have atCut : ∀ cut, zone.IsCut cut → cut <:+ qname → cut = qname :=
    fun cut isCut above => (zone.uncut cut qname isCut qnameMem above).symm
  unfold rightSide
  split
  · rename_i parentSide
    rw [Bool.not_eq_true', ← Bool.not_eq_true, soaBit]
    constructor
    · intro notApex
      exact
        { mem := zoneMem
          below := zone.chain.below qname qnameMem
          cuts := fun cut isCut above => ⟨atCut cut isCut above, parentSide.1⟩
          parentSide := fun _ atApex => absurd atApex.symm notApex }
    · intro owns atApex
      exact parentSide.2 (owns.parentSide parentSide.1 atApex.symm)
  · rename_i childSide
    rw [Bool.or_eq_true, Bool.not_eq_true', ← Bool.not_eq_true, nsBit, soaBit]
    constructor
    · intro notCut
      have uncut : ∀ cut, zone.IsCut cut → ¬ cut <:+ qname := by
        intro cut isCut above
        obtain rfl := atCut cut isCut above
        exact notCut.elim (· isCut.2.2) isCut.2.1
      exact
        { mem := zoneMem
          below := zone.chain.below qname qnameMem
          cuts := fun cut isCut above => absurd above (uncut cut isCut)
          parentSide := fun isDs _ => by_contra fun notRoot => childSide ⟨isDs, notRoot⟩ }
    · intro owns
      by_contra cut
      obtain ⟨hasNs, notApex⟩ := not_or.mp cut
      have isCut : zone.IsCut qname := ⟨qnameMem, notApex, not_not.mp hasNs⟩
      obtain ⟨-, isDs⟩ := owns.cuts qname isCut (List.suffix_refl _)
      have root : qname = [] := by_contra fun notRoot => childSide ⟨isDs, notRoot⟩
      have below := owns.below
      rw [root] at below notApex
      exact notApex (List.suffix_nil.mp below).symm

/-- A name on the wrong side of a delegation is also a name of the zone on the
right side, which may have the type as well. -/
theorem exists_authoritative_of_not (zoneMem : zone ∈ tree.zones) (qnameMem : qname ∈ zone.names)
    (notOwner : ¬ tree.Authoritative zone qname qtype) :
    ∃ owner, tree.Authoritative owner qname qtype ∧ qname ∈ owner.names ∧
      (qname = owner.apex ∨
        qtype ≠ QueryType.soa.toNum ∧ qtype ≠ QueryType.ns.toNum) := by
  have atCut : ∀ cut, zone.IsCut cut → cut <:+ qname → cut = qname :=
    fun cut isCut above => (zone.uncut cut qname isCut qnameMem above).symm
  by_cases parentSide : qtype = QueryType.ds.toNum ∧ zone.apex = qname ∧ qname ≠ []
  · obtain ⟨rfl, atApex, notRoot⟩ := parentSide
    obtain ⟨parent, parentMem, isCut⟩ := tree.parent zone zoneMem (atApex ▸ notRoot)
    rw [atApex] at isCut
    exact ⟨parent, authoritative_of_isCut parentMem isCut, isCut.1, .inr (by decide)⟩
  · by_cases isCut : zone.IsCut qname ∧ qtype ≠ QueryType.ds.toNum
    · obtain ⟨child, childMem, atApex⟩ := tree.child zone zoneMem qname isCut.1
      exact ⟨child, authoritative_of_apex childMem atApex isCut.2, atApex ▸ child.apex_mem,
        .inl atApex.symm⟩
    · refine absurd ?_ notOwner
      exact
        { mem := zoneMem
          below := zone.chain.below qname qnameMem
          cuts := by
            intro cut otherCut above
            obtain rfl := atCut cut otherCut above
            exact ⟨rfl, by_contra fun notDs => isCut ⟨otherCut, notDs⟩⟩
          parentSide := fun isDs atApex =>
            by_contra fun notRoot => parentSide ⟨isDs, atApex, notRoot⟩ }

end Sides

section Records

variable {tree : ZoneTree ring} {zone : TreeZone ring} {qname name : Name} {record : DnsRecord}

theorem mem_names_of_publishes (published : zone.Publishes name record) :
    name ∈ zone.names := by
  cases published with
  | nsec isChain linked =>
      rw [TreeZone.names, isChain]
      exact linked.left_mem
  | nsec3 isChain _ nameMem =>
      rw [TreeZone.names, isChain]
      exact nameMem

/-- A record that a zone publishes about a name is about it. -/
theorem about_of_publishes (published : zone.Publishes qname record) :
    ∃ bitmap, About ring qname record bitmap ∧ EncodesTypes bitmap (zone.types qname) := by
  cases published with
  | nsec isChain linked domainEq nextEq encodes =>
      exact ⟨_, .nsec (by simp [domainEq]), encodes⟩
  | nsec3 isChain published nameMem hashes owns encodes =>
      obtain ⟨_, _, _, _, algorithmEq, iterationsEq, saltEq, -⟩ := published
      refine ⟨_, .nsec3 owns ?_, encodes⟩
      rw [algorithmEq, iterationsEq, saltEq]
      exact hashes

/-- A published record is about no other name. -/
theorem name_eq_of_about {bitmap : List UInt8} (injective : tree.HashInjective qname)
    (normal : IsNormal qname) (zoneMem : zone ∈ tree.zones)
    (published : zone.Publishes name record) (about : About ring qname record bitmap) :
    name = qname ∧ EncodesTypes bitmap (zone.types name) := by
  have nameNormal := zone.normal name (mem_names_of_publishes published)
  cases published with
  | nsec isChain linked domainEq nextEq encodes =>
      cases about with
      | nsec owner =>
          rw [domainEq] at owner
          exact ⟨(nameNormal.eqIgnoreAsciiCase_iff normal).mp owner, encodes⟩
  | nsec3 isChain published nameMem hashes owns encodes =>
      cases about with
      | nsec3 aboutOwns hashed =>
          obtain ⟨_, _, _, _, algorithmEq, iterationsEq, saltEq, -⟩ := published
          rw [algorithmEq, iterationsEq, saltEq] at hashed
          obtain rfl := Option.some.inj (owns.symm.trans aboutOwns)
          exact ⟨injective zone zoneMem _ isChain zone zoneMem _ isChain name nameMem _ hashed
            hashes, encodes⟩

/-- A record from the right side settles the question in every tree that has
it. -/
theorem noData_of_provesNodata {qtype : UInt16} {authorities : List DnsRecord}
    (genuine : tree.Genuine authorities) (injective : tree.HashInjective qname)
    (normal : IsNormal qname) (recordMem : record ∈ authorities)
    (proves : ProvesNodata ring qname qtype record) : tree.NoData qname qtype := by
  obtain ⟨bitmap, about, noType, noCname, right⟩ := proves
  have isDenial : record.isNsec = true ∨ record.isNsec3 = true := by
    cases about with
    | nsec => exact .inl rfl
    | nsec3 => exact .inr rfl
  obtain ⟨zone, zoneMem, name, published⟩ := genuine record recordMem isDenial
  obtain ⟨rfl, encodes⟩ := name_eq_of_about injective normal zoneMem published about
  have nameMem := mem_names_of_publishes published
  have zoneOwns := (rightSide_iff_authoritative zoneMem nameMem encodes).mp right
  have absent : ∀ other, typeBitmapContains bitmap other = false → ¬ zone.Has name other :=
    fun other notContained has => by
      simp [(encodes.typeBitmapContains_iff other).mpr has.2] at notContained
  intro owner owns
  rw [owns.unique zoneOwns]
  exact ⟨absent qtype noType, absent _ noCname⟩

end Records

section Accepted

variable {tree : ZoneTree ring} {qname : Name} {qtype : UInt16} {now : UInt32}
  {authorities allRrsigs : List DnsRecord} {cache : Text → QueryType → Option DnsPacket}

/-- An accepted denial shows a record of some zone about the name, from either
side. -/
theorem exists_published_of_accepted (genuine : tree.Genuine authorities)
    (injective : tree.HashInjective qname) (normal : IsNormal qname)
    (accepted : validateDenial ring now authorities allRrsigs (nameText qname) qtype false
      cache = some .secure) :
    ∃ record ∈ authorities, ∃ zone ∈ tree.zones, zone.Publishes qname record ∧
      qtype ∉ zone.types qname ∧ QueryType.cname.toNum ∉ zone.types qname := by
  rcases validateDenial_secure accepted with
    ⟨-, -, proven⟩ | ⟨-, -, params, rest, qnameHash, nsec3s, hashed, proven⟩
  · obtain ⟨nsec, nsecMem, proves⟩ := any_nsecs_iff.mp proven
    simp only [nsecProvesNodata, Bool.and_eq_true, Bool.not_eq_true'] at proves
    obtain ⟨⟨owner, noType⟩, noCname⟩ := proves
    obtain ⟨zone, zoneMem, name, published⟩ := genuine _ nsecMem (.inl rfl)
    obtain ⟨rfl, encodes⟩ := name_eq_of_about injective normal zoneMem published (.nsec owner)
    refine ⟨_, nsecMem, zone, zoneMem, published, ?_, ?_⟩
    · rw [← encodes.typeBitmapContains_iff, noType]
      simp
    · rw [← encodes.typeBitmapContains_iff, noCname]
      simp
  · have paramsMem : .nsec3 params ∈ authorities :=
      (List.mem_filter.mp (nsec3s ▸ List.mem_cons_self)).1
    obtain ⟨paramsZone, paramsZoneMem, paramsName, paramsPublished⟩ :=
      genuine _ paramsMem (.inr rfl)
    obtain ⟨⟨owner, record⟩, entryMem, proves⟩ := List.any_eq_true.mp proven
    obtain ⟨nsec3, nsec3Mem, owns, rfl⟩ := mem_decodeOwners_iff.mp entryMem
    simp only [Bool.and_eq_true, Bool.not_eq_true', beq_iff_eq] at proves
    obtain ⟨⟨rfl, noType⟩, noCname⟩ := proves
    obtain ⟨zone, zoneMem, name, published⟩ := genuine _ nsec3Mem (.inr rfl)
    -- The name is hashed with the parameters of the first record, which may be
    -- of another zone than the record that matches.
    cases paramsPublished with
    | nsec3 isParamsChain paramsPublished =>
        obtain ⟨_, _, _, _, algorithmEq, iterationsEq, saltEq, -⟩ := paramsPublished
        rw [algorithmEq, iterationsEq, saltEq] at hashed
        cases published with
        | nsec3 isChain inChain nameMem hashes nameOwns encodes =>
            obtain rfl := Option.some.inj (nameOwns.symm.trans owns)
            obtain rfl := injective paramsZone paramsZoneMem _ isParamsChain zone zoneMem _
              isChain name nameMem _ hashed hashes
            refine ⟨_, nsec3Mem, zone, zoneMem,
              .nsec3 isChain inChain nameMem hashes nameOwns encodes, ?_, ?_⟩
            · rw [← encodes.typeBitmapContains_iff, noType]
              simp
            · rw [← encodes.typeBitmapContains_iff, noCname]
              simp

/-- A zone that owns the type and has it not, and of which no record about the
name is shown, may have it as well: no record shown tells the two trees
apart. -/
theorem exists_tree_with_type {owner : TreeZone ring} (genuine : tree.Genuine authorities)
    (injective : tree.HashInjective qname) (owns : tree.Authoritative owner qname qtype)
    (qnameMem : qname ∈ owner.names)
    (keeps : qname = owner.apex ∨ qtype ≠ QueryType.soa.toNum ∧ qtype ≠ QueryType.ns.toNum)
    (hidden : ∀ record ∈ authorities, ¬ owner.Publishes qname record) :
    ∃ other : ZoneTree ring, other.Genuine authorities ∧ other.HashInjective qname ∧
      ¬ other.NoData qname qtype := by
  let richer := owner.addType qname qtype keeps
  let other := tree.replace owner richer owns.mem rfl TreeZone.addType_isCut_iff
  have chainOf : ∀ zone ∈ other.zones, ∃ old ∈ tree.zones, old.chain = zone.chain := by
    rintro zone (rfl | ⟨zoneMem, -⟩)
    · exact ⟨owner, owns.mem, rfl⟩
    · exact ⟨zone, zoneMem, rfl⟩
  refine ⟨other, ?_, ?_, ?_⟩
  · intro record recordMem isDenial
    obtain ⟨zone, zoneMem, name, published⟩ := genuine record recordMem isDenial
    by_cases isOwner : zone = owner
    · subst isOwner
      have notQname : name ≠ qname := by
        rintro rfl
        exact hidden record recordMem published
      exact ⟨richer, .inl rfl, name, published.addType notQname⟩
    · exact ⟨zone, .inr ⟨zoneMem, isOwner⟩, name, published⟩
  · intro first firstMem firstChain isFirst second secondMem secondChain isSecond
    obtain ⟨oldFirst, oldFirstMem, firstEq⟩ := chainOf first firstMem
    obtain ⟨oldSecond, oldSecondMem, secondEq⟩ := chainOf second secondMem
    exact injective oldFirst oldFirstMem firstChain (firstEq.trans isFirst) oldSecond
      oldSecondMem secondChain (secondEq.trans isSecond)
  · intro noData
    have richerOwns : other.Authoritative richer qname qtype :=
      { mem := .inl rfl
        below := owns.below
        cuts := fun cut isCut => owns.cuts cut ((TreeZone.addType_isCut_iff cut).mp isCut)
        parentSide := owns.parentSide }
    exact (noData richer richerOwns).1 (TreeZone.addType_has qnameMem)

/-- Exactness of the denial of a type: an accepted denial is right in every
tree that the records shown belong to if and only if one of them is about the
name, has neither bit and is from the side that the type belongs to. -/
theorem validateDenial_nodata_sound_iff (genuine : tree.Genuine authorities)
    (injective : tree.HashInjective qname) (normal : IsNormal qname)
    (accepted : validateDenial ring now authorities allRrsigs (nameText qname) qtype false
      cache = some .secure) :
    (∀ other : ZoneTree ring, other.Genuine authorities → other.HashInjective qname →
      other.NoData qname qtype) ↔
    ∃ record ∈ authorities, ProvesNodata ring qname qtype record := by
  constructor
  · intro sound
    by_contra noProof
    obtain ⟨record, recordMem, zone, zoneMem, published, -, -⟩ :=
      exists_published_of_accepted genuine injective normal accepted
    have noData := sound tree genuine injective
    -- A record about the name from the authoritative zone would be a proof.
    have hidden : ∀ owner, tree.Authoritative owner qname qtype →
        ∀ shown ∈ authorities, ¬ owner.Publishes qname shown := by
      intro owner owns shown shownMem shownPublished
      obtain ⟨bitmap, about, encodes⟩ := about_of_publishes shownPublished
      have qnameMem := mem_names_of_publishes shownPublished
      have absent : ∀ other, ¬ owner.Has qname other →
          typeBitmapContains bitmap other = false := by
        intro other notHas
        rw [← Bool.not_eq_true, encodes.typeBitmapContains_iff]
        exact fun has => notHas ⟨qnameMem, has⟩
      exact noProof ⟨shown, shownMem, bitmap, about, absent qtype (noData owner owns).1,
        absent _ (noData owner owns).2,
        (rightSide_iff_authoritative owns.mem qnameMem encodes).mpr owns⟩
    have notOwner : ¬ tree.Authoritative zone qname qtype :=
      fun owns => hidden zone owns record recordMem published
    obtain ⟨owner, owns, qnameMem, keeps⟩ :=
      exists_authoritative_of_not zoneMem (mem_names_of_publishes published) notOwner
    obtain ⟨other, otherGenuine, otherInjective, hasData⟩ :=
      exists_tree_with_type genuine injective owns qnameMem keeps (hidden owner owns)
    exact hasData (sound other otherGenuine otherInjective)
  · rintro ⟨record, recordMem, proves⟩ other otherGenuine otherInjective
    exact noData_of_provesNodata otherGenuine otherInjective normal recordMem proves

end Accepted

end ZoneTree

/-! ## A delegation with an A RRset at the apex of the child -/

/-- A zone of the tree signed with NSEC. -/
def nsecTreeZone {ring : Ring} (zone : NsecZone) (types : Name → List UInt16)
    (normal : ∀ owner ∈ zone.owners, IsNormal owner)
    (soaIff : ∀ owner ∈ zone.owners, QueryType.soa.toNum ∈ types owner ↔ owner = zone.apex)
    (uncut : ∀ cut ∈ zone.owners, ∀ owner ∈ zone.owners, cut ≠ zone.apex →
      QueryType.ns.toNum ∈ types cut → cut <:+ owner → owner = cut) : TreeZone ring where
  chain := .nsec zone
  types := types
  apex_mem := zone.apex_mem
  normal := normal
  soa_iff := soaIff
  uncut := fun cut owner isCut ownerMem =>
    uncut cut isCut.1 owner ownerMem isCut.2.1 isCut.2.2

/-- The types of a sample zone: a signed apex, delegations, and A RRsets. -/
def sampleTypes (apex : Name) (apexTypes : List UInt16) (cuts : List Name) (name : Name) :
    List UInt16 :=
  if name = apex then apexTypes
  else if name ∈ cuts then [2, 43, 46, 47]
  else [1, 46, 47]

def rootNsecZone : NsecZone where
  apex := []
  owners := [[], [text "test"]]
  apex_mem := by decide +kernel
  below := by decide +kernel
  sorted := by decide +kernel

def testNsecZone : NsecZone where
  apex := [text "test"]
  owners := [[text "test"], [text "sub", text "test"], [text "www", text "test"]]
  apex_mem := by decide +kernel
  below := by decide +kernel
  sorted := by decide +kernel

def subNsecZone : NsecZone where
  apex := [text "sub", text "test"]
  owners := [[text "sub", text "test"]]
  apex_mem := by decide +kernel
  below := by decide +kernel
  sorted := by decide +kernel

/-- The NSEC of the delegation in `test`, with its RRSIG. -/
def delegationNsec : List DnsRecord :=
  [ sampleNsec (text "sub.test") (text "www.test") (octets 8 0x0006200000000013),
    sampleRrsig (text "sub.test") .nsec 2 27232 (text "test")
      0xcc302488714b0c1dc89578c1a58664edb9be63accee6ff1ab8b828a3e6319fb1932eb0b93df4ed407e0ea3265a6e56000828da0b5a2ff9ef0a3e3f415a9eb705 ]

def nodataRing : Ring :=
  tableRing
    [ (sampleZoneKey,
        octets 62 0x002f0f0200000e107fffffff000000016a6004746573740003737562047465737400002f000100000e100012037777770474657374000006200000000013,
        octets 64 0xcc302488714b0c1dc89578c1a58664edb9be63accee6ff1ab8b828a3e6319fb1932eb0b93df4ed407e0ea3265a6e56000828da0b5a2ff9ef0a3e3f415a9eb705),
      (sampleZoneKey,
        octets 58 0x002f0f0200000e107fffffff000000016a6004746573740003777777047465737400002f000100000e10000e0474657374000006400000000003,
        octets 64 0x99951f705ec05fa509e296adf8dace9a92357df4111cbffe3d1607160bf8b385e443d58e40541b9ab60d8fb7ab8764c63392d10cc101688f0f839c95a445d30b) ]
    [] []

def rootTreeZone : TreeZone nodataRing :=
  nsecTreeZone rootNsecZone (sampleTypes [] [2, 6, 46, 47, 48] [[text "test"]])
    (by decide +kernel) (by decide +kernel) (by decide +kernel)

def testTreeZone : TreeZone nodataRing :=
  nsecTreeZone testNsecZone
    (sampleTypes [text "test"] [2, 6, 46, 47, 48] [[text "sub", text "test"]])
    (by decide +kernel) (by decide +kernel) (by decide +kernel)

def subTreeZone : TreeZone nodataRing :=
  nsecTreeZone subNsecZone (sampleTypes [text "sub", text "test"] [1, 2, 6, 46, 47, 48] [])
    (by decide +kernel) (by decide +kernel) (by decide +kernel)

def sampleTree : ZoneTree nodataRing where
  zones := {rootTreeZone, testTreeZone, subTreeZone}
  unique := by
    rintro first (rfl | rfl | rfl) second (rfl | rfl | rfl) same
    all_goals first | rfl | exact absurd same (by decide +kernel)
  parent := by
    rintro zone (rfl | rfl | rfl) notRoot
    · exact absurd rfl notRoot
    · exact ⟨rootTreeZone, .inl rfl, by decide +kernel, by decide +kernel, by decide +kernel⟩
    · exact ⟨testTreeZone, .inr (.inl rfl), by decide +kernel, by decide +kernel,
        by decide +kernel⟩
  child := by
    have rootCut : ∀ cut ∈ rootTreeZone.names, cut ≠ rootTreeZone.apex →
        cut = [text "test"] := by decide +kernel
    have testCut : ∀ cut ∈ testTreeZone.names, QueryType.ns.toNum ∈ testTreeZone.types cut →
        cut ≠ testTreeZone.apex → cut = [text "sub", text "test"] := by decide +kernel
    have subCut : ∀ cut ∈ subTreeZone.names, cut = subTreeZone.apex := by decide +kernel
    rintro zone (rfl | rfl | rfl) cut ⟨cutMem, notApex, hasNs⟩
    · exact ⟨testTreeZone, .inr (.inl rfl), (rootCut cut cutMem notApex).symm⟩
    · exact ⟨subTreeZone, .inr (.inr rfl), (testCut cut cutMem hasNs notApex).symm⟩
    · exact absurd (subCut cut cutMem) notApex

/-- An NSEC of `test` and its RRSIG are genuine. -/
theorem genuine_of_testNsec {nsec : Nsec} {sig : Rrsig} {owner next : Name}
    {bitmap : List UInt8} (linked : Linked testNsecZone.owners owner next)
    (domainEq : nsec.domain = nameText owner) (nextEq : nsec.nextDomain = nameText next)
    (bitmapEq : nsec.typeBitmap = 0 :: 6 :: bitmap) (sixOctets : bitmap.length = 6)
    (small : (testTreeZone.types owner).all (fun qtype => qtype.toNat < 48) = true)
    (bits : ∀ index < 48,
      bitAt bitmap index = true ↔ UInt16.ofNat index ∈ testTreeZone.types owner) :
    sampleTree.Genuine [.nsec nsec, .rrsig sig] := by
  intro record recordMem isDenial
  obtain rfl | rfl := List.mem_pair.mp recordMem
  · have encodes : EncodesTypes (0 :: bitmap.length.toUInt8 :: bitmap)
        (testTreeZone.types owner) :=
      encodesTypes_of_window (by omega) (by omega) (by simpa [sixOctets] using small)
        (by simpa [sixOctets] using bits)
    rw [sixOctets] at encodes
    exact ⟨testTreeZone, .inr (.inl rfl), owner,
      .nsec rfl linked domainEq nextEq (bitmapEq ▸ encodes)⟩
  · simp [DnsRecord.isNsec, DnsRecord.isNsec3] at isDenial

theorem sampleTree_hashInjective (qname : Name) : sampleTree.HashInjective qname := by
  rintro first (rfl | rfl | rfl) chain isNsec3 <;> cases isNsec3

/-- The NSEC of `www.test` shows that AAAA is absent. -/
theorem validateDenial_nodata_sound_iff_signedDenial :
    sampleTree.NoData [text "www", text "test"] QueryType.aaaa.toNum := by
  have linked : Linked testNsecZone.owners [text "www", text "test"] [text "test"] := by
    decide +kernel
  have genuine : sampleTree.Genuine signedDenial.authorities :=
    genuine_of_testNsec linked (by decide +kernel) (by decide +kernel) rfl rfl
      (by decide +kernel) (by decide +kernel)
  have accepted : validateDenial nodataRing 1700000000 signedDenial.authorities
      (signedDenial.authorities.filter DnsRecord.isRrsig) (nameText [text "www", text "test"])
      QueryType.aaaa.toNum false forgedKeys = some .secure := by decide +kernel
  have proven : ∃ record ∈ signedDenial.authorities,
      ProvesNodata nodataRing [text "www", text "test"] QueryType.aaaa.toNum record :=
    ⟨_, List.mem_cons_self, _, .nsec (by decide +kernel), by decide +kernel,
      by decide +kernel, by decide +kernel⟩
  have injective := sampleTree_hashInjective [text "www", text "test"]
  exact (ZoneTree.validateDenial_nodata_sound_iff genuine injective (by decide +kernel)
    accepted).mpr proven sampleTree genuine injective

/-- The NSEC of the delegation gets the A RRset at the apex of the child
denied. -/
theorem delegationNsec_denied :
    sampleTree.Genuine delegationNsec ∧
      sampleTree.HashInjective [text "sub", text "test"] ∧
      validateDenial nodataRing 1700000000 delegationNsec
        (delegationNsec.filter DnsRecord.isRrsig) (nameText [text "sub", text "test"])
        QueryType.a.toNum false forgedKeys = some .secure ∧
      sampleTree.Authoritative subTreeZone [text "sub", text "test"] QueryType.a.toNum ∧
      subTreeZone.Has [text "sub", text "test"] QueryType.a.toNum := by
  have linked : Linked testNsecZone.owners [text "sub", text "test"]
      [text "www", text "test"] := by decide +kernel
  have genuine : sampleTree.Genuine delegationNsec :=
    genuine_of_testNsec linked (by decide +kernel) (by decide +kernel) rfl rfl
      (by decide +kernel) (by decide +kernel)
  refine ⟨genuine, sampleTree_hashInjective _, by decide +kernel, ?_, by decide +kernel,
    by decide +kernel⟩
  exact ZoneTree.authoritative_of_apex (.inr (.inr rfl)) rfl (by decide)

end Numa
