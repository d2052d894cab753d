import Numa.Base32Hex
import Numa.CanonicalName
import Numa.DenialTrust

/-!
# Denial of names by NSEC3

A zone signed with NSEC3 chains the hashes of its names.  With Opt-Out,
insecure delegations may be missing from the chain where the record over the
gap has the flag.  An accepted denial shows the closest encloser of the name by
its hash and covers the name one label below it and the wildcard, so both do
not exist as long as the records that cover them have no Opt-Out flag.
-/

namespace Numa

/-- The hash of a name with the parameters of a zone. -/
def HashesTo (ring : Ring) (iterations : UInt16) (salt : List UInt8) (name : Name)
    (hash : List UInt8) : Prop :=
  nsec3Hash ring (nameText name) 1 iterations salt = some (some hash)

/-- A zone with an NSEC3 chain as RFC 5155 builds it.  The names are the owner
names and the empty non-terminals. -/
structure Nsec3Zone (ring : Ring) where
  apex : Name
  iterations : UInt16
  salt : List UInt8
  names : List Name
  below : ∀ name ∈ names, apex <:+ name
  closed : ∀ name ∈ names, ∀ ancestor, apex <:+ ancestor → ancestor <:+ name → ancestor ∈ names
  /-- The hashes of the chain in their order. -/
  chain : List (List UInt8)
  sorted : StrictlySorted compare chain
  owned : ∀ hash ∈ chain, ∃ name ∈ names, HashesTo ring iterations salt name hash
  /-- Does the record of this hash have the Opt-Out flag? -/
  optOut : List UInt8 → Bool
  covered : ∀ name ∈ names, ∀ hash, HashesTo ring iterations salt name hash →
    hash ∈ chain ∨ ∀ first last, Linked chain first last →
      inGap compare first last hash = true → optOut first = true

/-- The Opt-Out flag of a record. -/
def Nsec3.isOptOut (nsec3 : Nsec3) : Bool :=
  nsec3.flags &&& 1 != 0

section Zone

variable {ring : Ring}

/-- The zone has this NSEC3 record. -/
def Nsec3Zone.Publishes (zone : Nsec3Zone ring) (nsec3 : Nsec3) : Prop :=
  ∃ first last, Linked zone.chain first last ∧
    nsec3.domain = nameText (base32hexEncode first :: zone.apex) ∧
    nsec3.hashAlgorithm = 1 ∧ nsec3.iterations = zone.iterations ∧ nsec3.salt = zone.salt ∧
    nsec3.nextHashedOwner = last ∧ nsec3.isOptOut = zone.optOut first

/-- The record covers the hash of the name. -/
def Nsec3Zone.Covers (zone : Nsec3Zone ring) (nsec3 : Nsec3) (name : Name) : Prop :=
  ∃ owner hash, nsec3OwnerHash nsec3.domain = some owner ∧
    HashesTo ring zone.iterations zone.salt name hash ∧
    nsec3HashInRange owner nsec3.nextHashedOwner hash = true

/-- The longest existing ancestor of a name. -/
def Nsec3Zone.IsClosestEncloser (zone : Nsec3Zone ring) (qname encloser : Name) : Prop :=
  encloser ∈ zone.names ∧ encloser <:+ qname ∧
    ∀ longer ∈ zone.names, longer <:+ qname → longer.length ≤ encloser.length

theorem isPlainOctet_of_mem_base32hexEncode {octets : List UInt8} {ch : UInt8}
    (chMem : ch ∈ base32hexEncode octets) : isPlainOctet ch = true := by
  have digits : ∀ value < 32, isPlainOctet (base32hexDigit value) = true := by decide +kernel
  obtain ⟨value, valueLt, rfl⟩ := exists_digit_of_mem_encode chMem
  exact digits value valueLt

/-- A first label without escapes is found again. -/
theorem firstLabel_nameText {label : List UInt8} (plain : ∀ ch ∈ label, isPlainOctet ch = true)
    (apex : Name) : ((nameText (label :: apex)).splitOn dot).headD [] = label := by
  have noDot : dot ∉ label := fun dotMem => (octetText_of_plain dot (plain dot dotMem)).2.2 rfl
  by_cases root : apex = []
  · subst root
    simp [nameText, labelText_of_plain plain, List.splitOn_eq_singleton noDot]
  · rw [nameText_cons root, labelText_of_plain plain, List.splitOn_append_cons_self,
      List.splitOn_eq_singleton noDot]
    rfl

/-- The program reads the hash off the owner name of a record. -/
theorem nsec3OwnerHash_nameText (hash : List UInt8) (apex : Name) :
    nsec3OwnerHash (nameText (base32hexEncode hash :: apex)) = some hash := by
  rw [nsec3OwnerHash, firstLabel_nameText fun _ => isPlainOctet_of_mem_base32hexEncode,
    base32hexDecode_encode]

theorem nsec3HashInRange_eq_inGap (owner next target : List UInt8) :
    nsec3HashInRange owner next target = inGap compare owner next target :=
  rfl

/-- A name that a record without Opt-Out covers does not exist. -/
theorem Nsec3Zone.Publishes.not_mem_names {zone : Nsec3Zone ring} {nsec3 : Nsec3} {name : Name}
    (published : zone.Publishes nsec3) (covers : zone.Covers nsec3 name)
    (noOptOut : nsec3.isOptOut = false) : name ∉ zone.names := by
  obtain ⟨first, last, linked, domainEq, -, -, -, rfl, flagEq⟩ := published
  obtain ⟨owner, hash, owns, hashes, inRange⟩ := covers
  rw [domainEq, nsec3OwnerHash_nameText] at owns
  obtain rfl := Option.some.inj owns
  rw [nsec3HashInRange_eq_inGap] at inRange
  intro nameMem
  rcases zone.covered name nameMem hash hashes with inChain | optOut
  · exact linked.not_mem_of_inGap zone.sorted inRange inChain
  · rw [flagEq, optOut first _ linked inRange] at noOptOut
    simp at noOptOut

end Zone

section Loop

variable {ring : Ring} {params : Nsec3} {decoded : List (List UInt8 × DnsRecord)}

variable (ring params decoded) in
/-- The three hashes of a closest-encloser proof: the encloser is shown, the
name one label below it and the wildcard are covered. -/
def ShowsAbsence (nextCloser encloser : List Text) : Prop :=
  ∃ ce nc wc,
    nsec3Hash ring (Text.join encloser) params.hashAlgorithm params.iterations params.salt =
      some (some ce) ∧
    nsec3Hash ring (Text.join nextCloser) params.hashAlgorithm params.iterations params.salt =
      some (some nc) ∧
    nsec3Hash ring (Text.join encloser).wildcard params.hashAlgorithm params.iterations
      params.salt = some (some wc) ∧
    (∃ entry ∈ decoded, entry.1 = ce) ∧ nsec3AnyCovers decoded nc = true ∧
    nsec3AnyCovers decoded wc = true

/-- A loop that succeeds has found a proof at one of the ancestors. -/
theorem exists_showsAbsence_of_loop {label : Text} {labels : List Text}
    {nextHash : Option (List UInt8)} {hashes : List (Option (List UInt8))}
    (nextHashed : nsec3Hash ring (Text.join (label :: labels)) params.hashAlgorithm
      params.iterations params.salt = some nextHash)
    (hashed : (nonEmptyTails labels).mapM (fun labels => nsec3Hash ring (Text.join labels)
      params.hashAlgorithm params.iterations params.salt) = some hashes)
    (proven : nsec3NxdomainLoop ring params decoded nextHash
      ((nonEmptyTails labels).zip hashes) = some true) :
    ∃ first encloser, first :: encloser <:+ label :: labels ∧ encloser ≠ [] ∧
      ShowsAbsence ring params decoded (first :: encloser) encloser := by
  induction labels generalizing label nextHash hashes with
  | nil => simp [nonEmptyTails, nsec3NxdomainLoop] at proven
  | cons next labels ih =>
      rw [nonEmptyTails, List.mapM_cons] at hashed
      simp only [Option.bind_eq_bind, Option.pure_def, Option.bind_eq_some_iff,
        Option.some.injEq] at hashed
      obtain ⟨ceHash, ceHashed, laterHashes, laterHashed, rfl⟩ := hashed
      have later : nsec3NxdomainLoop ring params decoded ceHash
          ((nonEmptyTails labels).zip laterHashes) = some true →
          ∃ first encloser, first :: encloser <:+ label :: next :: labels ∧ encloser ≠ [] ∧
            ShowsAbsence ring params decoded (first :: encloser) encloser := by
        intro further
        obtain ⟨first, encloser, isTail, notRoot, shows⟩ := ih ceHashed laterHashed further
        exact ⟨first, encloser, isTail.trans (List.suffix_cons _ _), notRoot, shows⟩
      rw [nonEmptyTails, List.zip_cons_cons] at proven
      rcases ceHash with _ | ce
      · exact later (by simpa [nsec3NxdomainLoop] using proven)
      · rcases nextHash with _ | nc
        · exact later (by simpa [nsec3NxdomainLoop] using proven)
        · simp only [nsec3NxdomainLoop] at proven
          split at proven
          · rename_i shown
            simp only [Option.bind_eq_bind, Option.bind_eq_some_iff] at proven
            obtain ⟨wcHash, wcHashed, proven⟩ := proven
            cases wcHash with
            | none => exact later proven
            | some wc =>
                simp only at proven
                split at proven
                · rename_i wcCovered
                  simp only [Bool.and_eq_true, List.any_eq_true, beq_iff_eq] at shown
                  exact ⟨label, next :: labels, List.suffix_refl _, by simp, ce, nc, wc,
                    ceHashed, nextHashed, wcHashed, shown.1, shown.2, wcCovered⟩
                · exact later proven
          · exact later proven

theorem exists_showsAbsence {qname : Text}
    (proven : nsec3ProvesNxdomain ring params decoded qname = some true) :
    ∃ first encloser, first :: encloser <:+ qname.labels ∧ encloser ≠ [] ∧
      ShowsAbsence ring params decoded (first :: encloser) encloser := by
  unfold nsec3ProvesNxdomain at proven
  simp only [Option.bind_eq_bind, Option.bind_eq_some_iff] at proven
  obtain ⟨hashes, hashed, proven⟩ := proven
  cases labels : qname.labels with
  | nil => simp [labels, nonEmptyTails] at proven
  | cons label rest =>
      rw [labels, nonEmptyTails, List.mapM_cons] at hashed
      simp only [Option.bind_eq_bind, Option.pure_def, Option.bind_eq_some_iff,
        Option.some.injEq] at hashed
      obtain ⟨hash, firstHashed, laterHashes, laterHashed, rfl⟩ := hashed
      rw [labels, nonEmptyTails, List.zip_cons_cons] at proven
      exact exists_showsAbsence_of_loop firstHashed laterHashed proven

end Loop

section Sound

variable {ring : Ring} {now : UInt32} {authorities allRrsigs : List DnsRecord} {qtype : UInt16}
  {cache : Text → QueryType → Option DnsPacket} {zone : Nsec3Zone ring} {qname name : Name}

theorem mem_decodeOwners_iff {entry : List UInt8 × DnsRecord} :
    entry ∈ decodeOwners (authorities.filter DnsRecord.isNsec3) ↔
      ∃ nsec3, .nsec3 nsec3 ∈ authorities ∧ nsec3OwnerHash nsec3.domain = some entry.1 ∧
        entry.2 = .nsec3 nsec3 := by
  rw [decodeOwners, List.mem_filterMap]
  constructor
  · rintro ⟨record, recordMem, decoded⟩
    obtain ⟨recordMem, isNsec3⟩ := List.mem_filter.mp recordMem
    obtain ⟨nsec3, rfl⟩ := DnsRecord.isNsec3_iff.mp isNsec3
    obtain ⟨owner, owns, rfl⟩ := Option.map_eq_some_iff.mp decoded
    exact ⟨nsec3, recordMem, owns, rfl⟩
  · rintro ⟨nsec3, nsec3Mem, owns, recordEq⟩
    exact ⟨.nsec3 nsec3, List.mem_filter.mpr ⟨nsec3Mem, rfl⟩,
      Option.map_eq_some_iff.mpr ⟨entry.1, owns, by rw [← recordEq]⟩⟩

/-- A covered hash is covered by a record of the authority section. -/
theorem exists_covers_of_nsec3AnyCovers {hash : List UInt8}
    (hashes : HashesTo ring zone.iterations zone.salt name hash)
    (covered : nsec3AnyCovers (decodeOwners (authorities.filter DnsRecord.isNsec3)) hash =
      true) :
    ∃ nsec3, .nsec3 nsec3 ∈ authorities ∧ zone.Covers nsec3 name := by
  obtain ⟨⟨owner, record⟩, entryMem, inRange⟩ := List.any_eq_true.mp covered
  obtain ⟨nsec3, nsec3Mem, owns, rfl⟩ := mem_decodeOwners_iff.mp entryMem
  exact ⟨nsec3, nsec3Mem, owner, hash, owns, hashes, inRange⟩

/-- A hash that some record is owned by is the hash of an existing name. -/
theorem exists_name_of_shown {hash : List UInt8}
    (genuine : ∀ nsec3, .nsec3 nsec3 ∈ authorities → zone.Publishes nsec3)
    (shown : ∃ entry ∈ decodeOwners (authorities.filter DnsRecord.isNsec3), entry.1 = hash) :
    ∃ name ∈ zone.names, HashesTo ring zone.iterations zone.salt name hash := by
  obtain ⟨entry, entryMem, rfl⟩ := shown
  obtain ⟨nsec3, nsec3Mem, owns, -⟩ := mem_decodeOwners_iff.mp entryMem
  obtain ⟨first, last, linked, domainEq, -⟩ := genuine nsec3 nsec3Mem
  rw [domainEq, nsec3OwnerHash_nameText] at owns
  rw [← Option.some.inj owns]
  exact zone.owned first linked.left_mem

/-- A closest-encloser proof without Opt-Out: the name does not exist, and the
encloser shown is its closest one. -/
theorem Nsec3Zone.closest_of_not_mem {first : List UInt8} {encloser : Name}
    (isTail : first :: encloser <:+ qname) (encloserMem : encloser ∈ zone.names)
    (absent : first :: encloser ∉ zone.names) :
    qname ∉ zone.names ∧
      ∀ closest, zone.IsClosestEncloser qname closest → closest = encloser := by
  have belowApex : zone.apex <:+ first :: encloser :=
    (zone.below encloser encloserMem).trans (List.suffix_cons _ _)
  have absentBelow : ∀ longer ∈ zone.names, ¬ first :: encloser <:+ longer :=
    fun longer longerMem above => absent (zone.closed longer longerMem _ belowApex above)
  have encloserTail : encloser <:+ qname := (List.suffix_cons _ _).trans isTail
  refine ⟨fun qnameMem => absentBelow qname qnameMem isTail, ?_⟩
  rintro closest ⟨closestMem, closestTail, longest⟩
  have atLeast : encloser.length ≤ closest.length := longest encloser encloserMem encloserTail
  have atMost : closest.length ≤ encloser.length := by
    by_contra longer
    exact absentBelow closest closestMem
      (List.suffix_of_suffix_length_le isTail closestTail (by simp; omega))
  exact (List.suffix_of_suffix_length_le closestTail encloserTail atMost).eq_of_length
    (by omega)

end Sound

/-! ## A chain of one record, with and without Opt-Out -/

/-- The hash of `test`. -/
def apexHash : List UInt8 :=
  octets 20 0x2f852144acc01cb593698cb2ba78f9728d08679f

def nsec3Ring : Ring :=
  tableRing
    [ (sampleZoneKey,
        octets 108 0x00320f0200000e107fffffff000000016a600474657374002035753269326835636f30656262347239686970626b75377065613667677073760474657374000032000100000e1000230100000000142f852144acc01cb593698cb2ba78f9728d08679f000722000000000290,
        octets 64 0x323d9a3bfd70826958041799864feef6bab58476b4a52978d559cb8fc1dd03db1c1d7ce319b64b80207f703e457c8fb093dad7a917af45ec418736612bc41405),
      (sampleZoneKey,
        octets 108 0x00320f0200000e107fffffff000000016a600474657374002035753269326835636f30656262347239686970626b75377065613667677073760474657374000032000100000e1000230101000000142f852144acc01cb593698cb2ba78f9728d08679f000722000000000290,
        octets 64 0x06964e080effbdd04a7e8bd18bab15d934a25c875e829b26107b20797df82e55a0507842eca9eb9e60f9b37dc833aedceb586ac205ab00d58dd14213bfc2a60f) ]
    [ (octets 6 0x047465737400, apexHash),
      (octets 8 0x0162047465737400, octets 20 0x220a88a06e79b5377a8431bb09f2f4cf89a91d00),
      (octets 10 0x03737562047465737400, octets 20 0x1bfe46d669a9f279686e1843ee754cbca8f7cffd),
      (octets 8 0x012a047465737400, octets 20 0xcf929c29d6422baf0ffb41a1914a034e2a0eb1e3) ]
    []

/-- The NSEC3 record of the apex, which covers every other hash. -/
def apexNsec3 (flags : UInt8) : Nsec3 where
  domain := nameText [base32hexEncode apexHash, text "test"]
  hashAlgorithm := 1
  flags := flags
  iterations := 0
  salt := []
  nextHashedOwner := apexHash
  typeBitmap := octets 9 0x000722000000000290
  ttl := 3600

def apexNsec3Section (flags : UInt8) (signature : Nat) : List DnsRecord :=
  [ .nsec3 (apexNsec3 flags),
    sampleRrsig (apexNsec3 flags).domain .nsec3 2 27232 (text "test") signature ]

def closedSection : List DnsRecord :=
  apexNsec3Section 0 0x323d9a3bfd70826958041799864feef6bab58476b4a52978d559cb8fc1dd03db1c1d7ce319b64b80207f703e457c8fb093dad7a917af45ec418736612bc41405

def optOutSection : List DnsRecord :=
  apexNsec3Section 1 0x06964e080effbdd04a7e8bd18bab15d934a25c875e829b26107b20797df82e55a0507842eca9eb9e60f9b37dc833aedceb586ac205ab00d58dd14213bfc2a60f

theorem hashesTo_apex {hash : List UInt8} :
    HashesTo nsec3Ring 0 [] [text "test"] hash ↔ hash = apexHash := by
  have hashed : nsec3Hash nsec3Ring (nameText [text "test"]) 1 0 [] =
      some (some apexHash) := by decide +kernel
  rw [HashesTo, hashed]
  simp [eq_comm]

/-- A zone with the apex only. -/
def closedNsec3Zone : Nsec3Zone nsec3Ring where
  apex := [text "test"]
  iterations := 0
  salt := []
  names := [[text "test"]]
  below := by decide +kernel
  closed := by
    intro name nameMem ancestor below above
    obtain rfl := List.mem_singleton.mp nameMem
    exact List.mem_singleton.mpr (above.eq_of_length_le below.length_le)
  chain := [apexHash]
  sorted := by decide +kernel
  owned := by
    intro hash hashMem
    exact ⟨_, List.mem_singleton.mpr rfl, hashesTo_apex.mpr (List.mem_singleton.mp hashMem)⟩
  optOut _ := false
  covered := by
    intro name nameMem hash hashes
    obtain rfl := List.mem_singleton.mp nameMem
    exact .inl (List.mem_singleton.mpr (hashesTo_apex.mp hashes))

/-- A zone with an insecure delegation of `sub.test` and Opt-Out. -/
def optOutNsec3Zone : Nsec3Zone nsec3Ring where
  apex := [text "test"]
  iterations := 0
  salt := []
  names := [[text "test"], [text "sub", text "test"]]
  below := by decide +kernel
  closed := by
    intro name nameMem ancestor below above
    rcases List.mem_pair.mp nameMem with rfl | rfl
    · exact List.mem_pair.mpr (.inl (above.eq_of_length_le below.length_le))
    · rcases List.suffix_cons_iff.mp above with rfl | above
      · exact List.mem_pair.mpr (.inr rfl)
      · exact List.mem_pair.mpr (.inl (above.eq_of_length_le below.length_le))
  chain := [apexHash]
  sorted := by decide +kernel
  owned := by
    intro hash hashMem
    exact ⟨_, List.mem_pair.mpr (.inl rfl), hashesTo_apex.mpr (List.mem_singleton.mp hashMem)⟩
  optOut _ := true
  covered := by
    intro name nameMem hash hashes
    exact .inr fun _ _ _ _ => rfl

theorem closedSection_published :
    ∀ nsec3, .nsec3 nsec3 ∈ closedSection → closedNsec3Zone.Publishes nsec3 := by
  intro nsec3 nsec3Mem
  obtain rfl : nsec3 = apexNsec3 0 := by
    simpa [closedSection, apexNsec3Section, sampleRrsig] using nsec3Mem
  exact ⟨apexHash, apexHash, by decide +kernel, rfl, rfl, rfl, rfl, rfl, by decide +kernel⟩

theorem optOutSection_published :
    ∀ nsec3, .nsec3 nsec3 ∈ optOutSection → optOutNsec3Zone.Publishes nsec3 := by
  intro nsec3 nsec3Mem
  obtain rfl : nsec3 = apexNsec3 1 := by
    simpa [optOutSection, apexNsec3Section, sampleRrsig] using nsec3Mem
  exact ⟨apexHash, apexHash, by decide +kernel, rfl, rfl, rfl, rfl, rfl, by decide +kernel⟩

/-- No name one label below the apex with another hash is taken for it. -/
theorem apex_of_hashesTo {label : List UInt8} {ancestor : Name} {hash other : List UInt8}
    (hashed : nsec3Hash nsec3Ring (nameText [label, text "test"]) 1 0 [] = some (some other))
    (different : other ≠ apexHash) (notRoot : ancestor ≠ [])
    (isTail : ancestor <:+ [label, text "test"])
    (apexHashes : HashesTo nsec3Ring 0 [] [text "test"] hash)
    (hashes : HashesTo nsec3Ring 0 [] ancestor hash) : [text "test"] = ancestor := by
  rcases List.suffix_cons_iff.mp isTail with rfl | isTail
  · have same : other = hash := by simpa [HashesTo, hashed] using hashes
    exact absurd (same.trans (hashesTo_apex.mp apexHashes)) different
  · rcases List.suffix_cons_iff.mp isTail with rfl | isTail
    · rfl
    · exact absurd (List.suffix_nil.mp isTail) notRoot

end Numa
