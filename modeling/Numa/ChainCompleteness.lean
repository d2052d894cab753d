import Numa.AnswerSoundness
import Numa.NameText

/-!
# Completeness of the chain of trust

An honest hierarchy is a path of zones from the root down, each signed, with
its keys committed to by a signed DS in the zone above it.  `validate_chain`
looks for the zone above at `parent_zone`, so it follows the path exactly when
that is where each zone of the path was delegated from.
-/

namespace Numa

/-- A zone with the answers its servers give for its DNSKEY and those the
servers of the zone above give for its DS. -/
structure SignedZone where
  labels : List (List UInt8)
  dnskeyAnswer : List DnsRecord
  dsAnswer : List DnsRecord

/-- The text the validator asks for the zone by. -/
def SignedZone.name (zone : SignedZone) : Text :=
  zoneText zone.labels

/-- Do all the names in the record have a wire form? -/
def hasWireForms (record : DnsRecord) : Bool :=
  (recordToCanonicalWire 0 record).isSome && match record with
    | .rrsig sig => (nameToWire sig.signerName).isSome
    | _ => true

def Encodable (records : List DnsRecord) : Prop :=
  ∀ record ∈ records, hasWireForms record = true

instance (records : List DnsRecord) : Decidable (Encodable records) :=
  inferInstanceAs (Decidable (∀ record ∈ records, hasWireForms record = true))

section Signed

variable {ring : Ring} {now : UInt32} {records : List DnsRecord} {rrsetType : QueryType}

theorem rrsigVerifiedBy_ne_none_of_encodable (encodable : Encodable records)
    {rrsig : DnsRecord} (rrsigMem : rrsig ∈ records) (dk : DnsRecord) :
    rrsigVerifiedBy ring now rrsig dk (rrsetOfType rrsetType records) ≠ none := by
  have wireForms : ∀ record ∈ records, (recordToCanonicalWire 0 record).isSome = true :=
    fun record recordMem => (Bool.and_eq_true_iff.mp (encodable record recordMem)).1
  cases rrsig with
  | rrsig sig =>
      have signerEncodes := (Bool.and_eq_true_iff.mp (encodable _ rrsigMem)).2
      refine rrsigVerifiedBy_ne_none (buildSignedData_isSome_iff.mpr
        ⟨signerEncodes, fun record recordMem => ?_⟩) dk
      exact wireForms record (List.mem_of_mem_filter recordMem)
  | _ => simp [rrsigVerifiedBy]

/-- An RRset signed by one of the keys passes the check. -/
theorem verifyRrsetSigned_of_signedBy (encodable : Encodable records)
    (nonempty : rrsetOfType rrsetType records ≠ []) {signingKeys : List DnsRecord}
    {dk : DnsRecord} (dkMem : dk ∈ signingKeys)
    (signed : SignedBy ring now records rrsetType dk) :
    verifyRrsetSigned ring now records rrsetType signingKeys = some true := by
  obtain ⟨rrsig, rrsigMem, covers, verified⟩ := signed
  have keysReturn : ∀ record ∈ records, ∀ key ∈ signingKeys,
      rrsigVerifiedBy ring now record key (rrsetOfType rrsetType records) ≠ none :=
    fun record recordMem key _ => rrsigVerifiedBy_ne_none_of_encodable encodable recordMem key
  rw [verifyRrsetSigned, if_neg nonempty]
  refine anyM_eq_true_of_mem ?_ rrsigMem ?_
  · intro record recordMem
    split
    · exact anyM_ne_none (keysReturn record recordMem)
    · simp
  · rw [if_pos covers]
    exact anyM_eq_true_of_mem (keysReturn rrsig rrsigMem) dkMem verified

end Signed

variable {W : Type} (ctx : ValidationCtx W) (start : W)

/-- The zone has a DS for a key of its own that signed its keys. -/
def DsCommits (zone : SignedZone) : Prop :=
  ∃ ds ∈ zone.dsAnswer, ∃ ksk ∈ zone.dnskeyAnswer,
    verifyDs ctx.ring ds ksk zone.name = some true ∧
    ∀ world, Reaches ctx start world →
      SignedBy ctx.ring (ctx.now world) zone.dnskeyAnswer .dnskey ksk

/-- A path of correctly signed zones, from a zone up to the root.  The
signatures are valid whenever the validator reads its clock. -/
inductive HonestPath : List SignedZone → Prop
  | root {zone : SignedZone} {key anchor : DnsRecord} (isRoot : zone.labels = [])
      (encodable : Encodable zone.dnskeyAnswer) (keyMem : key ∈ zone.dnskeyAnswer)
      (anchorMem : anchor ∈ ctx.trustAnchors) (sameKey : sameDnskey key anchor = true)
      (signed : ∀ world, Reaches ctx start world →
        SignedBy ctx.ring (ctx.now world) zone.dnskeyAnswer .dnskey anchor) :
      HonestPath [zone]
  | delegated {child parent : SignedZone} {zones : List SignedZone} {parentKey : DnsRecord}
      (below : parent.labels <:+ child.labels) (different : parent.labels ≠ child.labels)
      (proper : ProperLabels child.labels)
      (named : (nameToWire child.name).isSome = true)
      (encodable : Encodable child.dnskeyAnswer) (dsEncodable : Encodable child.dsAnswer)
      (ownKeys : anchorPresent ctx child.dnskeyAnswer = false)
      (committed : DsCommits ctx start child)
      (parentKeyMem : parentKey ∈ parent.dnskeyAnswer)
      (dsSigned : ∀ world, Reaches ctx start world →
        SignedBy ctx.ring (ctx.now world) child.dsAnswer .ds parentKey)
      (parents : HonestPath (parent :: zones)) :
      HonestPath (child :: parent :: zones)

/-- The fetches answer as the zones of the path do: with their DNSKEY and DS
answers, and with no DNSKEY at a name that is no apex of them. -/
structure AnswersAs (path : List SignedZone) : Prop where
  dnskey : ∀ zone ∈ path, ∀ world, Reaches ctx start world →
    (fetchAnswers ctx .dnskey zone.name world).1 = zone.dnskeyAnswer
  ds : ∀ zone ∈ path, zone.labels ≠ [] → ∀ world, Reaches ctx start world →
    (fetchAnswers ctx .ds zone.name world).1 = zone.dsAnswer
  noApex : ∀ name, (∀ zone ∈ path, name ≠ zone.name) → ∀ world, Reaches ctx start world →
    (fetchAnswers ctx .dnskey name world).1 = []

/-- The validator looks for the second zone as the parent of the first. -/
def WalksTo (child parent : SignedZone) : Prop :=
  parentZone child.name = parent.name

variable {ctx start}

theorem isDs_and_isDnskey_of_verifyDs {ring : Ring} {ds dk : DnsRecord} {owner : Text}
    (committed : verifyDs ring ds dk owner = some true) :
    ds.isDs = true ∧ dk.isDnskey = true := by
  unfold verifyDs at committed
  split at committed
  · exact ⟨rfl, rfl⟩
  · simp at committed

theorem isDnskey_of_sameDnskey {first second : DnsRecord}
    (same : sameDnskey first second = true) : first.isDnskey = true := by
  unfold sameDnskey at same
  split at same
  · rfl
  · simp at same

theorem verifyDs_ne_none {ring : Ring} {owner : Text}
    (named : (nameToWire owner).isSome = true) (ds dk : DnsRecord) :
    verifyDs ring ds dk owner ≠ none := by
  obtain ⟨ownerWire, encoded⟩ := Option.isSome_iff_exists.mp named
  unfold verifyDs
  split
  · rw [encoded]
    simp only [Option.bind_eq_bind, Option.bind_some]
    split <;> [simp; split <;> [simp; split <;> simp]]
  · simp

theorem rrsetOfType_dnskey_ne_nil {records : List DnsRecord} {dk : DnsRecord}
    (dkMem : dk ∈ records) (isKey : dk.isDnskey = true) :
    rrsetOfType .dnskey records ≠ [] := by
  obtain ⟨key, rfl⟩ := DnsRecord.isDnskey_iff.mp isKey
  exact List.ne_nil_of_mem (List.mem_filter.mpr ⟨dkMem, rfl⟩)

theorem rrsetOfType_ds_ne_nil {records : List DnsRecord} {ds : DnsRecord}
    (dsMem : ds ∈ records) (isDs : ds.isDs = true) : rrsetOfType .ds records ≠ [] := by
  obtain ⟨delegation, rfl⟩ := DnsRecord.isDs_iff.mp isDs
  exact List.ne_nil_of_mem (List.mem_filter.mpr ⟨dsMem, rfl⟩)

theorem HonestPath.dnskeyAnswer_ne_nil {zone : SignedZone} {zones : List SignedZone}
    (honest : HonestPath ctx start (zone :: zones)) : zone.dnskeyAnswer ≠ [] := by
  cases honest with
  | root _ _ keyMem => exact List.ne_nil_of_mem keyMem
  | delegated _ _ _ _ _ _ _ committed =>
      obtain ⟨_, _, ksk, kskMem, -⟩ := committed
      exact List.ne_nil_of_mem kskMem

/-- One level of the walk over a zone whose DS commits to a key that signed
its keys: the walk goes on to the parent. -/
theorem walkChain_committed {child : SignedZone} {levels : Nat} {world : W}
    (notRoot : child.name ≠ [dot] ∧ child.name ≠ [])
    (named : (nameToWire child.name).isSome = true)
    (encodable : Encodable child.dnskeyAnswer)
    (ownKeys : anchorPresent ctx child.dnskeyAnswer = false)
    (committed : DsCommits ctx start child) (reached : Reaches ctx start world)
    (dsAnswered : (fetchAnswers ctx .ds child.name world).1 = child.dsAnswer) :
    ∃ dsWorld, Reaches ctx start dsWorld ∧
      walkChain ctx (levels + 1) child.name child.dnskeyAnswer world =
        (do
          let parentRecords ← fetchDnskeys ctx (parentZone child.name)
          if parentRecords = [] then pure .indeterminate
          else
            let parentStatus ← walkChain ctx levels (parentZone child.name) parentRecords
            if parentStatus ≠ .secure then pure parentStatus
            else
              let dsSigned ← verifyRrsetSigned ctx.ring (ctx.now (← get)) child.dsAnswer
                .ds parentRecords
              if !dsSigned then pure .bogus else pure .secure : Exec W DnssecStatus) dsWorld := by
  obtain ⟨ds, dsMem, ksk, kskMem, commits, signed⟩ := committed
  obtain ⟨isDs, isKey⟩ := isDs_and_isDnskey_of_verifyDs commits
  obtain ⟨dsWorld, dsFetched⟩ : ∃ dsWorld,
      fetchDs ctx child.name world = some (child.dsAnswer, dsWorld) :=
    ⟨_, by rw [fetchDs, ← dsAnswered]⟩
  have dsReached := reached.trans (fetchDs_moves ctx _ _ _ _ dsFetched)
  have dsNonempty : child.dsAnswer.filter DnsRecord.isDs ≠ [] :=
    List.ne_nil_of_mem (List.mem_filter.mpr ⟨dsMem, isDs⟩)
  obtain ⟨ksks, authenticated⟩ : ∃ ksks, authenticatedKsks ctx child.name
      (child.dsAnswer.filter DnsRecord.isDs) (child.dnskeyAnswer.filter DnsRecord.isDnskey) =
        some ksks :=
    ⟨_, filterM_eq_some_iff.mpr ⟨fun dk _ => anyM_ne_none fun ds _ =>
      verifyDs_ne_none named ds dk, rfl⟩⟩
  have kskAuthenticated : ksk ∈ ksks := by
    rw [(filterM_eq_some_iff.mp authenticated).2, List.mem_filter, List.mem_filter]
    refine ⟨⟨kskMem, isKey⟩, ?_⟩
    rw [anyM_eq_true_of_mem (fun ds _ => verifyDs_ne_none named ds ksk)
      (List.mem_filter.mpr ⟨dsMem, isDs⟩) commits]
    rfl
  have keysSigned : verifyRrsetSigned ctx.ring (ctx.now dsWorld) child.dnskeyAnswer .dnskey
      ksks = some true :=
    verifyRrsetSigned_of_signedBy encodable (rrsetOfType_dnskey_ne_nil kskMem isKey)
      kskAuthenticated (signed dsWorld dsReached)
  refine ⟨dsWorld, dsReached, ?_⟩
  have absent : ((child.dnskeyAnswer.filter DnsRecord.isDnskey).any fun dk =>
      ctx.trustAnchors.any (sameDnskey dk)) = false := ownKeys
  simp only [walkChain, absent, Bool.false_eq_true, if_false, notRoot.1, notRoot.2, or_self]
  rw [Exec.bind_of_eq_some dsFetched, if_neg dsNonempty,
    Exec.bind_of_eq_some (Exec.liftM_eq_some.mpr ⟨authenticated, rfl⟩),
    if_neg (List.ne_nil_of_mem kskAuthenticated),
    Exec.bind_of_eq_some (Exec.get_eq_some.mpr ⟨rfl, rfl⟩),
    Exec.bind_of_eq_some (Exec.liftM_eq_some.mpr ⟨keysSigned, rfl⟩)]
  rfl

theorem HonestPath.nameText_length_lt {zone : SignedZone} {zones : List SignedZone}
    (honest : HonestPath ctx start (zone :: zones)) :
    ∀ above ∈ zones, (nameText above.labels).length < (nameText zone.labels).length := by
  induction zones generalizing zone with
  | nil => simp
  | cons parent zones ih =>
      cases honest with
      | delegated below different proper _ _ _ _ _ _ _ parents =>
          have parentShorter := Numa.nameText_length_lt below different proper
          intro above aboveMem
          rcases List.mem_cons.mp aboveMem with rfl | later
          · exact parentShorter
          · exact (ih parents above later).trans parentShorter

/-- Where the walk leaves the path it finds no zone of it. -/
theorem parentZone_ne_name {child parent : SignedZone} {zones path : List SignedZone}
    (honest : HonestPath ctx start (child :: parent :: zones))
    (others : ∀ other ∈ path, other ∈ child :: parent :: zones ∨
      (nameText child.labels).length < (nameText other.labels).length)
    (leaves : ¬ WalksTo child parent) :
    ∀ other ∈ path, parentZone child.name ≠ other.name := by
  cases honest with
  | delegated below different proper _ _ _ _ _ _ _ parents =>
      rcases parentZone_zoneText below different proper with found | ⟨notRoot, longer, shorter⟩
      · exact absurd found leaves
      · intro other otherMem same
        by_cases otherRoot : other.labels = []
        · exact notRoot (by rw [← SignedZone.name, same, SignedZone.name, otherRoot, zoneText_nil])
        · have sameLength : (parentZone (zoneText child.labels)).length =
              (nameText other.labels).length := by
            rw [← zoneText_of_ne_nil otherRoot]
            exact congrArg List.length same
          rcases others other otherMem with onPath | below
          · rcases List.mem_cons.mp onPath with rfl | above
            · omega
            · rcases List.mem_cons.mp above with rfl | higher
              · omega
              · have := parents.nameText_length_lt other higher
                omega
          · omega

/-- A walk up an honest path ends in `Secure` exactly when it follows the
path. -/
theorem HonestPath.walkChain_secure_iff {zone : SignedZone} {zones path : List SignedZone}
    (honest : HonestPath ctx start (zone :: zones)) (answers : AnswersAs ctx start path)
    (onPath : ∀ above ∈ zone :: zones, above ∈ path)
    (others : ∀ other ∈ path, other ∈ zone :: zones ∨
      (nameText zone.labels).length < (nameText other.labels).length)
    {levels : Nat} (enough : zones.length < levels) {world : W}
    (reached : Reaches ctx start world) :
    (∃ final, walkChain ctx levels zone.name zone.dnskeyAnswer world =
      some (.secure, final)) ↔ List.IsChain WalksTo (zone :: zones) := by
  induction zones generalizing zone levels world with
  | nil =>
      obtain ⟨levels, rfl⟩ : ∃ fewer, levels = fewer + 1 := ⟨levels - 1, by simp at enough; omega⟩
      cases honest with
      | root isRoot encodable keyMem anchorMem sameKey signed =>
          have isKey := isDnskey_of_sameDnskey sameKey
          have present : anchorPresent ctx zone.dnskeyAnswer = true :=
            List.any_eq_true.mpr ⟨_, List.mem_filter.mpr ⟨keyMem, isKey⟩,
              List.any_eq_true.mpr ⟨_, anchorMem, sameKey⟩⟩
          have anchored := verifyRrsetSigned_of_signedBy encodable
            (rrsetOfType_dnskey_ne_nil keyMem isKey) anchorMem (signed world reached)
          exact iff_of_true ⟨world, walkChain_anchored present anchored⟩ (by simp)
  | cons parent zones ih =>
      obtain ⟨levels, rfl⟩ : ∃ fewer, levels = fewer + 1 := ⟨levels - 1, by omega⟩
      have leavesNowhere := parentZone_ne_name honest others
      cases honest with
      | delegated below different proper named encodable dsEncodable ownKeys committed
          parentKeyMem dsSigned parents =>
          have notRoot : zone.labels ≠ [] := by
            intro isRoot
            rw [isRoot] at below different
            exact different (List.suffix_nil.mp below)
          obtain ⟨dsWorld, dsReached, walk⟩ := walkChain_committed
            (zoneText_ne_root notRoot proper) named encodable ownKeys committed reached
            (answers.ds zone (onPath zone (by simp)) notRoot world reached)
          rw [walk, List.isChain_cons_cons]
          by_cases follows : WalksTo zone parent
          · have parentOthers : ∀ other ∈ path, other ∈ parent :: zones ∨
                (nameText parent.labels).length < (nameText other.labels).length := by
              have parentShorter := Numa.nameText_length_lt below different proper
              intro other otherMem
              rcases others other otherMem with onSuffix | longer
              · rcases List.mem_cons.mp onSuffix with rfl | above
                · exact .inr parentShorter
                · exact .inl above
              · exact .inr (parentShorter.trans longer)
            obtain ⟨parentWorld, parentFetched⟩ : ∃ parentWorld,
                fetchDnskeys ctx (parentZone zone.name) dsWorld =
                  some (parent.dnskeyAnswer, parentWorld) :=
              ⟨_, by rw [fetchDnskeys, follows,
                ← answers.dnskey parent (onPath parent (by simp)) dsWorld dsReached]⟩
            have parentReached := dsReached.trans (fetchDnskeys_moves ctx _ _ _ _ parentFetched)
            have shorterPath := ih parents
              (fun above aboveMem => onPath above (List.mem_cons_of_mem _ aboveMem))
              parentOthers (Nat.lt_of_succ_lt_succ enough) parentReached
            rw [Exec.bind_of_eq_some parentFetched, if_neg parents.dnskeyAnswer_ne_nil, follows]
            constructor
            · rintro ⟨final, ran⟩
              obtain ⟨parentStatus, parentFinal, parentRan, ran⟩ := Exec.bind_eq_some.mp ran
              by_cases secure : parentStatus = .secure
              · subst secure
                exact ⟨follows, shorterPath.mp ⟨parentFinal, parentRan⟩⟩
              · rw [if_pos secure] at ran
                exact absurd (Exec.pure_eq_some.mp ran).1 secure
            · rintro ⟨-, parentsFollow⟩
              obtain ⟨final, parentRan⟩ := shorterPath.mpr parentsFollow
              have finalReached := parentReached.trans (walkChain_moves ctx _ _ _ _ _ _ parentRan)
              obtain ⟨ds, dsMem, _, _, commits, _⟩ := committed
              have signed := verifyRrsetSigned_of_signedBy dsEncodable
                (rrsetOfType_ds_ne_nil dsMem (isDs_and_isDnskey_of_verifyDs commits).1)
                parentKeyMem (dsSigned final finalReached)
              refine ⟨final, ?_⟩
              rw [Exec.bind_of_eq_some parentRan, if_neg (by simp),
                Exec.bind_of_eq_some (Exec.get_eq_some.mpr ⟨rfl, rfl⟩),
                Exec.bind_of_eq_some (Exec.liftM_eq_some.mpr ⟨signed, rfl⟩)]
              simp
          · have nothing := answers.noApex _ (leavesNowhere follows) dsWorld dsReached
            obtain ⟨parentWorld, parentFetched⟩ : ∃ parentWorld,
                fetchDnskeys ctx (parentZone zone.name) dsWorld = some ([], parentWorld) :=
              ⟨_, by rw [fetchDnskeys, ← nothing]⟩
            rw [Exec.bind_of_eq_some parentFetched, if_pos rfl]
            refine iff_of_false ?_ (fun follow => follows follow.1)
            rintro ⟨final, ran⟩
            simp at ran

/-- Completeness on honest hierarchies: the DNSKEY answer of a zone with an
honest path of at most `MAX_CHAIN_DEPTH` delegations to the root is `Secure`
exactly when `parent_zone` leads from each zone of the path to the next. -/
theorem validateChain_secure_iff_walksTo {zone : SignedZone} {zones : List SignedZone}
    (honest : HonestPath ctx start (zone :: zones))
    (answers : AnswersAs ctx start (zone :: zones)) (short : zones.length ≤ maxChainDepth) :
    (∃ final, validateChain ctx zone.name zone.dnskeyAnswer 0 start =
      some (.secure, final)) ↔ List.IsChain WalksTo (zone :: zones) := by
  refine honest.walkChain_secure_iff answers (fun _ above => above)
    (fun _ otherMem => .inl otherMem) ?_ .refl
  omega

/-! ## Two delegations from the root

The sample zone `test` and a zone `a.b`, which the root delegates although
nothing is delegated at `b`.
-/

def sampleRootZone : SignedZone where
  labels := []
  dnskeyAnswer := sampleRootRecords
  dsAnswer := []

def sampleZone : SignedZone where
  labels := [text "test"]
  dnskeyAnswer := sampleZoneRecords
  dsAnswer := sampleDsRecords

def skippingZone : SignedZone where
  labels := [text "a", text "b"]
  dnskeyAnswer :=
    [ sampleDnskey (text "a.b") sampleZoneKey,
      sampleRrsig (text "a.b") .dnskey 2 27232 (text "a.b")
        0x1d3daa2ecf0ba91d2d83476fe7808a152dc7fe99f4987b2c4b660020fd7743b9cc53cc2b4805a7f23502c32fad9ac60ffce0191e65b623b93a08c08a5fb9d50c ]
  dsAnswer :=
    [ .ds
        { domain := text "a.b"
          keyTag := 27232
          algorithm := 15
          digestType := 2
          digest := octets 32 0x88e53d38c54ffcc67c582f1a275357ed1d22aa8a1e73606561e10f4fd095fc19
          ttl := 3600 },
      sampleRrsig (text "a.b") .ds 2 14017 [dot]
        0x968092f2e246e1f9ab039f0b895bfafff1eb491346079d31ddac8b33ba0131387da4be667f266e800cff78ce3a83fee7ba5e3155dbd3e65ab3790cd06122100b ]

def delegationRing : Ring :=
  tableRing (sampleSignatures ++
    [ (sampleZoneKey,
        octets 74 0x00300f0200000e107fffffff000000016a60016101620001610162000030000100000e1000240101030f3d4017c3e843895a92b70aa74d1b7ebc9c982ccf2ec4968cc0cd55f12af4660c,
        octets 64 0x1d3daa2ecf0ba91d2d83476fe7808a152dc7fe99f4987b2c4b660020fd7743b9cc53cc2b4805a7f23502c32fad9ac60ffce0191e65b623b93a08c08a5fb9d50c),
      (sampleRootKey,
        octets 70 0x002b0f0200000e107fffffff0000000136c1000161016200002b000100000e1000246a600f0288e53d38c54ffcc67c582f1a275357ed1d22aa8a1e73606561e10f4fd095fc19,
        octets 64 0x968092f2e246e1f9ab039f0b895bfafff1eb491346079d31ddac8b33ba0131387da4be667f266e800cff78ce3a83fee7ba5e3155dbd3e65ab3790cd06122100b) ])
    []
    (sampleDigests ++
      [ (octets 41 0x01610162000101030f3d4017c3e843895a92b70aa74d1b7ebc9c982ccf2ec4968cc0cd55f12af4660c,
          octets 32 0x88e53d38c54ffcc67c582f1a275357ed1d22aa8a1e73606561e10f4fd095fc19) ])

/-- The validator of a hierarchy of the sample root and one zone. -/
def delegationCtx (zone : SignedZone) : ValidationCtx Unit :=
  { sampleWorld
      [ (([dot], .dnskey), sampleRootRecords),
        ((zone.name, .dnskey), zone.dnskeyAnswer),
        ((zone.name, .ds), zone.dsAnswer) ] with
    ring := delegationRing
    trustAnchors := [sampleDnskey [dot] sampleRootKey] }

theorem fetchAnswers_delegationCtx (zone : SignedZone) (qtype : QueryType) (name : Text)
    (world : Unit) :
    (fetchAnswers (delegationCtx zone) qtype name world).1 =
      (([ (([dot], .dnskey), sampleRootRecords), ((zone.name, .dnskey), zone.dnskeyAnswer),
          ((zone.name, .ds), zone.dsAnswer) ] :
        List ((Text × QueryType) × List DnsRecord)).lookup (name, qtype)).getD [] := by
  unfold fetchAnswers
  simp only [delegationCtx, sampleWorld]
  cases List.lookup (name, qtype) _ <;> rfl

theorem answersAs_delegationCtx {zone : SignedZone} (notRoot : zone.name ≠ [dot]) :
    AnswersAs (delegationCtx zone) () [zone, sampleRootZone] where
  dnskey := by
    intro other otherMem world _
    rw [fetchAnswers_delegationCtx]
    rcases List.mem_pair.mp otherMem with rfl | rfl
    · have different : ((other.name, QueryType.dnskey) == ([dot], QueryType.dnskey)) = false := by
        simpa using notRoot
      simp [List.lookup_cons, different]
    · rfl
  ds := by
    intro other otherMem below world _
    rw [fetchAnswers_delegationCtx]
    rcases List.mem_pair.mp otherMem with rfl | rfl
    · have different : ∀ name, ((other.name, QueryType.ds) == (name, QueryType.dnskey)) = false := by
        simp
      simp [List.lookup_cons, different]
    · exact absurd rfl below
  noApex := by
    intro name elsewhere world _
    rw [fetchAnswers_delegationCtx]
    have notZone : ((name, QueryType.dnskey) == (zone.name, QueryType.dnskey)) = false := by
      simpa using elsewhere zone (by simp)
    have notRootName : name ≠ [dot] := elsewhere sampleRootZone (by simp)
    have notSampleRoot : ((name, QueryType.dnskey) == ([dot], QueryType.dnskey)) = false := by
      simpa using notRootName
    have notDs : ((name, QueryType.dnskey) == (zone.name, QueryType.ds)) = false := by
      simp
    simp [List.lookup_cons, notZone, notSampleRoot, notDs]

/-- A zone below the sample root is honest if its answers pass the checks at
the time of the sample clock. -/
theorem honestPath_delegationCtx (zone : SignedZone) (ds ksk : DnsRecord)
    (wellFormed : zone.labels ≠ [] ∧ ProperLabels zone.labels ∧
      (nameToWire zone.name).isSome = true ∧ Encodable zone.dnskeyAnswer ∧
      Encodable zone.dsAnswer)
    (ownKeys : anchorPresent (delegationCtx zone) zone.dnskeyAnswer = false)
    (committed : ds ∈ zone.dsAnswer ∧ ksk ∈ zone.dnskeyAnswer ∧
      verifyDs delegationRing ds ksk zone.name = some true)
    (signed : SignedBy delegationRing 1700000000 zone.dnskeyAnswer .dnskey ksk ∧
      SignedBy delegationRing 1700000000 zone.dsAnswer .ds
        (sampleDnskey [dot] sampleRootKey)) :
    HonestPath (delegationCtx zone) () [zone, sampleRootZone] := by
  obtain ⟨notRoot, proper, named, encodable, dsEncodable⟩ := wellFormed
  obtain ⟨dsMem, kskMem, commits⟩ := committed
  have rootSigned : SignedBy delegationRing 1700000000 sampleRootRecords .dnskey
      (sampleDnskey [dot] sampleRootKey) := by decide +kernel
  have rootKeyMem : sampleDnskey [dot] sampleRootKey ∈ sampleRootZone.dnskeyAnswer := by
    decide +kernel
  have root : HonestPath (delegationCtx zone) () [sampleRootZone] :=
    .root rfl (by decide +kernel) rootKeyMem (List.mem_singleton.mpr rfl) (by decide +kernel)
      fun _ _ => rootSigned
  exact .delegated List.nil_suffix notRoot.symm proper named encodable dsEncodable ownKeys
    ⟨ds, dsMem, ksk, kskMem, commits, fun _ _ => signed.1⟩ rootKeyMem
    (fun _ _ => signed.2) root

theorem honestPath_sampleZone :
    HonestPath (delegationCtx sampleZone) () [sampleZone, sampleRootZone] :=
  honestPath_delegationCtx sampleZone (sampleDsRecords.headD (.ns [] [] 0))
    (sampleDnskey (text "test") sampleZoneKey) (by decide +kernel) (by decide +kernel)
    (by decide +kernel) (by decide +kernel)

theorem honestPath_skippingZone :
    HonestPath (delegationCtx skippingZone) () [skippingZone, sampleRootZone] :=
  honestPath_delegationCtx skippingZone (skippingZone.dsAnswer.headD (.ns [] [] 0))
    (sampleDnskey (text "a.b") sampleZoneKey) (by decide +kernel) (by decide +kernel)
    (by decide +kernel) (by decide +kernel)

theorem validateChain_secure_iff_walksTo_sampleZone :
    List.IsChain WalksTo [sampleZone, sampleRootZone] ∧
      ∃ final, validateChain (delegationCtx sampleZone) sampleZone.name
        sampleZone.dnskeyAnswer 0 () = some (.secure, final) := by
  have follows : List.IsChain WalksTo [sampleZone, sampleRootZone] := by
    refine List.isChain_cons_cons.mpr ⟨?_, by simp⟩
    unfold WalksTo
    decide +kernel
  exact ⟨follows, (validateChain_secure_iff_walksTo honestPath_sampleZone
    (answersAs_delegationCtx (by decide +kernel)) (by decide)).mpr follows⟩

/-- The root delegates `a.b` correctly, and its keys are `Indeterminate`. -/
theorem validateChain_skippingZone :
    HonestPath (delegationCtx skippingZone) () [skippingZone, sampleRootZone] ∧
      AnswersAs (delegationCtx skippingZone) () [skippingZone, sampleRootZone] ∧
      validateChain (delegationCtx skippingZone) skippingZone.name skippingZone.dnskeyAnswer
        0 () = some (.indeterminate, ()) :=
  ⟨honestPath_skippingZone, answersAs_delegationCtx (by decide +kernel), by decide +kernel⟩

end Numa
