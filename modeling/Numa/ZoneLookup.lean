import Numa.BlockingRules
import Numa.LocalData
import Numa.SuffixMatching

/-!
# Looking up configured names

What `ZoneMap::lookup` answers, in terms of the configured records: those of the
name itself, or those of the longest wildcard above it.
-/

namespace Numa

/-! ## The entries of a configuration -/

/-- A configured record as `build_zone_map` takes it. -/
structure ZoneEntry where
  isWildcard : Bool
  owner : Text
  qtype : QueryType
  record : DnsRecord
  deriving DecidableEq

def ZoneEntry.key (entry : ZoneEntry) : Bool × Text × QueryType :=
  (entry.isWildcard, entry.owner, entry.qtype)

/-- The records of an owner and a type, in the order of the configuration. -/
def recordsIn (entries : List ZoneEntry) (isWildcard : Bool) (owner : Text) (qtype : QueryType) :
    List DnsRecord :=
  (entries.filter fun entry => entry.key = (isWildcard, owner, qtype)).map ZoneEntry.record

/-- Some record has the owner. -/
def Owned (entries : List ZoneEntry) (isWildcard : Bool) (owner : Text) : Prop :=
  ∃ entry ∈ entries, entry.isWildcard = isWildcard ∧ entry.owner = owner

/-- The records of a type, or else the CNAMEs, or else none. -/
def chosenRecords (entries : List ZoneEntry) (isWildcard : Bool) (owner : Text)
    (qtype : QueryType) : List DnsRecord :=
  if recordsIn entries isWildcard owner qtype ≠ [] then recordsIn entries isWildcard owner qtype
  else if qtype ≠ .cname then recordsIn entries isWildcard owner .cname
  else []

/-- The longest wildcard above a name. -/
structure LongestWildcard (entries : List ZoneEntry) (qname parent : Text) : Prop where
  above : ∃ front, qname = front ++ dot :: parent
  owned : Owned entries true parent
  longest : ∀ other, (∃ front, qname = front ++ dot :: other) → Owned entries true other →
    other.length ≤ parent.length

/-- The answer of a configuration. -/
inductive ZoneAnswer (entries : List ZoneEntry) (qname : Text) (qtype : QueryType) :
    Option (List DnsRecord) → Prop
  | exact (owned : Owned entries false qname) :
      ZoneAnswer entries qname qtype (some (chosenRecords entries false qname qtype))
  | wildcard {parent : Text} (notOwned : ¬ Owned entries false qname)
      (longest : LongestWildcard entries qname parent) :
      ZoneAnswer entries qname qtype
        (some ((chosenRecords entries true parent qtype).map (DnsRecord.setDomain qname)))
  | fallThrough (notOwned : ¬ Owned entries false qname)
      (noWildcard : ∀ parent, (∃ front, qname = front ++ dot :: parent) →
        ¬ Owned entries true parent) :
      ZoneAnswer entries qname qtype none

section Reordering

variable {entries others : List ZoneEntry}

/-- The longest wildcard is one only. -/
theorem LongestWildcard.unique {qname first second : Text}
    (isFirst : LongestWildcard entries qname first)
    (isSecond : LongestWildcard entries qname second) : first = second := by
  have lengthEq : first.length = second.length :=
    le_antisymm (isSecond.longest first isFirst.above isFirst.owned)
      (isFirst.longest second isSecond.above isSecond.owned)
  obtain ⟨front, split⟩ := isFirst.above
  obtain ⟨other, alsoSplit⟩ := isSecond.above
  have suffixes : dot :: first = dot :: second :=
    (List.append_inj' (split.symm.trans alsoSplit) (by simp [lengthEq])).2
  exact (List.cons.inj suffixes).2

/-- The answer is one only, and it is the same for entries with the same owners
and with the same records under each owner and type. -/
theorem ZoneAnswer.congr {qname : Text} {qtype : QueryType} {first second : Option (List DnsRecord)}
    (owned : ∀ isWildcard owner, Owned others isWildcard owner ↔ Owned entries isWildcard owner)
    (records : ∀ isWildcard owner qtype,
      recordsIn others isWildcard owner qtype = recordsIn entries isWildcard owner qtype)
    (answer : ZoneAnswer entries qname qtype first)
    (again : ZoneAnswer others qname qtype second) : second = first := by
  have chosen : ∀ isWildcard owner, chosenRecords others isWildcard owner qtype =
      chosenRecords entries isWildcard owner qtype := by
    intro isWildcard owner
    rw [chosenRecords, chosenRecords, records, records]
  have longest : ∀ parent, LongestWildcard others qname parent →
      LongestWildcard entries qname parent := fun parent isLongest =>
    ⟨isLongest.above, (owned _ _).mp isLongest.owned,
      fun other above otherOwned => isLongest.longest other above ((owned _ _).mpr otherOwned)⟩
  cases answer with
  | exact isOwned =>
      cases again with
      | exact _ => rw [chosen]
      | wildcard notOwned _ => exact absurd ((owned _ _).mpr isOwned) notOwned
      | fallThrough notOwned _ => exact absurd ((owned _ _).mpr isOwned) notOwned
  | wildcard notOwned isLongest =>
      cases again with
      | exact isOwned => exact absurd ((owned _ _).mp isOwned) notOwned
      | wildcard _ alsoLongest => rw [chosen, (longest _ alsoLongest).unique isLongest]
      | fallThrough _ noWildcard =>
          exact absurd ((owned _ _).mpr isLongest.owned) (noWildcard _ isLongest.above)
  | fallThrough notOwned noWildcard =>
      cases again with
      | exact isOwned => exact absurd ((owned _ _).mp isOwned) notOwned
      | wildcard _ isLongest =>
          exact absurd ((owned _ _).mp isLongest.owned) (noWildcard _ isLongest.above)
      | fallThrough _ _ => rfl

end Reordering

/-! ## The maps hold the entries -/

/-- A map holds the entries that are wildcards, or those that are not. -/
structure ZoneBucket.Represents (bucket : ZoneBucket) (entries : List ZoneEntry)
    (isWildcard : Bool) : Prop where
  owned : ∀ owner, (bucket.lookup owner).isSome = true ↔ Owned entries isWildcard owner
  typed : ∀ owner typeMap, bucket.lookup owner = some typeMap → ∀ qtype,
    typeMap.lookup qtype =
      if recordsIn entries isWildcard owner qtype ≠ [] then
        some (recordsIn entries isWildcard owner qtype)
      else none

namespace ZoneBucket

variable {bucket : ZoneBucket} {entries : List ZoneEntry} {isWildcard : Bool}

theorem recordsIn_append (entry : ZoneEntry) (owner : Text) (qtype : QueryType) :
    recordsIn (entries ++ [entry]) isWildcard owner qtype =
      recordsIn entries isWildcard owner qtype ++
        if entry.key = (isWildcard, owner, qtype) then [entry.record] else [] := by
  rw [recordsIn, recordsIn, List.filter_append, List.map_append]
  by_cases same : entry.key = (isWildcard, owner, qtype) <;> simp [same]

theorem owned_append (entry : ZoneEntry) (owner : Text) :
    Owned (entries ++ [entry]) isWildcard owner ↔
      Owned entries isWildcard owner ∨ entry.isWildcard = isWildcard ∧ entry.owner = owner := by
  simp [Owned, or_and_right, exists_or]

theorem represents_empty : Represents ∅ [] isWildcard where
  owned := by
    intro owner
    simp [Owned]
  typed := by
    intro owner typeMap found
    simp at found

/-- An entry of the other kind changes nothing. -/
theorem Represents.skip (represents : bucket.Represents entries isWildcard) {entry : ZoneEntry}
    (other : entry.isWildcard ≠ isWildcard) : bucket.Represents (entries ++ [entry]) isWildcard where
  owned := by
    intro owner
    rw [owned_append, represents.owned]
    simp [other]
  typed := by
    intro owner typeMap found qtype
    have differs : entry.key ≠ (isWildcard, owner, qtype) := fun same =>
      other (congrArg Prod.fst same)
    rw [recordsIn_append, if_neg differs, List.append_nil]
    exact represents.typed owner typeMap found qtype

/-- The types of an owner that may have no records yet. -/
theorem Represents.lookup_getD (represents : bucket.Represents entries isWildcard) (owner : Text)
    (qtype : QueryType) :
    ((bucket.lookup owner).getD ∅).lookup qtype =
      if recordsIn entries isWildcard owner qtype ≠ [] then
        some (recordsIn entries isWildcard owner qtype)
      else none := by
  cases found : bucket.lookup owner with
  | some typeMap => exact represents.typed owner typeMap found qtype
  | none =>
      have notOwned : ¬ Owned entries isWildcard owner := by
        rw [← represents.owned, found]
        simp
      have noRecords : recordsIn entries isWildcard owner qtype = [] := by
        rw [recordsIn, List.map_eq_nil_iff, List.filter_eq_nil_iff]
        intro entry entryMem
        rw [decide_eq_true_eq]
        intro same
        obtain ⟨wildcardEq, ownerEq, -⟩ : entry.isWildcard = isWildcard ∧ entry.owner = owner ∧
            entry.qtype = qtype := by simpa [ZoneEntry.key] using same
        exact notOwned ⟨entry, entryMem, wildcardEq, ownerEq⟩
      simp [noRecords]

theorem Represents.push (represents : bucket.Represents entries isWildcard) {entry : ZoneEntry}
    (same : entry.isWildcard = isWildcard) :
    (bucket.push entry.owner entry.qtype entry.record).Represents (entries ++ [entry]) isWildcard where
  owned := by
    intro owner
    rw [owned_append, ZoneBucket.push]
    by_cases sameOwner : owner = entry.owner
    · subst sameOwner
      simp [same]
    · rw [AList.lookup_insert_ne sameOwner, represents.owned]
      simp [Ne.symm sameOwner]
  typed := by
    intro owner typeMap found qtype
    rw [ZoneBucket.push] at found
    rw [recordsIn_append]
    by_cases sameOwner : owner = entry.owner
    · subst sameOwner
      rw [AList.lookup_insert] at found
      obtain rfl := Option.some.inj found
      by_cases sameType : qtype = entry.qtype
      · subst sameType
        have sameKey : entry.key = (isWildcard, entry.owner, entry.qtype) := by
          rw [← same]
          rfl
        rw [AList.lookup_insert, represents.lookup_getD, if_pos sameKey]
        by_cases empty : recordsIn entries isWildcard entry.owner entry.qtype = [] <;> simp [empty]
      · have differs : entry.key ≠ (isWildcard, entry.owner, qtype) := fun sameKey =>
          sameType (congrArg (·.2.2) sameKey).symm
        rw [AList.lookup_insert_ne sameType, represents.lookup_getD, if_neg differs,
          List.append_nil]
    · rw [AList.lookup_insert_ne sameOwner] at found
      have differs : entry.key ≠ (isWildcard, owner, qtype) := fun sameKey =>
        sameOwner (congrArg (·.2.1) sameKey).symm
      rw [if_neg differs, List.append_nil]
      exact represents.typed owner typeMap found qtype

/-- The choice among the records of an owner. -/
theorem Represents.select_eq (represents : bucket.Represents entries isWildcard) {owner : Text}
    {typeMap : AList fun _ : QueryType => List DnsRecord}
    (found : bucket.lookup owner = some typeMap) (qtype : QueryType) :
    ZoneMap.select typeMap qtype = chosenRecords entries isWildcard owner qtype := by
  have typed := represents.typed owner typeMap found
  rw [ZoneMap.select, chosenRecords, typed, typed]
  by_cases typedRecords : recordsIn entries isWildcard owner qtype ≠ []
  · rw [if_pos typedRecords, if_pos typedRecords]
  · rw [if_neg typedRecords, if_neg typedRecords]
    by_cases cnames : recordsIn entries isWildcard owner .cname = [] <;> simp [cnames]

end ZoneBucket

/-- Both maps hold the entries, and no wildcard stands above the root. -/
structure ZoneMap.Represents (map : ZoneMap) (entries : List ZoneEntry) : Prop where
  exact : map.exact.Represents entries false
  wildcard : map.wildcard.Represents entries true
  named : ∀ entry ∈ entries, entry.owner ≠ []

namespace ZoneMap

variable {map : ZoneMap} {entries : List ZoneEntry}

theorem Represents.push (represents : map.Represents entries) {entry : ZoneEntry}
    (named : entry.owner ≠ []) :
    (map.push entry.isWildcard entry.owner entry.qtype entry.record).Represents
      (entries ++ [entry]) := by
  have allNamed : ∀ other ∈ entries ++ [entry], other.owner ≠ [] := by
    simpa [or_imp, forall_and] using And.intro represents.named named
  cases isWildcard : entry.isWildcard with
  | false => exact ⟨represents.exact.push isWildcard, represents.wildcard.skip (by simp [isWildcard]),
      allNamed⟩
  | true => exact ⟨represents.exact.skip (by simp [isWildcard]), represents.wildcard.push isWildcard,
      allNamed⟩

/-- The names behind the dots of a name grow shorter. -/
theorem pairwise_behindDots (name : Text) :
    (behindDots name).Pairwise fun first second => second.length < first.length := by
  induction name with
  | nil => exact .nil
  | cons octet rest ih =>
      unfold behindDots
      split
      · refine List.pairwise_cons.mpr ⟨fun parent parentMem => ?_, ih⟩
        obtain ⟨front, rfl⟩ := mem_behindDots_iff.mp parentMem
        simp
        omega
      · exact ih

/-- The search for a wildcard finds the longest one. -/
theorem lookupWildcard_cases (map : ZoneMap) (noRoot : map.wildcard.lookup [] = none) (qname : Text)
    (qtype : QueryType) {parents : List Text}
    (shrinking : parents.Pairwise fun first second => second.length < first.length) :
    (∃ parent ∈ parents, ∃ records, map.wildcard.lookup parent = some records ∧
        (∀ other ∈ parents, (map.wildcard.lookup other).isSome = true →
          other.length ≤ parent.length) ∧
        map.lookupWildcard qname qtype parents =
          some ((select records qtype).map (DnsRecord.setDomain qname))) ∨
      (∀ parent ∈ parents, map.wildcard.lookup parent = none) ∧
        map.lookupWildcard qname qtype parents = none := by
  induction parents with
  | nil => exact .inr ⟨List.forall_mem_nil _, rfl⟩
  | cons parent parents ih =>
      obtain ⟨longer, shrinking⟩ := List.pairwise_cons.mp shrinking
      rw [lookupWildcard]
      by_cases root : parent = []
      · subst root
        have last : parents = [] := by
          refine List.eq_nil_iff_forall_not_mem.mpr fun other otherMem => ?_
          have := longer other otherMem
          simp at this
        subst last
        exact .inr ⟨by simpa using noRoot, if_pos rfl⟩
      rw [if_neg root]
      cases found : map.wildcard.lookup parent with
      | some records =>
          refine .inl ⟨parent, List.mem_cons_self, records, found, ?_, rfl⟩
          intro other otherMem _
          rcases List.mem_cons.mp otherMem with rfl | later
          · exact le_refl _
          · exact (longer other later).le
      | none =>
          rcases ih shrinking with ⟨above, aboveMem, records, held, longest, eq⟩ | ⟨missing, eq⟩
          · refine .inl ⟨above, List.mem_cons_of_mem _ aboveMem, records, held, ?_, eq⟩
            refine List.forall_mem_cons.mpr ⟨fun isHeld => ?_, longest⟩
            rw [found] at isHeld
            cases isHeld
          · exact .inr ⟨List.forall_mem_cons.mpr ⟨found, missing⟩, eq⟩

/-- A map that holds the entries answers as the configuration does. -/
theorem Represents.answer (represents : map.Represents entries) (qname : Text) (qtype : QueryType) :
    ZoneAnswer entries qname qtype (map.lookup qname qtype) := by
  have owned := represents.exact.owned qname
  have ownedWildcard := represents.wildcard.owned
  rw [lookup]
  cases found : map.exact.lookup qname with
  | some records =>
      rw [found] at owned
      simp only [represents.exact.select_eq found qtype]
      exact .exact (owned.mp rfl)
  | none =>
      rw [found] at owned
      have notOwned : ¬ Owned entries false qname := fun isOwned => by simpa using owned.mpr isOwned
      have noRoot : map.wildcard.lookup [] = none := by
        rw [← Option.not_isSome_iff_eq_none, ownedWildcard]
        rintro ⟨entry, entryMem, -, root⟩
        exact represents.named entry entryMem root
      simp only [tailsAfterDots_eq_behindDots]
      rcases map.lookupWildcard_cases noRoot qname qtype (pairwise_behindDots qname) with
        ⟨parent, parentMem, records, held, longest, eq⟩ | ⟨missing, eq⟩
      · rw [eq, represents.wildcard.select_eq held]
        refine .wildcard notOwned ⟨mem_behindDots_iff.mp parentMem, ?_, ?_⟩
        · rw [← ownedWildcard, held]
          rfl
        · exact fun other above otherOwned =>
            longest other (mem_behindDots_iff.mpr above) ((ownedWildcard other).mpr otherOwned)
      · rw [eq]
        refine .fallThrough notOwned fun parent above isOwned => ?_
        have isSome := (ownedWildcard parent).mpr isOwned
        rw [missing parent (mem_behindDots_iff.mpr above)] at isSome
        cases isSome

end ZoneMap

/-! ## The configuration -/

section Build

variable (toLowercase toUppercase : Text → Text)

/-- The entry of a configured record. -/
def ZoneRecord.entry (zone : ZoneRecord) : Except ZoneError ZoneEntry := do
  let (isWildcard, owner) ← zoneKey toLowercase zone
  let (qtype, record) ← zoneData toUppercase zone owner
  pure ⟨isWildcard, owner, qtype, record⟩

/-- The entries of a configuration. -/
def zoneEntries (zones : List ZoneRecord) : List ZoneEntry :=
  zones.filterMap fun zone => (zone.entry toLowercase toUppercase).toOption

/-- The same configured records, but for the case of the owners and the dots
behind them.  Letters that are not ASCII are compared as `to_lowercase` does. -/
structure SpelledAlike (zone other : ZoneRecord) : Prop where
  owner : zone.domain.trimEndDots.eqIgnoreAsciiCase other.domain.trimEndDots = true ∨
    toLowercase zone.domain.trimEndDots = toLowercase other.domain.trimEndDots
  recordType : other.recordType = zone.recordType
  value : other.value = zone.value
  ttl : other.ttl = zone.ttl

/-- The same configured records, in another order but for those with the same
owner and type. -/
structure Reordered (zones others : List ZoneRecord) : Prop where
  perm : others.Perm zones
  inOrder : ∀ key, (zoneEntries toLowercase toUppercase others).filter (·.key = key) =
    (zoneEntries toLowercase toUppercase zones).filter (·.key = key)

variable {toLowercase toUppercase}

theorem addZone_eq (map : ZoneMap) (zone : ZoneRecord) :
    addZone toLowercase toUppercase map zone = (zone.entry toLowercase toUppercase).map fun entry =>
      map.push entry.isWildcard entry.owner entry.qtype entry.record := by
  rw [addZone, ZoneRecord.entry]
  cases zoneKey toLowercase zone with
  | error error => rfl
  | ok key =>
      obtain ⟨isWildcard, owner⟩ := key
      simp only [bind, Except.bind]
      cases zoneData toUppercase zone owner <;> rfl

theorem named_of_zoneKey {zone : ZoneRecord} {isWildcard : Bool} {owner : Text}
    (keyed : zoneKey toLowercase zone = .ok (isWildcard, owner)) : owner ≠ [] := by
  unfold zoneKey at keyed
  extract_lets raw isStar key at keyed
  by_cases invalid : key = [] ∨ 0x2A ∈ key
  · rw [if_pos invalid] at keyed
    cases keyed
  · rw [if_neg invalid] at keyed
    obtain ⟨-, keyEq⟩ := Prod.mk.inj (Except.ok.inj keyed)
    rw [← keyEq]
    exact (not_or.mp invalid).1

/-- The owner of an entry is a name. -/
theorem named_of_entry {zone : ZoneRecord} {entry : ZoneEntry}
    (isEntry : zone.entry toLowercase toUppercase = .ok entry) : entry.owner ≠ [] := by
  unfold ZoneRecord.entry at isEntry
  cases keyed : zoneKey toLowercase zone with
  | error error =>
      rw [keyed] at isEntry
      cases isEntry
  | ok key =>
      obtain ⟨isWildcard, owner⟩ := key
      rw [keyed] at isEntry
      simp only [bind, Except.bind] at isEntry
      cases parsed : zoneData toUppercase zone owner with
      | error error =>
          rw [parsed] at isEntry
          cases isEntry
      | ok data =>
          rw [parsed] at isEntry
          cases isEntry
          exact named_of_zoneKey keyed

theorem zoneEntries_cons {zone : ZoneRecord} {entry : ZoneEntry}
    (isEntry : zone.entry toLowercase toUppercase = .ok entry) (zones : List ZoneRecord) :
    zoneEntries toLowercase toUppercase (zone :: zones) =
      entry :: zoneEntries toLowercase toUppercase zones := by
  rw [zoneEntries, List.filterMap_cons, isEntry]
  rfl

/-- A configuration is built iff every record of it is accepted. -/
theorem foldlM_addZone_isOk_iff (zones : List ZoneRecord) (map : ZoneMap) :
    (∃ after, zones.foldlM (addZone toLowercase toUppercase) map = .ok after) ↔
      ∀ zone ∈ zones, ∃ entry, zone.entry toLowercase toUppercase = .ok entry := by
  induction zones generalizing map with
  | nil => exact ⟨fun _ => List.forall_mem_nil _, fun _ => ⟨map, rfl⟩⟩
  | cons zone zones ih =>
      rw [List.foldlM_cons, addZone_eq, List.forall_mem_cons]
      cases zone.entry toLowercase toUppercase with
      | error error => simp [Except.map, bind, Except.bind]
      | ok entry =>
          simp only [Except.map, bind, Except.bind, ih, Except.ok.injEq, exists_eq', true_and]

theorem represents_foldlM {zones : List ZoneRecord} {map after : ZoneMap}
    {entries : List ZoneEntry} (represents : map.Represents entries)
    (built : zones.foldlM (addZone toLowercase toUppercase) map = .ok after) :
    after.Represents (entries ++ zoneEntries toLowercase toUppercase zones) := by
  induction zones generalizing map entries with
  | nil =>
      cases built
      rwa [zoneEntries, List.filterMap_nil, List.append_nil]
  | cons zone zones ih =>
      rw [List.foldlM_cons, addZone_eq] at built
      cases isEntry : zone.entry toLowercase toUppercase with
      | error error =>
          rw [isEntry] at built
          cases built
      | ok entry =>
          rw [isEntry] at built
          have later := ih (represents.push (named_of_entry isEntry)) built
          rwa [List.append_assoc, List.singleton_append, ← zoneEntries_cons isEntry] at later

theorem represents_buildZoneMap {zones : List ZoneRecord} {map : ZoneMap}
    (built : buildZoneMap toLowercase toUppercase zones = .ok map) :
    map.Represents (zoneEntries toLowercase toUppercase zones) :=
  represents_foldlM
    ⟨ZoneBucket.represents_empty, ZoneBucket.represents_empty, List.forall_mem_nil _⟩ built

/-- Records that are spelled alike have the same entry. -/
theorem SpelledAlike.entry_eq (lowers : LowersAscii toLowercase) {zone other : ZoneRecord}
    (alike : SpelledAlike toLowercase zone other) :
    other.entry toLowercase toUppercase = zone.entry toLowercase toUppercase := by
  have normalized : normalize toLowercase other.domain = normalize toLowercase zone.domain := by
    rcases alike.owner with ascii | lowered
    · exact (lowers.normalize_congr ascii).symm
    · calc normalize toLowercase other.domain
          = normalize toLowercase other.domain.trimEndDots := (lowers.normalize_trimEndDots _).symm
        _ = normalize toLowercase zone.domain.trimEndDots := by rw [normalize, normalize, lowered]
        _ = normalize toLowercase zone.domain := lowers.normalize_trimEndDots _
  have keyed : zoneKey toLowercase other = zoneKey toLowercase zone := by
    rw [normalize, normalize] at normalized
    rw [zoneKey, zoneKey, normalized]
  have parsed : zoneData toUppercase other = zoneData toUppercase zone := by
    funext owner
    rw [zoneData, zoneData, alike.recordType, alike.value, alike.ttl]
  rw [ZoneRecord.entry, ZoneRecord.entry, keyed, parsed]

theorem buildZoneMap_of_spelledAlike (lowers : LowersAscii toLowercase)
    {zones others : List ZoneRecord}
    (alike : List.Forall₂ (SpelledAlike toLowercase) zones others) :
    buildZoneMap toLowercase toUppercase others = buildZoneMap toLowercase toUppercase zones := by
  have fold : ∀ map, others.foldlM (addZone toLowercase toUppercase) map =
      zones.foldlM (addZone toLowercase toUppercase) map := by
    induction alike with
    | nil => exact fun _ => rfl
    | cons first _ ih =>
        intro map
        rw [List.foldlM_cons, List.foldlM_cons, addZone_eq, addZone_eq, first.entry_eq lowers]
        simp only [ih]
  exact fold {}

/-- A reordered configuration has the same records under each owner and type. -/
theorem Reordered.recordsIn_eq {zones others : List ZoneRecord}
    (reordered : Reordered toLowercase toUppercase zones others) (isWildcard : Bool) (owner : Text)
    (qtype : QueryType) :
    recordsIn (zoneEntries toLowercase toUppercase others) isWildcard owner qtype =
      recordsIn (zoneEntries toLowercase toUppercase zones) isWildcard owner qtype := by
  rw [recordsIn, recordsIn, reordered.inOrder]

theorem Reordered.owned_iff {zones others : List ZoneRecord}
    (reordered : Reordered toLowercase toUppercase zones others) (isWildcard : Bool)
    (owner : Text) :
    Owned (zoneEntries toLowercase toUppercase others) isWildcard owner ↔
      Owned (zoneEntries toLowercase toUppercase zones) isWildcard owner := by
  have perm : (zoneEntries toLowercase toUppercase others).Perm
      (zoneEntries toLowercase toUppercase zones) := reordered.perm.filterMap _
  simp only [Owned, perm.mem_iff]

/-- A configuration that is accepted answers for a name with its own records,
or else with those of the longest wildcard above it.  Neither the spelling of the
owners nor the order of records with different owners or types changes an
answer. -/
theorem ZoneMap.lookup_correct (lowers : LowersAscii toLowercase) {zones : List ZoneRecord}
    {map : ZoneMap} (built : buildZoneMap toLowercase toUppercase zones = .ok map) :
    (∀ qname qtype,
      ZoneAnswer (zoneEntries toLowercase toUppercase zones) qname qtype
        (map.lookup qname qtype)) ∧
    (∀ others, List.Forall₂ (SpelledAlike toLowercase) zones others →
      ∃ again, buildZoneMap toLowercase toUppercase others = .ok again ∧
        ∀ qname qtype, again.lookup qname qtype = map.lookup qname qtype) ∧
    ∀ others, Reordered toLowercase toUppercase zones others →
      ∃ again, buildZoneMap toLowercase toUppercase others = .ok again ∧
        ∀ qname qtype, again.lookup qname qtype = map.lookup qname qtype := by
  have answer := (represents_buildZoneMap built).answer
  refine ⟨answer, ?_, ?_⟩
  · intro others alike
    exact ⟨map, (buildZoneMap_of_spelledAlike lowers alike).trans built, fun _ _ => rfl⟩
  · intro others reordered
    have accepted : ∀ zone ∈ others, ∃ entry, zone.entry toLowercase toUppercase = .ok entry :=
      fun zone zoneMem => (foldlM_addZone_isOk_iff zones {}).mp ⟨map, built⟩ zone
        (reordered.perm.mem_iff.mp zoneMem)
    obtain ⟨again, builtAgain⟩ := (foldlM_addZone_isOk_iff others {}).mpr accepted
    refine ⟨again, builtAgain, fun qname qtype => ?_⟩
    exact (answer qname qtype).congr reordered.owned_iff reordered.recordsIn_eq
      ((represents_buildZoneMap builtAgain).answer qname qtype)

end Build

/-- Two records of a host, and a wildcard above it. -/
def hostZones : List ZoneRecord :=
  [ ⟨text "Host.Pool.", text "a", text "10.0.0.1", 300⟩,
    ⟨text "*.pool", text "CNAME", text "host.pool", 300⟩,
    ⟨text "host.pool", text "A", text "10.0.0.2", 300⟩ ]

theorem ZoneMap.lookup_correct_hostZones :
    ∃ map, buildZoneMap Text.toLowercase (·.map toAsciiUppercase) hostZones = .ok map ∧
      ∀ qname qtype,
        ZoneAnswer (zoneEntries Text.toLowercase (·.map toAsciiUppercase) hostZones) qname qtype
          (map.lookup qname qtype) := by
  have accepted : (buildZoneMap Text.toLowercase (·.map toAsciiUppercase) hostZones).isOk = true := by
    decide +kernel
  cases built : buildZoneMap Text.toLowercase (·.map toAsciiUppercase) hostZones with
  | error error =>
      rw [built] at accepted
      cases accepted
  | ok map =>
      exact ⟨map, rfl, (ZoneMap.lookup_correct BlocklistStore.lowersAscii_ascii built).1⟩

end Numa
