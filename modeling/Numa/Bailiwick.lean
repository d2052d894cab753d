import Mathlib.Data.Set.Lattice
import Numa.ResolverRules

/-!
# What a referral may plant

The names under which a referral is cached, and the zone that the resolution
moves to, come from the response alone.  This file says which keys a response
can put into the cache, and that nothing compares them with the zone that was
asked.
-/

namespace Numa

/-! ## Names below a zone -/

/-- The labels of a name in presentation form.  The octet behind a backslash
belongs to the label. -/
def splitLabels : Text → List Text
  | [] => [[]]
  | 0x5C :: octet :: rest =>
    match splitLabels rest with
    | [] => [[0x5C, octet]]
    | label :: labels => (0x5C :: octet :: label) :: labels
  | octet :: rest =>
    if octet = dot then [] :: splitLabels rest
    else
      match splitLabels rest with
      | [] => [[octet]]
      | label :: labels => (octet :: label) :: labels

/-- The labels of a name without regard to case; the root has none. -/
def nameLabels (name : Text) : List Text :=
  (splitLabels name.toLowercase).filter fun label => !label.isEmpty

/-- Is the name the zone or label-wise below it? -/
def AtOrBelow (zone name : Text) : Prop :=
  nameLabels zone <:+ nameLabels name

instance (zone name : Text) : Decidable (AtOrBelow zone name) :=
  inferInstanceAs (Decidable (_ <:+ _))

/-! ## The keys of a response -/

/-- The nameservers that the answer to a minimized query names. -/
def minimizedServers (response : DnsPacket) : List Text :=
  if extractNsFromRecords response.answers = [] then extractNsNames response
  else extractNsFromRecords response.answers

/-- What `cache_ns_delegation`, `cache_ds_from_authority` and `cache_glue`
insert while a response is processed, in the branch for minimized queries and
in that for referrals. -/
def referralWrites (minimized : Bool) (response : DnsPacket) :
    List (Text × QueryType × DnsPacket) :=
  if minimized then
    (match referralZone response with
      | some zone => cacheNsDelegation zone response
      | none => []) ++ cacheGlue response (minimizedServers response)
  else
    (match referralZone response with
      | some zone => cacheNsDelegation zone response ++ cacheDsFromAuthority response
      | none => []) ++ cacheGlue response (extractNsNames response)

/-- The keys under which a response is cached. -/
def plantedKeys (minimized : Bool) (response : DnsPacket) : List CacheKey :=
  (referralWrites minimized response).map fun item => (item.1, item.2.1)

/-- The zone that a resolution moves to. -/
def referralTarget (currentZone : Text) (response : DnsPacket) : Text :=
  (referralZone response).getD currentZone

/-- Does the additional section have an address for the nameserver? -/
def HasGlue (response : DnsPacket) (nsName : Text) : Prop :=
  ∃ record ∈ response.resources, (record.queryType = .a ∨ record.queryType = .aaaa) ∧
    record.domain.eqIgnoreAsciiCase nsName = true

/-- The names in a response that are used as keys satisfy a property: the zone
of the referral, the nameservers with glue and, in a referral, the owners of DS
data. -/
structure KeyNames (minimized : Bool) (response : DnsPacket) (holds : Text → Prop) : Prop where
  zone : ∀ zone, referralZone response = some zone → holds zone
  glue : ∀ nsName ∈ (if minimized then minimizedServers response else extractNsNames response),
    HasGlue response nsName → holds nsName
  ds : minimized = false → (referralZone response).isSome = true →
    ∀ record ∈ response.authorities, isDsData record = true → holds record.domain.toLowercase

section Keys

variable {response : DnsPacket} {holds : Text → Prop}

/-- The keys of inserted packets satisfy a property of their names. -/
def AllNames (holds : Text → Prop) (items : List (Text × QueryType × DnsPacket)) : Prop :=
  ∀ item ∈ items, holds item.1

theorem allNames_append {first second : List (Text × QueryType × DnsPacket)} :
    AllNames holds (first ++ second) ↔ AllNames holds first ∧ AllNames holds second := by
  simp only [AllNames, List.mem_append]
  constructor
  · intro all
    exact ⟨fun item inFirst => all item (.inl inFirst),
      fun item inSecond => all item (.inr inSecond)⟩
  · rintro ⟨first, second⟩ item (inFirst | inSecond)
    · exact first item inFirst
    · exact second item inSecond

theorem allNames_gluePacket {domain : Text} {qtype : QueryType} {answers : List DnsRecord} :
    AllNames holds (gluePacket domain qtype answers) ↔ (answers ≠ [] → holds domain) := by
  unfold gluePacket
  split
  · rename_i empty
    simp [AllNames, empty]
  · rename_i nonempty
    simp [AllNames, nonempty]

theorem filterMap_ne_nil_iff {α β : Type} {store : α → Option β} {records : List α} :
    records.filterMap store ≠ [] ↔ ∃ record ∈ records, (store record).isSome = true := by
  rw [Ne, List.filterMap_eq_nil_iff]
  push Not
  simp only [Option.isSome_iff_ne_none]

theorem glueA_ne_nil_iff (nsName : Text) :
    glueA response nsName ≠ [] ↔ ∃ record ∈ response.resources,
      record.queryType = .a ∧ record.domain.eqIgnoreAsciiCase nsName = true := by
  rw [glueA, filterMap_ne_nil_iff]
  refine exists_congr fun record => and_congr_right fun _ => ?_
  cases record <;> simp [DnsRecord.queryType, DnsRecord.domain]

theorem glueAaaa_ne_nil_iff (nsName : Text) :
    glueAaaa response nsName ≠ [] ↔ ∃ record ∈ response.resources,
      record.queryType = .aaaa ∧ record.domain.eqIgnoreAsciiCase nsName = true := by
  rw [glueAaaa, filterMap_ne_nil_iff]
  refine exists_congr fun record => and_congr_right fun _ => ?_
  cases record <;> simp [DnsRecord.queryType, DnsRecord.domain]

theorem hasGlue_iff (nsName : Text) :
    HasGlue response nsName ↔ glueA response nsName ≠ [] ∨ glueAaaa response nsName ≠ [] := by
  rw [glueA_ne_nil_iff, glueAaaa_ne_nil_iff, HasGlue]
  constructor
  · rintro ⟨record, recordMem, isA | isAaaa, sameName⟩
    · exact .inl ⟨record, recordMem, isA, sameName⟩
    · exact .inr ⟨record, recordMem, isAaaa, sameName⟩
  · rintro (⟨record, recordMem, isA, sameName⟩ | ⟨record, recordMem, isAaaa, sameName⟩)
    · exact ⟨record, recordMem, .inl isA, sameName⟩
    · exact ⟨record, recordMem, .inr isAaaa, sameName⟩

theorem allNames_cacheGlue {nsNames : List Text} :
    AllNames holds (cacheGlue response nsNames) ↔
      ∀ nsName ∈ nsNames, HasGlue response nsName → holds nsName := by
  have perName : ∀ nsName, AllNames holds (gluePacket nsName .a (glueA response nsName) ++
      gluePacket nsName .aaaa (glueAaaa response nsName)) ↔
        (HasGlue response nsName → holds nsName) := by
    intro nsName
    rw [allNames_append, allNames_gluePacket, allNames_gluePacket, hasGlue_iff, or_imp]
  constructor
  · intro all nsName nsNameMem
    rw [← perName]
    exact fun item itemMem => all item (List.mem_flatMap.mpr ⟨nsName, nsNameMem, itemMem⟩)
  · intro all item itemMem
    obtain ⟨nsName, nsNameMem, inName⟩ := List.mem_flatMap.mp itemMem
    exact (perName nsName).mpr (all nsName nsNameMem) item inName

theorem allNames_cacheNsDelegation {zone : Text} (isZone : referralZone response = some zone) :
    AllNames holds (cacheNsDelegation zone response) ↔ holds zone := by
  have nonempty : response.authorities.filter DnsRecord.isNs ≠ [] := by
    obtain ⟨record, recordMem, isNs⟩ := List.exists_of_findSome?_eq_some isZone
    apply List.ne_nil_of_mem (a := record)
    rw [List.mem_filter]
    refine ⟨recordMem, ?_⟩
    cases record with
    | ns domain host ttl => rfl
    | _ => simp at isNs
  rw [cacheNsDelegation, allNames_gluePacket]
  exact ⟨fun all => all nonempty, fun zoneHolds _ => zoneHolds⟩

/-- The groups by owner: their names, and that none is empty. -/
theorem addByDomain_names (holds : Text → Prop) (groups : List (Text × List DnsRecord))
    (record : DnsRecord) (nonempty : ∀ group ∈ groups, group.2 ≠ []) :
    (∀ group ∈ addByDomain groups record, group.2 ≠ []) ∧
      ((∀ group ∈ addByDomain groups record, holds group.1) ↔
        (∀ group ∈ groups, holds group.1) ∧ holds record.domain.toLowercase) := by
  induction groups with
  | nil => simp [addByDomain]
  | cons group groups ih =>
      obtain ⟨domain, records⟩ := group
      obtain ⟨restNonempty, restNames⟩ := ih fun other otherMem => nonempty other (by simp [otherMem])
      rw [addByDomain]
      split
      · rename_i same
        have later : ∀ other ∈ groups, other.2 ≠ [] := fun other otherMem =>
          nonempty other (by simp [otherMem])
        constructor
        · simpa using fun name members => later (name, members)
        · simp only [List.mem_cons, forall_eq_or_imp, ← same]
          tauto
      · constructor
        · simp only [List.mem_cons, forall_eq_or_imp]
          exact ⟨nonempty (domain, records) (by simp), restNonempty⟩
        · simp only [List.mem_cons, forall_eq_or_imp]
          rw [restNames]
          tauto

theorem foldl_addByDomain_names (holds : Text → Prop) (records : List DnsRecord)
    (groups : List (Text × List DnsRecord)) (nonempty : ∀ group ∈ groups, group.2 ≠ []) :
    (∀ group ∈ records.foldl addByDomain groups, group.2 ≠ []) ∧
      ((∀ group ∈ records.foldl addByDomain groups, holds group.1) ↔
        (∀ group ∈ groups, holds group.1) ∧
          ∀ record ∈ records, holds record.domain.toLowercase) := by
  induction records generalizing groups with
  | nil => simpa using fun name members => nonempty (name, members)
  | cons record records ih =>
      obtain ⟨addedNonempty, addedNames⟩ := addByDomain_names holds groups record nonempty
      obtain ⟨allNonempty, allNames⟩ := ih (addByDomain groups record) addedNonempty
      refine ⟨allNonempty, ?_⟩
      rw [List.foldl_cons, allNames, addedNames]
      simp only [List.mem_cons, forall_eq_or_imp]
      tauto

theorem allNames_cacheDsFromAuthority :
    AllNames holds (cacheDsFromAuthority response) ↔
      ∀ record ∈ response.authorities, isDsData record = true →
        holds record.domain.toLowercase := by
  obtain ⟨nonempty, names⟩ := foldl_addByDomain_names holds
    (response.authorities.filter isDsData) [] (by simp)
  have groups : AllNames holds (cacheDsFromAuthority response) ↔
      ∀ group ∈ (response.authorities.filter isDsData).foldl addByDomain [], holds group.1 := by
    constructor
    · intro all group groupMem
      have inGroup := fun item itemMem => all item (List.mem_flatMap.mpr ⟨group, groupMem, itemMem⟩)
      exact allNames_gluePacket.mp inGroup (nonempty group groupMem)
    · intro all item itemMem
      obtain ⟨group, groupMem, inGroup⟩ := List.mem_flatMap.mp itemMem
      exact allNames_gluePacket.mpr (fun _ => all group groupMem) item inGroup
  rw [groups, names]
  simp only [List.mem_filter, and_imp]
  simp

/-- The keys of a response satisfy a property of names when the names that
they are taken from do. -/
theorem allNames_referralWrites (minimized : Bool) :
    AllNames holds (referralWrites minimized response) ↔ KeyNames minimized response holds := by
  cases minimized with
  | true =>
      rw [referralWrites, if_pos rfl, allNames_append, allNames_cacheGlue]
      cases isZone : referralZone response with
      | none =>
          constructor
          · rintro ⟨-, glue⟩
            exact ⟨by simp [isZone], glue, by simp⟩
          · intro names
            exact ⟨by simp [AllNames], names.glue⟩
      | some zone =>
          rw [allNames_cacheNsDelegation isZone]
          constructor
          · rintro ⟨zoneHolds, glue⟩
            refine ⟨fun other isOther => ?_, glue, by simp⟩
            rw [isZone] at isOther
            cases isOther
            exact zoneHolds
          · intro names
            exact ⟨names.zone zone isZone, names.glue⟩
  | false =>
      rw [referralWrites, if_neg Bool.false_ne_true, allNames_append, allNames_cacheGlue]
      cases isZone : referralZone response with
      | none =>
          constructor
          · rintro ⟨-, glue⟩
            exact ⟨by simp [isZone], glue, by simp [isZone]⟩
          · intro names
            exact ⟨by simp [AllNames], names.glue⟩
      | some zone =>
          rw [allNames_append, allNames_cacheNsDelegation isZone, allNames_cacheDsFromAuthority]
          constructor
          · rintro ⟨⟨zoneHolds, ds⟩, glue⟩
            refine ⟨fun other isOther => ?_, glue, fun _ _ => ds⟩
            rw [isZone] at isOther
            cases isOther
            exact zoneHolds
          · intro names
            exact ⟨⟨names.zone zone isZone, names.ds rfl (by simp [isZone])⟩, names.glue⟩

end Keys

/-! ## Runs -/

/-- The keys that an answer brings: what is looked up, and what a response
names. -/
def broughtKeys : (effect : Effect) → effect.Answer → Set CacheKey
  | .lookup _ qname qtype, _ => {(qname, qtype)}
  | .sendQueryHedged .., .ok response =>
    {key | key ∈ plantedKeys true response ∨ key ∈ plantedKeys false response}
  | _, _ => ∅

/-- Only keys that were brought are written. -/
def planting : Protocol Effect Effect.Answer (Set CacheKey) where
  allowed brought effect :=
    match effect with
    | .insertWires batch => ∀ item ∈ batch, (item.domain, item.qtype) ∈ brought
    | _ => True
  moves brought effect value after := after = brought ∪ broughtKeys effect value

theorem mem_plantedKeys {minimized : Bool} {response : DnsPacket}
    {item : Text × QueryType × DnsPacket} (written : item ∈ referralWrites minimized response) :
    (item.1, item.2.1) ∈ plantedKeys minimized response :=
  List.mem_map_of_mem written

/-- Glue for servers that are named is written in one of the two branches. -/
theorem exists_written_of_cacheGlue {response : DnsPacket} {nsNames : List Text}
    (named : nsNames ⊆ namedServers response) {item : Text × QueryType × DnsPacket}
    (itemMem : item ∈ cacheGlue response nsNames) :
    item ∈ referralWrites true response ∨ item ∈ referralWrites false response := by
  obtain ⟨nsName, nsNameMem, inName⟩ := List.mem_flatMap.mp itemMem
  rcases List.mem_append.mp (named nsNameMem) with inAnswers | inAuthorities
  · left
    have nonempty : extractNsFromRecords response.answers ≠ [] := List.ne_nil_of_mem inAnswers
    rw [referralWrites, if_pos rfl, minimizedServers, if_neg nonempty]
    exact List.mem_append_right _ (List.mem_flatMap.mpr ⟨nsName, inAnswers, inName⟩)
  · right
    rw [referralWrites, if_neg Bool.false_ne_true]
    exact List.mem_append_right _ (List.mem_flatMap.mpr ⟨nsName, inAuthorities, inName⟩)

def plantingRules (env : ResolverEnv) : ResolverRules env (Set CacheKey) where
  protocol := planting
  asked brought qname qtype := (qname, qtype) ∈ brought
  heard brought response := ∀ minimized, ∀ key ∈ plantedKeys minimized response, key ∈ brought
  good _ _ := True
  storable brought item := (item.1, item.2.1) ∈ brought
  trusts _ := True
  grows := by
    rintro before effect answer after rfl
    exact Set.subset_union_left
  asked_mono := fun grown asked => grown asked
  heard_mono := fun grown heard minimized key keyMem => grown (heard minimized key keyMem)
  good_mono := fun _ _ => trivial
  good_of_heard := fun _ => trivial
  allowed_lookup := fun _ _ _ _ => trivial
  allowed_readCache := fun _ => trivial
  allowed_sort := fun _ _ => trivial
  allowed_send := fun _ _ _ _ => trivial
  allowed_insert := by
    intro brought packets storable item itemMem
    obtain ⟨⟨domain, qtype, packet⟩, packetMem, written⟩ := List.mem_filterMap.mp itemMem
    simp only [Option.ite_none_right_eq_some, Option.some.injEq] at written
    obtain ⟨-, rfl⟩ := written
    exact storable _ packetMem
  lookup := by
    rintro before caller qname qtype found after rfl
    exact ⟨Set.mem_union_right _ rfl, fun _ _ _ => trivial⟩
  send := by
    rintro before qname qtype servers response after rfl minimized key keyMem
    cases minimized with
    | true => exact Set.mem_union_right _ (.inl keyMem)
    | false => exact Set.mem_union_right _ (.inr keyMem)
  storable_kept := fun asked _ => asked
  storable_glue := by
    intro brought response nsNames heard named item itemMem
    rcases exists_written_of_cacheGlue named itemMem with minimized | referral
    · exact heard true _ (mem_plantedKeys minimized)
    · exact heard false _ (mem_plantedKeys referral)
  storable_delegation := by
    intro brought response zone heard isZone item itemMem
    apply heard true _ (mem_plantedKeys _)
    rw [referralWrites, if_pos rfl, isZone]
    exact List.mem_append_left _ itemMem
  storable_ds := by
    intro brought response zone heard isZone item itemMem
    apply heard false _ (mem_plantedKeys _)
    rw [referralWrites, if_neg Bool.false_ne_true, isZone]
    exact List.mem_append_left _ (List.mem_append_right _ itemMem)
  good_combine := fun _ _ => trivial

/-- A server for `com` that answers with a referral for `org`. -/
def foreignReferral : DnsPacket where
  header := { response := true }
  authorities := [.ns (text "org") (text "ns.bank.org") 86400]
  resources := [.a (text "ns.bank.org") (.new 203 0 113 7) 86400]

end Numa
