import Mathlib.Data.Set.Basic
import Numa.ResolverRules
import Numa.Server

/-!
# Where stored records come from

A task stores only records that it has received from servers itself, as long
as the resolutions whose result it stores start without a cache hit.  The
records are compared without their TTL and the letter case of their owner,
which the program changes.
-/

namespace Numa

/-- A record without its TTL and the letter case of its owner. -/
def DnsRecord.data : DnsRecord → DnsRecord
  | unknown domain qtype data _ => unknown domain.toLowercase qtype data 0
  | a domain addr _ => a domain.toLowercase addr 0
  | ns domain host _ => ns domain.toLowercase host 0
  | soa start => soa { start with domain := start.domain.toLowercase, ttl := 0 }
  | cname domain host _ => cname domain.toLowercase host 0
  | ptr domain host _ => ptr domain.toLowercase host 0
  | mx domain priority host _ => mx domain.toLowercase priority host 0
  | aaaa domain addr _ => aaaa domain.toLowercase addr 0
  | dnskey key => dnskey { key with domain := key.domain.toLowercase, ttl := 0 }
  | ds delegation =>
    ds { delegation with domain := delegation.domain.toLowercase, ttl := 0 }
  | rrsig sig => rrsig { sig with domain := sig.domain.toLowercase, ttl := 0 }
  | nsec denial => nsec { denial with domain := denial.domain.toLowercase, ttl := 0 }
  | nsec3 denial => nsec3 { denial with domain := denial.domain.toLowercase, ttl := 0 }

@[simp]
theorem DnsRecord.data_withTtl (ttl : UInt32) (record : DnsRecord) :
    (record.withTtl ttl).data = record.data := by
  cases record <;> rfl

/-- The data in a list of records. -/
def dataOf (records : List DnsRecord) : Set DnsRecord :=
  {data | data ∈ records.map DnsRecord.data}

theorem mem_dataOf {records : List DnsRecord} {data : DnsRecord} :
    data ∈ dataOf records ↔ ∃ record ∈ records, record.data = data :=
  List.mem_map

theorem dataOf_subset {records : List DnsRecord} {known : Set DnsRecord} :
    dataOf records ⊆ known ↔ ∀ record ∈ records, record.data ∈ known := by
  constructor
  · intro subset record recordMem
    exact subset (mem_dataOf.mpr ⟨record, recordMem, rfl⟩)
  · rintro each data dataMem
    obtain ⟨record, recordMem, rfl⟩ := mem_dataOf.mp dataMem
    exact each record recordMem

theorem dataOf_mono {records more : List DnsRecord} (subset : records ⊆ more) :
    dataOf records ⊆ dataOf more :=
  dataOf_subset.mpr fun record recordMem => mem_dataOf.mpr ⟨record, subset recordMem, rfl⟩

theorem DnsPacket.mem_records {packet : DnsPacket} {record : DnsRecord} :
    record ∈ packet.records ↔
      record ∈ packet.answers ∨ record ∈ packet.authorities ∨ record ∈ packet.resources := by
  simp [records]

/-- Patching keeps the data. -/
theorem dataOf_patch (id : UInt16) (ttl : UInt32) (packet : DnsPacket) :
    dataOf (packet.patch id ttl).records = dataOf packet.records := by
  have sections : (packet.patch id ttl).records =
      packet.records.map (DnsRecord.withTtl ttl) := by
    simp [DnsPacket.records, DnsPacket.patch]
  ext data
  simp [sections, dataOf]

@[simp]
theorem records_ofPacket (packet : DnsPacket) : (Wire.ofPacket packet).records = packet.records :=
  rfl

/-! ## What is taken from a response -/

/-- Every packet of the list has only data that is known. -/
def AllKnown (known : Set DnsRecord) (packets : List (Text × QueryType × DnsPacket)) : Prop :=
  ∀ item ∈ packets, dataOf item.2.2.records ⊆ known

variable {known : Set DnsRecord} {response : DnsPacket}

theorem allKnown_gluePacket {domain : Text} {qtype : QueryType} {answers : List DnsRecord}
    (answersKnown : dataOf answers ⊆ known) : AllKnown known (gluePacket domain qtype answers) := by
  intro item itemMem
  unfold gluePacket at itemMem
  split at itemMem
  · simp at itemMem
  · obtain rfl := List.mem_singleton.mp itemMem
    simpa [DnsPacket.records, makeGluePacket] using answersKnown

/-- Records of the additional section that are stored with the same data. -/
theorem dataOf_filterMap_resources {store : DnsRecord → Option DnsRecord}
    (sameData : ∀ original record, store original = some record →
      record.data = original.data) :
    dataOf (response.resources.filterMap store) ⊆ dataOf response.records := by
  rw [dataOf_subset]
  intro record recordMem
  obtain ⟨original, originalMem, stored⟩ := List.mem_filterMap.mp recordMem
  have inResponse : original ∈ response.records :=
    DnsPacket.mem_records.mpr (.inr (.inr originalMem))
  exact mem_dataOf.mpr ⟨original, inResponse, (sameData original record stored).symm⟩

/-- Glue is stored under the spelling of the NS record. -/
theorem dataOf_glueA (nsName : Text) :
    dataOf (glueA response nsName) ⊆ dataOf response.records := by
  apply dataOf_filterMap_resources
  intro original record stored
  cases original with
  | a domain addr ttl =>
      simp only [Option.ite_none_right_eq_some, Option.some.injEq] at stored
      obtain ⟨sameName, rfl⟩ := stored
      simp only [DnsRecord.data, Text.eqIgnoreAsciiCase_iff.mp sameName]
  | _ => simp at stored

theorem dataOf_glueAaaa (nsName : Text) :
    dataOf (glueAaaa response nsName) ⊆ dataOf response.records := by
  apply dataOf_filterMap_resources
  intro original record stored
  cases original with
  | aaaa domain addr ttl =>
      simp only [Option.ite_none_right_eq_some, Option.some.injEq] at stored
      obtain ⟨sameName, rfl⟩ := stored
      simp only [DnsRecord.data, Text.eqIgnoreAsciiCase_iff.mp sameName]
  | _ => simp at stored

theorem allKnown_cacheGlue (responseKnown : dataOf response.records ⊆ known)
    (nsNames : List Text) : AllKnown known (cacheGlue response nsNames) := by
  intro item itemMem
  obtain ⟨nsName, -, itemMem⟩ := List.mem_flatMap.mp itemMem
  rcases List.mem_append.mp itemMem with isA | isAaaa
  · exact allKnown_gluePacket ((dataOf_glueA nsName).trans responseKnown) item isA
  · exact allKnown_gluePacket ((dataOf_glueAaaa nsName).trans responseKnown) item isAaaa

theorem dataOf_authorities_subset {records : List DnsRecord}
    (fromAuthorities : records ⊆ response.authorities) :
    dataOf records ⊆ dataOf response.records :=
  dataOf_mono fun _ recordMem =>
    DnsPacket.mem_records.mpr (.inr (.inl (fromAuthorities recordMem)))

theorem allKnown_cacheNsDelegation (responseKnown : dataOf response.records ⊆ known)
    (zone : Text) : AllKnown known (cacheNsDelegation zone response) := by
  apply allKnown_gluePacket
  exact (dataOf_authorities_subset (List.filter_subset_self _)).trans responseKnown

/-- The groups hold records of the list only. -/
theorem mem_of_mem_addByDomain {records : List DnsRecord} {groups : List (Text × List DnsRecord)}
    {record : DnsRecord} {group : Text × List DnsRecord}
    (groupMem : group ∈ addByDomain groups record)
    (old : ∀ group ∈ groups, group.2 ⊆ records) (recordMem : record ∈ records) :
    group.2 ⊆ records := by
  induction groups with
  | nil =>
      obtain rfl := List.mem_singleton.mp groupMem
      simpa using recordMem
  | cons first groups ih =>
      have firstOld : first.2 ⊆ records := old first (by simp)
      unfold addByDomain at groupMem
      split at groupMem
      · rcases List.mem_cons.mp groupMem with rfl | later
        · simpa using ⟨firstOld, recordMem⟩
        · exact old group (by simp [later])
      · rcases List.mem_cons.mp groupMem with rfl | later
        · exact firstOld
        · exact ih later fun other otherMem => old other (by simp [otherMem])

theorem foldl_addByDomain_subset {all : List DnsRecord} (records : List DnsRecord)
    (recordsMem : records ⊆ all) :
    ∀ groups : List (Text × List DnsRecord), (∀ group ∈ groups, group.2 ⊆ all) →
      ∀ group ∈ records.foldl addByDomain groups, group.2 ⊆ all := by
  induction records with
  | nil => exact fun _ old => old
  | cons record records ih =>
      intro groups old
      have firstMem : record ∈ all := recordsMem (by simp)
      apply ih (fun _ laterMem => recordsMem (by simp [laterMem]))
      exact fun group groupMem => mem_of_mem_addByDomain groupMem old firstMem

theorem allKnown_cacheDsFromAuthority (responseKnown : dataOf response.records ⊆ known) :
    AllKnown known (cacheDsFromAuthority response) := by
  intro item itemMem
  obtain ⟨group, groupMem, itemMem⟩ := List.mem_flatMap.mp itemMem
  have fromAuthorities : group.2 ⊆ response.authorities :=
    foldl_addByDomain_subset _ (List.filter_subset_self _) [] (by simp) group groupMem
  exact allKnown_gluePacket
    ((dataOf_authorities_subset fromAuthorities).trans responseKnown) item itemMem

/-! ## The protocol of a task -/

/-- The data that an answer brings from a server. -/
def heard : (effect : Effect) → effect.Answer → Set DnsRecord
  | .sendQueryHedged .., .ok packet => dataOf packet.records
  | .forwardRaw, .ok wire => dataOf wire.records
  | _, _ => ∅

/-- A lookup whose result would be stored finds nothing. -/
def Missed : (effect : Effect) → effect.Answer → Prop
  | .lookup caller _ _, found => caller.stores = true → found = none
  | _, _ => True

/-- Only known data is stored, and what servers send becomes known. -/
def sourced : Protocol Effect Effect.Answer (Set DnsRecord) where
  allowed known effect :=
    match effect with
    | .insertWires batch => ∀ item ∈ batch, dataOf item.wire.records ⊆ known
    | _ => True
  moves known effect value after := Missed effect value ∧ after = known ∪ heard effect value

theorem sourced_grows (before : Set DnsRecord) (effect : Effect) (value : effect.Answer)
    (after : Set DnsRecord) (moves : sourced.moves before effect value after) :
    before ≤ after := by
  rw [moves.2]
  exact Set.subset_union_left

/-- A packet that is returned has only known data. -/
def Returned (after : Set DnsRecord) (result : Except ResolveError DnsPacket) : Prop :=
  ∀ packet, result = .ok packet → dataOf packet.records ⊆ after

variable {env : ResolverEnv}

theorem dataOf_combineResponse {finalResp : DnsPacket}
    (responseKnown : dataOf response.records ⊆ known)
    (finalKnown : dataOf finalResp.records ⊆ known) :
    dataOf (combineResponse response finalResp).records ⊆ known := by
  rw [dataOf_subset] at *
  intro record recordMem
  have sections := DnsPacket.mem_records.mp recordMem
  simp only [combineResponse, List.mem_append] at sections
  rcases sections with (inFirst | inFinal) | rest
  · exact responseKnown record (DnsPacket.mem_records.mpr (.inl inFirst))
  · exact finalKnown record (DnsPacket.mem_records.mpr (.inl inFinal))
  · exact responseKnown record (DnsPacket.mem_records.mpr (.inr rest))

/-- The rules of the protocol for a resolution. -/
def sourcedRules (env : ResolverEnv) : ResolverRules env (Set DnsRecord) where
  protocol := sourced
  asked _ _ _ := True
  heard known packet := dataOf packet.records ⊆ known
  good known packet := dataOf packet.records ⊆ known
  storable known item := dataOf item.2.2.records ⊆ known
  trusts caller := caller.stores = true
  grows := sourced_grows
  asked_mono := fun _ _ => trivial
  heard_mono := fun grown known => known.trans grown
  good_mono := fun grown known => known.trans grown
  good_of_heard := fun known => known
  allowed_lookup := fun _ _ _ _ => trivial
  allowed_readCache := fun _ => trivial
  allowed_sort := fun _ _ => trivial
  allowed_send := fun _ _ _ _ => trivial
  allowed_insert := by
    intro known packets allKnown item itemMem
    obtain ⟨⟨domain, qtype, packet⟩, packetMem, written⟩ := List.mem_filterMap.mp itemMem
    simp only [Option.ite_none_right_eq_some, Option.some.injEq] at written
    obtain ⟨-, rfl⟩ := written
    exact allKnown _ packetMem
  lookup := by
    rintro before caller qname qtype found after ⟨missed, -⟩
    refine ⟨trivial, fun stores packet isFound => ?_⟩
    rw [missed stores] at isFound
    cases isFound
  send := by
    rintro before qname qtype servers response after ⟨-, rfl⟩
    exact Set.subset_union_right
  storable_kept := fun _ known => known
  storable_glue := fun known _ => allKnown_cacheGlue known _
  storable_delegation := fun known _ => allKnown_cacheNsDelegation known _
  storable_ds := fun known _ => allKnown_cacheDsFromAuthority known
  good_combine := fun responseKnown finalKnown =>
    dataOf_combineResponse responseKnown (finalKnown rfl)

namespace Sourced

theorem obeys_quiet {effect : Effect} (allowed : sourced.allowed known effect)
    (nothingHeard : ∀ value, heard effect value = ∅) :
    (Interaction.ask effect .done).Obeys sourced
      (fun after value => Missed effect value ∧ after = known) known := by
  refine ⟨allowed, ?_⟩
  rintro value after ⟨missed, rfl⟩
  rw [nothingHeard value, Set.union_empty]
  exact ⟨missed, rfl⟩

theorem obeys_insertPackets {packets : List (Text × QueryType × DnsPacket)}
    (allKnown : AllKnown known packets) :
    (insertPackets env packets).Obeys sourced (fun _ _ => True) known := by
  have calm : (sourcedRules env).Calm (insertPackets env packets) known :=
    ResolverRules.calm_insertPackets allKnown
  exact calm.mono fun _ _ _ => trivial

theorem obeys_resolveRecursive (caller : Caller) (qname : Text) (qtype : QueryType)
    (originalQuery : DnsPacket) :
    ∀ known, (resolveRecursive env caller qname qtype originalQuery).Obeys sourced
      (fun after result => caller.stores = true → Returned after result) known := by
  intro known
  have sound : (sourcedRules env).Sound (caller.stores = true)
      (resolveIterative env caller qname qtype 0 0) :=
    ResolverRules.sound_resolveIterative caller qname qtype 0 0
  apply (sound known).bind
  intro after result returned
  cases result with
  | error error =>
      intro _ packet same
      cases same
  | ok resp =>
      intro stores packet same
      cases same
      exact returned stores resp rfl

/-! ## The tasks of the server -/

variable {ctx : ServerCtx}

/-- A forwarded message is stored with what it brought. -/
theorem obeys_insertWire {wire : Wire} (wireKnown : dataOf wire.records ⊆ known)
    (qname : Text) (qtype : QueryType) :
    (Resolver.insertWires [⟨qname, qtype, wire⟩]).Obeys sourced (fun after _ => after = known)
      known := by
  have allowed : sourced.allowed known (.insertWires [⟨qname, qtype, wire⟩]) := by
    intro item itemMem
    obtain rfl := List.mem_singleton.mp itemMem
    exact wireKnown
  exact (obeys_quiet allowed fun _ => rfl).mono fun _ _ holds => holds.2

theorem obeys_forwardAndCache (qname : Text) (qtype : QueryType) :
    (forwardAndCache qname qtype).Obeys sourced (fun _ _ => True) known := by
  refine ⟨trivial, ?_⟩
  rintro value after ⟨-, rfl⟩
  cases value with
  | error error => trivial
  | ok wire =>
      apply (obeys_insertWire Set.subset_union_right qname qtype).bind
      rintro _ _ -
      cases wire.packet with
      | none => trivial
      | some packet => trivial

theorem obeys_resolveCoalesced {resolveFn : Resolution}
    (obeysFn : ∀ known, resolveFn.Obeys sourced (fun _ _ => True) known) (key : CacheKey)
    (query : DnsPacket) (leaderPath : QueryPath) :
    (resolveCoalesced key query leaderPath resolveFn).Obeys sourced (fun _ _ => True) known := by
  refine ⟨trivial, ?_⟩
  rintro disposition after -
  cases disposition with
  | follower =>
      refine ⟨trivial, ?_⟩
      rintro received _ -
      cases received with
      | none => trivial
      | some resp => trivial
  | leader =>
      apply (obeysFn after).bind
      rintro final result -
      refine ⟨trivial, ?_⟩
      rintro _ _ -
      cases result with
      | error error => exact ⟨trivial, fun _ _ _ => trivial⟩
      | ok resp => exact ⟨trivial, fun _ _ _ => trivial⟩

theorem obeys_startRefresh (key : CacheKey) :
    (startRefresh key).Obeys sourced (fun _ _ => True) known := by
  refine ⟨trivial, ?_⟩
  rintro inserted after -
  cases inserted with
  | false => trivial
  | true => exact ⟨trivial, fun _ _ _ => trivial⟩

theorem obeys_serveCached (query : DnsPacket) (key : CacheKey) (cached : DnsPacket)
    (cachedDnssec : DnssecStatus) (freshness : Freshness) :
    (serveCached query key cached cachedDnssec freshness).Obeys sourced (fun _ _ => True)
      known := by
  unfold serveCached
  split
  · apply (obeys_startRefresh key).bind
    exact fun _ _ _ => trivial
  · trivial

theorem obeys_resolveMiss (query : DnsPacket) (qname : Text) (qtype : QueryType) :
    ∀ known, (resolveMiss ctx query qname qtype).2.Obeys sourced (fun _ _ => True) known := by
  intro known
  unfold resolveMiss
  split
  · exact obeys_forwardAndCache qname qtype
  · split
    · apply (obeys_resolveRecursive .client qname qtype query known).mono
      exact fun _ _ _ => trivial
    · exact obeys_forwardAndCache qname qtype

theorem obeys_resolveRemote (query : DnsPacket) (qname : Text) (qtype : QueryType) :
    (resolveRemote ctx query qname qtype).Obeys sourced (fun _ _ => True) known := by
  refine ⟨trivial, ?_⟩
  rintro found after -
  cases found with
  | some hit => exact obeys_serveCached query (qname, qtype) hit.1 hit.2.1 hit.2.2
  | none =>
      apply (obeys_resolveCoalesced (obeys_resolveMiss query qname qtype) _ query _).bind
      exact fun _ _ _ => trivial

theorem obeys_refreshByForwarding (qname : Text) (qtype : QueryType) :
    (refreshByForwarding ctx qname qtype).Obeys sourced (fun _ _ => True) known := by
  unfold refreshByForwarding
  split
  · refine ⟨trivial, ?_⟩
    rintro value after ⟨-, rfl⟩
    cases value with
    | error error => trivial
    | ok wire =>
        apply (obeys_insertWire Set.subset_union_right qname qtype).mono
        exact fun _ _ _ => trivial
  · trivial

theorem obeys_refreshEntry (qname : Text) (qtype : QueryType) :
    (refreshEntry ctx qname qtype).Obeys sourced (fun _ _ => True) known := by
  unfold refreshEntry
  split
  · exact obeys_refreshByForwarding qname qtype
  · split
    · apply (obeys_resolveRecursive .refresh qname qtype _ known).bind
      intro after result returned
      cases result with
      | error error => trivial
      | ok resp =>
          have allKnown : AllKnown after [(qname, qtype, resp)] := by
            intro item itemMem
            obtain rfl := List.mem_singleton.mp itemMem
            exact returned rfl resp rfl
          apply (obeys_insertPackets allKnown).mono
          exact fun _ _ _ => trivial
    · exact obeys_refreshByForwarding qname qtype

theorem obeys_spawnedRefresh (key : CacheKey) :
    (spawnedRefresh ctx key).Obeys sourced (fun _ _ => True) known := by
  apply (obeys_refreshEntry key.1 key.2).bind
  exact fun _ _ _ => ⟨trivial, fun _ _ _ => trivial⟩

end Sourced

end Numa
