import Numa.LocalData
import Numa.SharedStores

/-!
# The answers from local data

Every source of `resolve_local` but the overrides answers with records of the
type that is asked for or with CNAMEs.  An override has one record, which is the
answer to questions of every type.
-/

namespace Numa

/-- The record answers a question. -/
def AnswersQuestion (qname : Text) (qtype : QueryType) (record : DnsRecord) : Prop :=
  record.domain = qname ∧ (record.queryType = qtype ∨ record.queryType = .cname)

instance (qname : Text) (qtype : QueryType) (record : DnsRecord) :
    Decidable (AnswersQuestion qname qtype record) :=
  inferInstanceAs (Decidable (_ ∧ _))

/-! ## Overrides -/

theorem parseTarget_keyed (domain target : Text) (ttl : UInt32) :
    (parseTarget domain target ttl).2.domain = domain ∧
      (parseTarget domain target ttl).2.isRrsig = false := by
  unfold parseTarget
  split
  · exact ⟨rfl, rfl⟩
  · split <;> exact ⟨rfl, rfl⟩

namespace OverrideStore

/-- Every record stands under its owner, and none is a signature. -/
def Keyed (store : OverrideStore) : Prop :=
  ∀ key entry, store.entries.lookup key = some entry →
    entry.record.domain = key ∧ entry.record.isRrsig = false

theorem keyed_new : new.Keyed := by
  intro key entry found
  cases found

section Keyed

variable {store after : OverrideStore} (keyed : store.Keyed)

include keyed

theorem Keyed.retainUnexpired {now : Nat} (retained : store.retainUnexpired now = some after) :
    after.Keyed := by
  unfold OverrideStore.retainUnexpired at retained
  split at retained
  · cases retained
    intro key entry found
    rw [lookup_retain] at found
    obtain ⟨held, isHeld, kept⟩ := Option.bind_eq_some_iff.mp found
    split at kept
    · cases kept
    · cases kept
      exact keyed key entry isHeld
  · cases retained

theorem Keyed.insert {toLowercase : Text → Text} {now : Nat} {domain target : Text} {ttl : UInt32}
    {durationSecs : Option UInt64} {qtype : QueryType}
    (inserted : store.insert toLowercase now domain target ttl durationSecs = some (after, qtype)) :
    after.Keyed := by
  obtain ⟨kept, retained, result⟩ := Option.bind_eq_some_iff.mp inserted
  cases result
  intro key entry found
  by_cases same : key = toLowercase domain
  · subst same
    rw [AList.lookup_insert] at found
    cases found
    exact parseTarget_keyed _ target ttl
  · rw [AList.lookup_insert_ne same] at found
    exact keyed.retainUnexpired retained key entry found

theorem Keyed.remove (toLowercase : Text → Text) (domain : Text) :
    (store.remove toLowercase domain).1.Keyed := by
  intro key entry found
  by_cases same : key = toLowercase domain
  · subst same
    simp [OverrideStore.remove] at found
  · rw [OverrideStore.remove, AList.lookup_erase_ne same] at found
    exact keyed key entry found

theorem Keyed.insertOverrides {toLowercase : Text → Text} {now : Nat}
    {requests : List OverrideRequest}
    (inserted : SharedStores.insertOverrides toLowercase now store requests = some after) :
    after.Keyed := by
  induction requests generalizing store with
  | nil =>
      cases inserted
      exact keyed
  | cons request requests ih =>
      rw [SharedStores.insertOverrides, List.foldlM_cons] at inserted
      obtain ⟨middle, first, rest⟩ := Option.bind_eq_some_iff.mp inserted
      obtain ⟨⟨middle, qtype⟩, done, rfl⟩ := Option.map_eq_some_iff.mp first
      exact ih (keyed.insert done) rest

end Keyed

/-- What is found under a name is the record of an entry that has not expired. -/
theorem lookup_eq_some_iff {store : OverrideStore} {now : Nat} {qname : Text} {record : DnsRecord} :
    store.lookup now qname = some (some record) ↔
      ∃ entry, store.entries.lookup qname = some entry ∧ entry.isExpired now = some false ∧
        entry.record = record := by
  unfold lookup unexpired
  cases store.entries.lookup qname with
  | none => simp
  | some entry =>
      cases expired : entry.isExpired now with
      | none => simp [expired]
      | some value => cases value <;> simp [expired]

end OverrideStore

namespace SharedStores

/-- Whatever is done to the stores, the overrides stand under their owners. -/
theorem keyed_step {toLowercase : Text → Text} {stores : SharedStores}
    (keyed : stores.overrides.value.Keyed) (now : Nat) (operation : StoreOperation) :
    (stores.step toLowercase now operation).1.overrides.value.Keyed := by
  have written : ∀ change : OverrideStore → Option OverrideStore,
      (∀ store after, store.Keyed → change store = some after → after.Keyed) →
      (stores.overrides.write change).value.Keyed := by
    intro change keeps
    unfold Guarded.write
    split
    · exact keyed
    · split
      · rename_i after changed
        exact keeps _ after keyed changed
      · exact keyed
  cases operation with
  | createOverrides requests =>
      exact written _ fun store after before inserted => before.insertOverrides inserted
  | loadEnvironment durationSecs requests =>
      exact written _ fun store after before inserted => before.insertOverrides inserted
  | removeOverride domain =>
      apply written
      rintro store _ before ⟨⟩
      exact before.remove toLowercase domain
  | clearOverrides =>
      apply written
      rintro store _ - ⟨⟩
      exact OverrideStore.keyed_new
  | _ => exact keyed

theorem keyed_run {toLowercase : Text → Text} {stores : SharedStores}
    (keyed : stores.overrides.value.Keyed) (operations : List (Nat × StoreOperation)) :
    (stores.run toLowercase operations).overrides.value.Keyed := by
  induction operations generalizing stores with
  | nil => exact keyed
  | cons timed operations ih => exact ih (keyed_step keyed timed.1 timed.2)

end SharedStores

/-! ## Zones -/

/-- Every record stands under its owner and its type, and none is a signature. -/
def ZoneBucket.Keyed (bucket : ZoneBucket) : Prop :=
  ∀ domain qtype, ∀ record ∈ bucket.recordsOf domain qtype,
    record.domain = domain ∧ record.queryType = qtype ∧ record.isRrsig = false

theorem ZoneBucket.keyed_empty : ZoneBucket.Keyed ∅ := by
  intro domain qtype record recordMem
  simp [ZoneBucket.recordsOf] at recordMem

theorem ZoneBucket.Keyed.push {bucket : ZoneBucket} (keyed : bucket.Keyed) {domain : Text}
    {qtype : QueryType} {record : DnsRecord}
    (fits : record.domain = domain ∧ record.queryType = qtype ∧ record.isRrsig = false) :
    (bucket.push domain qtype record).Keyed := by
  intro owner type other otherMem
  rw [ZoneBucket.recordsOf_push] at otherMem
  split at otherMem
  · rename_i here
    obtain ⟨rfl, rfl⟩ := here
    rcases List.mem_append.mp otherMem with old | new
    · exact keyed owner type other old
    · rw [List.mem_singleton.mp new]
      exact fits
  · exact keyed owner type other otherMem

/-- The records of an owner answer a question for it. -/
theorem ZoneBucket.Keyed.select {bucket : ZoneBucket} (keyed : bucket.Keyed) {domain : Text}
    {records : AList fun _ : QueryType => List DnsRecord} (found : bucket.lookup domain = some records)
    (qtype : QueryType) :
    ∀ record ∈ ZoneMap.select records qtype,
      AnswersQuestion domain qtype record ∧ record.isRrsig = false := by
  have held : ∀ type rrs, records.lookup type = some rrs → ∀ record ∈ rrs,
      record.domain = domain ∧ record.queryType = type ∧ record.isRrsig = false := by
    intro type rrs isRrs record recordMem
    apply keyed domain type record
    simpa [ZoneBucket.recordsOf, found, isRrs] using recordMem
  intro record recordMem
  unfold ZoneMap.select at recordMem
  split at recordMem
  · rename_i rrs isRrs
    obtain ⟨owned, typed, unsigned⟩ := held qtype rrs isRrs record recordMem
    exact ⟨⟨owned, .inl typed⟩, unsigned⟩
  · split at recordMem
    · cases isRrs : records.lookup QueryType.cname with
      | none => simp [isRrs] at recordMem
      | some rrs =>
          rw [isRrs] at recordMem
          obtain ⟨owned, typed, unsigned⟩ := held .cname rrs isRrs record recordMem
          exact ⟨⟨owned, .inr typed⟩, unsigned⟩
    · cases recordMem

namespace ZoneMap

structure Keyed (map : ZoneMap) : Prop where
  exact : map.exact.Keyed
  wildcard : map.wildcard.Keyed

theorem zoneData_keyed {toUppercase : Text → Text} {zone : ZoneRecord} {domain : Text}
    {qtype : QueryType} {record : DnsRecord}
    (parsed : zoneData toUppercase zone domain = .ok (qtype, record)) :
    record.domain = domain ∧ record.queryType = qtype ∧ record.isRrsig = false := by
  unfold zoneData at parsed
  simp only at parsed
  repeat' split at parsed
  all_goals
    cases parsed
    try exact ⟨rfl, rfl, rfl⟩

theorem Keyed.push {map : ZoneMap} (keyed : map.Keyed) (isWildcard : Bool) {domain : Text}
    {qtype : QueryType} {record : DnsRecord}
    (fits : record.domain = domain ∧ record.queryType = qtype ∧ record.isRrsig = false) :
    (map.push isWildcard domain qtype record).Keyed := by
  cases isWildcard with
  | false => exact ⟨keyed.exact.push fits, keyed.wildcard⟩
  | true => exact ⟨keyed.exact, keyed.wildcard.push fits⟩

theorem Keyed.addZone {toLowercase toUppercase : Text → Text} {map after : ZoneMap}
    {zone : ZoneRecord} (keyed : map.Keyed)
    (added : addZone toLowercase toUppercase map zone = .ok after) : after.Keyed := by
  unfold Numa.addZone at added
  cases isKey : zoneKey toLowercase zone with
  | error error =>
      rw [isKey] at added
      cases added
  | ok key =>
      obtain ⟨isWildcard, domain⟩ := key
      rw [isKey] at added
      cases parsed : zoneData toUppercase zone domain with
      | error error =>
          simp only [bind, Except.bind, parsed] at added
          cases added
      | ok data =>
          simp only [bind, Except.bind, parsed] at added
          cases added
          exact keyed.push isWildcard (zoneData_keyed parsed)

theorem keyed_buildZoneMap {toLowercase toUppercase : Text → Text} {zones : List ZoneRecord}
    {map : ZoneMap} (built : buildZoneMap toLowercase toUppercase zones = .ok map) : map.Keyed := by
  have fold : ∀ before : ZoneMap, before.Keyed →
      zones.foldlM (addZone toLowercase toUppercase) before = .ok map → map.Keyed := by
    clear built
    induction zones with
    | nil =>
        rintro before keyed ⟨⟩
        exact keyed
    | cons zone zones ih =>
        intro before keyed added
        rw [List.foldlM_cons] at added
        cases first : addZone toLowercase toUppercase before zone with
        | error error =>
            rw [first] at added
            cases added
        | ok middle =>
            rw [first] at added
            exact ih middle (keyed.addZone first) added
  exact fold {} ⟨ZoneBucket.keyed_empty, ZoneBucket.keyed_empty⟩ built

/-- What a zone map answers with is owned by the name and has the type, or is a CNAME. -/
theorem Keyed.lookup {map : ZoneMap} (keyed : map.Keyed) {qname : Text} {qtype : QueryType}
    {records : List DnsRecord} (found : map.lookup qname qtype = some records) :
    ∀ record ∈ records, AnswersQuestion qname qtype record ∧ record.isRrsig = false := by
  have wildcards : ∀ parents, map.lookupWildcard qname qtype parents = some records →
      ∀ record ∈ records, AnswersQuestion qname qtype record ∧ record.isRrsig = false := by
    intro parents
    induction parents with
    | nil =>
        intro here
        cases here
    | cons parent parents ih =>
        intro here
        unfold lookupWildcard at here
        split at here
        · cases here
        · split at here
          · rename_i held isHeld
            cases here
            intro record recordMem
            obtain ⟨original, originalMem, rfl⟩ := List.mem_map.mp recordMem
            obtain ⟨⟨-, typed⟩, unsigned⟩ :=
              keyed.wildcard.select isHeld qtype original originalMem
            exact ⟨⟨original.domain_setDomain qname, by simpa using typed⟩, by simpa using unsigned⟩
          · exact ih here
  unfold ZoneMap.lookup at found
  split at found
  · rename_i held isHeld
    cases found
    exact keyed.exact.select isHeld qtype
  · exact wildcards _ found

end ZoneMap

/-! ## The pipeline -/

/-- The name is one that local data denies: a special-use name, or one of the proxy's. -/
def DeniedLocally (ctx : LocalCtx) (qname : Text) : Prop :=
  isSpecialUseDomain qname = true ∨ ctx.proxyTldSuffix.isSuffixOf qname = true ∨
    qname = ctx.proxyTld

/-- Every answer answers the question, and without one the name has no data of the type or is
denied. -/
structure LocallyCorrect (ctx : LocalCtx) (qname : Text) (qtype : QueryType)
    (response : DnsPacket) : Prop where
  answers : ∀ record ∈ response.answers, AnswersQuestion qname qtype record
  rescode : response.header.rescode = .noerror ∨
    response.header.rescode = .nxdomain ∧ response.answers = [] ∧ DeniedLocally ctx qname

/-- What a source answers: a trusted path, and no signatures. -/
structure FromSource (ctx : LocalCtx) (query : DnsPacket) (qname : Text) (qtype : QueryType)
    (response : LocalResponse) : Prop where
  correct : LocallyCorrect ctx qname qtype response.1
  isLocal : ∃ answer : LocalAnswer,
    response = (answer.toResponse query, answer.path, .indeterminate)

section Sources

variable {ctx : LocalCtx} {stores : LocalStores} {now : Nat} {query : DnsPacket} {srcIp : IpAddr}
  {qname : Text} {qtype : QueryType}

theorem answersQuestion_answerRecord {v4 : Option Ipv4Addr} {v6 : Option Ipv6Addr} {ttl : UInt32} :
    ∀ record ∈ answerRecord qname qtype v4 v6 ttl,
      AnswersQuestion qname qtype record ∧ record.isRrsig = false := by
  intro record recordMem
  unfold answerRecord at recordMem
  split at recordMem
  · obtain ⟨addr, -, rfl⟩ := Option.map_eq_some_iff.mp (Option.mem_toList.mp recordMem)
    exact ⟨⟨rfl, .inl rfl⟩, rfl⟩
  · obtain ⟨addr, -, rfl⟩ := Option.map_eq_some_iff.mp (Option.mem_toList.mp recordMem)
    exact ⟨⟨rfl, .inl rfl⟩, rfl⟩
  · cases recordMem

theorem fromSource_noerror {answers : List DnsRecord} {path : QueryPath}
    (trusted : path.returnsTrustedLocalData = true)
    (answer : ∀ record ∈ answers, AnswersQuestion qname qtype record ∧ record.isRrsig = false) :
    FromSource ctx query qname qtype (localResponse query .noerror answers path) where
  correct := ⟨fun record recordMem => (answer record recordMem).1, .inl rfl⟩
  isLocal :=
    ⟨⟨.noerror, answers, path, trusted, fun record recordMem => (answer record recordMem).2⟩, rfl⟩

theorem fromSource_nxdomain (denied : DeniedLocally ctx qname) :
    FromSource ctx query qname qtype (localResponse query .nxdomain [] .localData) where
  correct := ⟨List.forall_mem_nil _, .inr ⟨rfl, rfl, denied⟩⟩
  isLocal := ⟨⟨.nxdomain, [], .localData, rfl, List.forall_mem_nil _⟩, rfl⟩

theorem fromSource_sinkhole : FromSource ctx query qname qtype (sinkhole query qname qtype) :=
  fromSource_noerror rfl answersQuestion_answerRecord

theorem fromSource_specialUse (special : isSpecialUseDomain qname = true) :
    FromSource ctx query qname qtype
      (localResponse query (specialUseResponse qname qtype).1 (specialUseResponse qname qtype).2
        .localData) := by
  unfold specialUseResponse
  split
  · apply fromSource_noerror rfl
    intro record recordMem
    simp only at recordMem
    split at recordMem
    · rcases List.mem_pair.mp recordMem with rfl | rfl
      · exact ⟨⟨rfl, .inl rfl⟩, rfl⟩
      · exact ⟨⟨rfl, .inl rfl⟩, rfl⟩
    · obtain rfl := List.mem_singleton.mp recordMem
      exact ⟨⟨rfl, .inl rfl⟩, rfl⟩
    · cases recordMem
  · exact fromSource_nxdomain (.inl special)

theorem fromSource_resolveProxyTld
    (proxied : ctx.proxyTldSuffix.isSuffixOf qname = true ∨ qname = ctx.proxyTld) :
    FromSource ctx query qname qtype (resolveProxyTld ctx stores now query srcIp qname qtype) := by
  unfold resolveProxyTld
  simp only
  split
  · exact fromSource_noerror rfl answersQuestion_answerRecord
  · split
    · apply fromSource_noerror rfl
      rename_i ip port _
      cases ip with
      | v4 addr => exact answersQuestion_answerRecord
      | v6 addr => exact answersQuestion_answerRecord
    · exact fromSource_nxdomain (.inr proxied)

theorem fromSource_resolveUnlessBlocked {policyAllow : Bool} {response : LocalResponse}
    (resolves : resolveUnlessBlocked ctx stores now query srcIp qname qtype policyAllow =
      some response) : FromSource ctx query qname qtype response := by
  unfold resolveUnlessBlocked at resolves
  split at resolves
  · cases resolves
    exact fromSource_sinkhole
  · split at resolves
    · cases resolves
      exact fromSource_noerror rfl (List.forall_mem_nil _)
    · cases resolves

theorem fromSource_resolveByPolicy {response : LocalResponse}
    (resolves : resolveByPolicy ctx stores now query srcIp qname qtype = some response) :
    FromSource ctx query qname qtype response := by
  unfold resolveByPolicy at resolves
  split at resolves
  · split at resolves
    · cases resolves
      exact fromSource_sinkhole
    · exact fromSource_resolveUnlessBlocked resolves
    · exact fromSource_resolveUnlessBlocked resolves
  · exact fromSource_resolveUnlessBlocked resolves

theorem fromSource_resolveUnlessOverridden (keyed : ctx.zoneMap.Keyed) {response : LocalResponse}
    (resolves : resolveUnlessOverridden ctx stores now query srcIp qname qtype = some response) :
    FromSource ctx query qname qtype response := by
  unfold resolveUnlessOverridden at resolves
  split at resolves
  · cases resolves
    exact fromSource_noerror rfl answersQuestion_answerRecord
  · split at resolves
    · rename_i records found
      cases resolves
      exact fromSource_noerror rfl (keyed.lookup found)
    · split at resolves
      · rename_i special
        cases resolves
        exact fromSource_specialUse special.1
      · split at resolves
        · rename_i proxied
          cases resolves
          exact fromSource_resolveProxyTld proxied.2
        · exact fromSource_resolveByPolicy resolves

/-- What `resolve_local` returns is an answer of the pipeline. -/
theorem exists_localAnswer (zones : ctx.zoneMap.Keyed) (overrides : stores.overrides.Keyed)
    {response : LocalResponse}
    (resolves : resolveLocal ctx stores now query srcIp qname qtype = some (some response)) :
    ∃ answer : LocalAnswer, response = (answer.toResponse query, answer.path, .indeterminate) := by
  unfold resolveLocal at resolves
  split at resolves
  · cases resolves
  · rename_i record found
    cases resolves
    obtain ⟨entry, isEntry, -, rfl⟩ := OverrideStore.lookup_eq_some_iff.mp found
    refine ⟨⟨.noerror, [entry.record], .overridden, rfl, ?_⟩, rfl⟩
    intro record recordMem
    rw [List.mem_singleton.mp recordMem]
    exact (overrides qname entry isEntry).2
  · exact (fromSource_resolveUnlessOverridden zones (Option.some.inj resolves)).isLocal

end Sources

/-- Local answers are correct where no override of another type stands under the name. -/
theorem localAnswers_correct_iff (ctx : LocalCtx) (stores : LocalStores) (now : Nat)
    (query : DnsPacket) (srcIp : IpAddr) (qname : Text) (qtype : QueryType)
    (toUppercase : Text → Text) (zones : List ZoneRecord) (start : SharedStores)
    (operations : List (Nat × StoreOperation))
    (built : buildZoneMap ctx.toLowercase toUppercase zones = .ok ctx.zoneMap)
    (starts : start.overrides.value = .new)
    (reached : stores.overrides = (start.run ctx.toLowercase operations).overrides.value) :
    (∀ response path status,
      resolveLocal ctx stores now query srcIp qname qtype = some (some (response, path, status)) →
        LocallyCorrect ctx qname qtype response) ↔
      ∀ entry, stores.overrides.entries.lookup qname = some entry →
        entry.isExpired now = some false →
          entry.record.queryType = qtype ∨ entry.record.queryType = .cname := by
  have keyed : stores.overrides.Keyed := by
    rw [reached]
    apply SharedStores.keyed_run
    rw [starts]
    exact OverrideStore.keyed_new
  constructor
  · intro correct entry isEntry fresh
    have found : stores.overrides.lookup now qname = some (some entry.record) :=
      OverrideStore.lookup_eq_some_iff.mpr ⟨entry, isEntry, fresh, rfl⟩
    have resolves : resolveLocal ctx stores now query srcIp qname qtype =
        some (some (localResponse query .noerror [entry.record] .overridden)) := by
      simp only [resolveLocal, found]
    exact ((correct _ _ _ resolves).answers entry.record (List.mem_singleton_self _)).2
  · intro typed response path status resolves
    unfold resolveLocal at resolves
    split at resolves
    · cases resolves
    · rename_i record found
      cases resolves
      obtain ⟨entry, isEntry, fresh, rfl⟩ := OverrideStore.lookup_eq_some_iff.mp found
      refine ⟨?_, .inl rfl⟩
      intro record recordMem
      rw [List.mem_singleton.mp recordMem]
      exact ⟨(keyed qname entry isEntry).1, typed entry isEntry fresh⟩
    · exact (fromSource_resolveUnlessOverridden (ZoneMap.keyed_buildZoneMap built)
        (Option.some.inj resolves)).correct

/-- Nothing but overrides. -/
def plainCtx : LocalCtx where
  toLowercase := Text.toLowercase
  zoneMap := {}
  forwardingRules := []
  proxyTld := text "numa"
  proxyTldSuffix := text ".numa"
  clientPolicy := {}
  filterAaaa := false
  localIpToward _ := none

/-- An override with an IPv4 address. -/
def addressOperations : List (Nat × StoreOperation) :=
  [(0, .createOverrides [⟨text "a.test", text "192.0.2.1", 60, none⟩])]

def addressStores : LocalStores where
  overrides :=
    ((SharedStores.new 100 60 3600 {}).run Text.toLowercase addressOperations).overrides.value
  blocklist := {}
  services := ∅
  lanPeers := ⟨∅, 0⟩
  lanIp := ipv4Localhost

theorem localAnswers_correct_iff_address :
    ∃ response path status,
      resolveLocal plainCtx addressStores 0 (.query 0 (text "a.test") .a) (.v4 ipv4Localhost)
        (text "a.test") .a = some (some (response, path, status)) ∧
      LocallyCorrect plainCtx (text "a.test") .a response := by
  let answer : DnsRecord := .a (text "a.test") (.new 192 0 2 1) 60
  have resolves : resolveLocal plainCtx addressStores 0 (.query 0 (text "a.test") .a)
      (.v4 ipv4Localhost) (text "a.test") .a =
        some (some (localResponse (.query 0 (text "a.test") .a) .noerror [answer] .overridden)) := by
    decide +kernel
  have correct := localAnswers_correct_iff plainCtx addressStores 0 (.query 0 (text "a.test") .a)
    (.v4 ipv4Localhost) (text "a.test") .a Text.toLowercase [] (.new 100 60 3600 {})
    addressOperations rfl rfl rfl
  exact ⟨_, _, _, resolves, correct.mpr (by decide +kernel) _ _ _ resolves⟩

/-- A question for an IPv6 address is answered with the IPv4 address. -/
theorem otherType_answered :
    ∃ response path status,
      resolveLocal plainCtx addressStores 0 (.query 0 (text "a.test") .aaaa) (.v4 ipv4Localhost)
        (text "a.test") .aaaa = some (some (response, path, status)) ∧
      response.answers = [.a (text "a.test") (.new 192 0 2 1) 60] ∧
      ¬ LocallyCorrect plainCtx (text "a.test") .aaaa response := by
  let answer : DnsRecord := .a (text "a.test") (.new 192 0 2 1) 60
  have resolves : resolveLocal plainCtx addressStores 0 (.query 0 (text "a.test") .aaaa)
      (.v4 ipv4Localhost) (text "a.test") .aaaa =
        some (some (localResponse (.query 0 (text "a.test") .aaaa) .noerror [answer] .overridden)) := by
    decide +kernel
  refine ⟨_, _, _, resolves, rfl, fun correct => ?_⟩
  have typed := (correct.answers answer (List.mem_singleton_self _)).2
  revert typed
  decide

end Numa
