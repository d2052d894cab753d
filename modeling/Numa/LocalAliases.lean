import Numa.LocalAnswers
import Numa.NameWriter

/-!
# Local aliases

The target of a local CNAME is looked up as it was configured, and so is the
domain of an override apart from its letter case.  Queries of clients bring the
text that `read_qname` gives, and only a target or a domain written in this very
way is looked up alike.
-/

namespace Numa

open BytePacketBuffer

/-! ## Names and their texts -/

/-- `write_qname` makes of the text the labels of the name, in any letter case. -/
def Denotes (name : Text) (labels : List (List UInt8)) : Prop :=
  ∃ written, textLabels name = some written ∧
    written.map Text.toLowercase = labels.map Text.toLowercase

/-- `read_qname` gives this text for the labels that `write_qname` makes of the name. -/
def ReadsAs (name qname : Text) : Prop :=
  ∀ written ∈ textLabels name, nameText written = qname

instance (name qname : Text) : Decidable (ReadsAs name qname) :=
  inferInstanceAs (Decidable (∀ written ∈ textLabels name, nameText written = qname))

/-- A property of the texts of a name is one of the text that `read_qname` gives. -/
theorem forall_denotes_iff (name : Text) (property : Text → Prop) :
    (∀ labels, Denotes name labels → property (nameText labels)) ↔
      ∀ written ∈ textLabels name, property (nameText written) := by
  constructor
  · intro holds written isWritten
    exact holds written ⟨written, isWritten, rfl⟩
  · rintro holds labels ⟨written, isWritten, same⟩
    rw [← nameText_map_toLowercase labels, ← same, nameText_map_toLowercase]
    exact holds written isWritten

/-- The text has ASCII characters only. -/
def IsAscii (name : Text) : Prop :=
  ∀ octet ∈ name, octet < 0x80

instance (name : Text) : Decidable (IsAscii name) :=
  List.decidableBAll (fun octet => octet < 0x80) name

theorem isAscii_octetText : ∀ octet, IsAscii (octetText octet) := by
  have table : ∀ index : Fin 256, IsAscii (octetText (.ofFin index)) := by
    decide +kernel
  intro octet
  simpa using table octet.toFin

theorem isAscii_labelText (label : List UInt8) : IsAscii (labelText label) := by
  intro octet octetMem
  obtain ⟨original, -, here⟩ := List.mem_flatMap.mp octetMem
  exact isAscii_octetText original octet here

theorem isAscii_nameText (labels : List (List UInt8)) : IsAscii (nameText labels) := by
  induction labels with
  | nil => exact List.forall_mem_nil _
  | cons label labels ih =>
      rw [nameText_eq_append]
      intro octet octetMem
      rcases List.mem_append.mp octetMem with here | later
      · exact isAscii_labelText label octet here
      · unfold afterLabel at later
        split at later
        · cases later
        · rcases List.mem_cons.mp later with rfl | later
          · decide
          · exact ih octet later

/-! ## What a name is looked up in -/

structure ConsultedState where
  ctx : LocalCtx
  stores : LocalStores
  cache : DnsCache

/-- What becomes of a name before anyone else is asked. -/
inductive Consultation
  | panicked
  /-- Local data: the answers are without their owners, which are the name as it was given. -/
  | answered (rescode : ResultCode) (answers : List DnsRecord) (path : QueryPath)
      (dnssec : DnssecStatus)
  | remote (cached : Option (DnsPacket × DnssecStatus × Freshness))
  deriving DecidableEq

def LocalResponse.withoutOwners (response : LocalResponse) : Consultation :=
  .answered response.1.header.rescode (response.1.answers.map (DnsRecord.setDomain []))
    response.2.1 response.2.2

namespace ConsultedState

/-- `resolve_local`, and the cache where it has no answer. -/
def consult (state : ConsultedState) (now : Nat) (query : DnsPacket) (srcIp : IpAddr)
    (qname : Text) (qtype : QueryType) : Consultation :=
  match resolveLocal state.ctx state.stores now query srcIp qname qtype with
  | none => .panicked
  | some (some response) => response.withoutOwners
  | some none => .remote (state.cache.lookupWithStatus now qname qtype)

/-- The zones come from a configuration, and the stores have been changed by their
operations alone. -/
structure Reached (toLowercase toUppercase : Text → Text) (state : ConsultedState) : Prop where
  lowercases : state.ctx.toLowercase = toLowercase
  zones : ∃ zones, buildZoneMap toLowercase toUppercase zones = .ok state.ctx.zoneMap
  stores : ∃ maxEntries minTtl maxTtl blocklist operations,
    let stores := (SharedStores.new maxEntries minTtl maxTtl blocklist).run toLowercase operations
    state.stores.overrides = stores.overrides.value ∧
      state.stores.blocklist = stores.blocklist.value ∧ state.cache = stores.cache.value

/-- A zone or an override has a CNAME with this target. -/
def HoldsAlias (state : ConsultedState) (target : Text) : Prop :=
  (∃ owner ttl, state.ctx.zoneMap.Holds (.cname owner target ttl)) ∨
    ∃ key entry, state.stores.overrides.entries.lookup key = some entry ∧
      entry.record = .cname key target entry.ttl

/-- Wherever the target is an alias's, the step to it has the outcome of a query for the name. -/
def LookedUpAlike (toLowercase toUppercase : Text → Text) (target qname : Text) : Prop :=
  ∀ state : ConsultedState, state.Reached toLowercase toUppercase → state.HoldsAlias target →
    ∀ (now : Nat) (query : DnsPacket) (srcIp : IpAddr) (qtype : QueryType),
      query.questions.head? = some ⟨qname, qtype⟩ →
        state.consult now (.query query.header.id target qtype) srcIp target qtype =
          state.consult now query srcIp qname qtype

end ConsultedState

/-! ## The query -/

section Query

variable (ctx : LocalCtx) (stores : LocalStores) (now : Nat) (query other : DnsPacket)
  (srcIp : IpAddr) (qname : Text) (qtype : QueryType)

/-! What is answered does not depend on the rest of the query. -/

theorem withoutOwners_resolveProxyTld :
    (resolveProxyTld ctx stores now query srcIp qname qtype).withoutOwners =
      (resolveProxyTld ctx stores now other srcIp qname qtype).withoutOwners := by
  unfold resolveProxyTld
  simp only
  split
  · rfl
  · split <;> rfl

theorem withoutOwners_resolveUnlessBlocked (policyAllow : Bool) :
    (resolveUnlessBlocked ctx stores now query srcIp qname qtype policyAllow).map
        LocalResponse.withoutOwners =
      (resolveUnlessBlocked ctx stores now other srcIp qname qtype policyAllow).map
        LocalResponse.withoutOwners := by
  unfold resolveUnlessBlocked
  split
  · rfl
  · split <;> rfl

theorem withoutOwners_resolveByPolicy :
    (resolveByPolicy ctx stores now query srcIp qname qtype).map LocalResponse.withoutOwners =
      (resolveByPolicy ctx stores now other srcIp qname qtype).map LocalResponse.withoutOwners := by
  unfold resolveByPolicy
  split
  · split
    · rfl
    · exact withoutOwners_resolveUnlessBlocked ctx stores now query other srcIp qname qtype true
    · exact withoutOwners_resolveUnlessBlocked ctx stores now query other srcIp qname qtype false
  · exact withoutOwners_resolveUnlessBlocked ctx stores now query other srcIp qname qtype false

theorem withoutOwners_resolveUnlessOverridden :
    (resolveUnlessOverridden ctx stores now query srcIp qname qtype).map
        LocalResponse.withoutOwners =
      (resolveUnlessOverridden ctx stores now other srcIp qname qtype).map
        LocalResponse.withoutOwners := by
  unfold resolveUnlessOverridden
  split
  · rfl
  · split
    · rfl
    · split
      · rfl
      · split
        · exact congrArg some
            (withoutOwners_resolveProxyTld ctx stores now query other srcIp qname qtype)
        · exact withoutOwners_resolveByPolicy ctx stores now query other srcIp qname qtype

theorem withoutOwners_resolveLocal :
    (resolveLocal ctx stores now query srcIp qname qtype).map
        (Option.map LocalResponse.withoutOwners) =
      (resolveLocal ctx stores now other srcIp qname qtype).map
        (Option.map LocalResponse.withoutOwners) := by
  unfold resolveLocal
  split
  · rfl
  · rfl
  · exact congrArg some
      (withoutOwners_resolveUnlessOverridden ctx stores now query other srcIp qname qtype)

/-- An override is what nothing else answers with. -/
theorem path_ne_overridden {response : LocalResponse}
    (resolves : resolveUnlessOverridden ctx stores now query srcIp qname qtype = some response) :
    response.2.1 ≠ .overridden := by
  have blocked : ∀ {policyAllow}, resolveUnlessBlocked ctx stores now query srcIp qname qtype
      policyAllow = some response → response.2.1 ≠ .overridden := by
    intro policyAllow found
    unfold resolveUnlessBlocked at found
    split at found
    · cases found
      exact QueryPath.noConfusion
    · split at found
      · cases found
        exact QueryPath.noConfusion
      · cases found
  unfold resolveUnlessOverridden at resolves
  split at resolves
  · cases resolves
    exact QueryPath.noConfusion
  · split at resolves
    · cases resolves
      exact QueryPath.noConfusion
    · split at resolves
      · cases resolves
        exact QueryPath.noConfusion
      · split at resolves
        · cases resolves
          unfold resolveProxyTld
          simp only
          split
          · exact QueryPath.noConfusion
          · split <;> exact QueryPath.noConfusion
        · unfold resolveByPolicy at resolves
          split at resolves
          · split at resolves
            · cases resolves
              exact QueryPath.noConfusion
            · exact blocked resolves
            · exact blocked resolves
          · exact blocked resolves

end Query

namespace ConsultedState

theorem consult_query (state : ConsultedState) (now : Nat) (query other : DnsPacket)
    (srcIp : IpAddr) (qname : Text) (qtype : QueryType) :
    state.consult now query srcIp qname qtype = state.consult now other srcIp qname qtype := by
  have same := withoutOwners_resolveLocal state.ctx state.stores now query other srcIp qname qtype
  unfold consult
  cases first : resolveLocal state.ctx state.stores now query srcIp qname qtype with
  | none =>
      rw [first, Option.map_none, eq_comm, Option.map_eq_none_iff] at same
      rw [same]
  | some answered =>
      rw [first, Option.map_some, eq_comm, Option.map_eq_some_iff] at same
      obtain ⟨otherAnswered, second, same⟩ := same
      rw [second]
      cases answered with
      | none =>
          rw [Option.map_none, Option.map_eq_none_iff] at same
          rw [same]
      | some response =>
          obtain ⟨otherResponse, rfl, same⟩ := Option.map_eq_some_iff.mp same
          exact (Option.some.inj same).symm

/-- What is answered with an override is found under the name itself. -/
theorem lookup_of_consult_overridden {state : ConsultedState} {now : Nat} {query : DnsPacket}
    {srcIp : IpAddr} {qname : Text} {qtype : QueryType} {rescode : ResultCode}
    {answers : List DnsRecord} {dnssec : DnssecStatus}
    (consulted : state.consult now query srcIp qname qtype =
      .answered rescode answers .overridden dnssec) :
    ∃ record, state.stores.overrides.lookup now qname = some (some record) := by
  unfold consult resolveLocal at consulted
  cases found : state.stores.overrides.lookup now qname with
  | none => simp [found] at consulted
  | some held =>
      cases held with
      | some record => exact ⟨record, rfl⟩
      | none =>
          simp only [found] at consulted
          cases resolves : resolveUnlessOverridden state.ctx state.stores now query srcIp qname qtype with
          | none => simp [resolves] at consulted
          | some response =>
              simp only [resolves, LocalResponse.withoutOwners, Consultation.answered.injEq]
                at consulted
              exact absurd consulted.2.2.1 (path_ne_overridden _ _ _ _ _ _ _ resolves)

end ConsultedState

/-! ## Aliases -/

/-- A CNAME in a zone, with an override for another name. -/
def aliasZone (target : Text) : ZoneRecord where
  domain := text "alias"
  recordType := text "CNAME"
  value := target
  ttl := 300

def overrideOperations (domain : Text) : List (Nat × StoreOperation) :=
  [(0, .createOverrides [⟨domain, text "192.0.2.1", 60, none⟩])]

def overriddenStores (toLowercase : Text → Text) (domain : Text) : SharedStores :=
  (SharedStores.new 100 60 3600 {}).run toLowercase (overrideOperations domain)

/-- The alias is configured, and its target is overridden. -/
def aliasState (toLowercase : Text → Text) (target domain : Text) : ConsultedState where
  ctx :=
    { plainCtx with
      toLowercase := toLowercase
      zoneMap := ZoneMap.push {} false (text "alias") .cname (.cname (text "alias") target 300) }
  stores :=
    { overrides := (overriddenStores toLowercase domain).overrides.value
      blocklist := (overriddenStores toLowercase domain).blocklist.value
      services := ∅
      lanPeers := ⟨∅, 0⟩
      lanIp := ipv4Localhost }
  cache := (overriddenStores toLowercase domain).cache.value

theorem holdsAlias_aliasState (toLowercase : Text → Text) (target domain : Text) :
    (aliasState toLowercase target domain).HoldsAlias target :=
  .inl ⟨text "alias", 300, ZoneMap.holds_push.mpr (.inr rfl)⟩

theorem OverrideStore.retainUnexpired_new (now : Nat) : new.retainUnexpired now = some new :=
  rfl

section Alias

variable {toLowercase toUppercase : Text → Text}
  (lowers : ∀ name, IsAscii name → toLowercase name = name.toLowercase)
  (raises : ∀ name, IsAscii name → toUppercase name = name.map toAsciiUppercase)

include lowers

theorem toLowercase_nameText_eq (labels : List (List UInt8)) :
    toLowercase (nameText labels) = nameText labels := by
  rw [lowers _ (isAscii_nameText labels), toLowercase_nameText]

theorem lookup_overriddenStores (labels : List (List UInt8)) (qname : Text) :
    (overriddenStores toLowercase (nameText labels)).overrides.value.lookup 0 qname =
      some (if qname = nameText labels then
        some (.a (nameText labels) (.new 192 0 2 1) 60) else none) := by
  have lowered := toLowercase_nameText_eq lowers labels
  have address : parseIpv4 (text "192.0.2.1") = some (.new 192 0 2 1) := by decide +kernel
  have parsed : parseTarget (nameText labels) (text "192.0.2.1") 60 =
      (.a, .a (nameText labels) (.new 192 0 2 1) 60) := by
    rw [parseTarget, address]
  let entry : OverrideEntry :=
    { domain := nameText labels
      target := text "192.0.2.1"
      record := .a (nameText labels) (.new 192 0 2 1) 60
      queryType := .a
      ttl := 60
      createdAt := 0
      durationSecs := none }
  have inserted : OverrideStore.new.insert toLowercase 0 (nameText labels) (text "192.0.2.1") 60
      none = some (⟨AList.insert (nameText labels) entry ∅⟩, .a) := by
    simp only [OverrideStore.insert, OverrideStore.retainUnexpired_new, lowered, parsed]
    rfl
  have entries : (overriddenStores toLowercase (nameText labels)).overrides.value =
      ⟨AList.insert (nameText labels) entry ∅⟩ := by
    simp [overriddenStores, overrideOperations, SharedStores.run, SharedStores.step,
      SharedStores.writeOverrides, Guarded.write, SharedStores.new, SharedStores.insertOverrides,
      SharedStores.lowered, lowered, inserted]
  rw [OverrideStore.lookup, OverrideStore.unexpired, entries]
  split_ifs with same
  · subst same
    rw [AList.lookup_insert]
    rfl
  · rw [AList.lookup_insert_ne same]
    rfl

include raises in
theorem reached_aliasState (target domain : Text) :
    (aliasState toLowercase target domain).Reached toLowercase toUppercase where
  lowercases := rfl
  zones := by
    refine ⟨[aliasZone target], ?_⟩
    have owner : toLowercase (text "alias") = text "alias" := lowers _ (by decide)
    have type : toUppercase (text "CNAME") = text "CNAME" := raises _ (by decide)
    have keyed : zoneKey toLowercase (aliasZone target) = .ok (false, text "alias") := by
      simp only [zoneKey, aliasZone, owner]
      decide
    have parsed : zoneData toUppercase (aliasZone target) (text "alias") =
        .ok (.cname, .cname (text "alias") target 300) := by
      simp only [zoneData, aliasZone, type]
      rfl
    rw [buildZoneMap, List.foldlM_cons, addZone, keyed]
    simp only [bind, Except.bind, parsed]
    rfl
  stores := ⟨100, 60, 3600, {}, overrideOperations domain, rfl, rfl, rfl⟩

include raises in
/-- Where the target is another text than the query's, there is a state that tells them apart. -/
theorem exists_consult_ne {target : Text} {labels : List (List UInt8)}
    (different : target ≠ nameText labels) :
    ∃ state : ConsultedState, state.Reached toLowercase toUppercase ∧ state.HoldsAlias target ∧
      ∀ query other : DnsPacket, ∀ srcIp qtype,
        state.consult 0 query srcIp target qtype ≠
          state.consult 0 other srcIp (nameText labels) qtype := by
  refine ⟨aliasState toLowercase target (nameText labels), reached_aliasState lowers raises _ _,
    holdsAlias_aliasState _ _ _, fun query other srcIp qtype same => ?_⟩
  have asked : (aliasState toLowercase target (nameText labels)).consult 0 other srcIp
      (nameText labels) qtype =
        .answered .noerror [.a [] (.new 192 0 2 1) 60] .overridden .indeterminate := by
    have found := lookup_overriddenStores lowers labels (nameText labels)
    rw [if_pos rfl] at found
    simp only [ConsultedState.consult, resolveLocal, aliasState, found]
    rfl
  rw [asked] at same
  obtain ⟨record, found⟩ := ConsultedState.lookup_of_consult_overridden same
  have missing := lookup_overriddenStores lowers labels target
  rw [if_neg different] at missing
  cases missing.symm.trans found

end Alias

/-- Under another name than its own an entry is not found. -/
theorem OverrideStore.Keyed.lookup_eq_iff {store : OverrideStore} (keyed : store.Keyed) {now : Nat}
    {key qname : Text} {entry : OverrideEntry} (isEntry : store.entries.lookup key = some entry)
    (fresh : entry.isExpired now = some false) :
    store.lookup now qname = some (some entry.record) ↔ qname = key := by
  rw [OverrideStore.lookup_eq_some_iff]
  constructor
  · rintro ⟨found, isFound, -, sameRecord⟩
    rw [← (keyed qname found isFound).1, ← (keyed key entry isEntry).1, sameRecord]
  · rintro rfl
    exact ⟨entry, isEntry, fresh, rfl⟩

/-- A target is looked up like a query for its name where it is the text of the query, and an
override is found by one where its domain is this text in lower case. -/
theorem alias_consulted_iff (toLowercase toUppercase : Text → Text)
    (lowers : ∀ name, IsAscii name → toLowercase name = name.toLowercase)
    (raises : ∀ name, IsAscii name → toUppercase name = name.map toAsciiUppercase) (name : Text) :
    ((∀ labels, Denotes name labels →
        ConsultedState.LookedUpAlike toLowercase toUppercase name (nameText labels)) ↔
      ReadsAs name name) ∧
    ∀ state : ConsultedState, state.Reached toLowercase toUppercase →
      ∀ (now later : Nat) (target : Text) (ttl : UInt32) (durationSecs : Option UInt64)
        (after : OverrideStore) (qtype : QueryType) (entry : OverrideEntry),
        state.stores.overrides.insert toLowercase now name target ttl durationSecs =
            some (after, qtype) →
          after.entries.lookup (toLowercase name) = some entry →
            entry.isExpired later = some false →
              ((∀ labels, Denotes name labels →
                  after.lookup later (nameText labels) = some (some entry.record)) ↔
                ReadsAs name (toLowercase name)) := by
  constructor
  · rw [forall_denotes_iff name (ConsultedState.LookedUpAlike toLowercase toUppercase name)]
    constructor
    · intro alike written isWritten
      by_contra different
      obtain ⟨state, reached, holds, tells⟩ :=
        exists_consult_ne lowers raises (Ne.symm different)
      exact tells _ _ (.v4 ipv4Localhost) .a (alike written isWritten state reached holds 0
        (.query 0 (nameText written) .a) (.v4 ipv4Localhost) .a rfl)
    · intro reads written isWritten state _ _ now query srcIp qtype _
      rw [reads written isWritten]
      exact state.consult_query now _ query srcIp name qtype
  · intro state reached now later target ttl durationSecs after qtype entry inserted isEntry fresh
    have keyed : after.Keyed := by
      obtain ⟨maxEntries, minTtl, maxTtl, blocklist, operations, overrides, -, -⟩ := reached.stores
      have before : state.stores.overrides.Keyed := by
        rw [overrides]
        exact SharedStores.keyed_run OverrideStore.keyed_new operations
      exact before.insert inserted
    rw [forall_denotes_iff name fun qname => after.lookup later qname = some (some entry.record)]
    simp only [keyed.lookup_eq_iff isEntry fresh]
    exact Iff.rfl

/-- An override for one more domain. -/
def insertedOverride (domain : Text) : Option (OverrideStore × QueryType) :=
  (aliasState Text.toLowercase (text "Foo.Test.") (text "foo.test")).stores.overrides.insert
    Text.toLowercase 0 domain (text "192.0.2.2") 60 none

theorem alias_consulted_iff_plain :
    (∀ labels, Denotes (text "foo.test") labels →
      ConsultedState.LookedUpAlike Text.toLowercase (·.map toAsciiUppercase) (text "foo.test")
        (nameText labels)) ∧
    ∃ after qtype entry, insertedOverride (text "Bar.test") = some (after, qtype) ∧
      after.entries.lookup (text "bar.test") = some entry ∧
        ∀ labels, Denotes (text "Bar.test") labels →
          after.lookup 5 (nameText labels) = some (some entry.record) := by
  have inserts : (insertedOverride (text "Bar.test")).isSome := by decide +kernel
  obtain ⟨⟨after, qtype⟩, inserted⟩ := Option.isSome_iff_exists.mp inserts
  have isEntry := OverrideStore.lookup_insert inserted
  refine ⟨(alias_consulted_iff Text.toLowercase (·.map toAsciiUppercase) (fun _ _ => rfl)
    (fun _ _ => rfl) (text "foo.test")).1.mpr (by decide), after, qtype, _, inserted, isEntry, ?_⟩
  exact ((alias_consulted_iff Text.toLowercase (·.map toAsciiUppercase) (fun _ _ => rfl)
    (fun _ _ => rfl) (text "Bar.test")).2 _
      (reached_aliasState (fun _ _ => rfl) (fun _ _ => rfl) (text "Foo.Test.") (text "foo.test"))
        0 5 (text "192.0.2.2") 60 none after qtype _ inserted isEntry rfl).mpr (by decide)

/-- An alias with a target in other letters is not overridden as a client's query is, and an
override with a final dot is not found. -/
theorem trailingDot_missed :
    Denotes (text "Foo.Test.") [text "foo", text "test"] ∧
    nameText [text "foo", text "test"] = text "foo.test" ∧
    (aliasState Text.toLowercase (text "Foo.Test.") (text "foo.test")).Reached Text.toLowercase
      (·.map toAsciiUppercase) ∧
    (aliasState Text.toLowercase (text "Foo.Test.") (text "foo.test")).HoldsAlias
      (text "Foo.Test.") ∧
    (aliasState Text.toLowercase (text "Foo.Test.") (text "foo.test")).consult 0
      (.query 0 (text "Foo.Test.") .a) (.v4 ipv4Localhost) (text "Foo.Test.") .a = .remote none ∧
    (aliasState Text.toLowercase (text "Foo.Test.") (text "foo.test")).consult 0
      (.query 0 (text "foo.test") .a) (.v4 ipv4Localhost) (text "foo.test") .a =
        .answered .noerror [.a [] (.new 192 0 2 1) 60] .overridden .indeterminate ∧
    (insertedOverride (text "bar.test.")).map (fun inserted =>
      inserted.1.lookup 0 (text "bar.test")) = some (some none) := by
  refine ⟨⟨_, rfl, by decide +kernel⟩, by decide +kernel, ?_, holdsAlias_aliasState _ _ _,
    by decide +kernel, by decide +kernel, by decide +kernel⟩
  exact reached_aliasState (fun _ _ => rfl) (fun _ _ => rfl) _ _

end Numa
