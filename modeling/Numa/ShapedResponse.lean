import Numa.ClientResponse
import Numa.PrivateAnswers

/-!
# Shaped responses

What `shape_response_for_client` leaves of a response: the AA bit is cleared,
the OPT record follows the query, and a client without the DO bit gets no DNSSEC
records beside those that it may have asked for.  Shaping again changes nothing.
-/

namespace Numa

/-- What `filter_aaaa` leaves of a record: well-formed SVCB and HTTPS data lose
their `ipv6hint` parameters. -/
inductive Unhinted : DnsRecord → DnsRecord → Prop
  | hints (domain : Text) (qtype : UInt16) (data : SvcbData) (ttl : UInt32)
      (isSvcb : IsSvcbType qtype) :
      Unhinted (.unknown domain qtype data.octets ttl)
        (.unknown domain qtype data.withoutIpv6hint.octets ttl)
  | other (record : DnsRecord)
      (notHints : ∀ domain qtype ttl, ∀ data : SvcbData, IsSvcbType qtype →
        record ≠ .unknown domain qtype data.octets ttl) :
      Unhinted record record

/-- The closure of `strip_svcb_ipv6_hints`. -/
def withoutHint (record : DnsRecord) : DnsRecord :=
  (editSvcb stripIpv6hint record).getD record

theorem SvcbData.withoutIpv6hint_eq_self {data : SvcbData}
    (noHint : ∀ param ∈ data.params, param.1 ≠ ipv6HintKey) : data.withoutIpv6hint = data :=
  SvcbData.ext rfl rfl (List.filter_eq_self.mpr fun param mem => decide_eq_true (noHint param mem))

theorem withoutHint_svcb {domain : Text} {qtype : UInt16} {data : SvcbData} {ttl : UInt32}
    (isSvcb : IsSvcbType qtype) :
    withoutHint (.unknown domain qtype data.octets ttl) =
      .unknown domain qtype data.withoutIpv6hint.octets ttl := by
  rw [withoutHint, editSvcb_of_isSvcbType isSvcb, data.stripIpv6hint_octets]
  split
  · rename_i noHint
    rw [SvcbData.withoutIpv6hint_eq_self noHint]
    rfl
  · rfl

theorem withoutHint_other {record : DnsRecord}
    (notHints : ∀ domain qtype ttl, ∀ data : SvcbData, IsSvcbType qtype →
      record ≠ .unknown domain qtype data.octets ttl) : withoutHint record = record := by
  rw [withoutHint]
  cases edited : editSvcb stripIpv6hint record with
  | none => rfl
  | some after =>
      cases record with
      | unknown domain qtype octets ttl =>
          obtain ⟨isSvcb, edited⟩ := Option.ite_none_right_eq_some.mp edited
          obtain ⟨out, stripped, -⟩ := Option.map_eq_some_iff.mp edited
          obtain ⟨data, rfl, -⟩ := stripIpv6hint_eq_some_iff.mp stripped
          exact absurd rfl (notHints domain qtype ttl data isSvcb)
      | _ => cases edited

theorem unhinted_withoutHint (record : DnsRecord) : Unhinted record (withoutHint record) := by
  by_cases hinted : ∃ domain qtype ttl, ∃ data : SvcbData, IsSvcbType qtype ∧
      record = .unknown domain qtype data.octets ttl
  · obtain ⟨domain, qtype, ttl, data, isSvcb, rfl⟩ := hinted
    rw [withoutHint_svcb isSvcb]
    exact .hints domain qtype data ttl isSvcb
  · have notHints : ∀ domain qtype ttl, ∀ data : SvcbData, IsSvcbType qtype →
        record ≠ .unknown domain qtype data.octets ttl :=
      fun domain qtype ttl data isSvcb same => hinted ⟨domain, qtype, ttl, data, isSvcb, same⟩
    rw [withoutHint_other notHints]
    exact .other record notHints

theorem Unhinted.withoutHint_eq {before after : DnsRecord} (unhinted : Unhinted before after) :
    withoutHint after = after := by
  cases unhinted with
  | hints domain qtype data ttl isSvcb =>
      rw [withoutHint_svcb isSvcb, SvcbData.withoutIpv6hint_eq_self]
      exact fun param mem => of_decide_eq_true (List.mem_filter.mp mem).2
  | other record notHints => exact withoutHint_other notHints

theorem withoutHint_withoutHint (record : DnsRecord) :
    withoutHint (withoutHint record) = withoutHint record :=
  (unhinted_withoutHint record).withoutHint_eq

theorem Unhinted.queryType_eq {before after : DnsRecord} (unhinted : Unhinted before after) :
    after.queryType = before.queryType := by
  cases unhinted <;> rfl

theorem isDnssecRecord_withoutHint (record : DnsRecord) :
    isDnssecRecord (withoutHint record) = isDnssecRecord record := by
  rw [isDnssecRecord, isDnssecRecord, (unhinted_withoutHint record).queryType_eq]

/-! ## Sections -/

/-- What a client without the DO bit gets of a section. -/
def strippedSection (filterAaaa : Bool) (records : List DnsRecord) : List DnsRecord :=
  let kept := records.filter fun record => !isDnssecRecord record
  if filterAaaa then kept.map withoutHint else kept

theorem strippedSection_strippedSection (filterAaaa : Bool) (records : List DnsRecord) :
    strippedSection filterAaaa (strippedSection filterAaaa records) =
      strippedSection filterAaaa records := by
  cases filterAaaa with
  | false => simp [strippedSection, List.filter_filter]
  | true =>
      have kept : (fun record => !isDnssecRecord record) ∘ withoutHint =
          fun record => !isDnssecRecord record := by
        funext record
        rw [Function.comp_apply, isDnssecRecord_withoutHint]
      have twice : withoutHint ∘ withoutHint = withoutHint := funext withoutHint_withoutHint
      simp only [strippedSection, if_true, List.filter_map, kept, List.filter_filter, Bool.and_self,
        List.map_map, twice]

namespace DnsPacket

/-- The records that a client is given, section by section. -/
def ofSections (packet : DnsPacket) (each : List DnsRecord → List DnsRecord) : DnsPacket :=
  { packet with
    answers := each packet.answers
    authorities := each packet.authorities
    resources := each packet.resources }

theorem stripForClient_eq (clientDo filterAaaa : Bool) (packet : DnsPacket) :
    packet.stripForClient clientDo filterAaaa =
      packet.ofSections fun records =>
        if clientDo then records else strippedSection filterAaaa records := by
  cases clientDo <;> cases filterAaaa <;> rfl

/-- The response that a client without the DO bit gets: some DNSSEC records of
the types that its questions ask for may be kept, and no others. -/
structure SectionsStripped (query : DnsPacket) (filterAaaa : Bool) (response shaped : DnsPacket) :
    Prop where
  exists_keep : ∃ keep : DnsRecord → Bool,
    (∀ record, isDnssecRecord record = false → keep record = true) ∧
    (∀ record, isDnssecRecord record = true →
      (∀ question ∈ query.questions, question.qtype ≠ record.queryType) → keep record = false) ∧
    ∀ before after, (before, after) ∈ [(response.answers, shaped.answers),
        (response.authorities, shaped.authorities), (response.resources, shaped.resources)] →
      List.Forall₂ (fun record left => if filterAaaa then Unhinted record left else left = record)
        (before.filter keep) after

/-- What shaping does to a response. -/
structure ShapedFor (query : DnsPacket) (filterAaaa : Bool) (response shaped : DnsPacket) : Prop where
  header : shaped.header = { response.header with authoritativeAnswer := false }
  questions : shaped.questions = response.questions
  edns : shaped.edns = query.edns.map fun opt => { response.edns.getD {} with doBit := opt.doBit }
  forDo : query.edns.any EdnsOpt.doBit = true →
    shaped.answers = response.answers ∧ shaped.authorities = response.authorities ∧
      shaped.resources = response.resources
  forOthers : query.edns.any EdnsOpt.doBit = false →
    SectionsStripped query filterAaaa response shaped

theorem forall₂_strippedSection (filterAaaa : Bool) (records : List DnsRecord) :
    List.Forall₂ (fun record left => if filterAaaa then Unhinted record left else left = record)
      (records.filter fun record => !isDnssecRecord record) (strippedSection filterAaaa records) := by
  cases filterAaaa with
  | false => exact List.forall₂_same.mpr fun record _ => rfl
  | true =>
      refine List.forall₂_map_right_iff.mpr (List.forall₂_same.mpr fun record _ => ?_)
      exact unhinted_withoutHint record

theorem shapedFor_shapeForClient (response query : DnsPacket) (filterAaaa : Bool) :
    ShapedFor query filterAaaa response (response.shapeForClient query filterAaaa) where
  header := rfl
  questions := response.shapeForClient_questions query filterAaaa
  edns := by
    rw [shapeForClient]
    cases query.edns with
    | none => rfl
    | some opt => rfl
  forDo := by
    intro clientDo
    rw [shapeForClient, clientDo]
    exact ⟨rfl, rfl, rfl⟩
  forOthers := by
    intro noDo
    rw [shapeForClient, noDo, stripForClient_eq]
    refine ⟨fun record => !isDnssecRecord record, ?_, ?_, ?_⟩
    · exact fun record plain => by simp [plain]
    · exact fun record dnssec _ => by simp [dnssec]
    · intro before after mem
      simp only [List.mem_cons, Prod.mk.injEq, List.not_mem_nil, or_false] at mem
      rcases mem with ⟨rfl, rfl⟩ | ⟨rfl, rfl⟩ | ⟨rfl, rfl⟩ <;>
        exact forall₂_strippedSection filterAaaa _

theorem shapeForClient_shapeForClient (response query : DnsPacket) (filterAaaa : Bool) :
    (response.shapeForClient query filterAaaa).shapeForClient query filterAaaa =
      response.shapeForClient query filterAaaa := by
  simp only [shapeForClient, stripForClient_eq, ofSections]
  congr 1
  · cases query.edns.any EdnsOpt.doBit <;> simp [strippedSection_strippedSection]
  · cases query.edns.any EdnsOpt.doBit <;> simp [strippedSection_strippedSection]
  · cases query.edns.any EdnsOpt.doBit <;> simp [strippedSection_strippedSection]
  · cases query.edns <;> rfl

/-- Shaping a response clears the AA bit, lets the OPT record follow the query,
strips what a client without the DO bit did not ask for, changes no other record
and does nothing when it is repeated. -/
theorem shapeForClient_correct (response query : DnsPacket) (filterAaaa : Bool) :
    ShapedFor query filterAaaa response (response.shapeForClient query filterAaaa) ∧
      (response.shapeForClient query filterAaaa).shapeForClient query filterAaaa =
        response.shapeForClient query filterAaaa :=
  ⟨shapedFor_shapeForClient response query filterAaaa,
    shapeForClient_shapeForClient response query filterAaaa⟩

/-- The DS records that a client without the DO bit asks for are removed, and an
HTTPS record loses its `ipv6hint`. -/
theorem not_all_shapeForClient :
    (¬ ∀ (response query : DnsPacket) (filterAaaa : Bool), ∀ record ∈ response.answers,
      (∃ question ∈ query.questions, question.qtype = record.queryType) →
        record ∈ (response.shapeForClient query filterAaaa).answers) ∧
    ¬ ∀ (response query : DnsPacket) (filterAaaa : Bool), ∀ record ∈ response.answers,
      isDnssecRecord record = false →
        record ∈ (response.shapeForClient query filterAaaa).answers := by
  constructor
  · intro all
    have kept := all { answers := [.ds ⟨text "example.com", 1, 13, 2, [0xAB], 300⟩] }
      { questions := [⟨text "example.com", .ds⟩] } false _ List.mem_cons_self
      ⟨_, List.mem_cons_self, rfl⟩
    exact absurd kept (by decide)
  · intro all
    have kept := all
      { answers := [.unknown (text "example.com") QueryType.https.toNum
          ([0, 1, 0, 0, 6, 0, 16] ++ List.replicate 16 0x20) 300] }
      { questions := [⟨text "example.com", .https⟩] } true _ List.mem_cons_self rfl
    exact absurd kept (by decide)

end DnsPacket

end Numa
