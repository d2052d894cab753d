import Numa.ClientPolicy
import Numa.ClientResponse
import Numa.DomainList
import Numa.SvcbIndices

/-!
# Private addresses in answers

The filter of `rebind.rs` takes exactly the private addresses out of a response:
the address records with one, and the addresses in the hints of SVCB and HTTPS
records whose data are well formed.
-/

namespace Numa

/-- Is the address, in its canonical form, in one of the ranges? -/
def inRanges (ranges : List IpNet) (ip : IpAddr) : Bool :=
  ranges.any fun net => net.contains ip.toCanonical

/-- `RebindFilter::new`, with the parsed ranges. -/
def RebindFilter.new (toLowercase : Text → Text) (enabled : Bool)
    (allowlist : PersistedDomainList) (ranges : List IpNet) : RebindFilter where
  enabled := enabled
  isPrivate := CidrMatcher.matchesIp ⟨ranges, []⟩
  isAllowed qname := !allowlist.isEmpty && allowlist.isMatch toLowercase qname

def IsSvcbType (qtype : UInt16) : Prop :=
  qtype = QueryType.https.toNum ∨ qtype = QueryType.svcb.toNum

section Records

variable (isPrivate : IpAddr → Bool)

/-- Is there a private address in the hints of the record?  The data are well
formed. -/
def HasPrivateHint (record : DnsRecord) : Prop :=
  ∃ domain qtype ttl, ∃ data : SvcbData, IsSvcbType qtype ∧
    record = .unknown domain qtype data.octets ttl ∧ FilledHints data.params ∧
      ¬ ∀ param ∈ data.params, IsPublic isPrivate param

/-- What the filter leaves of a record that it keeps. -/
inductive Scrubbed : DnsRecord → DnsRecord → Prop
  | hints (domain : Text) (qtype : UInt16) (data : SvcbData) (ttl : UInt32)
      (isSvcb : IsSvcbType qtype) (filled : FilledHints data.params) :
      Scrubbed (.unknown domain qtype data.octets ttl)
        (.unknown domain qtype (data.withoutPrivate isPrivate).octets ttl)
  | other (record : DnsRecord)
      (notHints : ∀ domain qtype ttl, ∀ data : SvcbData, IsSvcbType qtype →
        FilledHints data.params → record ≠ .unknown domain qtype data.octets ttl) :
      Scrubbed record record

/-- A record without private addresses. -/
structure IsClean (record : DnsRecord) : Prop where
  addr : hasPrivateAddr isPrivate record = false
  hints : ¬ HasPrivateHint isPrivate record

/-- A section before and behind the filter. -/
structure SectionScrubbed (before after : List DnsRecord) : Prop where
  clean : ∀ record ∈ after, IsClean isPrivate record
  kept : List.Forall₂ (Scrubbed isPrivate)
    (before.filter fun record => !hasPrivateAddr isPrivate record) after

/-! ## One record -/

theorem SvcbData.withoutPrivate_eq_self {data : SvcbData} (filled : FilledHints data.params)
    (allPublic : ∀ param ∈ data.params, IsPublic isPrivate param) :
    data.withoutPrivate isPrivate = data := by
  have kept : ∀ param ∈ data.params, publicParam isPrivate param = some (id param) := by
    intro param paramMem
    rw [← applyTo_privateEdit,
      (privateEdit_eq_keep_iff isPrivate (filled param paramMem)).mpr (allPublic param paramMem)]
    rfl
  have params : data.params.filterMap (publicParam isPrivate) = data.params := by
    rw [List.filterMap_congr kept, List.filterMap_eq_map']
    exact List.map_id _
  exact SvcbData.ext rfl rfl params

theorem editSvcb_of_isSvcbType {edit : List UInt8 → Option (List UInt8)} {domain : Text}
    {qtype : UInt16} {octets : List UInt8} {ttl : UInt32} (isSvcb : IsSvcbType qtype) :
    editSvcb edit (.unknown domain qtype octets ttl) =
      (edit octets).map fun octets => .unknown domain qtype octets ttl :=
  if_pos isSvcb

/-- The editor of the filter changes the records with a private hint. -/
theorem editSvcb_isSome_iff (record : DnsRecord) :
    (editSvcb (stripPrivateHints · isPrivate) record).isSome = true ↔
      HasPrivateHint isPrivate record := by
  constructor
  · intro edited
    obtain ⟨after, edited⟩ := Option.isSome_iff_exists.mp edited
    cases record with
    | unknown domain qtype octets ttl =>
        by_cases isSvcb : IsSvcbType qtype
        · rw [editSvcb_of_isSvcbType isSvcb] at edited
          obtain ⟨out, stripped, -⟩ := Option.map_eq_some_iff.mp edited
          obtain ⟨data, rfl, filled, somePrivate, -⟩ := stripPrivateHints_eq_some_iff.mp stripped
          exact ⟨domain, qtype, ttl, data, isSvcb, rfl, filled, somePrivate⟩
        · have same : editSvcb (stripPrivateHints · isPrivate)
              (.unknown domain qtype octets ttl) = none := if_neg isSvcb
          rw [same] at edited
          cases edited
    | _ => cases edited
  · rintro ⟨domain, qtype, ttl, data, isSvcb, rfl, filled, somePrivate⟩
    rw [editSvcb_of_isSvcbType isSvcb,
      (SvcbData.stripPrivateHints_octets isPrivate filled).2 somePrivate]
    rfl

theorem scrubbed_getD (record : DnsRecord) :
    Scrubbed isPrivate record
      ((editSvcb (stripPrivateHints · isPrivate) record).getD record) := by
  by_cases hinted : ∃ domain qtype ttl, ∃ data : SvcbData, IsSvcbType qtype ∧
      FilledHints data.params ∧ record = .unknown domain qtype data.octets ttl
  · obtain ⟨domain, qtype, ttl, data, isSvcb, filled, rfl⟩ := hinted
    have left : (editSvcb (stripPrivateHints · isPrivate)
        (.unknown domain qtype data.octets ttl)).getD (.unknown domain qtype data.octets ttl) =
          .unknown domain qtype (data.withoutPrivate isPrivate).octets ttl := by
      rw [editSvcb_of_isSvcbType isSvcb]
      by_cases allPublic : ∀ param ∈ data.params, IsPublic isPrivate param
      · rw [(SvcbData.stripPrivateHints_octets isPrivate filled).1 allPublic,
          SvcbData.withoutPrivate_eq_self isPrivate filled allPublic]
        rfl
      · rw [(SvcbData.stripPrivateHints_octets isPrivate filled).2 allPublic]
        rfl
    rw [left]
    exact .hints domain qtype data ttl isSvcb filled
  · have same : editSvcb (stripPrivateHints · isPrivate) record = none := by
      rw [← Option.not_isSome_iff_eq_none, editSvcb_isSome_iff]
      rintro ⟨domain, qtype, ttl, data, isSvcb, isRecord, filled, -⟩
      exact hinted ⟨domain, qtype, ttl, data, isSvcb, filled, isRecord⟩
    rw [same, Option.getD_none]
    exact .other record fun domain qtype ttl data isSvcb filled isRecord =>
      hinted ⟨domain, qtype, ttl, data, isSvcb, filled, isRecord⟩

/-- What is left of a record has no private hints, and it is an address record
iff it was the same one. -/
theorem Scrubbed.isClean {before after : DnsRecord} (scrubbed : Scrubbed isPrivate before after)
    (isPublic : hasPrivateAddr isPrivate before = false) : IsClean isPrivate after := by
  cases scrubbed with
  | hints domain qtype data ttl isSvcb filled =>
      refine ⟨rfl, ?_⟩
      rintro ⟨_, _, _, other, -, isRecord, -, somePrivate⟩
      obtain ⟨-, -, same, -⟩ := DnsRecord.unknown.inj isRecord
      obtain rfl := SvcbData.octets_injective same
      exact somePrivate (data.params_withoutPrivate isPrivate).2
  | other record notHints =>
      refine ⟨isPublic, ?_⟩
      rintro ⟨domain, qtype, ttl, data, isSvcb, isRecord, filled, -⟩
      exact notHints domain qtype ttl data isSvcb filled isRecord

/-! ## A section -/

theorem sectionScrubbed (records : List DnsRecord) :
    SectionScrubbed isPrivate records (scrubSection isPrivate records).1 where
  clean := by
    intro after afterMem
    obtain ⟨record, recordMem, rfl⟩ := List.mem_map.mp afterMem
    apply (scrubbed_getD isPrivate record).isClean
    simpa using List.of_mem_filter recordMem
  kept := by
    rw [scrubSection, List.forall₂_map_right_iff]
    exact List.forall₂_same.mpr fun record _ => scrubbed_getD isPrivate record

theorem scrubSection_of_clean {records : List DnsRecord}
    (clean : ∀ record ∈ records, IsClean isPrivate record) :
    scrubSection isPrivate records = (records, 0) := by
  have kept : (records.filter fun record => !hasPrivateAddr isPrivate record) = records :=
    List.filter_eq_self.mpr fun record recordMem => by simp [(clean record recordMem).addr]
  have same : ∀ record ∈ records, editSvcb (stripPrivateHints · isPrivate) record = none := by
    intro record recordMem
    rw [← Option.not_isSome_iff_eq_none, editSvcb_isSome_iff]
    exact (clean record recordMem).hints
  have unchanged : ∀ record ∈ records,
      (editSvcb (stripPrivateHints · isPrivate) record).getD record = id record := by
    intro record recordMem
    rw [same record recordMem]
    rfl
  have none : records.countP
      (fun record => (editSvcb (stripPrivateHints · isPrivate) record).isSome) = 0 :=
    List.countP_eq_zero.mpr fun record recordMem => by simp [same record recordMem]
  rw [scrubSection, kept, List.map_congr_left unchanged, List.map_id, none, Nat.sub_self]

/-- Nothing is counted iff there is nothing private. -/
theorem scrubSection_count_eq_zero_iff (records : List DnsRecord) :
    (scrubSection isPrivate records).2 = 0 ↔ ∀ record ∈ records, IsClean isPrivate record := by
  constructor
  · intro nothing
    rw [scrubSection] at nothing
    obtain ⟨noneRemoved, noneEdited⟩ := Nat.add_eq_zero_iff.mp nothing
    have kept : (records.filter fun record => !hasPrivateAddr isPrivate record) = records :=
      List.filter_sublist.eq_of_length_le (by omega)
    rw [kept] at noneEdited
    intro record recordMem
    constructor
    · simpa using List.filter_eq_self.mp kept record recordMem
    · rw [← editSvcb_isSome_iff]
      exact List.countP_eq_zero.mp noneEdited record recordMem
  · intro clean
    rw [scrubSection_of_clean isPrivate clean]

/-- Nothing is counted iff the section is as it was. -/
theorem scrubSection_count_iff_same (records : List DnsRecord) :
    (scrubSection isPrivate records).2 = 0 ↔ (scrubSection isPrivate records).1 = records := by
  constructor
  · intro nothing
    rw [scrubSection_of_clean isPrivate
      ((scrubSection_count_eq_zero_iff isPrivate records).mp nothing)]
  · intro same
    have clean := (sectionScrubbed isPrivate records).clean
    rw [same] at clean
    exact (scrubSection_count_eq_zero_iff isPrivate records).mpr clean

end Records

/-! ## A response -/

theorem RebindFilter.new_isPrivate (toLowercase : Text → Text) (enabled : Bool)
    (allowlist : PersistedDomainList) (ranges : List IpNet) :
    (RebindFilter.new toLowercase enabled allowlist ranges).isPrivate = inRanges ranges := by
  funext ip
  simp [RebindFilter.new, CidrMatcher.matchesIp, inRanges]

/-- An enabled filter for a domain that is not allowed. -/
theorem RebindFilter.apply_of_enabled {filter : RebindFilter} {qname : Text}
    (enabled : filter.enabled = true) (notAllowed : filter.isAllowed qname = false)
    (response : DnsPacket) :
    filter.apply qname response =
      ({ response with
          answers := (scrubSection filter.isPrivate response.answers).1
          authorities := (scrubSection filter.isPrivate response.authorities).1
          resources := (scrubSection filter.isPrivate response.resources).1 },
        (scrubSection filter.isPrivate response.answers).2 +
          (scrubSection filter.isPrivate response.authorities).2 +
          (scrubSection filter.isPrivate response.resources).2) := by
  rw [apply, enabled, notAllowed]
  rfl

/-- The filter leaves the address records and the hints outside of its ranges,
all other records and all other parameters as they are and in their order.  It
counts nothing iff the response is as it was, and a second run does nothing. -/
theorem rebindFilter_exact (toLowercase : Text → Text) (allowlist : PersistedDomainList)
    (ranges : List IpNet) (qname : Text) (response : DnsPacket)
    (notAllowed : (allowlist.isEmpty || !allowlist.isMatch toLowercase qname) = true) :
    let filter := RebindFilter.new toLowercase true allowlist ranges
    let filtered := (filter.apply qname response).1
    SectionScrubbed (inRanges ranges) response.answers filtered.answers ∧
      SectionScrubbed (inRanges ranges) response.authorities filtered.authorities ∧
      SectionScrubbed (inRanges ranges) response.resources filtered.resources ∧
      (filtered.header = response.header ∧ filtered.questions = response.questions ∧
        filtered.edns = response.edns) ∧
      ((filter.apply qname response).2 = 0 ↔ filtered = response) ∧
      filter.apply qname filtered = (filtered, 0) := by
  have outside : (RebindFilter.new toLowercase true allowlist ranges).isAllowed qname = false := by
    change (!allowlist.isEmpty && allowlist.isMatch toLowercase qname) = false
    rw [← Bool.not_eq_true', Bool.not_and, Bool.not_not]
    exact notAllowed
  have applied := fun response => RebindFilter.apply_of_enabled rfl outside response
  rw [RebindFilter.new_isPrivate] at applied
  have answers := sectionScrubbed (inRanges ranges) response.answers
  have authorities := sectionScrubbed (inRanges ranges) response.authorities
  have resources := sectionScrubbed (inRanges ranges) response.resources
  dsimp only
  rw [applied, applied]
  refine ⟨answers, authorities, resources, ⟨rfl, rfl, rfl⟩, ?_, ?_⟩
  · dsimp only
    rw [Nat.add_eq_zero_iff, Nat.add_eq_zero_iff, scrubSection_count_iff_same,
      scrubSection_count_iff_same, scrubSection_count_iff_same]
    cases response
    simp [and_assoc]
  · dsimp only
    rw [scrubSection_of_clean _ answers.clean, scrubSection_of_clean _ authorities.clean,
      scrubSection_of_clean _ resources.clean]
    rfl

/-- A response with a private address among the answers and one in a hint. -/
def reboundResponse : DnsPacket where
  answers :=
    [.a (text "www.example") (.new 10 0 0 1) 60, .a (text "www.example") (.new 93 184 216 34) 60,
      .unknown (text "www.example") QueryType.https.toNum
        [0, 1, 0, 0, 1, 0, 3, 2, 104, 50, 0, 4, 0, 8, 10, 0, 0, 1, 93, 184, 216, 34] 60]

theorem rebindFilter_exact_reboundResponse :
    let filter := RebindFilter.new Text.toLowercase true ⟨{text "corp.example"}, ∅⟩
      [⟨.v4 (.new 10 0 0 0), 8⟩]
    let filtered := filter.apply (text "www.example") reboundResponse
    SectionScrubbed (inRanges [⟨.v4 (.new 10 0 0 0), 8⟩]) reboundResponse.answers
        filtered.1.answers ∧
      filtered.1.answers = [.a (text "www.example") (.new 93 184 216 34) 60,
        .unknown (text "www.example") QueryType.https.toNum
          [0, 1, 0, 0, 1, 0, 3, 2, 104, 50, 0, 4, 0, 4, 93, 184, 216, 34] 60] ∧
      filtered.2 = 2 := by
  obtain ⟨answers, -⟩ := rebindFilter_exact Text.toLowercase ⟨{text "corp.example"}, ∅⟩
    [⟨.v4 (.new 10 0 0 0), 8⟩] (text "www.example") reboundResponse (by decide +kernel)
  exact ⟨answers, by decide +kernel, by decide +kernel⟩

end Numa
