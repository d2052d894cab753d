import Numa.AddressText
import Numa.NestedMap

/-!
# Configured zones

`build_zone_map` of `config.rs`: the records of the configuration under their
owners, those of wildcards apart.
-/

namespace Numa

structure ZoneRecord where
  domain : Text
  recordType : Text
  value : Text
  ttl : UInt32
  deriving DecidableEq

/-- The errors of `build_zone_map`, with what their texts show. -/
inductive ZoneError
  /-- "invalid wildcard zone '{}'" -/
  | invalidWildcardZone (raw : Text)
  /-- "invalid A record value '{}': {}" -/
  | invalidA (value : Text)
  /-- "invalid AAAA record value '{}': {}" -/
  | invalidAaaa (value : Text)
  /-- "MX value must be 'priority host', got '{}'" -/
  | mxWithoutHost (value : Text)
  /-- "invalid MX priority '{}': {}" -/
  | invalidMxPriority (priority : Text)
  /-- "unsupported record type '{}'" -/
  | unsupportedType (recordType : Text)
  deriving DecidableEq

/-- The records of a map by owner and type. -/
abbrev ZoneBucket := AList fun _ : Text => AList fun _ : QueryType => List DnsRecord

structure ZoneMap where
  exact : ZoneBucket := ∅
  wildcard : ZoneBucket := ∅

namespace ZoneBucket

/-- `bucket.entry(domain).or_default().entry(qtype).or_default().push(record)`. -/
def push (bucket : ZoneBucket) (domain : Text) (qtype : QueryType) (record : DnsRecord) :
    ZoneBucket :=
  let typeMap := (bucket.lookup domain).getD ∅
  bucket.insert domain (typeMap.insert qtype ((typeMap.lookup qtype).getD [] ++ [record]))

/-- The records of an owner and a type. -/
def recordsOf (bucket : ZoneBucket) (domain : Text) (qtype : QueryType) : List DnsRecord :=
  ((bucket.lookup domain).bind (AList.lookup qtype)).getD []

theorem recordsOf_eq (bucket : ZoneBucket) (domain : Text) (qtype : QueryType) :
    recordsOf bucket domain qtype = (((bucket.lookup domain).getD ∅).lookup qtype).getD [] := by
  unfold recordsOf
  cases bucket.lookup domain <;> simp

theorem recordsOf_push (bucket : ZoneBucket) (domain owner : Text) (qtype type : QueryType)
    (record : DnsRecord) :
    recordsOf (push bucket domain qtype record) owner type =
      if owner = domain ∧ type = qtype then recordsOf bucket domain qtype ++ [record]
      else recordsOf bucket owner type := by
  rw [push, recordsOf_eq, recordsOf_eq, recordsOf_eq]
  by_cases sameOwner : owner = domain
  · subst sameOwner
    rw [AList.lookup_insert, Option.getD_some]
    generalize (bucket.lookup owner).getD ∅ = typeMap
    by_cases sameType : type = qtype
    · subst sameType
      simp
    · simp [sameType]
  · simp [sameOwner]

end ZoneBucket

namespace ZoneMap

def push (map : ZoneMap) (isWildcard : Bool) (domain : Text) (qtype : QueryType)
    (record : DnsRecord) : ZoneMap :=
  if isWildcard then { map with wildcard := map.wildcard.push domain qtype record }
  else { map with exact := map.exact.push domain qtype record }

/-- The record is in one of the maps. -/
def Holds (map : ZoneMap) (record : DnsRecord) : Prop :=
  ∃ domain qtype, record ∈ map.exact.recordsOf domain qtype ∨
    record ∈ map.wildcard.recordsOf domain qtype

theorem holds_push {map : ZoneMap} {isWildcard : Bool} {domain : Text} {qtype : QueryType}
    {record other : DnsRecord} :
    (map.push isWildcard domain qtype record).Holds other ↔ map.Holds other ∨ other = record := by
  have pushed : ∀ (bucket : ZoneBucket) owner type,
      other ∈ (bucket.push domain qtype record).recordsOf owner type ↔
        other ∈ bucket.recordsOf owner type ∨
          (owner = domain ∧ type = qtype) ∧ other = record := by
    intro bucket owner type
    rw [ZoneBucket.recordsOf_push]
    split
    · rename_i here
      obtain ⟨rfl, rfl⟩ := here
      simp
    · simp [*]
  unfold push Holds
  cases isWildcard with
  | false =>
      simp only [Bool.false_eq_true, if_false, pushed]
      constructor
      · rintro ⟨owner, type, (old | ⟨-, new⟩) | old⟩
        · exact .inl ⟨owner, type, .inl old⟩
        · exact .inr new
        · exact .inl ⟨owner, type, .inr old⟩
      · rintro (⟨owner, type, old | old⟩ | new)
        · exact ⟨owner, type, .inl (.inl old)⟩
        · exact ⟨owner, type, .inr old⟩
        · exact ⟨domain, qtype, .inl (.inr ⟨⟨rfl, rfl⟩, new⟩)⟩
  | true =>
      simp only [if_true, pushed]
      constructor
      · rintro ⟨owner, type, old | old | ⟨-, new⟩⟩
        · exact .inl ⟨owner, type, .inl old⟩
        · exact .inl ⟨owner, type, .inr old⟩
        · exact .inr new
      · rintro (⟨owner, type, old | old⟩ | new)
        · exact ⟨owner, type, .inl old⟩
        · exact ⟨owner, type, .inr (.inl old)⟩
        · exact ⟨domain, qtype, .inr (.inr ⟨⟨rfl, rfl⟩, new⟩)⟩

end ZoneMap

/-- `splitn(2, ' ')`, if there is a space. -/
def splitAtSpace (value : Text) : Option (Text × Text) :=
  match value.dropWhile (· != 0x20) with
  | [] => none
  | _ :: rest => some (value.takeWhile (· != 0x20), rest)

section Build

/-! `str::to_lowercase` and `str::to_uppercase` follow the Unicode tables, so
the model takes them as parameters. -/

variable (toLowercase toUppercase : Text → Text)

/-- The owner of a configured record and whether it stands under a wildcard. -/
def zoneKey (zone : ZoneRecord) : Except ZoneError (Bool × Text) :=
  let raw := (toLowercase zone.domain).trimEndDots
  let isWildcard := decide (Text.wildcard [] <+: raw)
  let key := if isWildcard then raw.drop 2 else raw
  if key = [] ∨ 0x2A ∈ key then .error (.invalidWildcardZone raw) else .ok (isWildcard, key)

/-- The record of a configured record's owner, type and value. -/
def zoneData (zone : ZoneRecord) (domain : Text) : Except ZoneError (QueryType × DnsRecord) :=
  let recordType := toUppercase zone.recordType
  if recordType = text "A" then
    match parseIpv4 zone.value with
    | none => .error (.invalidA zone.value)
    | some addr => .ok (.a, .a domain addr zone.ttl)
  else if recordType = text "AAAA" then
    match parseIpv6 zone.value with
    | none => .error (.invalidAaaa zone.value)
    | some addr => .ok (.aaaa, .aaaa domain addr zone.ttl)
  else if recordType = text "CNAME" then .ok (.cname, .cname domain zone.value zone.ttl)
  else if recordType = text "PTR" then .ok (.ptr, .ptr domain zone.value zone.ttl)
  else if recordType = text "NS" then .ok (.ns, .ns domain zone.value zone.ttl)
  else if recordType = text "MX" then
    match splitAtSpace zone.value with
    | none => .error (.mxWithoutHost zone.value)
    | some (priority, host) =>
      match parseU16 priority with
      | none => .error (.invalidMxPriority priority)
      | some priority => .ok (.mx, .mx domain priority host zone.ttl)
  else .error (.unsupportedType recordType)

/-- One turn of the loop of `build_zone_map`. -/
def addZone (map : ZoneMap) (zone : ZoneRecord) : Except ZoneError ZoneMap := do
  let (isWildcard, domain) ← zoneKey toLowercase zone
  let (qtype, record) ← zoneData toUppercase zone domain
  pure (map.push isWildcard domain qtype record)

def buildZoneMap (zones : List ZoneRecord) : Except ZoneError ZoneMap :=
  zones.foldlM (addZone toLowercase toUppercase) {}

/-- A configured record is accepted with this record. -/
def BecomesRecord (zone : ZoneRecord) (record : DnsRecord) : Prop :=
  ∃ isWildcard domain qtype, zoneKey toLowercase zone = .ok (isWildcard, domain) ∧
    zoneData toUppercase zone domain = .ok (qtype, record)

variable {toLowercase toUppercase}

theorem addZone_eq_ok {map after : ZoneMap} {zone : ZoneRecord}
    (added : addZone toLowercase toUppercase map zone = .ok after) :
    ∃ record, BecomesRecord toLowercase toUppercase zone record ∧
      ∀ other, after.Holds other ↔ map.Holds other ∨ other = record := by
  unfold addZone at added
  cases keyed : zoneKey toLowercase zone with
  | error error =>
      rw [keyed] at added
      cases added
  | ok key =>
      obtain ⟨isWildcard, domain⟩ := key
      rw [keyed] at added
      cases parsed : zoneData toUppercase zone domain with
      | error error =>
          simp only [bind, Except.bind, parsed] at added
          cases added
      | ok data =>
          obtain ⟨qtype, record⟩ := data
          simp only [bind, Except.bind, parsed] at added
          cases added
          exact ⟨record, ⟨isWildcard, domain, qtype, keyed, parsed⟩, fun _ => ZoneMap.holds_push⟩

theorem BecomesRecord.unique {zone : ZoneRecord} {first second : DnsRecord}
    (becomesFirst : BecomesRecord toLowercase toUppercase zone first)
    (becomesSecond : BecomesRecord toLowercase toUppercase zone second) : first = second := by
  obtain ⟨_, _, _, keyed, parsed⟩ := becomesFirst
  obtain ⟨_, _, _, otherKeyed, otherParsed⟩ := becomesSecond
  cases keyed.symm.trans otherKeyed
  cases parsed.symm.trans otherParsed
  rfl

theorem foldlM_addZone_eq_ok {zones : List ZoneRecord} {map after : ZoneMap}
    (built : zones.foldlM (addZone toLowercase toUppercase) map = .ok after) :
    (∀ record, after.Holds record ↔ map.Holds record ∨
      ∃ zone ∈ zones, BecomesRecord toLowercase toUppercase zone record) ∧
    ∀ zone ∈ zones, ∃ record, BecomesRecord toLowercase toUppercase zone record := by
  induction zones generalizing map with
  | nil =>
      cases built
      simp
  | cons zone zones ih =>
      rw [List.foldlM_cons] at built
      cases added : addZone toLowercase toUppercase map zone with
      | error error =>
          rw [added] at built
          cases built
      | ok middle =>
          rw [added] at built
          obtain ⟨record, becomes, holds⟩ := addZone_eq_ok added
          obtain ⟨later, all⟩ := ih built
          constructor
          · intro other
            rw [later, holds]
            have same : BecomesRecord toLowercase toUppercase zone other ↔ other = record := by
              constructor
              · exact fun alsoBecomes => alsoBecomes.unique becomes
              · rintro rfl
                exact becomes
            simp only [List.mem_cons, exists_eq_or_imp, same, or_assoc]
          · intro other otherMem
            rcases List.mem_cons.mp otherMem with rfl | otherMem
            · exact ⟨record, becomes⟩
            · exact all other otherMem

/-- The records of a map that was built are those of the configuration. -/
theorem holds_buildZoneMap {zones : List ZoneRecord} {map : ZoneMap} {record : DnsRecord}
    (built : buildZoneMap toLowercase toUppercase zones = .ok map) :
    map.Holds record ↔ ∃ zone ∈ zones, BecomesRecord toLowercase toUppercase zone record := by
  have empty : ¬ ({} : ZoneMap).Holds record := by
    rintro ⟨domain, qtype, exactly | wildcard⟩
    · simp [ZoneBucket.recordsOf] at exactly
    · simp [ZoneBucket.recordsOf] at wildcard
  rw [(foldlM_addZone_eq_ok built).1]
  simp [empty]

/-- Every configured record of a map that was built was accepted. -/
theorem exists_becomesRecord {zones : List ZoneRecord} {map : ZoneMap} {zone : ZoneRecord}
    (built : buildZoneMap toLowercase toUppercase zones = .ok map) (zoneMem : zone ∈ zones) :
    ∃ record, BecomesRecord toLowercase toUppercase zone record :=
  (foldlM_addZone_eq_ok built).2 zone zoneMem

end Build

end Numa
