import Mathlib.Data.List.Dedup
import Mathlib.Data.List.Pairwise
import Numa.CanonicalName
import Numa.CanonicalWire
import Numa.LexicographicOrder
import Numa.RecordCodec
import Numa.SignedData

/-!
# The signed form of an RRset

A signature covers the RDATA of its RRSIG and the records of the RRset in
canonical form: without duplicates, in the order of their data, with the owner
that was signed.  `build_signed_data` sorts whole records, in which a length
stands in front of the data, keeps duplicates, and takes the owner as it is.
-/

namespace Numa

open BytePacketBuffer

/-! ## The canonical form -/

/-- The types whose data have names that are lowercased. -/
def lowercasedTypes : List UInt16 :=
  [2, 3, 4, 5, 6, 7, 8, 9, 12, 14, 15, 17, 18, 21, 24, 26, 30, 33, 35, 36, 38, 39, 46, 47]

/-- The labels have lengths that an octet shows. -/
abbrev AreShort (name : Name) : Prop :=
  ∀ label ∈ name, label ≠ [] ∧ label.length ≤ 63

/-- The labels of a name in lower case. -/
abbrev AreLabels (name : Name) : Prop :=
  ∀ label ∈ name, IsWireLabel label

def lowercaseName (name : Name) : Name :=
  name.map Text.toLowercase

/-- The data of a record in canonical form, its names, which were received in any
letter case, uncompressed and in lower case.  A type that the parser does not
take apart has no names to lowercase. -/
inductive CanonicalRdata : DnsRecord → List UInt8 → Prop
  | a (domain : Text) (addr : Ipv4Addr) (ttl : UInt32) :
      CanonicalRdata (.a domain addr ttl) addr.toList
  | aaaa (domain : Text) (addr : Ipv6Addr) (ttl : UInt32) :
      CanonicalRdata (.aaaa domain addr ttl) addr.toList
  | ns (domain : Text) {host : Name} (short : AreShort host) (ttl : UInt32) :
      CanonicalRdata (.ns domain (nameText host) ttl) (wireName (lowercaseName host))
  | cname (domain : Text) {host : Name} (short : AreShort host) (ttl : UInt32) :
      CanonicalRdata (.cname domain (nameText host) ttl) (wireName (lowercaseName host))
  | ptr (domain : Text) {host : Name} (short : AreShort host) (ttl : UInt32) :
      CanonicalRdata (.ptr domain (nameText host) ttl) (wireName (lowercaseName host))
  | mx (domain : Text) (priority : UInt16) {host : Name} (short : AreShort host) (ttl : UInt32) :
      CanonicalRdata (.mx domain priority (nameText host) ttl)
        (beBytes16 priority ++ wireName (lowercaseName host))
  | soa (domain : Text) {mname rname : Name} (mnameShort : AreShort mname)
      (rnameShort : AreShort rname) (serial refresh retry expire minimum ttl : UInt32) :
      CanonicalRdata
        (.soa ⟨domain, nameText mname, nameText rname, serial, refresh, retry, expire, minimum, ttl⟩)
        (wireName (lowercaseName mname) ++ wireName (lowercaseName rname) ++ beBytes32 serial ++
          beBytes32 refresh ++ beBytes32 retry ++ beBytes32 expire ++ beBytes32 minimum)
  | dnskey (domain : Text) (flags : UInt16) (protocol algorithm : UInt8) (publicKey : List UInt8)
      (ttl : UInt32) :
      CanonicalRdata (.dnskey ⟨domain, flags, protocol, algorithm, publicKey, ttl⟩)
        (beBytes16 flags ++ [protocol, algorithm] ++ publicKey)
  | ds (domain : Text) (keyTag : UInt16) (algorithm digestType : UInt8) (digest : List UInt8)
      (ttl : UInt32) :
      CanonicalRdata (.ds ⟨domain, keyTag, algorithm, digestType, digest, ttl⟩)
        (beBytes16 keyTag ++ [algorithm, digestType] ++ digest)
  | nsec (domain : Text) {next : Name} (short : AreShort next) (typeBitmap : List UInt8)
      (ttl : UInt32) :
      CanonicalRdata (.nsec ⟨domain, nameText next, typeBitmap, ttl⟩)
        (wireName (lowercaseName next) ++ typeBitmap)
  | nsec3 (domain : Text) (hashAlgorithm flags : UInt8) (iterations : UInt16)
      {salt nextHashedOwner : List UInt8} (saltShort : salt.length ≤ 255)
      (hashShort : nextHashedOwner.length ≤ 255) (typeBitmap : List UInt8) (ttl : UInt32) :
      CanonicalRdata
        (.nsec3 ⟨domain, hashAlgorithm, flags, iterations, salt, nextHashedOwner, typeBitmap, ttl⟩)
        ([hashAlgorithm] ++ [flags] ++ beBytes16 iterations ++ [salt.length.toUInt8] ++ salt ++
          [nextHashedOwner.length.toUInt8] ++ nextHashedOwner ++ typeBitmap)
  | unknown (domain : Text) {qtype : UInt16} (plain : qtype ∉ lowercasedTypes) (data : List UInt8)
      (ttl : UInt32) : CanonicalRdata (.unknown domain qtype data ttl) data

/-- The data of an RRset in canonical order, each once. -/
def canonicalRdatas (rdatas : List (List UInt8)) : List (List UInt8) :=
  rdatas.dedup.insertionSort bytesLe

/-- The owner name that was signed, a wildcard if it has more labels than the
RRSIG counts. -/
def signedOwner (labels : UInt8) (owner : Name) : Name :=
  if labels.toNat < owner.length then wildcardOf (owner.drop (owner.length - labels.toNat))
  else owner

/-- The RDATA of an RRSIG without the signature. -/
def rrsigRdata (sig : Rrsig) (signer : Name) : List UInt8 :=
  beBytes16 sig.typeCovered ++ [sig.algorithm, sig.labels] ++ beBytes32 sig.originalTtl ++
    beBytes32 sig.expiration ++ beBytes32 sig.inception ++ beBytes16 sig.keyTag ++ wireName signer

/-- What the signature covers. -/
def canonicalSignedData (sig : Rrsig) (signer owner : Name) (qtype : QueryType)
    (rdatas : List (List UInt8)) : List UInt8 :=
  rrsigRdata sig signer ++ (canonicalRdatas rdatas).flatMap
    (recordOctets (wireName (signedOwner sig.labels owner)) qtype.toNum sig.originalTtl)

/-- A record of this type with these data that was received with this owner, in
any letter case. -/
structure HasRdata (owner : Name) (qtype : QueryType) (record : DnsRecord) (rdata : List UInt8) :
    Prop where
  domain : ∃ received, lowercaseName received = owner ∧ record.domain = nameText received
  qtype : record.queryType = qtype
  canonical : CanonicalRdata record rdata
  short : rdata.length < 2 ^ 16

/-- The records are an RRset with these data. -/
structure IsRrset (owner : Name) (qtype : QueryType) (rrset : List DnsRecord)
    (rdatas : List (List UInt8)) : Prop where
  areLabels : AreLabels owner
  nonempty : rrset ≠ []
  records : List.Forall₂ (HasRdata owner qtype) rrset rdatas

theorem IsRrset.short {owner : Name} {qtype : QueryType} {rrset : List DnsRecord}
    {rdatas : List (List UInt8)} (isRrset : IsRrset owner qtype rrset rdatas) :
    ∀ rdata ∈ rdatas, rdata.length < 2 ^ 16 := by
  obtain ⟨-, -, records⟩ := isRrset
  induction records with
  | nil => simp
  | cons has later ih => exact List.forall_mem_cons.mpr ⟨has.short, ih⟩

theorem IsRrset.rdatas_ne_nil {owner : Name} {qtype : QueryType} {rrset : List DnsRecord}
    {rdatas : List (List UInt8)} (isRrset : IsRrset owner qtype rrset rdatas) : rdatas ≠ [] := by
  rintro rfl
  exact isRrset.nonempty (List.forall₂_nil_right_iff.mp isRrset.records)

theorem AreShort.lowercase {name : Name} (short : AreShort name) : AreLabels (lowercaseName name) := by
  intro label labelMem
  obtain ⟨received, receivedMem, rfl⟩ := List.mem_map.mp labelMem
  obtain ⟨nonempty, length⟩ := short received receivedMem
  refine ⟨by simpa [Text.toLowercase] using nonempty, by simpa [Text.toLowercase] using length, ?_⟩
  intro octet octetMem
  obtain ⟨original, -, rfl⟩ := List.mem_map.mp octetMem
  exact toAsciiLowercase_toAsciiLowercase original

/-- A name has the same text in lower case. -/
theorem nameText_lowercaseName (name : Name) : nameText (lowercaseName name) = nameText name :=
  nameText_map_toLowercase name

theorem HasRdata.domain_eq {owner : Name} {qtype : QueryType} {record : DnsRecord}
    {rdata : List UInt8} (has : HasRdata owner qtype record rdata) :
    record.domain = nameText owner := by
  obtain ⟨received, rfl, domainEq⟩ := has.domain
  rw [domainEq, nameText_lowercaseName]

/-- The canonical data are those that the record is written with in a message. -/
theorem HasRdata.coded {owner : Name} (areLabels : AreLabels owner) {qtype : QueryType}
    {record : DnsRecord} {rdata : List UInt8} (has : HasRdata owner qtype record rdata)
    (fits : record.FieldsFit) : record.Coded owner rdata := by
  have domainEq := has.domain_eq
  cases has.canonical with
  | a domain addr ttl =>
      obtain rfl : domain = nameText owner := domainEq
      exact DnsRecord.coded_a areLabels
  | aaaa domain addr ttl =>
      obtain rfl : domain = nameText owner := domainEq
      exact DnsRecord.coded_aaaa areLabels
  | @ns domain host short ttl =>
      obtain rfl : domain = nameText owner := domainEq
      rw [← nameText_lowercaseName host]
      exact DnsRecord.coded_ns areLabels short.lowercase
  | @cname domain host short ttl =>
      obtain rfl : domain = nameText owner := domainEq
      rw [← nameText_lowercaseName host]
      exact DnsRecord.coded_cname areLabels short.lowercase
  | @ptr domain host short ttl =>
      obtain rfl : domain = nameText owner := domainEq
      rw [← nameText_lowercaseName host]
      exact DnsRecord.coded_ptr areLabels short.lowercase
  | @mx domain priority host short ttl =>
      obtain rfl : domain = nameText owner := domainEq
      rw [← nameText_lowercaseName host]
      exact DnsRecord.coded_mx areLabels short.lowercase
  | @soa domain mname rname mnameShort rnameShort serial refresh retry expire minimum ttl =>
      obtain rfl : domain = nameText owner := domainEq
      rw [← nameText_lowercaseName mname, ← nameText_lowercaseName rname]
      simpa only [List.append_assoc] using
        DnsRecord.coded_soa areLabels mnameShort.lowercase rnameShort.lowercase
  | dnskey domain flags protocol algorithm publicKey ttl =>
      obtain rfl : domain = nameText owner := domainEq
      exact DnsRecord.coded_dnskey areLabels
  | ds domain keyTag algorithm digestType digest ttl =>
      obtain rfl : domain = nameText owner := domainEq
      exact DnsRecord.coded_ds areLabels
  | @nsec domain next short typeBitmap ttl =>
      obtain rfl : domain = nameText owner := domainEq
      rw [← nameText_lowercaseName next]
      exact DnsRecord.coded_nsec areLabels short.lowercase
  | nsec3 domain hashAlgorithm flags iterations saltShort hashShort typeBitmap ttl =>
      obtain rfl : domain = nameText owner := domainEq
      simpa only [List.append_assoc] using
        DnsRecord.coded_nsec3 areLabels saltShort hashShort
  | unknown domain plain data ttl =>
      obtain rfl : domain = nameText owner := domainEq
      exact DnsRecord.coded_unknown areLabels fits

/-- The wire form of the name fits into a buffer. -/
def FitsBuffer (name : Text) : Prop :=
  ∀ labels, AreLabels labels → name = nameText labels → (wireName labels).length ≤ bufSize

/-! ## The records as they are written -/

theorem nameToWire_eq_some_iff {name : Name} (areLabels : AreLabels name) {octets : List UInt8} :
    nameToWire (nameText name) = some octets ↔ octets = wireName name ∧ FitsBuffer (nameText name) := by
  have fits : FitsBuffer (nameText name) ↔ (wireName name).length ≤ bufSize := by
    constructor
    · intro all
      exact all name areLabels rfl
    · intro short labels otherLabels same
      rwa [← (isNormal_of_wireLabels areLabels).eq_of_nameText
        (isNormal_of_wireLabels otherLabels) same]
  rw [nameToWire_nameText areLabels, fits]
  split
  · rename_i short
    simp [short, eq_comm]
  · rename_i long
    simp [long]

theorem nameToWire_received_iff {name : Name} (short : AreShort name) {octets : List UInt8} :
    nameToWire (nameText name) = some octets ↔
      octets = wireName (lowercaseName name) ∧ FitsBuffer (nameText name) := by
  rw [← nameText_lowercaseName, nameToWire_eq_some_iff short.lowercase]

/-- `record_rdata_canonical` gives the canonical data. -/
theorem CanonicalRdata.eq_some_iff {record : DnsRecord} {rdata : List UInt8}
    (canonical : CanonicalRdata record rdata) {octets : List UInt8} :
    recordRdataCanonical record = some octets ↔
      octets = rdata ∧ ∀ name ∈ record.names.tail, FitsBuffer name := by
  cases canonical with
  | a | aaaa | dnskey | ds | nsec3 | unknown =>
      simp [recordRdataCanonical, DnsRecord.names, dnskeyRdata, eq_comm]
  | ns domain short | cname domain short | ptr domain short =>
      simp [recordRdataCanonical, DnsRecord.names, nameToWire_received_iff short]
  | mx domain priority short | nsec domain short =>
      simp only [recordRdataCanonical, DnsRecord.names, Option.bind_eq_bind,
        Option.bind_eq_some_iff, nameToWire_received_iff short, Option.some.injEq, List.tail_cons,
        List.forall_mem_singleton]
      constructor
      · rintro ⟨_, ⟨rfl, fits⟩, rfl⟩
        exact ⟨rfl, fits⟩
      · rintro ⟨rfl, fits⟩
        exact ⟨_, ⟨rfl, fits⟩, rfl⟩
  | soa domain mnameShort rnameShort =>
      simp only [recordRdataCanonical, DnsRecord.names, Option.bind_eq_bind,
        Option.bind_eq_some_iff, nameToWire_received_iff mnameShort,
        nameToWire_received_iff rnameShort, Option.some.injEq, List.tail_cons, List.forall_mem_cons,
        List.not_mem_nil, false_implies, implies_true, and_true]
      constructor
      · rintro ⟨_, ⟨rfl, mnameFits⟩, _, ⟨rfl, rnameFits⟩, rfl⟩
        exact ⟨rfl, mnameFits, rnameFits⟩
      · rintro ⟨rfl, mnameFits, rnameFits⟩
        exact ⟨_, ⟨rfl, mnameFits⟩, _, ⟨rfl, rnameFits⟩, rfl⟩

/-- `record_to_canonical_wire` writes the owner, the type, the class, the
original TTL and the data behind their length. -/
theorem HasRdata.eq_some_iff {owner : Name} (areLabels : AreLabels owner) {qtype : QueryType}
    {record : DnsRecord} {rdata : List UInt8} (has : HasRdata owner qtype record rdata)
    (ttl : UInt32) {octets : List UInt8} :
    recordToCanonicalWire ttl record = some octets ↔
      octets = recordOctets (wireName owner) qtype.toNum ttl rdata ∧
        ∀ name ∈ record.names, FitsBuffer name := by
  have split : record.names = nameText owner :: record.names.tail := by
    rw [← has.domain_eq]
    cases record <;> rfl
  rw [split, List.forall_mem_cons]
  simp only [recordToCanonicalWire, Option.bind_eq_bind, Option.bind_eq_some_iff, has.domain_eq,
    nameToWire_eq_some_iff areLabels, has.canonical.eq_some_iff, Option.some.injEq, has.qtype,
    recordOctets, List.append_assoc]
  constructor
  · rintro ⟨_, ⟨rfl, ownerFits⟩, _, ⟨rfl, dataFits⟩, rfl⟩
    exact ⟨rfl, ownerFits, dataFits⟩
  · rintro ⟨rfl, ownerFits, dataFits⟩
    exact ⟨_, ⟨rfl, ownerFits⟩, _, ⟨rfl, dataFits⟩, rfl⟩

theorem mapM_canonical_eq_some_iff {owner : Name} (areLabels : AreLabels owner) {qtype : QueryType}
    {rrset : List DnsRecord} {rdatas : List (List UInt8)}
    (records : List.Forall₂ (HasRdata owner qtype) rrset rdatas) (ttl : UInt32)
    {octets : List (List UInt8)} :
    rrset.mapM (recordToCanonicalWire ttl) = some octets ↔
      octets = rdatas.map (recordOctets (wireName owner) qtype.toNum ttl) ∧
        ∀ record ∈ rrset, ∀ name ∈ record.names, FitsBuffer name := by
  induction records generalizing octets with
  | nil => simp [eq_comm]
  | cons has later ih =>
      simp only [List.mapM_cons, Option.bind_eq_bind, Option.bind_eq_some_iff,
        has.eq_some_iff areLabels, ih, Option.pure_def, Option.some.injEq, List.map_cons,
        List.forall_mem_cons]
      constructor
      · rintro ⟨_, ⟨rfl, fits⟩, _, ⟨rfl, laterFit⟩, rfl⟩
        exact ⟨rfl, fits, laterFit⟩
      · rintro ⟨rfl, fits, laterFit⟩
        exact ⟨_, ⟨rfl, fits⟩, _, ⟨rfl, laterFit⟩, rfl⟩

/-- The names in an RRSIG and in the records it covers fit into a buffer. -/
def NamesFit (signerName : Text) (rrset : List DnsRecord) : Prop :=
  FitsBuffer signerName ∧ ∀ record ∈ rrset, ∀ name ∈ record.names, FitsBuffer name

theorem buildSignedData_eq_some_iff {sig : Rrsig} {signer owner : Name} {qtype : QueryType}
    {rrset : List DnsRecord} {rdatas : List (List UInt8)} (signerLabels : AreLabels signer)
    (signed : sig.signerName = nameText signer) (isRrset : IsRrset owner qtype rrset rdatas)
    {octets : List UInt8} :
    buildSignedData (.rrsig sig) rrset = some octets ↔
      octets = rrsigRdata sig signer ++
        ((rdatas.map (recordOctets (wireName owner) qtype.toNum sig.originalTtl)).insertionSort
          bytesLe).flatten ∧
        NamesFit sig.signerName rrset := by
  simp only [buildSignedData, NamesFit, Option.bind_eq_bind, Option.bind_eq_some_iff, signed,
    nameToWire_eq_some_iff signerLabels,
    mapM_canonical_eq_some_iff isRrset.areLabels isRrset.records, Option.some.injEq]
  constructor
  · rintro ⟨_, ⟨rfl, signerFits⟩, _, ⟨rfl, recordsFit⟩, rfl⟩
    exact ⟨by simp [rrsigRdata], signerFits, recordsFit⟩
  · rintro ⟨rfl, signerFits, recordsFit⟩
    exact ⟨_, ⟨rfl, signerFits⟩, _, ⟨rfl, recordsFit⟩, by simp [rrsigRdata]⟩

/-! ## The order of the records -/

instance : Std.Total bytesLe where
  total first second := by
    rw [bytesLe, bytesLe, Std.OrientedOrd.eq_swap (a := second)]
    cases compare first second <;> simp

instance : IsTrans (List UInt8) bytesLe where
  trans _ _ _ := Std.TransCmp.isLE_trans

instance : Std.Antisymm bytesLe where
  antisymm _ _ below above := Std.LawfulEqOrd.eq_of_compare (Std.OrientedCmp.isLE_antisymm below above)

/-- Numbers are ordered as their octets. -/
theorem compare_beBytes16 (first second : UInt16) :
    compare (beBytes16 first) (beBytes16 second) = compare first.toNat second.toNat := by
  have none : (compare ([] : List UInt8) []) = .eq := rfl
  have halves : ∀ value : UInt16, (value >>> 8).toUInt8.toNat = value.toNat / 256 ∧
      value.toUInt8.toNat = value.toNat % 256 := by
    intro value
    have joined := toNat_join16 (value >>> 8).toUInt8 value.toUInt8
    rw [join_beBytes16] at joined
    have := value.toUInt8.toNat_lt
    omega
  rw [beBytes16, beBytes16, List.compare_cons_cons, List.compare_cons_cons, none,
    Ordering.then_eq, compare_uInt8, compare_uInt8, (halves first).1, (halves second).1,
    (halves first).2, (halves second).2, compare_div_then_mod]

/-- Records of an RRset are ordered by the lengths of their data, and only then
by the data. -/
theorem compare_recordOctets (owner : List UInt8) (qtype : UInt16) (ttl : UInt32)
    {first second : List UInt8} (firstShort : first.length < 2 ^ 16)
    (secondShort : second.length < 2 ^ 16) :
    compare (recordOctets owner qtype ttl first) (recordOctets owner qtype ttl second) =
      (compare first.length second.length).then (compare first second) := by
  have lengths : (beBytes16 first.length.toUInt16).length =
      (beBytes16 second.length.toUInt16).length := rfl
  rw [recordOctets, recordOctets, compare_append_left, compare_append_left, compare_append_left,
    compare_append_left, compare_append_of_length_eq lengths, compare_beBytes16,
    DnsRecord.toNat_length_toUInt16 firstShort, DnsRecord.toNat_length_toUInt16 secondShort]

/-- Whenever data are shorter, they also come first. -/
def LengthsInOrder (rdatas : List (List UInt8)) : Prop :=
  ∀ first ∈ rdatas, ∀ second ∈ rdatas, first.length < second.length →
    compare first second = .lt

/-- The data in the order in which `build_signed_data` puts their records. -/
def sortedRdatas (owner : List UInt8) (qtype : UInt16) (ttl : UInt32) (rdatas : List (List UInt8)) :
    List (List UInt8) :=
  rdatas.insertionSort fun first second =>
    bytesLe (recordOctets owner qtype ttl first) (recordOctets owner qtype ttl second)

/-- Of two items of a sorted list, one stands in front of the other. -/
theorem rel_or_rel_of_pairwise {α : Type} {relation : α → α → Prop} {items : List α}
    (sorted : items.Pairwise relation) {first second : α} (firstMem : first ∈ items)
    (secondMem : second ∈ items) (different : first ≠ second) :
    relation first second ∨ relation second first := by
  have either : items.Pairwise fun x y => relation x y ∨ relation y x := sorted.imp Or.inl
  have symmetric : Std.Symm fun x y => relation x y ∨ relation y x := ⟨fun _ _ => Or.symm⟩
  exact either.forall firstMem secondMem different

section Sorted

variable {owner : List UInt8} {qtype : UInt16} {ttl : UInt32} {rdatas : List (List UInt8)}

theorem map_sortedRdatas :
    (sortedRdatas owner qtype ttl rdatas).map (recordOctets owner qtype ttl) =
      (rdatas.map (recordOctets owner qtype ttl)).insertionSort bytesLe :=
  List.map_insertionSort _ _ _ _ fun _ _ _ _ => Iff.rfl

theorem mem_sortedRdatas {rdata : List UInt8} :
    rdata ∈ sortedRdatas owner qtype ttl rdatas ↔ rdata ∈ rdatas :=
  List.mem_insertionSort _

theorem pairwise_sortedRdatas (rdatas : List (List UInt8)) :
    (sortedRdatas owner qtype ttl rdatas).Pairwise fun first second =>
      bytesLe (recordOctets owner qtype ttl first) (recordOctets owner qtype ttl second) := by
  have sorted := List.pairwise_insertionSort bytesLe (rdatas.map (recordOctets owner qtype ttl))
  rwa [← map_sortedRdatas, List.pairwise_map] at sorted

theorem canonicalRdatas_perm : (canonicalRdatas rdatas).Perm rdatas.dedup :=
  List.perm_insertionSort _ _

theorem pairwise_canonicalRdatas : (canonicalRdatas rdatas).Pairwise bytesLe :=
  List.pairwise_insertionSort bytesLe _

/-- The records are in canonical order iff there are no duplicates and shorter
data come first anyway. -/
theorem sortedRdatas_eq_iff (short : ∀ rdata ∈ rdatas, rdata.length < 2 ^ 16) :
    sortedRdatas owner qtype ttl rdatas = canonicalRdatas rdatas ↔
      rdatas.Nodup ∧ LengthsInOrder rdatas := by
  constructor
  · intro same
    have distinct : rdatas.Nodup := by
      have canonical : (canonicalRdatas rdatas).Nodup :=
        canonicalRdatas_perm.nodup_iff.mpr (List.nodup_dedup _)
      rw [← same] at canonical
      exact (List.perm_insertionSort _ _).nodup_iff.mp canonical
    refine ⟨distinct, fun first firstMem second secondMem shorter => ?_⟩
    have different : first ≠ second := by
      rintro rfl
      omega
    have sorted : (canonicalRdatas rdatas).Pairwise fun first second =>
        bytesLe (recordOctets owner qtype ttl first) (recordOctets owner qtype ttl second) := by
      rw [← same]
      exact pairwise_sortedRdatas rdatas
    have inList : ∀ rdata ∈ rdatas, rdata ∈ canonicalRdatas rdatas := fun rdata rdataMem =>
      canonicalRdatas_perm.mem_iff.mpr (List.mem_dedup.mpr rdataMem)
    have ordered := rel_or_rel_of_pairwise (sorted.and pairwise_canonicalRdatas)
      (inList first firstMem) (inList second secondMem) different
    rcases ordered with ⟨-, before⟩ | ⟨behind, -⟩
    · cases decided : compare first second with
      | lt => rfl
      | eq => exact absurd (Std.LawfulEqOrd.eq_of_compare decided) different
      | gt => simp [bytesLe, decided] at before
    · rw [bytesLe, compare_recordOctets owner qtype ttl (short second secondMem)
        (short first firstMem), Nat.compare_eq_gt.mpr shorter] at behind
      cases behind
  · rintro ⟨distinct, inOrder⟩
    have agree : ∀ first ∈ rdatas, ∀ second ∈ rdatas,
        bytesLe (recordOctets owner qtype ttl first) (recordOctets owner qtype ttl second) ↔
          bytesLe first second := by
      intro first firstMem second secondMem
      rw [bytesLe, bytesLe, compare_recordOctets owner qtype ttl (short first firstMem)
        (short second secondMem)]
      cases lengths : compare first.length second.length with
      | lt =>
          have before := inOrder first firstMem second secondMem (Nat.compare_eq_lt.mp lengths)
          rw [before]
          rfl
      | eq => rfl
      | gt =>
          have before := inOrder second secondMem first firstMem (Nat.compare_eq_gt.mp lengths)
          rw [Std.OrientedCmp.gt_iff_lt.mpr before]
          rfl
    have mapped := List.map_insertionSort _ bytesLe id rdatas agree
    rw [List.map_id, List.map_id] at mapped
    rw [canonicalRdatas, distinct.dedup]
    exact mapped

end Sorted

/-! ## Telling records apart -/

theorem recordOctets_append_inj {owner other : Name} (ownerShort : AreShort owner)
    (otherShort : AreShort other) {qtype : UInt16} {ttl : UInt32} {first second : List UInt8}
    (firstShort : first.length < 2 ^ 16) (secondShort : second.length < 2 ^ 16)
    {rest later : List UInt8}
    (same : recordOctets (wireName owner) qtype ttl first ++ rest =
      recordOctets (wireName other) qtype ttl second ++ later) :
    owner = other ∧ first = second ∧ rest = later := by
  simp only [recordOctets, List.append_assoc] at same
  obtain ⟨rfl, fields⟩ := wireName_append_inj ownerShort otherShort same
  have sized := List.append_cancel_left (List.append_cancel_left (List.append_cancel_left fields))
  obtain ⟨lengths, datas⟩ := List.append_inj sized rfl
  have lengthEq : first.length = second.length := by
    rw [← DnsRecord.toNat_length_toUInt16 firstShort, ← DnsRecord.toNat_length_toUInt16 secondShort,
      ← beBytes16_inj lengths]
  obtain ⟨rfl, restEq⟩ := List.append_inj datas lengthEq
  exact ⟨rfl, rfl, restEq⟩

/-- The records that follow each other can be told from their octets. -/
theorem flatMap_recordOctets_inj {owner other : Name} (ownerShort : AreShort owner)
    (otherShort : AreShort other) {qtype : UInt16} {ttl : UInt32}
    {firsts seconds : List (List UInt8)} (firstsShort : ∀ rdata ∈ firsts, rdata.length < 2 ^ 16)
    (secondsShort : ∀ rdata ∈ seconds, rdata.length < 2 ^ 16)
    (same : firsts.flatMap (recordOctets (wireName owner) qtype ttl) =
      seconds.flatMap (recordOctets (wireName other) qtype ttl)) :
    firsts = seconds ∧ (firsts ≠ [] → owner = other) := by
  have some : ∀ (name : Name) (rdata rest : List UInt8),
      recordOctets (wireName name) qtype ttl rdata ++ rest ≠ [] := by
    simp [recordOctets, wireName]
  induction firsts generalizing seconds with
  | nil =>
      cases seconds with
      | nil => exact ⟨rfl, fun none => absurd rfl none⟩
      | cons second seconds => exact absurd same.symm (some _ _ _)
  | cons first firsts ih =>
      cases seconds with
      | nil => exact absurd same (some _ _ _)
      | cons second seconds =>
          rw [List.flatMap_cons, List.flatMap_cons] at same
          obtain ⟨rfl, rfl, later⟩ := recordOctets_append_inj ownerShort otherShort
            (firstsShort first (by simp)) (secondsShort second (by simp)) same
          obtain ⟨rfl, -⟩ := ih (fun rdata rdataMem => firstsShort rdata (by simp [rdataMem]))
            (fun rdata rdataMem => secondsShort rdata (by simp [rdataMem])) later
          exact ⟨rfl, fun _ => rfl⟩

/-! ## When the signed data are canonical -/

/-- The owner is the one that was signed: the RRSIG counts all its labels, but
for the asterisk of a wildcard. -/
def Unexpanded (labels : UInt8) (owner : Name) : Prop :=
  owner.length ≤ labels.toNat ∨
    ∃ suffix, owner = wildcardOf suffix ∧ suffix.length = labels.toNat

theorem signedOwner_eq_self_iff {labels : UInt8} {owner : Name} :
    signedOwner labels owner = owner ↔ Unexpanded labels owner := by
  rw [signedOwner, Unexpanded]
  split
  · rename_i fewer
    have suffixLength : (owner.drop (owner.length - labels.toNat)).length = labels.toNat := by
      rw [List.length_drop]
      omega
    constructor
    · intro same
      exact .inr ⟨_, same.symm, suffixLength⟩
    · rintro (all | ⟨suffix, rfl, length⟩)
      · omega
      · have one : (wildcardOf suffix).length - labels.toNat = 1 := by
          rw [wildcardOf, List.length_cons]
          omega
        rw [one]
        rfl
  · rename_i all
    exact iff_of_true rfl (.inl (by omega))

theorem AreShort.signedOwner {owner : Name} (short : AreShort owner) (labels : UInt8) :
    AreShort (signedOwner labels owner) := by
  rw [Numa.signedOwner]
  split
  · intro label labelMem
    rcases List.mem_cons.mp labelMem with rfl | later
    · decide
    · exact short label (List.mem_of_mem_drop later)
  · exact short

/-- What the records of an RRset and its RRSIG have to be like. -/
structure InCanonicalForm (sig : Rrsig) (owner : Name) (rrset : List DnsRecord)
    (rdatas : List (List UInt8)) : Prop where
  namesFit : NamesFit sig.signerName rrset
  unexpanded : Unexpanded sig.labels owner
  distinct : rdatas.Nodup
  lengthsInOrder : LengthsInOrder rdatas

/-- `build_signed_data` gives what the signature covers iff all names fit into a
buffer, the owner is the signed one, no record comes twice and shorter data
come first anyway. -/
theorem buildSignedData_canonical_iff {sig : Rrsig} {signer owner : Name} {qtype : QueryType}
    {rrset : List DnsRecord} {rdatas : List (List UInt8)} (signerLabels : AreLabels signer)
    (signed : sig.signerName = nameText signer) (isRrset : IsRrset owner qtype rrset rdatas) :
    buildSignedData (.rrsig sig) rrset =
        some (canonicalSignedData sig signer owner qtype rdatas) ↔
      InCanonicalForm sig owner rrset rdatas := by
  have short := isRrset.short
  have ownerShort : AreShort owner := fun label labelMem =>
    ⟨(isRrset.areLabels label labelMem).1, (isRrset.areLabels label labelMem).2.1⟩
  rw [buildSignedData_eq_some_iff signerLabels signed isRrset, ← map_sortedRdatas,
    ← List.flatMap_def, canonicalSignedData, List.append_cancel_left_eq]
  constructor
  · rintro ⟨same, namesFit⟩
    obtain ⟨sorted, owners⟩ := flatMap_recordOctets_inj (ownerShort.signedOwner sig.labels)
      ownerShort (fun rdata rdataMem => short rdata (by
        simpa using canonicalRdatas_perm.mem_iff.mp rdataMem))
      (fun rdata rdataMem => short rdata (mem_sortedRdatas.mp rdataMem)) same
    obtain ⟨distinct, lengthsInOrder⟩ := (sortedRdatas_eq_iff short).mp sorted.symm
    obtain ⟨rdata, rdataMem⟩ := List.exists_mem_of_ne_nil _ isRrset.rdatas_ne_nil
    have some : canonicalRdatas rdatas ≠ [] :=
      List.ne_nil_of_mem (canonicalRdatas_perm.mem_iff.mpr (List.mem_dedup.mpr rdataMem))
    exact ⟨namesFit, signedOwner_eq_self_iff.mp (owners some), distinct, lengthsInOrder⟩
  · intro canonical
    refine ⟨?_, canonical.namesFit⟩
    rw [signedOwner_eq_self_iff.mpr canonical.unexpanded, (sortedRdatas_eq_iff short).mpr
      ⟨canonical.distinct, canonical.lengthsInOrder⟩]

/-! ## What does not matter -/

/-- The same records in any order and with any TTLs. -/
def SameRecords (rrset other : List DnsRecord) : Prop :=
  (rrset.map (DnsRecord.withTtl 0)).Perm (other.map (DnsRecord.withTtl 0))

/-- The signed data do not depend on the order and the TTLs of the records. -/
theorem buildSignedData_eq_of_sameRecords {rrset other : List DnsRecord}
    (same : SameRecords rrset other) (sig : Rrsig) :
    buildSignedData (.rrsig sig) other = buildSignedData (.rrsig sig) rrset := by
  rw [buildSignedData, buildSignedData,
    ← mapM_recordToCanonicalWire_withTtl 0 sig.originalTtl other,
    ← mapM_recordToCanonicalWire_withTtl 0 sig.originalTtl rrset]
  cases ran : (rrset.map (DnsRecord.withTtl 0)).mapM (recordToCanonicalWire sig.originalTtl) with
  | some results =>
      obtain ⟨permuted, ranPermuted, perm⟩ := mapM_perm same ran
      have sorted : results.insertionSort bytesLe = permuted.insertionSort bytesLe := by
        refine List.Perm.eq_of_pairwise' (List.pairwise_insertionSort _ _)
          (List.pairwise_insertionSort _ _) ?_
        exact (List.perm_insertionSort _ _).trans (perm.trans (List.perm_insertionSort _ _).symm)
      simp only [ranPermuted, Option.bind_eq_bind, Option.bind_some, sorted]
  | none =>
      have none : (other.map (DnsRecord.withTtl 0)).mapM
          (recordToCanonicalWire sig.originalTtl) = none := by
        rw [Option.eq_none_iff_forall_ne_some]
        intro permuted ranPermuted
        obtain ⟨results, ranResults, -⟩ := mapM_perm same.symm ranPermuted
        cases ran.symm.trans ranResults
      rw [none]

/-- The signed data of an RRset, whatever the order and the TTLs in which its
records were received, are canonical iff the RRset is in canonical form. -/
theorem buildSignedData_canonical {sig : Rrsig} {signer owner : Name} {qtype : QueryType}
    {rrset : List DnsRecord} {rdatas : List (List UInt8)} (signerLabels : AreLabels signer)
    (signed : sig.signerName = nameText signer) (isRrset : IsRrset owner qtype rrset rdatas) :
    (buildSignedData (.rrsig sig) rrset =
        some (canonicalSignedData sig signer owner qtype rdatas) ↔
      InCanonicalForm sig owner rrset rdatas) ∧
    ∀ other, SameRecords rrset other →
      buildSignedData (.rrsig sig) other = buildSignedData (.rrsig sig) rrset :=
  ⟨buildSignedData_canonical_iff signerLabels signed isRrset,
    fun _ same => buildSignedData_eq_of_sameRecords same sig⟩

/-- A signature over the MX records of `a`. -/
def mailSig : Rrsig where
  domain := text "a"
  typeCovered := 15
  algorithm := 13
  labels := 1
  originalTtl := 300
  expiration := 2
  inception := 1
  keyTag := 7
  signerName := text "a"
  signature := []
  ttl := 300

/-- The host with the shorter name has the higher preference value. -/
def mailRrset : List DnsRecord :=
  [.mx (text "a") 20 (text "b") 300, .mx (text "a") 10 (text "bc") 300]

def mailRdatas : List (List UInt8) :=
  [[0, 20, 1, 0x62, 0], [0, 10, 2, 0x62, 0x63, 0]]

theorem isRrset_mailRrset : IsRrset [[0x61]] .mx mailRrset mailRdatas where
  areLabels := by decide
  nonempty := by decide
  records := by
    have single : AreShort [[0x62]] := by decide
    have double : AreShort [[0x62, 0x63]] := by decide
    have owner : ∃ received, lowercaseName received = [[0x61]] ∧ text "a" = nameText received :=
      ⟨[[0x61]], by decide, by decide⟩
    exact .cons ⟨owner, rfl, .mx (text "a") 20 single 300, by decide⟩
      (.cons ⟨owner, rfl, .mx (text "a") 10 double 300, by decide⟩ .nil)

theorem buildSignedData_mailRrset :
    buildSignedData (.rrsig mailSig) mailRrset ≠
        some (canonicalSignedData mailSig [[0x61]] [[0x61]] .mx mailRdatas) ∧
      buildSignedData (.rrsig mailSig) mailRrset.reverse =
        buildSignedData (.rrsig mailSig) mailRrset := by
  have signerLabels : AreLabels [[0x61]] := by decide
  have signed : mailSig.signerName = nameText [[0x61]] := by decide
  obtain ⟨canonical, independent⟩ :=
    buildSignedData_canonical signerLabels signed isRrset_mailRrset
  refine ⟨fun same => ?_, independent _ ?_⟩
  · have inOrder := (canonical.mp same).lengthsInOrder [0, 20, 1, 0x62, 0] (by decide)
      [0, 10, 2, 0x62, 0x63, 0] (by decide) (by decide)
    exact absurd inOrder (by decide)
  · exact (List.reverse_perm mailRrset).symm.map _

/-- Of two MX records, the one with the shorter host is put first. -/
theorem not_all_canonicalSignedData :
    ¬ ∀ (sig : Rrsig) (signer owner : Name) (qtype : QueryType) (rrset : List DnsRecord)
      (rdatas : List (List UInt8)), AreLabels signer → sig.signerName = nameText signer →
      IsRrset owner qtype rrset rdatas → buildSignedData (.rrsig sig) rrset =
        some (canonicalSignedData sig signer owner qtype rdatas) := by
  intro all
  have same := all mailSig [[0x61]] [[0x61]] .mx mailRrset mailRdatas (by decide) (by decide)
    isRrset_mailRrset
  exact absurd same (by decide +kernel)

end Numa
