import Mathlib.Data.Bool.AllAny
import Mathlib.Data.List.Infix
import Numa.LanServices
import Numa.NameWriter
import Numa.PacketRoundTrip
import Numa.Svcb

/-!
# Discovery of peers

`lan.rs` announces the services of a host in a message with four records, and
reads such messages from others.  The strings of a TXT record have at most 255
octets, so a longer text is announced in several of them, each of which is read
for itself.
-/

namespace Numa

open BytePacketBuffer

/-! ## Announcements -/

/-- What an announcement says about the host.  The other fields of the health
metadata are left out. -/
structure HealthMeta where
  version : String
  dotEnabled : Bool
  dotPort : UInt16
  apiPort : UInt16
  caFingerprintSha256 : Option String

/-- `SERVICE_TYPE`. -/
def serviceType : String := "_numa._tcp.local"

/-- `MDNS_TTL`. -/
def mdnsTtl : UInt32 := 120

/-- `TXT_SERVICES`. -/
def txtServices : String := "services="

/-- `TXT_ID`. -/
def txtId : String := "id="

def writeRecordHeader (name : String) (rtype recordClass : UInt16) (ttl : UInt32) :
    BufferM Unit := do
  writeQname (text name)
  writeU16 rtype
  writeU16 recordClass
  writeU32 ttl

/-- `bytes.chunks(255)`. -/
def txtChunks (octets : List UInt8) : List (List UInt8) :=
  if octets = [] then [] else octets.take 255 :: txtChunks (octets.drop 255)
termination_by octets.length
decreasing_by
  rw [List.length_drop]
  have positive := List.length_pos_of_ne_nil ‹octets ≠ []›
  omega

def writeTxtString (val : String) : BufferM Unit :=
  (txtChunks (text val)).forM fun chunk => do
    write chunk.length.toUInt8
    chunk.forM write

/-- The strings for the companion apps. -/
def metaStrings (health : HealthMeta) : List String :=
  ["version=" ++ health.version, "api_port=" ++ toString health.apiPort.toNat] ++
    (if health.dotEnabled then
      ["proto=dot", "dot_port=" ++ toString health.dotPort.toNat]
    else ["proto=plain"]) ++
    health.caFingerprintSha256.toList.map ("ca_fp=" ++ ·)

def announcedStrings (services : List (String × UInt16)) (instId : String) (health : HealthMeta) :
    List String :=
  [txtServices ++ servicesText services, txtId ++ instId] ++ metaStrings health

/-- `header.response`, `authoritative_answer` and the four answers. -/
def announcementHeader : DnsHeader where
  response := true
  authoritativeAnswer := true
  answers := 4

def instanceName (hostname : String) : String :=
  hostname ++ "._numa._tcp.local"

def hostLocal (hostname : String) : String :=
  hostname ++ ".local"

section Build

variable (hostname : String) (ip : Ipv4Addr) (services : List (String × UInt16)) (instId : String)
  (health : HealthMeta)

def writeAnnouncement : BufferM Unit := do
  announcementHeader.write
  writeRecordHeader serviceType QueryType.ptr.toNum 1 mdnsTtl
  DnsRecord.writePatched (writeQname (text (instanceName hostname)))
  writeRecordHeader (instanceName hostname) QueryType.srv.toNum 0x8001 mdnsTtl
  DnsRecord.writePatched do
    writeU16 0
    writeU16 0
    writeU16 health.apiPort
    writeQname (text (hostLocal hostname))
  writeRecordHeader (instanceName hostname) QueryType.txt.toNum 0x8001 mdnsTtl
  DnsRecord.writePatched ((announcedStrings services instId health).forM writeTxtString)
  writeRecordHeader (hostLocal hostname) QueryType.a.toNum 0x8001 mdnsTtl
  writeU16 4
  ip.toList.forM write

/-- The octets of the announcement. -/
def buildAnnouncement : Except BufferError (List UInt8) :=
  match exec (writeAnnouncement hostname ip services instId health) .new with
  | (.ok _, buffer) => .ok buffer.filled
  | (.error error, _) => .error error

end Build

/-! ## Reading messages -/

structure MdnsAnnouncement where
  services : List (String × UInt16)
  peerIp : IpAddr
  instanceId : Option String
  deriving DecidableEq

/-- What the records read so far say. -/
structure PeerRecords where
  services : Option (List (String × UInt16)) := none
  instanceId : Option String := none
  ip : Option IpAddr := none

/-- `str::strip_prefix`. -/
def stripPrefix (start val : String) : Option String :=
  if start.toList <+: val.toList then some (String.ofList (val.toList.drop start.toList.length))
  else none

/-- The services that a string of a TXT record announces. -/
def txtServicesOf (octets : List UInt8) : Option (List (String × UInt16)) := do
  let txt ← String.fromUTF8? octets.toByteArray
  let val ← stripPrefix txtServices txt
  let services := readServices val
  if services = [] then none else some services

/-- The instance that a string of a TXT record names. -/
def txtIdOf (octets : List UInt8) : Option String := do
  let txt ← String.fromUTF8? octets.toByteArray
  match stripPrefix txtServices txt with
  | some _ => none
  | none => stripPrefix txtId txt

/-- A string of a TXT record replaces what was read before. -/
def PeerRecords.readTxtString (found : PeerRecords) (octets : List UInt8) : PeerRecords where
  services := (txtServicesOf octets).or found.services
  instanceId := (txtIdOf octets).or found.instanceId
  ip := found.ip

/-- The strings of the record data between two positions of a message, as long
as they end within the message. -/
def txtStrings (data : List UInt8) (stop : Nat) : (left pos : Nat) → List (List UInt8)
  | 0, _ => []
  | left + 1, pos =>
    if pos < stop ∧ pos < data.length then
      let txtLen := (data.getD pos 0).toNat
      if data.length < pos + 1 + txtLen then []
      else (data.drop (pos + 1)).take txtLen :: txtStrings data stop left (pos + 1 + txtLen)
    else []

/-- The data of one record. -/
def PeerRecords.readRdata (found : PeerRecords) (data : List UInt8) (name : Text)
    (rtype : UInt16) (rdlength rdataStart : Nat) : PeerRecords :=
  if rtype = QueryType.txt.toNum ∧ text "_numa._tcp" <:+: name then
    (txtStrings data (rdataStart + rdlength) rdlength rdataStart).foldl readTxtString found
  else if rtype = QueryType.a.toNum ∧ rdlength = 4 ∧ rdataStart + 4 ≤ data.length then
    { found with
      ip := some (.v4 #v[data.getD rdataStart 0, data.getD (rdataStart + 1) 0,
        data.getD (rdataStart + 2) 0, data.getD (rdataStart + 3) 0]) }
  else found

/-- `Result::ok`. -/
def attempt {α : Type} (action : BufferM α) : BufferM (Option α) :=
  tryCatch (some <$> action) fun _ => pure none

/-- The name, the type and the data length of a record, if it has a name. -/
def readRecordHead : BufferM (Option (Text × UInt16 × Nat)) := do
  match ← attempt readQname with
  | none => pure none
  | some name =>
    let rtype ← attempt readU16
    let _ ← attempt readU16
    let _ ← attempt readU32
    let rdlength ← attempt readU16
    pure (some (name, rtype.getD 0, (rdlength.getD 0).toNat))

/-- The records of a message, up to one without a name. -/
def readRecords (data : List UInt8) : Nat → PeerRecords → BufferM PeerRecords
  | 0, found => pure found
  | left + 1, found => do
    if data.length ≤ (← get).pos then pure found
    else
      match ← readRecordHead with
      | none => pure found
      | some (name, rtype, rdlength) =>
        let rdataStart := (← get).pos
        seek (rdataStart + rdlength)
        readRecords data left (found.readRdata data name rtype rdlength rdataStart)

/-- The records of a response, if the message is one with answers. -/
def readResponse (data : List UInt8) : BufferM (Option PeerRecords) := do
  let header ← DnsHeader.read
  if header.response = false ∨ header.answers = 0 then pure none
  else
    let _ ← readMany DnsQuestion.read header.questions.toNat
    let total := header.answers + header.authoritativeEntries + header.resourceEntries
    some <$> readRecords data total.toNat {}

/-- `parse_mdns_response`, of a message that fits into the buffer. -/
def parseMdnsResponse (data : List UInt8) : Option MdnsAnnouncement :=
  if data.length < 12 then none
  else
    match exec (readResponse data) (.fromBytes data) with
    | (.ok (some found), _) => do
      let services ← found.services
      let peerIp ← found.ip
      some ⟨services, peerIp, found.instanceId⟩
    | _ => none

/-! ## The strings of a TXT record -/

/-- The data of a TXT record with these strings. -/
def txtRdata (strings : List (List UInt8)) : List UInt8 :=
  strings.flatMap fun string => string.length.toUInt8 :: string

theorem length_le_of_mem_txtChunks {octets chunk : List UInt8} (chunkMem : chunk ∈ txtChunks octets) :
    chunk.length ≤ 255 := by
  induction octets using txtChunks.induct with
  | case1 => simp [txtChunks] at chunkMem
  | case2 octets nonempty ih =>
      rw [txtChunks, if_neg nonempty, List.mem_cons] at chunkMem
      rcases chunkMem with rfl | later
      · exact (List.length_take_le 255 octets)
      · exact ih later

theorem txtChunks_of_short {octets : List UInt8} (nonempty : octets ≠ [])
    (short : octets.length ≤ 255) : txtChunks octets = [octets] := by
  rw [txtChunks, if_neg nonempty, List.take_of_length_le short, List.drop_eq_nil_of_le short,
    txtChunks, if_pos rfl]

theorem writes_writeTxtString (val : String) :
    Writes (writeTxtString val) (txtRdata (txtChunks (text val))) := by
  apply writes_forM
  intro chunk _
  have octets : Writes (chunk.forM write) chunk := by
    have each : Writes (chunk.forM write) (chunk.flatMap fun octet => [octet]) :=
      writes_forM fun octet _ => writes_write octet
    rwa [List.flatMap_singleton'] at each
  exact (writes_write _).bind fun _ => octets

/-- The strings of some data are read from wherever the data lie. -/
theorem txtStrings_of_prefix {data : List UInt8} {strings : List (List UInt8)} {pos left : Nat}
    (short : ∀ string ∈ strings, string.length ≤ 255)
    (ahead : txtRdata strings <+: data.drop pos) (enough : (txtRdata strings).length ≤ left) :
    txtStrings data (pos + (txtRdata strings).length) left pos = strings := by
  induction strings generalizing pos left with
  | nil =>
      cases left with
      | zero => rfl
      | succ left => simp [txtStrings, txtRdata]
  | cons string strings ih =>
      have split : txtRdata (string :: strings) =
          string.length.toUInt8 :: string ++ txtRdata strings := by
        simp [txtRdata]
      obtain ⟨left, rfl⟩ : ∃ fewer, left = fewer + 1 := by
        rw [split, List.cons_append, List.length_cons] at enough
        exact ⟨left - 1, by omega⟩
      obtain ⟨rest, dataEq⟩ := ahead
      rw [split] at dataEq enough ⊢
      have lengthEq := DnsRecord.toNat_length_toUInt8 (short string (by simp))
      have lengths := congrArg List.length dataEq
      simp only [List.cons_append, List.length_cons, List.length_append, List.length_drop]
        at lengths enough
      have first : data.getD pos 0 = string.length.toUInt8 := by
        have head := congrArg (fun octets => octets.getD 0 0) dataEq
        simpa [List.getD_eq_getElem?_getD, List.getElem?_drop] using head.symm
      have behind : data.drop (pos + 1) = string ++ (txtRdata strings ++ rest) := by
        rw [← List.drop_drop, ← dataEq]
        simp
      have later : txtRdata strings <+: data.drop (pos + 1 + string.length) := by
        rw [← List.drop_drop, behind, List.drop_left]
        exact List.prefix_append _ _
      have ended : pos + (string.length.toUInt8 :: string ++ txtRdata strings).length =
          pos + 1 + string.length + (txtRdata strings).length := by
        simp only [List.cons_append, List.length_cons, List.length_append]
        omega
      rw [txtStrings, if_pos ⟨by simp, by omega⟩, ended]
      simp only [first, lengthEq]
      rw [if_neg (by omega), behind, List.take_left' rfl,
        ih (fun other otherMem => short other (by simp [otherMem])) later (by omega)]

/-! ## What the strings say -/

theorem fromUTF8?_text (val : String) : String.fromUTF8? (text val).toByteArray = some val := by
  have octets : (text val).toByteArray = val.toByteArray := by
    apply ByteArray.ext
    rw [List.data_toByteArray, text, String.toUTF8_eq_toByteArray]
  rw [octets, String.fromUTF8?, dif_pos val.isValidUTF8]
  rfl

theorem text_of_fromUTF8? {octets : List UInt8} {val : String}
    (decoded : String.fromUTF8? octets.toByteArray = some val) : text val = octets := by
  unfold String.fromUTF8? at decoded
  split at decoded
  · cases decoded
    rw [text, String.toUTF8_eq_toByteArray]
    exact List.toList_data_toByteArray
  · cases decoded

theorem stripPrefix_append (start val : String) : stripPrefix start (start ++ val) = some val := by
  rw [stripPrefix, String.toList_append, if_pos (List.prefix_append _ _), List.drop_left,
    String.ofList_toList]

theorem eq_append_of_stripPrefix {start val rest : String}
    (stripped : stripPrefix start val = some rest) : val = start ++ rest := by
  unfold stripPrefix at stripped
  split at stripped
  · rename_i isPrefix
    cases stripped
    obtain ⟨behind, valEq⟩ := isPrefix
    rw [← String.toList_inj, String.toList_append, ← valEq, List.drop_left, String.toList_ofList]
  · cases stripped

/-- A string that names an instance announces no services. -/
theorem stripPrefix_txtServices_txtId (instId : String) :
    stripPrefix txtServices (txtId ++ instId) = none := by
  rw [stripPrefix, if_neg]
  rw [String.toList_append]
  rintro ⟨rest, same⟩
  exact absurd (List.cons.inj same).1 (by decide)

theorem txtServicesOf_text {services : List (String × UInt16)} (nonempty : services ≠ [])
    (plain : ∀ service ∈ services, ',' ∉ service.1.toList ∧ ':' ∉ service.1.toList) :
    txtServicesOf (text (txtServices ++ servicesText services)) = some services := by
  simp [txtServicesOf, fromUTF8?_text, stripPrefix_append,
    readServices_servicesText nonempty plain, nonempty]

theorem txtServicesOf_id (instId : String) : txtServicesOf (text (txtId ++ instId)) = none := by
  simp [txtServicesOf, fromUTF8?_text, stripPrefix_txtServices_txtId]

theorem txtIdOf_text (instId : String) : txtIdOf (text (txtId ++ instId)) = some instId := by
  simp [txtIdOf, fromUTF8?_text, stripPrefix_txtServices_txtId, stripPrefix_append]

/-- A string that announces some services has the octets to do so. -/
theorem length_le_of_txtServicesOf {octets : List UInt8} {services : List (String × UInt16)}
    (announced : txtServicesOf octets = some services) :
    (text (txtServices ++ servicesText services)).length ≤ octets.length := by
  obtain ⟨txt, decoded, rest⟩ := Option.bind_eq_some_iff.mp announced
  obtain ⟨val, stripped, read⟩ := Option.bind_eq_some_iff.mp rest
  dsimp only at read
  split at read
  · cases read
  · cases read
    have shorter := length_servicesText_le val
    rw [← text_of_fromUTF8? decoded, eq_append_of_stripPrefix stripped]
    simp only [length_text, String.toList_append, octetCount_append] at shorter ⊢
    omega

theorem eq_of_txtIdOf {octets : List UInt8} {instId : String}
    (named : txtIdOf octets = some instId) : octets = text (txtId ++ instId) := by
  obtain ⟨txt, decoded, rest⟩ := Option.bind_eq_some_iff.mp named
  split at rest
  · cases rest
  · rw [← text_of_fromUTF8? decoded, eq_append_of_stripPrefix rest]

/-- What the last string says that says something. -/
def lastSaid {α : Type} (say : List UInt8 → Option α) (strings : List (List UInt8)) : Option α :=
  strings.reverse.findSome? say

theorem lastSaid_append {α : Type} (say : List UInt8 → Option α)
    (first second : List (List UInt8)) :
    lastSaid say (first ++ second) = (lastSaid say second).or (lastSaid say first) := by
  rw [lastSaid, List.reverse_append, List.findSome?_append]
  rfl

theorem exists_mem_of_lastSaid {α : Type} {say : List UInt8 → Option α}
    {strings : List (List UInt8)} {value : α} (said : lastSaid say strings = some value) :
    ∃ string ∈ strings, say string = some value := by
  obtain ⟨string, stringMem, isValue⟩ := List.exists_of_findSome?_eq_some said
  exact ⟨string, List.mem_reverse.mp stringMem, isValue⟩

theorem foldl_readTxtString (found : PeerRecords) (strings : List (List UInt8)) :
    strings.foldl PeerRecords.readTxtString found =
      { services := (lastSaid txtServicesOf strings).or found.services
        instanceId := (lastSaid txtIdOf strings).or found.instanceId
        ip := found.ip } := by
  induction strings using List.reverseRecOn with
  | nil => rfl
  | append_singleton strings string ih =>
      rw [List.foldl_append, ih, List.foldl_cons, List.foldl_nil, lastSaid_append, lastSaid_append]
      simp [PeerRecords.readTxtString, lastSaid, Option.or_assoc]

/-- The strings of the health metadata as they are announced. -/
def metaChunks (health : HealthMeta) : List (List UInt8) :=
  (metaStrings health).flatMap fun val => txtChunks (text val)

/-- The services and the instance take one string each, and the strings of the
health metadata do not say otherwise. -/
structure OneStringEach (services : List (String × UInt16)) (instId : String)
    (health : HealthMeta) : Prop where
  shortServices : (text (txtServices ++ servicesText services)).length ≤ 255
  shortId : (text (txtId ++ instId)).length ≤ 255
  otherServices : ∀ others, lastSaid txtServicesOf (metaChunks health) = some others →
    others = services
  otherId : ∀ other, lastSaid txtIdOf (metaChunks health) = some other → other = instId

/-- The strings of an announcement. -/
def announcedChunks (services : List (String × UInt16)) (instId : String) (health : HealthMeta) :
    List (List UInt8) :=
  (announcedStrings services instId health).flatMap fun val => txtChunks (text val)

section Said

variable {services : List (String × UInt16)} {instId : String} {health : HealthMeta}

theorem length_le_of_mem_announcedChunks {chunk : List UInt8}
    (chunkMem : chunk ∈ announcedChunks services instId health) : chunk.length ≤ 255 := by
  obtain ⟨val, -, isChunk⟩ := List.mem_flatMap.mp chunkMem
  exact length_le_of_mem_txtChunks isChunk

theorem announcedChunks_of_short
    (shortServices : (text (txtServices ++ servicesText services)).length ≤ 255)
    (shortId : (text (txtId ++ instId)).length ≤ 255) :
    announcedChunks services instId health =
      [text (txtServices ++ servicesText services), text (txtId ++ instId)] ++
        metaChunks health := by
  have isServices : text (txtServices ++ servicesText services) ≠ [] := by
    rw [text_eq_flatMap, String.toList_append]
    exact List.cons_ne_nil _ _
  have isId : text (txtId ++ instId) ≠ [] := by
    rw [text_eq_flatMap, String.toList_append]
    exact List.cons_ne_nil _ _
  simp only [announcedChunks, announcedStrings, metaChunks, List.flatMap_append, List.flatMap_cons,
    List.flatMap_nil, txtChunks_of_short isServices shortServices,
    txtChunks_of_short isId shortId]
  rfl

theorem lastSaid_announcedChunks_iff (nonempty : services ≠ [])
    (plain : ∀ service ∈ services, ',' ∉ service.1.toList ∧ ':' ∉ service.1.toList) :
    lastSaid txtServicesOf (announcedChunks services instId health) = some services ∧
        lastSaid txtIdOf (announcedChunks services instId health) = some instId ↔
      OneStringEach services instId health := by
  have spoken : ∀ (shortServices : (text (txtServices ++ servicesText services)).length ≤ 255)
      (shortId : (text (txtId ++ instId)).length ≤ 255),
      lastSaid txtServicesOf (announcedChunks services instId health) =
          (lastSaid txtServicesOf (metaChunks health)).or (some services) ∧
        lastSaid txtIdOf (announcedChunks services instId health) =
          (lastSaid txtIdOf (metaChunks health)).or (some instId) := by
    intro shortServices shortId
    rw [announcedChunks_of_short shortServices shortId, lastSaid_append, lastSaid_append]
    constructor
    · simp [lastSaid, txtServicesOf_id, txtServicesOf_text nonempty plain]
    · simp [lastSaid, txtIdOf_text]
  constructor
  · rintro ⟨saidServices, saidId⟩
    obtain ⟨first, firstMem, announces⟩ := exists_mem_of_lastSaid saidServices
    obtain ⟨second, secondMem, names⟩ := exists_mem_of_lastSaid saidId
    have shortServices := (length_le_of_txtServicesOf announces).trans
      (length_le_of_mem_announcedChunks firstMem)
    have shortId := length_le_of_mem_announcedChunks secondMem
    rw [eq_of_txtIdOf names] at shortId
    obtain ⟨isServices, isId⟩ := spoken shortServices shortId
    refine ⟨shortServices, shortId, ?_, ?_⟩
    · intro others said
      rw [isServices, said] at saidServices
      exact Option.some.inj saidServices
    · intro other said
      rw [isId, said] at saidId
      exact Option.some.inj saidId
  · intro each
    obtain ⟨isServices, isId⟩ := spoken each.shortServices each.shortId
    rw [isServices, isId]
    constructor
    · cases said : lastSaid txtServicesOf (metaChunks health) with
      | none => rfl
      | some others => rw [each.otherServices others said, Option.some_or]
    · cases said : lastSaid txtIdOf (metaChunks health) with
      | none => rfl
      | some other => rw [each.otherId other said, Option.some_or]

end Said

/-! ## Records on the wire -/

/-- A record of an announcement. -/
structure MdnsRecord where
  owner : List (List UInt8)
  rtype : UInt16
  recordClass : UInt16
  rdata : List UInt8

/-- The octets before the data of a record. -/
def MdnsRecord.head (record : MdnsRecord) : List UInt8 :=
  wireName record.owner ++ (beBytes16 record.rtype ++ (beBytes16 record.recordClass ++
    (beBytes32 mdnsTtl ++ beBytes16 record.rdata.length.toUInt16)))

def MdnsRecord.octets (record : MdnsRecord) : List UInt8 :=
  record.head ++ record.rdata

/-- The name of the record can stand on the wire, and its length is not cut
off. -/
structure MdnsRecord.Fits (record : MdnsRecord) : Prop where
  owner : ∀ label ∈ record.owner, label ≠ [] ∧ label.length ≤ 63
  rdata : record.rdata.length < 2 ^ 16

theorem exec_attempt {α : Type} {action : BufferM α} {buffer after : BytePacketBuffer} {value : α}
    (ran : exec action buffer = (.ok value, after)) :
    exec (attempt action) buffer = (.ok (some value), after) := by
  have result : action buffer = (.ok value, after) := ran
  simp only [exec, attempt, tryCatch, tryCatchThe, MonadExceptOf.tryCatch, ExceptT.tryCatch,
    Functor.map, ExceptT.map, ExceptT.run, ExceptT.mk, bind, StateT.bind, result]
  rfl

theorem readsAt_attempt {α : Type} {action : BufferM α} {pos : Nat} {octets : List UInt8}
    {value : α} (reads : ReadsAt pos action octets value) :
    ReadsAt pos (attempt action) octets (some value) :=
  fun buffer posEq ahead => exec_attempt (reads buffer posEq ahead)

theorem readsAt_readRecordHead {record : MdnsRecord} (fits : record.Fits) (pos : Nat) :
    ReadsAt pos readRecordHead record.head
      (some (nameText record.owner, record.rtype, record.rdata.length)) := by
  have reads : ReadsAt pos readRecordHead record.head _ :=
    (readsAt_attempt (readsAt_readQname_of_short fits.owner)).bind
      ((readsAt_attempt (readsAt_readU16 record.rtype)).bind
        ((readsAt_attempt (readsAt_readU16 record.recordClass)).bind
          ((readsAt_attempt (readsAt_readU32 mdnsTtl)).bind
            ((readsAt_attempt (readsAt_readU16 record.rdata.length.toUInt16)).map _))))
  simp only [Option.getD_some, DnsRecord.toNat_length_toUInt16 fits.rdata] at reads
  exact reads

theorem ahead_of_prefix {data octets : List UInt8} {buffer : BytePacketBuffer} {pos : Nat}
    (fits : data.length ≤ bufSize) (bufEq : buffer.buf = (fromBytes data).buf)
    (inside : pos ≤ data.length) (isPrefix : octets <+: data.drop pos) : Ahead buffer pos octets where
  inside := by
    have shorter := isPrefix.length_le
    rw [List.length_drop] at shorter
    omega
  isPrefix := by
    have paddedEq : (fromBytes data).buf = data ++ List.replicate (bufSize - data.length) 0 := by
      simp [fromBytes, List.take_of_length_le fits]
    rw [bufEq, paddedEq, List.drop_append_of_le_length inside]
    exact isPrefix.trans (List.prefix_append _ _)

/-- The records of a message are read one after the other. -/
theorem exec_readRecords {data : List UInt8} (dataFits : data.length ≤ bufSize)
    {update : MdnsRecord → PeerRecords → PeerRecords} {records : List MdnsRecord}
    (fit : ∀ record ∈ records, record.Fits)
    (updates : ∀ record ∈ records, ∀ start found, record.rdata <+: data.drop start →
      found.readRdata data (nameText record.owner) record.rtype record.rdata.length start =
        update record found)
    {buffer : BytePacketBuffer} (bufEq : buffer.buf = (fromBytes data).buf)
    (ahead : records.flatMap MdnsRecord.octets <+: data.drop buffer.pos)
    (found : PeerRecords) :
    (exec (readRecords data records.length found) buffer).1 =
      .ok (records.foldl (fun found record => update record found) found) := by
  induction records generalizing buffer found with
  | nil => rfl
  | cons record records ih =>
      obtain ⟨rest, dataEq⟩ := ahead
      have split : data.drop buffer.pos =
          record.head ++ (record.rdata ++ (records.flatMap MdnsRecord.octets ++ rest)) := by
        rw [← dataEq, List.flatMap_cons, MdnsRecord.octets]
        simp only [List.append_assoc]
      have headPos : 0 < record.head.length := by
        have named := length_wireName_pos record.owner
        rw [MdnsRecord.head, List.length_append]
        omega
      have lengths := congrArg List.length split
      simp only [List.length_drop, List.length_append] at lengths
      have behind : data.drop (buffer.pos + record.head.length) =
          record.rdata ++ (records.flatMap MdnsRecord.octets ++ rest) := by
        rw [← List.drop_drop, split, List.drop_left]
      have headAhead : Ahead buffer buffer.pos record.head :=
        ahead_of_prefix dataFits bufEq (by omega) (split ▸ List.prefix_append _ _)
      have ran := readsAt_readRecordHead (fit record (by simp)) buffer.pos buffer rfl headAhead
      have updated := updates record (by simp) (buffer.pos + record.head.length) found
        (behind ▸ List.prefix_append _ _)
      have later : records.flatMap MdnsRecord.octets <+:
          data.drop (buffer.pos + record.head.length + record.rdata.length) := by
        rw [← List.drop_drop, behind, List.drop_left]
        exact List.prefix_append _ _
      rw [List.length_cons, readRecords, exec_get_bind, if_neg (by omega), exec_bind_ok ran,
        List.foldl_cons, ← updated]
      let seeked : BytePacketBuffer :=
        { buffer with pos := buffer.pos + record.head.length + record.rdata.length }
      have seekedBuf : seeked.buf = (fromBytes data).buf := bufEq
      exact ih (fun other otherMem => fit other (by simp [otherMem]))
        (fun other otherMem => updates other (by simp [otherMem])) seekedBuf later _

/-! ## The name of the announced instance -/

/-- A name that contains the service type contains it behind more labels. -/
theorem infix_nameText_append {part : Text} (first : List (List UInt8)) {later : List (List UInt8)}
    (inLater : part <:+: nameText later) : part <:+: nameText (first ++ later) := by
  by_cases noFirst : first = []
  · rwa [noFirst, List.nil_append]
  · by_cases noLater : later = []
    · rw [noLater, nameText_nil, List.infix_nil] at inLater
      rw [inLater]
      exact List.nil_infix
    · rw [nameText_append noFirst noLater]
      exact inLater.trans ((List.suffix_cons dot _).trans (List.suffix_append _ _)).isInfix

/-- Octets that are neither dots nor escapes go on with the label. -/
theorem labelsFrom_of_plain {plain rest : Text} {label : List UInt8} {labels : List (List UInt8)}
    (isPlain : ∀ octet ∈ plain, octet ≠ dot ∧ octet ≠ backslash)
    (found : labelsFrom label (plain ++ rest) = some labels) :
    labelsFrom (label ++ plain) rest = some labels := by
  induction plain generalizing label with
  | nil => rwa [List.append_nil]
  | cons octet plain ih =>
      obtain ⟨notDot, notEscape⟩ := isPlain octet (by simp)
      rw [List.cons_append, labelsFrom.eq_def] at found
      simp only [notDot, notEscape, if_false] at found
      obtain ⟨longer, pushed, foundRest⟩ := Option.bind_eq_some_iff.mp found
      obtain ⟨-, rfl⟩ := pushOctet_eq_some.mp pushed
      rw [List.append_cons]
      exact ih (fun other otherMem => isPlain other (by simp [otherMem])) foundRest

/-- The service type behind a label that has begun. -/
theorem infix_of_labelsFrom_serviceType {label : List UInt8} {labels : List (List UInt8)}
    (found : labelsFrom label (text serviceType) = some labels) :
    text "_numa._tcp" <:+: nameText labels := by
  have split : text serviceType = text "_numa" ++ dot :: text "_tcp.local" := by decide
  have later : labelsFrom [] (text "_tcp.local") = some [text "_tcp", text "local"] := by decide
  have longer : label ++ text "_numa" ≠ [] := fun empty =>
    absurd (List.append_eq_nil_iff.mp empty).2 (by decide)
  have plain : ∀ octet ∈ text "_numa", octet ≠ dot ∧ octet ≠ backslash :=
    List.all_iff_forall_prop.mp (by decide)
  have rest := labelsFrom_of_plain plain (split ▸ found)
  rw [labelsFrom_dot, if_neg (by decide), later, closedLabel, if_neg longer] at rest
  cases rest
  have parts : nameText [label ++ text "_numa", text "_tcp", text "local"] =
      labelText label ++ text "_numa._tcp" ++ text ".local" := by
    have first : labelText (text "_numa") = text "_numa" := by decide
    have joined : text "_numa" ++ dot :: nameText [text "_tcp", text "local"] =
        text "_numa._tcp" ++ text ".local" := by decide
    rw [nameText_cons (by simp), labelText, List.flatMap_append, ← labelText, ← labelText, first,
      List.append_assoc, joined, List.append_assoc]
  exact ⟨labelText label, text ".local", parts.symm⟩

/-- Whatever the hostname is, the service type behind it stays. -/
theorem infix_of_labelsFrom (host : Text) {label : List UInt8} {labels : List (List UInt8)}
    (found : labelsFrom label (host ++ dot :: text serviceType) = some labels) :
    text "_numa._tcp" <:+: nameText labels := by
  induction lengthEq : host.length using Nat.strong_induction_on generalizing host label labels with
  | _ length ih =>
      have shorter : ∀ rest : Text, rest.length < host.length → ∀ label labels,
          labelsFrom label (rest ++ dot :: text serviceType) = some labels →
          text "_numa._tcp" <:+: nameText labels :=
        fun rest isShorter _ _ found => ih _ (lengthEq ▸ isShorter) rest found rfl
      have notDigit : isAsciiDigit dot = false := rfl
      have typeEq : text serviceType = 0x5F :: text "numa._tcp.local" := by decide
      rcases host with _ | ⟨head, rest⟩
      · rw [List.nil_append, labelsFrom_dot, if_neg (by decide)] at found
        obtain ⟨later, foundLater, rfl⟩ := Option.map_eq_some_iff.mp found
        exact infix_nameText_append _ (infix_of_labelsFrom_serviceType foundLater)
      · by_cases isDot : head = dot
        · rw [isDot, List.cons_append, labelsFrom_dot, if_neg (by simp)] at found
          obtain ⟨later, foundLater, rfl⟩ := Option.map_eq_some_iff.mp found
          exact infix_nameText_append _ (shorter rest (by simp) _ _ foundLater)
        · rw [List.cons_append, labelsFrom.eq_def] at found
          simp only [isDot, if_false] at found
          split at found
          · rcases rest with _ | ⟨first, _ | ⟨second, _ | ⟨third, rest⟩⟩⟩
            · simp only [List.nil_append, notDigit, Bool.false_eq_true, if_false] at found
              obtain ⟨longer, -, foundRest⟩ := Option.bind_eq_some_iff.mp found
              exact infix_of_labelsFrom_serviceType foundRest
            · rw [typeEq] at found
              simp only [List.cons_append, List.nil_append] at found
              split at found
              · simp [notDigit] at found
              · obtain ⟨longer, -, foundRest⟩ := Option.bind_eq_some_iff.mp found
                exact shorter [] (by simp) _ _ (typeEq ▸ foundRest)
            · simp only [List.cons_append, List.nil_append] at found
              split at found
              · simp [notDigit] at found
              · obtain ⟨longer, -, foundRest⟩ := Option.bind_eq_some_iff.mp found
                exact shorter [second] (by simp) _ _ foundRest
            · simp only [List.cons_append] at found
              split at found
              · split at found
                · split at found
                  · cases found
                  · obtain ⟨longer, -, foundRest⟩ := Option.bind_eq_some_iff.mp found
                    exact shorter rest (by simp; omega) _ _ foundRest
                · cases found
              · obtain ⟨longer, -, foundRest⟩ := Option.bind_eq_some_iff.mp found
                exact shorter (second :: third :: rest) (by simp) _ _ foundRest
          · obtain ⟨longer, -, foundRest⟩ := Option.bind_eq_some_iff.mp found
            exact shorter rest (by simp) _ _ foundRest

theorem infix_instanceName {hostname : String} {labels : List (List UInt8)}
    (found : textLabels (text (instanceName hostname)) = some labels) :
    text "_numa._tcp" <:+: nameText labels := by
  have split : text (instanceName hostname) = text hostname ++ dot :: text serviceType := by
    rw [text_eq_flatMap, instanceName, String.toList_append, List.flatMap_append,
      ← text_eq_flatMap, ← text_eq_flatMap]
    rfl
  have notRoot : ¬ (text hostname ++ dot :: text serviceType = [] ∨
      text hostname ++ dot :: text serviceType = [dot]) := by
    rintro (empty | root)
    · simp at empty
    · have lengths := congrArg List.length root
      have typeLength : (text serviceType).length = 16 := by decide
      simp only [List.length_append, List.length_cons, List.length_nil, typeLength] at lengths
      omega
  rw [split, textLabels, if_neg notRoot] at found
  exact infix_of_labelsFrom _ found

/-! ## What is announced -/

section Announcement

variable {hostname : String} {ip : Ipv4Addr} {services : List (String × UInt16)} {instId : String}
  {health : HealthMeta}

/-- The data of the SRV record. -/
def srvRdata (apiPort : UInt16) (host : List (List UInt8)) : List UInt8 :=
  beBytes16 0 ++ (beBytes16 0 ++ (beBytes16 apiPort ++ wireName host))

/-- The records of an announcement of the instance on the host. -/
def announcementRecords (ip : Ipv4Addr) (services : List (String × UInt16)) (instId : String)
    (health : HealthMeta) (inst host : List (List UInt8)) : List MdnsRecord :=
  [⟨[text "_numa", text "_tcp", text "local"], QueryType.ptr.toNum, 1, wireName inst⟩,
    ⟨inst, QueryType.srv.toNum, 0x8001, srvRdata health.apiPort host⟩,
    ⟨inst, QueryType.txt.toNum, 0x8001, txtRdata (announcedChunks services instId health)⟩,
    ⟨host, QueryType.a.toNum, 0x8001, ip.toList⟩]

theorem writesIf_writeRecordHeader (name : String) (rtype recordClass : UInt16) :
    WritesIf (writeRecordHeader name rtype recordClass mdnsTtl)
      ((textLabels (text name)).map fun owner =>
        wireName owner ++ (beBytes16 rtype ++ (beBytes16 recordClass ++ beBytes32 mdnsTtl))) := by
  have fields : WritesIf (do
      writeU16 rtype
      writeU16 recordClass
      writeU32 mdnsTtl) (some (beBytes16 rtype ++ (beBytes16 recordClass ++ beBytes32 mdnsTtl))) :=
    (writes_writeU16 rtype).bind fun _ => (writes_writeU16 recordClass).bind fun _ =>
      writes_writeU32 mdnsTtl
  have written := (writesIf_writeQname (text name)).bind fun _ => fields
  cases found : textLabels (text name) with
  | none => rwa [found] at written
  | some owner => rwa [found] at written

/-- A record whose data may fail to be written. -/
theorem writesIf_record (name : String) (rtype recordClass : UInt16) {rdata : BufferM Unit}
    {octets : Option (List UInt8)} (writes : WritesIf rdata octets) :
    WritesIf (writeRecordHeader name rtype recordClass mdnsTtl >>= fun _ =>
        DnsRecord.writePatched rdata)
      ((textLabels (text name)).bind fun owner => octets.map fun octets =>
        MdnsRecord.octets ⟨owner, rtype, recordClass, octets⟩) := by
  have written := (writesIf_writeRecordHeader name rtype recordClass).bind fun _ =>
    writesIf_writePatched writes
  cases found : textLabels (text name) with
  | none => rwa [found] at written
  | some owner =>
      cases octets with
      | none => rwa [found] at written
      | some octets =>
          rw [found] at written
          simpa [MdnsRecord.octets, MdnsRecord.head] using written

theorem writes_strings (services : List (String × UInt16)) (instId : String)
    (health : HealthMeta) :
    Writes ((announcedStrings services instId health).forM writeTxtString)
      (txtRdata (announcedChunks services instId health)) := by
  have strings : Writes ((announcedStrings services instId health).forM writeTxtString)
      ((announcedStrings services instId health).flatMap fun val => txtRdata (txtChunks (text val))) :=
    writes_forM fun val _ => writes_writeTxtString val
  rwa [announcedChunks, txtRdata, List.flatMap_assoc]

theorem writesIf_srv (hostname : String) (health : HealthMeta) :
    WritesIf (do
      writeU16 0
      writeU16 0
      writeU16 health.apiPort
      writeQname (text (hostLocal hostname)))
      ((textLabels (text (hostLocal hostname))).map (srvRdata health.apiPort)) := by
  have number : ∀ val, WritesIf (writeU16 val) (some (beBytes16 val)) := writes_writeU16
  have written := (number 0).bind fun _ => (number 0).bind fun _ => (number health.apiPort).bind
    fun _ => writesIf_writeQname (text (hostLocal hostname))
  cases found : textLabels (text (hostLocal hostname)) with
  | none => rwa [found] at written
  | some host => rwa [found] at written

theorem writesIf_address (hostname : String) (ip : Ipv4Addr) :
    WritesIf (do
      writeRecordHeader (hostLocal hostname) QueryType.a.toNum 0x8001 mdnsTtl
      writeU16 4
      ip.toList.forM write)
      ((textLabels (text (hostLocal hostname))).map fun host =>
        MdnsRecord.octets ⟨host, QueryType.a.toNum, 0x8001, ip.toList⟩) := by
  have each : Writes (ip.toList.forM write) (ip.toList.flatMap fun octet => [octet]) :=
    writes_forM fun octet _ => writes_write octet
  rw [List.flatMap_singleton'] at each
  have rdata : WritesIf (do
      writeU16 4
      ip.toList.forM write) (some (beBytes16 4 ++ ip.toList)) :=
    (writes_writeU16 4).bind fun _ => each
  have length : ip.toList.length.toUInt16 = 4 := by simp
  have written := (writesIf_writeRecordHeader (hostLocal hostname) QueryType.a.toNum 0x8001).bind
    fun _ => rdata
  cases found : textLabels (text (hostLocal hostname)) with
  | none => rwa [found] at written
  | some host =>
      rw [found] at written
      simpa [MdnsRecord.octets, MdnsRecord.head, length] using written

/-- What an announcement is, unless one of its names is none. -/
theorem writesIf_writeAnnouncement :
    WritesIf (writeAnnouncement hostname ip services instId health)
      ((textLabels (text (instanceName hostname))).bind fun inst =>
        (textLabels (text (hostLocal hostname))).map fun host =>
          announcementHeader.octets ++
            (announcementRecords ip services instId health inst host).flatMap
              MdnsRecord.octets) := by
  have header : WritesIf announcementHeader.write (some announcementHeader.octets) :=
    announcementHeader.writes_write
  have strings : WritesIf ((announcedStrings services instId health).forM writeTxtString)
      (some (txtRdata (announcedChunks services instId health))) :=
    writes_strings services instId health
  have typeLabels : textLabels (text serviceType) =
      some [text "_numa", text "_tcp", text "local"] := by decide
  have written := header.bind fun _ =>
    (writesIf_record serviceType QueryType.ptr.toNum 1
      (writesIf_writeQname (text (instanceName hostname)))).bind fun _ =>
    (writesIf_record (instanceName hostname) QueryType.srv.toNum 0x8001
      (writesIf_srv hostname health)).bind fun _ =>
    (writesIf_record (instanceName hostname) QueryType.txt.toNum 0x8001 strings).bind fun _ =>
    writesIf_address hostname ip
  simp only [bind_assoc, typeLabels] at written
  unfold writeAnnouncement
  cases found : textLabels (text (instanceName hostname)) with
  | none =>
      simp only [found, Option.bind_none, Option.map_none, Option.bind_some] at written
      simpa using written
  | some inst =>
      cases foundHost : textLabels (text (hostLocal hostname)) with
      | none =>
          simp only [found, foundHost, Option.bind_none, Option.map_none, Option.bind_some,
            Option.map_some] at written
          exact written
      | some host =>
          simp only [found, foundHost, Option.map_some, Option.bind_some] at written
          simpa [announcementRecords] using written

/-- What a record of an announcement adds. -/
def PeerRecords.update (ip : Ipv4Addr) (strings : List (List UInt8)) (record : MdnsRecord)
    (found : PeerRecords) : PeerRecords :=
  if record.rtype = QueryType.txt.toNum then strings.foldl readTxtString found
  else if record.rtype = QueryType.a.toNum then { found with ip := some (.v4 ip) }
  else found

theorem readRdata_address {data : List UInt8} {start : Nat} (ahead : ip.toList <+: data.drop start)
    (found : PeerRecords) (name : Text) :
    found.readRdata data name QueryType.a.toNum ip.toList.length start =
      { found with ip := some (.v4 ip) } := by
  have length : ip.toList.length = 4 := by simp
  obtain ⟨rest, dataEq⟩ := ahead
  have lengths := congrArg List.length dataEq
  rw [List.length_append, List.length_drop, length] at lengths
  have octet : ∀ index, index < 4 → data.getD (start + index) 0 = ip.toList.getD index 0 := by
    intro index inside
    rw [List.getD_eq_getElem?_getD, ← List.getElem?_drop, ← dataEq,
      List.getElem?_append_left (by omega), List.getD_eq_getElem?_getD]
  have isIp : #v[data.getD start 0, data.getD (start + 1) 0, data.getD (start + 2) 0,
      data.getD (start + 3) 0] = ip := by
    apply Vector.ext
    intro index inside
    have same : ip.toList.getD index 0 = ip[index] := by simp [inside]
    rw [← same, ← octet index inside]
    rcases index with _ | _ | _ | _ | index
    · rfl
    · rfl
    · rfl
    · rfl
    · omega
  have notTxt : ¬ (QueryType.a.toNum = QueryType.txt.toNum ∧ text "_numa._tcp" <:+: name) :=
    fun is => absurd is.1 (by decide)
  rw [PeerRecords.readRdata, if_neg notTxt, if_pos ⟨rfl, length, by omega⟩, isIp]

/-- Every record of an announcement is read as it was meant. -/
theorem readRdata_announcementRecords {inst host : List (List UInt8)}
    (foundInst : textLabels (text (instanceName hostname)) = some inst) {data : List UInt8} :
    ∀ record ∈ announcementRecords ip services instId health inst host, ∀ start found,
      record.rdata <+: data.drop start →
      PeerRecords.readRdata found data (nameText record.owner) record.rtype record.rdata.length
        start = PeerRecords.update ip (announcedChunks services instId health) record found := by
  have other : ∀ rtype, rtype ≠ QueryType.txt.toNum → rtype ≠ QueryType.a.toNum →
      ∀ (found : PeerRecords) (name : Text) (rdlength start : Nat),
        found.readRdata data name rtype rdlength start = found := by
    intro rtype notTxt notA found name rdlength start
    rw [PeerRecords.readRdata, if_neg fun is => notTxt is.1, if_neg fun is => notA is.1]
  intro record recordMem start found ahead
  simp only [announcementRecords, List.mem_cons, List.not_mem_nil, or_false] at recordMem
  rcases recordMem with rfl | rfl | rfl | rfl
  · exact other QueryType.ptr.toNum (by decide) (by decide) found _ _ start
  · exact other QueryType.srv.toNum (by decide) (by decide) found _ _ start
  · rw [PeerRecords.readRdata, if_pos ⟨rfl, infix_instanceName foundInst⟩,
      txtStrings_of_prefix (fun _ => length_le_of_mem_announcedChunks) ahead le_rfl]
    rfl
  · exact readRdata_address ahead found _

theorem fits_announcementRecords {inst host : List (List UInt8)}
    (foundInst : textLabels (text (instanceName hostname)) = some inst)
    (foundHost : textLabels (text (hostLocal hostname)) = some host)
    (fits : ((announcementRecords ip services instId health inst host).flatMap
      MdnsRecord.octets).length ≤ bufSize) :
    ∀ record ∈ announcementRecords ip services instId health inst host, record.Fits := by
  intro record recordMem
  constructor
  · simp only [announcementRecords, List.mem_cons, List.not_mem_nil, or_false] at recordMem
    have typeFits : ∀ label ∈ [text "_numa", text "_tcp", text "local"],
        label ≠ [] ∧ label.length ≤ 63 := by decide
    rcases recordMem with rfl | rfl | rfl | rfl
    · exact typeFits
    · exact short_of_textLabels foundInst
    · exact short_of_textLabels foundInst
    · exact short_of_textLabels foundHost
  · have whole : record.octets.length ≤ _ := length_le_flatMap_of_mem recordMem
    rw [MdnsRecord.octets, List.length_append] at whole
    have size : bufSize < 2 ^ 16 := by decide
    omega

/-- A response whose four records fit and add what they should. -/
theorem exec_readResponse {records : List MdnsRecord} (four : records.length = 4)
    {update : MdnsRecord → PeerRecords → PeerRecords} {data : List UInt8}
    (dataEq : data = announcementHeader.octets ++ records.flatMap MdnsRecord.octets)
    (inside : data.length ≤ bufSize) (fit : ∀ record ∈ records, record.Fits)
    (updates : ∀ record ∈ records, ∀ start found, record.rdata <+: data.drop start →
      PeerRecords.readRdata found data (nameText record.owner) record.rtype record.rdata.length
        start = update record found) :
    (exec (readResponse data) (fromBytes data)).1 =
      .ok (some (records.foldl (fun found record => update record found) {})) := by
  have ahead : Ahead (fromBytes data) 0
      (announcementHeader.octets ++ records.flatMap MdnsRecord.octets) := by
    rw [← dataEq]
    exact ahead_fromBytes inside
  let behind : BytePacketBuffer := { fromBytes data with pos := 0 + announcementHeader.octets.length }
  have headerRead : exec DnsHeader.read (fromBytes data) = (.ok announcementHeader, behind) :=
    DnsHeader.readsAt_read (by decide : announcementHeader.opcode < 16) _ rfl ahead.left
  have behindBuf : behind.buf = (fromBytes data).buf := rfl
  have behindAhead : records.flatMap MdnsRecord.octets <+: data.drop behind.pos := by
    simp only [behind, Nat.zero_add, dataEq, List.drop_left]
    exact List.prefix_rfl
  have recordsRead := exec_readRecords inside fit updates behindBuf behindAhead {}
  rw [four] at recordsRead
  have hasAnswers : ¬ (announcementHeader.response = false ∨ announcementHeader.answers = 0) := by
    decide
  have noQuestions : exec (readMany DnsQuestion.read announcementHeader.questions.toNat) behind =
      (.ok [], behind) := rfl
  rw [readResponse, exec_bind_ok headerRead, if_neg hasAnswers, exec_bind_ok noQuestions]
  have total : (announcementHeader.answers + announcementHeader.authoritativeEntries +
      announcementHeader.resourceEntries).toNat = 4 := rfl
  dsimp only
  rw [total, map_eq_pure_bind, exec_bind_ok (exec_eq_of_fst recordsRead)]
  rfl

theorem foldl_update (strings : List (List UInt8)) (inst host : List (List UInt8)) :
    (announcementRecords ip services instId health inst host).foldl
        (fun found record => PeerRecords.update ip strings record found) {} =
      ⟨lastSaid txtServicesOf strings, lastSaid txtIdOf strings, some (.v4 ip)⟩ := by
  have kept : ∀ rtype owner recordClass rdata found,
      rtype ≠ QueryType.txt.toNum → rtype ≠ QueryType.a.toNum →
        PeerRecords.update ip strings ⟨owner, rtype, recordClass, rdata⟩ found = found := by
    intro rtype owner recordClass rdata found notTxt notA
    rw [PeerRecords.update, if_neg notTxt, if_neg notA]
  rw [announcementRecords, List.foldl_cons, kept _ _ _ _ _ (by decide) (by decide), List.foldl_cons,
    kept _ _ _ _ _ (by decide) (by decide), List.foldl_cons, List.foldl_cons, List.foldl_nil]
  have notTxt : QueryType.a.toNum ≠ QueryType.txt.toNum := by decide
  rw [PeerRecords.update, if_neg notTxt, if_pos rfl, PeerRecords.update, if_pos rfl,
    foldl_readTxtString]
  simp

/-- What is read of an announcement: the services and the instance that its
strings say last. -/
theorem parseMdnsResponse_of_built {data : List UInt8}
    (built : buildAnnouncement hostname ip services instId health = .ok data) :
    parseMdnsResponse data =
      (lastSaid txtServicesOf (announcedChunks services instId health)).map fun said =>
        ⟨said, .v4 ip, lastSaid txtIdOf (announcedChunks services instId health)⟩ := by
  unfold buildAnnouncement at built
  split at built
  · rename_i buffer ran
    cases built
    obtain ⟨octets, isOctets, inside, filled⟩ := writesIf_writeAnnouncement.filled ran
    obtain ⟨inst, foundInst, rest⟩ := Option.bind_eq_some_iff.mp isOctets
    obtain ⟨host, foundHost, rfl⟩ := Option.map_eq_some_iff.mp rest
    rw [filled]
    have headerLength : announcementHeader.octets.length = 12 := rfl
    have read := exec_readResponse rfl rfl inside
      (fits_announcementRecords foundInst foundHost (by rw [List.length_append] at inside; omega))
      (readRdata_announcementRecords foundInst)
    have long : ¬ (announcementHeader.octets ++ (announcementRecords ip services instId health inst
        host).flatMap MdnsRecord.octets).length < 12 := by
      have headerLength : announcementHeader.octets.length = 12 := rfl
      rw [List.length_append, headerLength]
      omega
    rw [parseMdnsResponse, if_neg long, exec_eq_of_fst read]
    dsimp only
    rw [foldl_update]
    cases lastSaid txtServicesOf (announcedChunks services instId health) with
    | none => rfl
    | some said => rfl
  · cases built

/-- An announcement is read back exactly if its services and its instance fit
into one string each and no other string replaces them. -/
theorem parseMdnsResponse_buildAnnouncement_iff {data : List UInt8}
    (built : buildAnnouncement hostname ip services instId health = .ok data)
    (nonempty : services ≠ [])
    (plain : ∀ service ∈ services, ',' ∉ service.1.toList ∧ ':' ∉ service.1.toList) :
    parseMdnsResponse data = some ⟨services, .v4 ip, some instId⟩ ↔
      OneStringEach services instId health := by
  rw [← lastSaid_announcedChunks_iff nonempty plain, parseMdnsResponse_of_built built,
    Option.map_eq_some_iff]
  constructor
  · rintro ⟨said, isSaid, same⟩
    obtain ⟨rfl, -, isId⟩ := MdnsAnnouncement.mk.injEq .. ▸ same
    exact ⟨isSaid, isId⟩
  · rintro ⟨isServices, isId⟩
    exact ⟨services, isServices, by rw [isId]⟩

end Announcement

/-! ## Two hosts -/

theorem length_txtRdata_le (octets : List UInt8) :
    (txtRdata (txtChunks octets)).length ≤ 2 * octets.length := by
  induction octets using txtChunks.induct with
  | case1 => simp [txtChunks, txtRdata]
  | case2 octets nonempty ih =>
      have positive := List.length_pos_of_ne_nil nonempty
      rw [txtChunks, if_neg nonempty, txtRdata, List.flatMap_cons, ← txtRdata, List.length_append,
        List.length_cons, List.length_take]
      rw [List.length_drop] at ih
      omega

/-- Chunking at most doubles the strings. -/
theorem length_txtRdata_announcedChunks_le (services : List (String × UInt16)) (instId : String)
    (health : HealthMeta) :
    (txtRdata (announcedChunks services instId health)).length ≤
      2 * ((announcedStrings services instId health).map fun val => (text val).length).sum := by
  unfold announcedChunks
  induction announcedStrings services instId health with
  | nil => exact le_rfl
  | cons val vals ih =>
      have first := length_txtRdata_le (text val)
      rw [List.flatMap_cons, txtRdata, List.flatMap_append, ← txtRdata, ← txtRdata,
        List.length_append, List.map_cons, List.sum_cons]
      omega

theorem length_announcement (ip : Ipv4Addr) (services : List (String × UInt16)) (instId : String)
    (health : HealthMeta) (inst host : List (List UInt8)) :
    (announcementHeader.octets ++ (announcementRecords ip services instId health inst host).flatMap
        MdnsRecord.octets).length =
      80 + 3 * (wireName inst).length + 2 * (wireName host).length +
        (txtRdata (announcedChunks services instId health)).length := by
  have header : announcementHeader.octets.length = 12 := rfl
  have typeLength : (wireName [text "_numa", text "_tcp", text "local"]).length = 18 := by decide
  simp only [announcementRecords, MdnsRecord.octets, MdnsRecord.head, srvRdata, beBytes16,
    beBytes32, List.flatMap_cons, List.flatMap_nil, List.length_append, List.length_cons,
    List.length_nil, Vector.length_toList, header, typeLength]
  omega

/-- A short announcement is built. -/
theorem exists_built {hostname : String} {services : List (String × UInt16)} {instId : String}
    {health : HealthMeta} (inst host : List (List UInt8))
    (foundInst : textLabels (text (instanceName hostname)) = some inst)
    (foundHost : textLabels (text (hostLocal hostname)) = some host)
    (short : 80 + 3 * (wireName inst).length + 2 * (wireName host).length +
      2 * ((announcedStrings services instId health).map fun val => (text val).length).sum ≤
        bufSize) (ip : Ipv4Addr) :
    ∃ data, buildAnnouncement hostname ip services instId health = .ok data := by
  have written : WritesIf (writeAnnouncement hostname ip services instId health) _ :=
    writesIf_writeAnnouncement
  have length := length_announcement ip services instId health inst host
  have strings := length_txtRdata_announcedChunks_le services instId health
  rw [foundInst, foundHost] at written
  obtain ⟨value, after, ran, -⟩ := (written .new (Nat.zero_le _)).1 (by
    change 0 + (announcementHeader.octets ++ _).length ≤ bufSize
    omega)
  exact ⟨after.filled, by rw [buildAnnouncement, ran]⟩

/-- The metadata of a host without DNS over TLS. -/
def plainHealth : HealthMeta where
  version := "0.14.0"
  dotEnabled := false
  dotPort := 853
  apiPort := 8765
  caFingerprintSha256 := none

def oneService : List (String × UInt16) :=
  [("web", 8080)]

/-- One service is read back. -/
theorem parseMdnsResponse_oneService :
    ∃ data, buildAnnouncement "macbook" (.new 192 168 1 2) oneService "17:4" plainHealth =
        .ok data ∧
      parseMdnsResponse data = some ⟨oneService, .v4 (.new 192 168 1 2), some "17:4"⟩ := by
  obtain ⟨data, built⟩ : ∃ data, buildAnnouncement "macbook" (.new 192 168 1 2) oneService "17:4"
      plainHealth = .ok data := by
    apply exists_built [text "macbook", text "_numa", text "_tcp", text "local"]
      [text "macbook", text "local"]
    · decide +kernel
    · decide +kernel
    · decide +kernel
  refine ⟨data, built,
    (parseMdnsResponse_buildAnnouncement_iff built (by decide) (by decide)).mpr ?_⟩
  have chunks : metaChunks plainHealth =
      [text "version=0.14.0", text "api_port=8765", text "proto=plain"] := by
    have strings : metaStrings plainHealth = ["version=0.14.0", "api_port=8765", "proto=plain"] := by
      decide +kernel
    simp only [metaChunks, strings, List.flatMap_cons, List.flatMap_nil]
    rw [txtChunks_of_short (by decide +kernel) (by decide +kernel),
      txtChunks_of_short (by decide +kernel) (by decide +kernel),
      txtChunks_of_short (by decide +kernel) (by decide +kernel)]
    rfl
  have silent : lastSaid txtServicesOf (metaChunks plainHealth) = none ∧
      lastSaid txtIdOf (metaChunks plainHealth) = none := by
    rw [chunks]
    decide +kernel
  constructor
  · decide +kernel
  · decide +kernel
  · intro others said
    rw [silent.1] at said
    cases said
  · intro other said
    rw [silent.2] at said
    cases said

def manyServices : List (String × UInt16) :=
  List.replicate 30 ("webserver", 8080)

/-- The text of many services takes two strings, and the second one is not read
as services. -/
theorem manyServices_lost :
    ¬ ∀ (hostname : String) (ip : Ipv4Addr) (services : List (String × UInt16)) (instId : String)
        (health : HealthMeta) (data : List UInt8), services ≠ [] →
      (∀ service ∈ services, ',' ∉ service.1.toList ∧ ':' ∉ service.1.toList) →
      buildAnnouncement hostname ip services instId health = .ok data →
      parseMdnsResponse data = some ⟨services, .v4 ip, some instId⟩ := by
  intro reads
  have plain : ∀ service ∈ manyServices, ',' ∉ service.1.toList ∧ ':' ∉ service.1.toList := by
    decide +kernel
  have nonempty : manyServices ≠ [] := by decide
  obtain ⟨data, built⟩ : ∃ data, buildAnnouncement "macbook" (.new 192 168 1 2) manyServices "17:4"
      plainHealth = .ok data := by
    apply exists_built [text "macbook", text "_numa", text "_tcp", text "local"]
      [text "macbook", text "local"]
    · decide +kernel
    · decide +kernel
    · decide +kernel
  have read := reads _ _ _ _ _ _ nonempty plain built
  rw [parseMdnsResponse_of_built built] at read
  obtain ⟨said, isSaid, same⟩ := Option.map_eq_some_iff.mp read
  obtain ⟨rfl, -, isId⟩ := MdnsAnnouncement.mk.injEq .. ▸ same
  have each := (lastSaid_announcedChunks_iff nonempty plain).mp ⟨isSaid, isId⟩
  exact absurd each.shortServices (by decide +kernel)

end Numa
