import Numa.CacheFreshness
import Numa.FramedConnection
import Numa.MappedPeers
import Numa.Relay
import Numa.SrttCache

/-!
# DNS over HTTPS

`doh_get` and `doh_post` of `doh.rs` take a message from a parameter or from the
body of a request, behind the name of the host and `allow_from`, and
`resolve_doh` answers it.  The decoder of base64url and the results of
`resolve_query` are given.  The answers are those that the listeners of
connections give.
-/

namespace Numa

open AddressParser

/-! ## The host -/

/-- `rsplit_once`. -/
def rsplitOnce (separator : Text) : Text → Option (Text × Text)
  | [] => none
  | octet :: rest =>
    match rsplitOnce separator rest with
    | some (before, after) => some (octet :: before, after)
    | none =>
      if separator.isPrefixOf (octet :: rest) then
        some ([], (octet :: rest).drop separator.length)
      else none

/-- `extract_host`.  The octets are visible, so `to_lowercase` is that of ASCII. -/
def extractHost (header : Option (List UInt8)) : Option Text :=
  (header.filter isHeaderText).map fun host => Text.toLowercase (host.takeWhile (· != colon))

def stripPort (host : Text) : Option Text :=
  if host.head? = some 0x5B then
    (rsplitOnce (text "]:") host).bind fun (base, port) =>
      if port.all isAsciiDigit then some (host.take (base.length + 1)) else none
  else
    (rsplitOnce [colon] host).bind fun (base, port) =>
      if base.contains colon then none
      else if port.all isAsciiDigit then some base else none

def isLoopbackHost (host : Text) : Bool :=
  [text "127.0.0.1", text "::1", text "[::1]", text "localhost"].contains host

def isTldMatch (host tld : Text) : Bool :=
  host == tld ||
    (host.length == 2 * tld.length + 1 && tld.isPrefixOf host && host[tld.length]? == some dot &&
      tld.isSuffixOf host)

def isDohHost (host : Option Text) (tld : Text) : Bool :=
  match host with
  | none => false
  | some host =>
    let base := (stripPort host).getD host
    isLoopbackHost base || isTldMatch base tld

/-! ## Requests -/

/-- `MAX_DNS_MSG`. -/
def maxDnsMsg : Nat := 4096

/-- `DOH_CONTENT_TYPE`. -/
def dohContentType : Text := text "application/dns-message"

/-- `DohState` with what is read of the context. -/
structure DohState where
  proxyTld : Text
  allowFrom : AllowFromAcl
  remoteAddr : Option SocketAddr
  filterAaaa : Bool

/-- A response with the `max-age` of its `Cache-Control`. -/
structure DohResponse where
  status : Nat
  maxAge : Option UInt32
  body : List UInt8
  deriving DecidableEq

inductive DohRequest
  /-- The body is `none` when it cannot be read. -/
  | post (contentType : Option (List UInt8)) (body : Option (List UInt8))
  | get (query : Option Text)

/-- `doh_validate`: the client, or the status of the response. -/
def DohState.validate (state : DohState) (host : Option Text) : Except Nat SocketAddr :=
  if !isDohHost host state.proxyTld then .error 404
  else if !state.allowFrom.matcher.isEmpty &&
      !state.remoteAddr.any fun addr => state.allowFrom.allows addr.ip then .error 403
  else .ok (state.remoteAddr.getD (.v4 #v[127, 0, 0, 1] 0))

def extractMinTtl (wire : List UInt8) : UInt32 :=
  ((scanTtlOffsets wire).toOption.bind (minTtlFromWire wire)).getD 0

def dnsResponse (wire : List UInt8) (minTtl : UInt32) : DohResponse :=
  ⟨200, some minTtl, wire⟩

def serializeResponse (packet : DnsPacket) : DohResponse :=
  match serialize packet with
  | some wire => dnsResponse wire 0
  | none => ⟨500, none, []⟩

section Requests

variable (resolve : SocketAddr → DnsPacket → List UInt8 → Option (Except Unit BytePacketBuffer))
  (decode : Text → Option (List UInt8))

/-- `resolve_doh`.  `none` is a panic of `resolve_query`. -/
def resolveDoh (filterAaaa : Bool) (dnsBytes : List UInt8) (src : SocketAddr) :
    Option DohResponse :=
  match BytePacketBuffer.exec DnsPacket.fromBuffer (.fromBytes dnsBytes) with
  | (.error _, _) =>
    some (serializeResponse
      { header :=
          { id := (dnsBytes.getD 0 0).toUInt16 <<< 8 ||| (dnsBytes.getD 1 0).toUInt16
            response := true
            rescode := .formerr } })
  | (.ok query, _) =>
    match resolve src query dnsBytes with
    | none => none
    | some (.ok respBuffer) =>
      some (dnsResponse respBuffer.filled (extractMinTtl respBuffer.filled))
    | some (.error _) =>
      some (serializeResponse
        ((DnsPacket.responseFrom query .servfail).shapeForClient query filterAaaa))

def dohPost (state : DohState) (host contentType body : Option (List UInt8)) :
    Option DohResponse :=
  match state.validate (extractHost host) with
  | .error code => some ⟨code, none, []⟩
  | .ok src =>
    if !dohContentType.isPrefixOf ((contentType.filter isHeaderText).getD []) then
      some ⟨415, none, []⟩
    else
      match body.filter (·.length ≤ maxDnsMsg) with
      | none => some ⟨413, none, text "body exceeds 4096 bytes"⟩
      | some body =>
        if body.isEmpty then some ⟨400, none, text "empty body"⟩
        else resolveDoh resolve state.filterAaaa body src

/-- The first parameter `dns` of a query. -/
def dnsParam (query : Option Text) : Text :=
  (query.bind fun query => (query.splitOn 0x26).findSome? fun pair =>
    if (text "dns=").isPrefixOf pair then some (pair.drop 4) else none).getD []

def dohGet (state : DohState) (host : Option (List UInt8)) (query : Option Text) :
    Option DohResponse :=
  match state.validate (extractHost host) with
  | .error code => some ⟨code, none, []⟩
  | .ok src =>
    if (dnsParam query).isEmpty then some ⟨400, none, text "missing dns query parameter"⟩
    else
      match decode (dnsParam query) with
      | none => some ⟨400, none, text "invalid base64url encoding"⟩
      | some body =>
        if maxDnsMsg < body.length then some ⟨413, none, text "body exceeds 4096 bytes"⟩
        else resolveDoh resolve state.filterAaaa body src

/-- The handler of the route `/dns-query`. -/
def dohRequest (state : DohState) (host : Option (List UInt8)) : DohRequest → Option DohResponse
  | .post contentType body => dohPost resolve state host contentType body
  | .get query => dohGet resolve decode state host query

end Requests

/-! ## The gate -/

theorem rsplitOnce_eq_none {separator host : Text} {octet : UInt8} (mem : octet ∈ separator)
    (absent : octet ∉ host) : rsplitOnce separator host = none := by
  induction host with
  | nil => rfl
  | cons first host ih =>
      have noPrefix : ¬separator.isPrefixOf (first :: host) = true := fun isFront =>
        absent ((List.isPrefixOf_iff_prefix.mp isFront).subset mem)
      rw [rsplitOnce, ih fun later => absent (List.mem_cons_of_mem first later)]
      exact if_neg noPrefix

theorem stripPort_eq_none {host : Text} (noColon : colon ∉ host) : stripPort host = none := by
  have noPort : rsplitOnce [colon] host = none :=
    rsplitOnce_eq_none (List.mem_singleton_self colon) noColon
  have noBracket : rsplitOnce (text "]:") host = none := rsplitOnce_eq_none (by decide) noColon
  rw [stripPort, noPort, noBracket]
  split <;> rfl

theorem isTldMatch_iff {host tld : Text} :
    isTldMatch host tld = true ↔ host = tld ∨ host = tld ++ dot :: tld := by
  simp only [isTldMatch, Bool.or_eq_true, Bool.and_eq_true, beq_iff_eq, List.isPrefixOf_iff_prefix,
    List.isSuffixOf_iff_suffix]
  refine or_congr_right ⟨?_, ?_⟩
  · rintro ⟨⟨⟨length, ⟨rest, rfl⟩⟩, isDot⟩, suffix⟩
    rw [List.length_append] at length
    rw [List.getElem?_append_right le_rfl, Nat.sub_self] at isDot
    obtain ⟨label, rfl⟩ : ∃ label, rest = dot :: label :=
      List.head?_eq_some_iff.mp (List.head?_eq_getElem? ▸ isDot)
    rw [List.length_cons] at length
    have behind : tld <:+ label := List.suffix_of_suffix_length_le suffix
      ⟨tld ++ [dot], by simp⟩ (by omega)
    rw [behind.eq_of_length (by omega)]
  · rintro rfl
    refine ⟨⟨⟨?_, List.prefix_append _ _⟩, ?_⟩, ⟨tld ++ [dot], by simp⟩⟩
    · rw [List.length_append, List.length_cons]
      omega
    · simp

theorem toAsciiLowercase_ne_colon {octet : UInt8} (notColon : octet ≠ colon) :
    toAsciiLowercase octet ≠ colon := by
  have table : ∀ index : Fin 256,
      UInt8.ofFin index ≠ colon → toAsciiLowercase (.ofFin index) ≠ colon := by
    decide +kernel
  exact table octet.toFin notColon

/-- The names that `/dns-query` is served under. -/
def dohHosts (tld : Text) : List Text :=
  [text "127.0.0.1", text "localhost", tld, tld ++ dot :: tld]

/-- The host is cut at its first colon, so an IPv6 address is none of the names. -/
theorem isDohHost_extractHost_iff {header : Option (List UInt8)} {tld : Text} :
    isDohHost (extractHost header) tld = true ↔ ∃ host, header = some host ∧
      isHeaderText host = true ∧ Text.toLowercase (host.takeWhile (· != colon)) ∈ dohHosts tld := by
  have noColon : ∀ host : List UInt8,
      colon ∉ Text.toLowercase (host.takeWhile (· != colon)) := by
    intro host mem
    obtain ⟨octet, inFront, lowerEq⟩ := List.mem_map.mp mem
    exact toAsciiLowercase_ne_colon (by simpa using List.mem_takeWhile_imp inFront) lowerEq
  have served : ∀ base : Text, colon ∉ base →
      (isLoopbackHost base = true ∨ isTldMatch base tld = true ↔ base ∈ dohHosts tld) := by
    intro base free
    have noAddress : base ≠ text "::1" ∧ base ≠ text "[::1]" := by
      constructor <;> (rintro rfl; exact free (by decide))
    simp [isLoopbackHost, isTldMatch_iff, dohHosts, noAddress, or_assoc]
  rcases header with _ | host
  · simp [extractHost, isDohHost]
  · by_cases isText : isHeaderText host = true
    · have found : extractHost (some host) =
          some (Text.toLowercase (host.takeWhile (· != colon))) := by
        simp [extractHost, Option.filter, isText]
      simp [found, isDohHost, isText, stripPort_eq_none (noColon host), served _ (noColon host)]
    · have missing : extractHost (some host) = none := by
        simp [extractHost, Option.filter, isText]
      simp [missing, isDohHost, isText]

/-! ## Requests that are answered -/

/-- The TTLs of the answers in a response, none if it is not scanned. -/
def responseTtls (wire : List UInt8) : List UInt32 :=
  ((scanTtlOffsets wire).toOption.map (answerTtls wire)).getD []

theorem extractMinTtl_eq (wire : List UInt8) :
    extractMinTtl wire = (responseTtls wire).min?.getD 0 := by
  rcases accepted : scanTtlOffsets wire with error | scanned
  · simp [extractMinTtl, responseTtls, accepted, Except.toOption]
  · simp [extractMinTtl, responseTtls, accepted, Except.toOption, minTtlFromWire_eq accepted]

/-- A response without answers is not to be stored. -/
theorem extractMinTtl_of_serialize {resp : DnsPacket} {wire : List UInt8}
    (noAnswers : resp.answers = []) (serialized : serialize resp = some wire) :
    extractMinTtl wire = 0 := by
  have fits := length_of_serialize serialized
  obtain ⟨questions, records, -, -, wireEq⟩ :=
    DnsPacket.exists_sections (encoded_of_serialize serialized)
  have stands : resp.countedHeader.octets <+: wire.drop 0 :=
    ⟨questions ++ (records ++ ednsOctets resp.edns), wireEq.symm⟩
  obtain ⟨-, count, -⟩ := DnsPacket.wireU16_counts fits
    (ahead_of_stands fits (by simp [DnsHeader.octets, beBytes16]) stands)
  rw [DnsPacket.countedHeader, noAnswers] at count
  rcases accepted : scanTtlOffsets wire with error | scanned
  · simp [extractMinTtl, accepted, Except.toOption]
  · obtain ⟨answers, authorities, additionals, first, second, third, last, sections, rfl⟩ :=
      scanTtlOffsets_eq_ok_iff.mp accepted
    have empty := sections.answers
    rw [count] at empty
    cases empty
    rw [extractMinTtl_eq]
    simp [responseTtls, accepted, Except.toOption, answerTtls]

/-- The client may ask: `allow_from` is empty or has the address that is known. -/
def DohState.Admits (state : DohState) : Prop :=
  state.allowFrom.matcher.isEmpty = true ∨
    ∃ peer, state.remoteAddr = some peer ∧ state.allowFrom.allows peer.ip = true

/-- The client as `resolve_query` is told. -/
def DohState.client (state : DohState) : SocketAddr :=
  state.remoteAddr.getD (.v4 #v[127, 0, 0, 1] 0)

/-- The message in a request. -/
inductive DohRequest.Carries (decode : Text → Option (List UInt8)) :
    DohRequest → List UInt8 → Prop
  | post {contentType message : List UInt8} (isText : isHeaderText contentType = true)
      (typed : dohContentType <+: contentType) (nonempty : message ≠ [])
      (short : message.length ≤ maxDnsMsg) :
      Carries decode (.post (some contentType) (some message)) message
  | get {query : Option Text} {message : List UInt8} (nonempty : dnsParam query ≠ [])
      (decoded : decode (dnsParam query) = some message) (short : message.length ≤ maxDnsMsg) :
      Carries decode (.get query) message

section Answers

variable {resolve : SocketAddr → DnsPacket → List UInt8 → Option (Except Unit BytePacketBuffer)}
  {decode : Text → Option (List UInt8)} {state : DohState} {filterAaaa : Bool}
  {src : SocketAddr} {message wire : List UInt8} {age : Option UInt32}

theorem serializeResponse_eq_ok_iff {resp : DnsPacket} (noAnswers : resp.answers = []) :
    serializeResponse resp = ⟨200, age, wire⟩ ↔
      serialize resp = some wire ∧ age = some ((responseTtls wire).min?.getD 0) := by
  rcases serialized : serialize resp with _ | written
  · simp [serializeResponse, serialized]
  · have noAge := extractMinTtl_of_serialize noAnswers serialized
    rw [extractMinTtl_eq] at noAge
    simp only [serializeResponse, serialized, dnsResponse, DohResponse.mk.injEq, true_and,
      Option.some.injEq]
    constructor
    · rintro ⟨rfl, rfl⟩
      exact ⟨rfl, congrArg some noAge.symm⟩
    · rintro ⟨rfl, rfl⟩
      exact ⟨congrArg some noAge.symm, rfl⟩

/-- A message has the answer that it has over a connection. -/
theorem resolveDoh_eq_ok_iff :
    resolveDoh resolve filterAaaa message src = some ⟨200, age, wire⟩ ↔
      replyTo filterAaaa ⟨resolve src, 0, none⟩ message = some wire ∧
        age = some ((responseTtls wire).min?.getD 0) := by
  rcases parsed : BytePacketBuffer.exec DnsPacket.fromBuffer (.fromBytes message) with
    ⟨error | query, after⟩
  · simp only [resolveDoh, replyTo, parsed, formErr_of_parse_error parsed, Option.some.injEq]
    exact serializeResponse_eq_ok_iff rfl
  · rcases resolved : resolve src query message with _ | ⟨⟨⟩⟩ | respBuffer
    · simp [resolveDoh, replyTo, parsed, resolved]
    · simp only [resolveDoh, replyTo, parsed, resolved, Option.some.injEq]
      -- The response is the fallback of a response that cannot be written.
      have bare : (DnsPacket.fallbackResponse query query filterAaaa false).IsBare :=
        DnsPacket.isBare_fallbackResponse
      exact serializeResponse_eq_ok_iff bare.answers
    · simp only [resolveDoh, replyTo, parsed, resolved, Option.some.injEq, dnsResponse,
        DohResponse.mk.injEq, true_and, ← extractMinTtl_eq]
      constructor
      · rintro ⟨rfl, rfl⟩
        exact ⟨rfl, rfl⟩
      · rintro ⟨rfl, rfl⟩
        exact ⟨rfl, rfl⟩

theorem DohState.validate_eq_ok_iff {host : Option Text} :
    state.validate host = .ok src ↔
      isDohHost host state.proxyTld = true ∧ state.Admits ∧ state.client = src := by
  rcases served : isDohHost host state.proxyTld
  · simp [validate, served]
  rcases isEmpty : state.allowFrom.matcher.isEmpty
  · rcases known : state.remoteAddr with _ | peer
    · simp [validate, served, Admits, isEmpty, known]
    · rcases allowed : state.allowFrom.allows peer.ip <;>
        simp [validate, served, Admits, client, isEmpty, known, allowed]
  · simp [validate, served, Admits, client, isEmpty]

theorem DohState.status_of_validate {host : Option Text} {code : Nat}
    (refused : state.validate host = .error code) : code ≠ 200 := by
  unfold validate at refused
  split_ifs at refused <;> cases refused <;> decide

theorem dohPost_eq_ok_iff {host contentType body : Option (List UInt8)} :
    dohPost resolve state host contentType body = some ⟨200, age, wire⟩ ↔
      ∃ src message, state.validate (extractHost host) = .ok src ∧
        DohRequest.Carries decode (.post contentType body) message ∧
        resolveDoh resolve state.filterAaaa message src = some ⟨200, age, wire⟩ := by
  constructor
  · intro answered
    rcases validated : state.validate (extractHost host) with code | src
    · simp [dohPost, validated, DohState.status_of_validate validated] at answered
    rcases typed : dohContentType.isPrefixOf ((contentType.filter isHeaderText).getD [])
    · simp [dohPost, validated, typed] at answered
    obtain ⟨value, rfl, isText⟩ : ∃ value, contentType = some value ∧ isHeaderText value = true := by
      rcases kept : contentType.filter isHeaderText with _ | value
      · rw [kept] at typed
        cases typed
      · exact ⟨value, Option.filter_eq_some_iff.mp kept⟩
    have textual : (some value).filter isHeaderText = some value :=
      Option.filter_eq_some_iff.mpr ⟨rfl, isText⟩
    rw [textual, Option.getD_some] at typed
    rcases kept : body.filter (·.length ≤ maxDnsMsg) with _ | message
    · simp [dohPost, validated, textual, typed, kept] at answered
    obtain ⟨rfl, short⟩ := Option.filter_eq_some_iff.mp kept
    by_cases empty : message = []
    · subst empty
      simp [dohPost, validated, textual, typed, kept] at answered
    refine ⟨src, message, rfl, .post isText (List.isPrefixOf_iff_prefix.mp typed) empty
      (of_decide_eq_true short), ?_⟩
    simpa [dohPost, validated, textual, typed, kept, empty] using answered
  · rintro ⟨src, message, validated, carries, answered⟩
    cases carries with
    | post isText typed nonempty short =>
        simp [dohPost, validated, Option.filter, isText, typed, nonempty, short, answered]

theorem dohGet_eq_ok_iff {host : Option (List UInt8)} {query : Option Text} :
    dohGet resolve decode state host query = some ⟨200, age, wire⟩ ↔
      ∃ src message, state.validate (extractHost host) = .ok src ∧
        DohRequest.Carries decode (.get query) message ∧
        resolveDoh resolve state.filterAaaa message src = some ⟨200, age, wire⟩ := by
  constructor
  · intro answered
    rcases validated : state.validate (extractHost host) with code | src
    · simp [dohGet, validated, DohState.status_of_validate validated] at answered
    by_cases missing : dnsParam query = []
    · simp [dohGet, validated, missing] at answered
    rcases decoded : decode (dnsParam query) with _ | message
    · simp [dohGet, validated, missing, decoded] at answered
    by_cases long : maxDnsMsg < message.length
    · simp [dohGet, validated, missing, decoded, long] at answered
    · simp only [dohGet, validated, List.isEmpty_iff, missing, decoded, long, if_false] at answered
      exact ⟨src, message, rfl, .get missing decoded (Nat.not_lt.mp long), answered⟩
  · rintro ⟨src, message, validated, carries, answered⟩
    cases carries with
    | get nonempty decoded short =>
        simp [dohGet, validated, nonempty, decoded, Nat.not_lt.mpr short, answered]

/-- A message gets over HTTPS the answer that it gets over a connection, to be
stored for as long as the records in it. -/
theorem dohRequest_eq_ok_iff {host : Option (List UInt8)} {request : DohRequest} :
    dohRequest resolve decode state host request = some ⟨200, age, wire⟩ ↔
      (∃ name, host = some name ∧ isHeaderText name = true ∧
        Text.toLowercase (name.takeWhile (· != colon)) ∈ dohHosts state.proxyTld) ∧
      state.Admits ∧
      ∃ message, request.Carries decode message ∧
        replyTo state.filterAaaa ⟨resolve state.client, 0, none⟩ message = some wire ∧
        age = some ((responseTtls wire).min?.getD 0) := by
  have either : dohRequest resolve decode state host request = some ⟨200, age, wire⟩ ↔
      ∃ src message, state.validate (extractHost host) = .ok src ∧
        request.Carries decode message ∧
        resolveDoh resolve state.filterAaaa message src = some ⟨200, age, wire⟩ := by
    cases request with
    | post contentType body => exact dohPost_eq_ok_iff
    | get query => exact dohGet_eq_ok_iff
  simp only [either, DohState.validate_eq_ok_iff, resolveDoh_eq_ok_iff, isDohHost_extractHost_iff]
  constructor
  · rintro ⟨_, message, ⟨served, admitted, rfl⟩, carries, replied⟩
    exact ⟨served, admitted, message, carries, replied⟩
  · rintro ⟨served, admitted, message, carries, replied⟩
    exact ⟨_, message, ⟨served, admitted, rfl⟩, carries, replied⟩

end Answers

end Numa
