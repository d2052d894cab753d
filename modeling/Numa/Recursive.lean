import Numa.Cache
import Numa.Interaction

/-!
# Iterative resolution

`resolve_iterative` of `recursive.rs` as an interaction.  The shared state is
touched in atomic effects, one for each time a lock is held, and a query to a
nameserver is an effect whose answer is whatever arrives.  The order in which
the round-trip times put the addresses is an answer too, since the table they
are kept in changes with every query.
-/

namespace Numa

inductive SocketAddr
  | v4 (addr : Ipv4Addr) (port : UInt16)
  | v6 (addr : Ipv6Addr) (port : UInt16)
  deriving DecidableEq

def recordToAddr : DnsRecord → Option SocketAddr
  | .a _ addr _ => some (.v4 addr 53)
  | .aaaa _ addr _ => some (.v6 addr 53)
  | _ => none

/-- `MAX_REFERRAL_DEPTH`. -/
def maxReferralDepth : Nat := 10

/-- `MAX_CNAME_DEPTH`. -/
def maxCnameDepth : Nat := 8

inductive ResolveError
  /-- "max referral depth exceeded" -/
  | maxReferralDepthExceeded
  /-- "no nameserver available" -/
  | noNameserverAvailable
  /-- "max CNAME depth exceeded" -/
  | maxCnameDepthExceeded
  /-- "could not resolve any NS for {}" -/
  | couldNotResolveAnyNs (qname : Text)
  /-- "recursive resolution exhausted for {}" -/
  | exhausted (qname : Text)
  /-- A failed query, or an answer that does not parse. -/
  | failed
  deriving DecidableEq

/-- The places that call `resolve_iterative`. -/
inductive Caller
  /-- `resolve_recursive` for a client. -/
  | client
  /-- `resolve_recursive` for `refresh_entry`. -/
  | refresh
  /-- The chase of a CNAME. -/
  | cnameChase
  /-- The resolution of a nameserver without glue. -/
  | nameserver
  /-- The fetch of DNSKEY or DS records for the validator. -/
  | validator
  deriving DecidableEq

/-- The callers that put the result into the cache. -/
def Caller.stores : Caller → Bool
  | client => false
  | refresh => true
  | cnameChase => true
  | nameserver => false
  | validator => true

abbrev CacheKey := Text × QueryType

/-- One `insert_wire`, always with the status `Indeterminate`. -/
structure Insertion where
  domain : Text
  qtype : QueryType
  wire : Wire

inductive Disposition
  | leader
  | follower

/-- What a task asks of its surroundings. -/
inductive Effect
  /-- The lookup that `resolve_iterative` starts with. -/
  | lookup (caller : Caller) (qname : Text) (qtype : QueryType)
  /-- The lookup that `resolve_remote` starts with. -/
  | lookupWithStatus (qname : Text) (qtype : QueryType)
  /-- Any lookups under one read lock. -/
  | readCache
  /-- The insertions under one write lock. -/
  | insertWires (batch : List Insertion)
  | sortByUdpRtt (addrs : List SocketAddr)
  | sendQueryHedged (qname : Text) (qtype : QueryType) (servers : List SocketAddr)
  /-- `forward_with_failover_raw`. -/
  | forwardRaw
  /-- `refreshing.insert`. -/
  | markRefreshing (key : CacheKey)
  /-- `tokio::spawn` of the refresh of a marked entry. -/
  | spawnRefresh (key : CacheKey)
  /-- `refreshing.remove`. -/
  | unmarkRefreshing (key : CacheKey)
  | acquireInflight (key : CacheKey)
  /-- The drop of an `InflightGuard`. -/
  | releaseInflight (key : CacheKey)
  /-- The result that a leader broadcasts. -/
  | broadcast (key : CacheKey) (result : Option DnsPacket)
  /-- What a follower receives. -/
  | receive (key : CacheKey)

def Effect.Answer : Effect → Type
  | lookup .. => Option DnsPacket
  | lookupWithStatus .. => Option (DnsPacket × DnssecStatus × Freshness)
  | readCache => Text → QueryType → Option DnsPacket
  | insertWires _ => Unit
  | sortByUdpRtt _ => List SocketAddr
  | sendQueryHedged .. => Except Unit DnsPacket
  | forwardRaw => Except Unit Wire
  | markRefreshing _ => Bool
  | spawnRefresh _ => Unit
  | unmarkRefreshing _ => Unit
  | acquireInflight _ => Disposition
  | releaseInflight _ => Unit
  | broadcast .. => Unit
  | receive _ => Option DnsPacket

abbrev Resolver := Interaction Effect Effect.Answer

abbrev Resolution := Resolver (Except ResolveError DnsPacket)

namespace Resolver

/-! The effects as interactions with the types of their answers. -/

def lookup (caller : Caller) (qname : Text) (qtype : QueryType) : Resolver (Option DnsPacket) :=
  .ask (.lookup caller qname qtype) .done

def lookupWithStatus (qname : Text) (qtype : QueryType) :
    Resolver (Option (DnsPacket × DnssecStatus × Freshness)) :=
  .ask (.lookupWithStatus qname qtype) .done

def readCache : Resolver (Text → QueryType → Option DnsPacket) :=
  .ask .readCache .done

def insertWires (batch : List Insertion) : Resolver Unit :=
  .ask (.insertWires batch) .done

def sortByUdpRtt (addrs : List SocketAddr) : Resolver (List SocketAddr) :=
  .ask (.sortByUdpRtt addrs) .done

def sendQueryHedged (qname : Text) (qtype : QueryType) (servers : List SocketAddr) :
    Resolver (Except Unit DnsPacket) :=
  .ask (.sendQueryHedged qname qtype servers) .done

def forwardRaw : Resolver (Except Unit Wire) :=
  .ask .forwardRaw .done

def markRefreshing (key : CacheKey) : Resolver Bool :=
  .ask (.markRefreshing key) .done

def spawnRefresh (key : CacheKey) : Resolver Unit :=
  .ask (.spawnRefresh key) .done

def unmarkRefreshing (key : CacheKey) : Resolver Unit :=
  .ask (.unmarkRefreshing key) .done

def acquireInflight (key : CacheKey) : Resolver Disposition :=
  .ask (.acquireInflight key) .done

def releaseInflight (key : CacheKey) : Resolver Unit :=
  .ask (.releaseInflight key) .done

def broadcast (key : CacheKey) (result : Option DnsPacket) : Resolver Unit :=
  .ask (.broadcast key result) .done

def receive (key : CacheKey) : Resolver (Option DnsPacket) :=
  .ask (.receive key) .done

end Resolver

namespace DnsRecord

def isNs : DnsRecord → Bool
  | ns .. => true
  | _ => false

end DnsRecord

/-- `extract_ns_from_records`. -/
def extractNsFromRecords (records : List DnsRecord) : List Text :=
  records.filterMap fun record => match record with
    | .ns _ host _ => some host
    | _ => none

def extractNsNames (response : DnsPacket) : List Text :=
  extractNsFromRecords response.authorities

def referralZone (response : DnsPacket) : Option Text :=
  response.authorities.findSome? fun record => match record with
    | .ns domain _ _ => some domain
    | _ => none

def extractCnameTarget (response : DnsPacket) (qname : Text) : Option Text :=
  response.answers.findSome? fun record => match record with
    | .cname domain host _ => if domain.eqIgnoreAsciiCase qname then some host else none
    | _ => none

/-- The text behind the last dot. -/
def afterLastDot (qname : Text) : Text :=
  (qname.reverse.takeWhile (· != dot)).reverse

def minimizeQuery (qname : Text) (qtype : QueryType) (currentZone : Text) : Text × QueryType :=
  if currentZone ≠ [dot] then (qname, qtype)
  else if dot ∈ qname ∧ (afterLastDot qname).length + 1 < qname.length then
    (afterLastDot qname, .ns)
  else (qname, qtype)

/-- The texts behind the dots of a name, longest first. -/
def tailsAfterDots : Text → List Text
  | [] => []
  | octet :: rest =>
    if octet = dot then rest :: tailsAfterDots rest else tailsAfterDots rest

/-- The addresses the cache holds for a host. -/
def addrsFromView (view : Text → QueryType → Option DnsPacket) (host : Text) :
    List SocketAddr :=
  [QueryType.a, .aaaa].flatMap fun qt => match view host qt with
    | some packet => packet.answers.filterMap recordToAddr
    | none => []

/-- The search of `find_closest_ns` through the zones above a name. -/
def closestNs (view : Text → QueryType → Option DnsPacket) (rootHints : List SocketAddr) :
    List Text → Text × List SocketAddr
  | [] => ([dot], rootHints)
  | zone :: zones =>
    match view zone .ns with
    | some cached =>
      let nsRecords :=
        if cached.answers.any DnsRecord.isNs then cached.answers else cached.authorities
      let addrs := (extractNsFromRecords nsRecords).flatMap (addrsFromView view)
      if addrs = [] then closestNs view rootHints zones else (zone, addrs)
    | none => closestNs view rootHints zones

def findClosestNs (view : Text → QueryType → Option DnsPacket) (rootHints : List SocketAddr)
    (qname : Text) : Text × List SocketAddr :=
  closestNs view rootHints (qname :: tailsAfterDots qname)

def makeGluePacket : DnsPacket where
  header := { response := true, rescode := .noerror }

def glueAddrsFor (response : DnsPacket) (nsName : Text) : List SocketAddr :=
  (response.resources.filter fun record =>
    match record with
    | .a domain _ _ => domain.eqIgnoreAsciiCase nsName
    | .aaaa domain _ _ => domain.eqIgnoreAsciiCase nsName
    | _ => false).filterMap recordToAddr

/-- The A records of the additional section for a nameserver. -/
def glueA (response : DnsPacket) (nsName : Text) : List DnsRecord :=
  response.resources.filterMap fun record => match record with
    | .a domain addr ttl =>
      if domain.eqIgnoreAsciiCase nsName then some (.a nsName addr ttl) else none
    | _ => none

/-- The AAAA records of the additional section for a nameserver. -/
def glueAaaa (response : DnsPacket) (nsName : Text) : List DnsRecord :=
  response.resources.filterMap fun record => match record with
    | .aaaa domain addr ttl =>
      if domain.eqIgnoreAsciiCase nsName then some (.aaaa nsName addr ttl) else none
    | _ => none

/-- A packet with the answers, unless there are none. -/
def gluePacket (domain : Text) (qtype : QueryType) (answers : List DnsRecord) :
    List (Text × QueryType × DnsPacket) :=
  if answers = [] then [] else [(domain, qtype, { makeGluePacket with answers := answers })]

/-- What `cache_glue` inserts. -/
def cacheGlue (response : DnsPacket) (nsNames : List Text) :
    List (Text × QueryType × DnsPacket) :=
  nsNames.flatMap fun nsName =>
    gluePacket nsName .a (glueA response nsName) ++
      gluePacket nsName .aaaa (glueAaaa response nsName)

/-- What `cache_ns_delegation` inserts. -/
def cacheNsDelegation (zone : Text) (response : DnsPacket) :
    List (Text × QueryType × DnsPacket) :=
  gluePacket zone .ns (response.authorities.filter DnsRecord.isNs)

/-- Is the record a DS or an RRSIG over DS? -/
def isDsData : DnsRecord → Bool
  | .ds _ => true
  | .rrsig sig => QueryType.fromNum sig.typeCovered == .ds
  | _ => false

/-- Add a record to the group of its lowercased owner. -/
def addByDomain (groups : List (Text × List DnsRecord)) (record : DnsRecord) :
    List (Text × List DnsRecord) :=
  match groups with
  | [] => [(record.domain.toLowercase, [record])]
  | (domain, records) :: groups =>
    if domain = record.domain.toLowercase then (domain, records ++ [record]) :: groups
    else (domain, records) :: addByDomain groups record

/-- What `cache_ds_from_authority` inserts. -/
def cacheDsFromAuthority (response : DnsPacket) : List (Text × QueryType × DnsPacket) :=
  ((response.authorities.filter isDsData).foldl addByDomain []).flatMap fun (domain, records) =>
    gluePacket domain .ds records

/-- What a resolution is given. -/
structure ResolverEnv where
  /-- Does `DnsPacket::write` succeed? -/
  writable : DnsPacket → Bool
  rootHints : List SocketAddr

section Resolve

variable (env : ResolverEnv)

/-- `DnsCache::insert` of some packets under one write lock. -/
def insertPackets (packets : List (Text × QueryType × DnsPacket)) : Resolver Unit :=
  Resolver.insertWires (packets.filterMap fun (domain, qtype, packet) =>
    if env.writable packet then some ⟨domain, qtype, .ofPacket packet⟩ else none)

def addrsFromCache : List Text → Resolver (List SocketAddr)
  | [] => pure []
  | nsName :: nsNames => do
    let view ← Resolver.readCache
    let addrs ← addrsFromCache nsNames
    pure (addrsFromView view nsName ++ addrs)

def resolveNsAddrsFromGlue (response : DnsPacket) (nsNames : List Text) :
    Resolver (List SocketAddr) := do
  insertPackets env (cacheGlue response nsNames)
  let addrs := nsNames.flatMap (glueAddrsFor response)
  if addrs = [] then addrsFromCache nsNames else pure addrs

section Round

variable (chase resolveNs : Text → QueryType → Resolution) (qname : Text) (qtype : QueryType)
  (again : Text → List SocketAddr → Nat → Resolution)

/-- The addresses of a nameserver without glue, of the first type that has
some. -/
def resolveNsName (nsName : Text) : List QueryType → Resolver (List SocketAddr)
  | [] => pure []
  | qt :: qts => do
    match ← resolveNs nsName qt with
    | .ok nsResp =>
      let addrs := nsResp.answers.filterMap recordToAddr
      if addrs = [] then resolveNsName nsName qts else pure addrs
    | .error _ => resolveNsName nsName qts

/-- The addresses of the first nameserver that has some. -/
def resolveNsNames : List Text → Resolver (List SocketAddr)
  | [] => pure []
  | nsName :: nsNames => do
    let addrs ← resolveNsName resolveNs nsName [.a, .aaaa]
    if addrs = [] then resolveNsNames nsNames else pure addrs

/-- The zone that the answer to a minimized query refers to. -/
def enterZone (currentZone : Text) (response : DnsPacket) : Resolver Text :=
  match referralZone response with
  | some zone => do
    insertPackets env (cacheNsDelegation zone response)
    pure zone
  | none => pure currentZone

/-- The answer to a minimized query: on to the servers it names. -/
def followMinimized (currentZone : Text) (nsAddrs : List SocketAddr) (nsIdx : Nat)
    (response : DnsPacket) : Resolution := do
  let currentZone ← enterZone env currentZone response
  let answerNs := extractNsFromRecords response.answers
  let allNs := if answerNs = [] then extractNsNames response else answerNs
  let newAddrs ← resolveNsAddrsFromGlue env response allNs
  if newAddrs = [] then again currentZone nsAddrs (nsIdx + 1)
  else do
    let sorted ← Resolver.sortByUdpRtt newAddrs
    again currentZone sorted 0

/-- Cache a response and return it. -/
def keepResponse (response : DnsPacket) : Resolution := do
  insertPackets env [(qname, qtype, response)]
  pure (.ok response)

/-- The response with the answers of the end of its CNAME chain. -/
def combineResponse (response finalResp : DnsPacket) : DnsPacket :=
  { response with
    answers := response.answers ++ finalResp.answers
    header := { response.header with rescode := finalResp.header.rescode } }

/-- A response with answers. -/
def handleAnswers (response : DnsPacket) : Resolution :=
  if response.answers.any (fun record => record.queryType == qtype) || qtype == .cname then
    keepResponse env qname qtype response
  else
    match extractCnameTarget response qname with
    | some cnameTarget => do
      match ← chase cnameTarget qtype with
      | .ok finalResp => keepResponse env qname qtype (combineResponse response finalResp)
      | .error error => pure (.error error)
    | none => keepResponse env qname qtype response

/-- The addresses to go on with after a referral. -/
def referralAddrs (response : DnsPacket) (nsNames : List Text) : Resolver (List SocketAddr) := do
  let glueAddrs ← resolveNsAddrsFromGlue env response nsNames
  if glueAddrs = [] then resolveNsNames resolveNs nsNames else pure glueAddrs

/-- A referral: on to the servers of the zone below. -/
def followReferral (currentZone : Text) (response : DnsPacket) : Resolution :=
  let currentZone := (referralZone response).getD currentZone
  let nsNames := extractNsNames response
  if nsNames = [] then pure (.ok response)
  else do
    insertPackets env (cacheNsDelegation currentZone response ++ cacheDsFromAuthority response)
    let newNsAddrs ← referralAddrs env resolveNs response nsNames
    if newNsAddrs = [] then pure (.error (.couldNotResolveAnyNs qname))
    else do
      let sorted ← Resolver.sortByUdpRtt newNsAddrs
      again currentZone sorted 0

def handleResponse (minimized : Bool) (currentZone : Text) (nsAddrs : List SocketAddr)
    (nsIdx : Nat) (response : DnsPacket) : Resolution :=
  if minimized ∧ (response.authorities ≠ [] ∨ response.answers ≠ []) then
    followMinimized env again currentZone nsAddrs nsIdx response
  else if response.answers ≠ [] then handleAnswers env chase qname qtype response
  else if response.header.rescode = .nxdomain ∨ response.header.rescode = .refused then
    keepResponse env qname qtype response
  else followReferral env resolveNs qname again currentZone response

end Round

/-- The loop over the servers, with the given number of rounds left. -/
def serverLoop (chase resolveNs : Text → QueryType → Resolution) (qname : Text)
    (qtype : QueryType) : (rounds : Nat) → Text → List SocketAddr → Nat → Resolution
  | 0, _, _, _ => pure (.error (.exhausted qname))
  | rounds + 1, currentZone, nsAddrs, nsIdx =>
    if nsAddrs.length ≤ nsIdx then pure (.error .noNameserverAvailable)
    else do
      let (qName, qType) := minimizeQuery qname qtype currentZone
      match ← Resolver.sendQueryHedged qName qType (nsAddrs.drop nsIdx) with
      | .error _ =>
        serverLoop chase resolveNs qname qtype rounds currentZone nsAddrs
          (nsIdx + min (nsAddrs.length - nsIdx) 2)
      | .ok response =>
        let minimized := decide (qType ≠ qtype) || !qName.eqIgnoreAsciiCase qname
        handleResponse env chase resolveNs qname qtype
          (serverLoop chase resolveNs qname qtype rounds) minimized currentZone nsAddrs nsIdx
          response

/-- `resolve_iterative` with the given number of levels left before the
referral depth exceeds its maximum.  At the last level the source skips the
resolution of nameservers, which would fail at once. -/
def resolveWith (chase : Text → QueryType → Resolution) :
    (levels : Nat) → Caller → Text → QueryType → Resolution
  | 0, _, _, _ => pure (.error .maxReferralDepthExceeded)
  | levels + 1, caller, qname, qtype => do
    match ← Resolver.lookup caller qname qtype with
    | some cached => pure (.ok cached)
    | none =>
      let view ← Resolver.readCache
      let (currentZone, nsAddrs) := findClosestNs view env.rootHints qname
      let sorted ← Resolver.sortByUdpRtt nsAddrs
      serverLoop env chase (resolveWith chase levels .nameserver) qname qtype
        maxReferralDepth currentZone sorted 0

/-- The chase of a CNAME with the given number of CNAMEs left before the depth
exceeds its maximum. -/
def chaseCname : (cnames : Nat) → Text → QueryType → Resolution
  | 0, _, _ => pure (.error .maxCnameDepthExceeded)
  | cnames + 1, cnameTarget, qtype =>
    resolveWith env (chaseCname cnames) (maxReferralDepth + 1) .cnameChase cnameTarget qtype

def resolveIterative (caller : Caller) (qname : Text) (qtype : QueryType)
    (referralDepth cnameDepth : Nat) : Resolution :=
  resolveWith env (chaseCname env (maxCnameDepth - cnameDepth))
    (maxReferralDepth + 1 - referralDepth) caller qname qtype

def resolveRecursive (caller : Caller) (qname : Text) (qtype : QueryType)
    (originalQuery : DnsPacket) : Resolution := do
  match ← resolveIterative env caller qname qtype 0 0 with
  | .ok resp =>
    pure (.ok
      { resp with
        header :=
          { resp.header with
            id := originalQuery.header.id
            recursionAvailable := true
            recursionDesired := originalQuery.header.recursionDesired }
        questions := originalQuery.questions })
  | .error error => pure (.error error)

end Resolve

end Numa
