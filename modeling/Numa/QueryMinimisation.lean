import Numa.FullQuestions

/-!
# Query minimisation

`resolve_iterative` sends a root server no more than the last label of a name.
Where the root refers alike with the shortened question and the full one, it
returns what the resolution with full questions returns.  Where the root denies
the shortened question, that is names no server for it, it always fails.
-/

namespace Numa

open Interaction

/-! ## What the root has to answer -/

namespace Network

variable (network : Network)

/-- The answer of some servers to the shortened question. -/
def shortAnswer (servers : List SocketAddr) (qname : Text) : DnsPacket :=
  network.serve servers (afterLastDot qname) .ns

/-- The questions that a resolution comes to: its own, those for the targets of
CNAMEs, and those for the addresses of nameservers without glue. -/
inductive Met (qname : Text) (qtype : QueryType) : Text → QueryType → Prop
  | start : Met qname qtype qname qtype
  | target {name target : Text} {type : QueryType} (servers : List SocketAddr)
      (met : Met qname qtype name type)
      (other : (network.serve servers name type).answers.any (fun record =>
        record.queryType == type) = false)
      (isTarget : extractCnameTarget (network.serve servers name type) name = some target) :
      Met qname qtype target type
  | server {name nsName : Text} {type qt : QueryType} (servers : List SocketAddr)
      (met : Met qname qtype name type)
      (noAnswers : (network.serve servers name type).answers = [])
      (named : nsName ∈ extractNsNames (network.serve servers name type))
      (noGlue : (extractNsNames (network.serve servers name type)).flatMap
        (glueAddrsFor (network.serve servers name type)) = [])
      (address : qt ∈ [QueryType.a, .aaaa]) :
      Met qname qtype nsName qt

/-- The root refers alike with the shortened question and the full one: to the
same nameservers, of which it has an address. -/
structure Refers (rootHints : List SocketAddr) (name : Text) (type : QueryType) : Prop where
  named : afterLastDot name ≠ []
  shortAnswers : (network.shortAnswer rootHints name).answers = []
  answers : (network.serve rootHints name type).answers = []
  not_nxdomain : (network.serve rootHints name type).header.rescode ≠ .nxdomain
  not_refused : (network.serve rootHints name type).header.rescode ≠ .refused
  servers : (network.shortAnswer rootHints name).authorities.filter DnsRecord.isNs =
    (network.serve rootHints name type).authorities.filter DnsRecord.isNs
  resources : (network.shortAnswer rootHints name).resources =
    (network.serve rootHints name type).resources
  glue : (extractNsNames (network.serve rootHints name type)).flatMap
    (glueAddrsFor (network.serve rootHints name type)) ≠ []

/-- The names of the DS records that the root refers with. -/
def RootDs (rootHints : List SocketAddr) (qname : Text) (qtype : QueryType) (domain : Text) :
    Prop :=
  ∃ name type, network.Met qname qtype name type ∧ shortenedAtRoot name = true ∧
    domain ∈ (cacheDsFromAuthority (network.serve rootHints name type)).map Prod.fst

/-- The root refers with every question it is asked, and a question for DS
records is not for those it refers with. -/
structure Delegates (rootHints : List SocketAddr) (qname : Text) (qtype : QueryType) : Prop where
  refers : ∀ name type, network.Met qname qtype name type → shortenedAtRoot name = true →
    network.Refers rootHints name type
  unseen : ∀ name, network.Met qname qtype name .ds → ¬ network.RootDs rootHints qname qtype name

/-- The root servers answer the shortened question, and name no server. -/
def Denies (rootHints : List SocketAddr) (qname : Text) : Prop :=
  ∀ servers, servers ≠ [] → servers ⊆ rootHints →
    ((network.shortAnswer servers qname).authorities ≠ [] ∨
      (network.shortAnswer servers qname).answers ≠ []) ∧
    extractNsFromRecords (network.shortAnswer servers qname).answers = [] ∧
    extractNsNames (network.shortAnswer servers qname) = []

end Network

/-! ## Referrals that name the same servers -/

theorem filterMap_ns_filter {α : Type} (get : DnsRecord → Option α)
    (onlyNs : ∀ record, record.isNs = false → get record = none) (records : List DnsRecord) :
    (records.filter DnsRecord.isNs).filterMap get = records.filterMap get := by
  rw [List.filterMap_filter]
  congr 1
  funext record
  cases isNs : record.isNs with
  | false => simp [onlyNs record isNs]
  | true => simp

theorem extractNsFromRecords_filter (records : List DnsRecord) :
    extractNsFromRecords (records.filter DnsRecord.isNs) = extractNsFromRecords records := by
  apply filterMap_ns_filter
  intro record notNs
  cases record with
  | ns domain host ttl => simp [DnsRecord.isNs] at notNs
  | _ => rfl

theorem referralZone_eq_head (response : DnsPacket) :
    referralZone response =
      ((response.authorities.filter DnsRecord.isNs).map DnsRecord.domain).head? := by
  unfold referralZone
  induction response.authorities with
  | nil => rfl
  | cons record records ih =>
      cases record with
      | ns domain host ttl => rfl
      | _ => simpa [DnsRecord.isNs] using ih

/-- Packets with the same nameservers and the same additional section refer
alike. -/
structure SameReferral (first second : DnsPacket) : Prop where
  servers : first.authorities.filter DnsRecord.isNs = second.authorities.filter DnsRecord.isNs
  resources : first.resources = second.resources

variable {first second : DnsPacket}

theorem SameReferral.referralZone (same : SameReferral first second) :
    referralZone first = Numa.referralZone second := by
  rw [referralZone_eq_head, referralZone_eq_head, same.servers]

theorem SameReferral.extractNsNames (same : SameReferral first second) :
    extractNsNames first = Numa.extractNsNames second := by
  rw [Numa.extractNsNames, Numa.extractNsNames, ← extractNsFromRecords_filter, same.servers,
    extractNsFromRecords_filter]

theorem SameReferral.cacheNsDelegation (same : SameReferral first second) (zone : Text) :
    cacheNsDelegation zone first = Numa.cacheNsDelegation zone second := by
  rw [Numa.cacheNsDelegation, Numa.cacheNsDelegation, same.servers]

theorem SameReferral.resolveNsAddrsFromGlue (same : SameReferral first second)
    (env : ResolverEnv) (nsNames : List Text) :
    resolveNsAddrsFromGlue env first nsNames = Numa.resolveNsAddrsFromGlue env second nsNames := by
  have sameGlue : cacheGlue first nsNames = cacheGlue second nsNames := by
    simp only [cacheGlue, glueA, glueAaaa, same.resources]
  have sameAddrs : glueAddrsFor first = glueAddrsFor second := by
    funext nsName
    simp only [glueAddrsFor, same.resources]
  simp only [Numa.resolveNsAddrsFromGlue, sameGlue, sameAddrs]

/-! ## Effects in lockstep -/

section Together

variable {network : Network} {now : Nat} {hidden : Text → Prop} {env : ResolverEnv}

/-- The two computations stay in lockstep in caches that are alike. -/
abbrev Together {α β : Type} (network : Network) (now : Nat) (hidden : Text → Prop)
    (related : α → β → Prop) (first : Resolver α) (second : Resolver β) : Prop :=
  Lockstep (network.protocol now) (Alike hidden) related first second

theorem together_pure {α : Type} (value : α) :
    Together network now hidden (· = ·) (pure value : Resolver α) (pure value) :=
  lockstep_done rfl

theorem together_lookup (caller : Caller) {qname : Text} {qtype : QueryType}
    (shown : qtype = .ds → ¬ hidden qname) :
    Together network now hidden (· = ·) (Resolver.lookup caller qname qtype)
      (Resolver.lookup caller qname qtype) := by
  apply lockstep_ask
  rintro left right alike _ _ ⟨rfl, rfl⟩ _ _ ⟨rfl, rfl⟩
  exact ⟨alike, lockstep_done (alike.lookup shown)⟩

theorem together_readCache :
    Together network now hidden AlikeViews Resolver.readCache Resolver.readCache := by
  apply lockstep_ask
  rintro left right alike _ _ ⟨rfl, rfl⟩ _ _ ⟨rfl, rfl⟩
  refine ⟨alike, lockstep_done fun name type notDs => ?_⟩
  exact alike.lookup fun isDs => absurd isDs notDs

theorem together_sortByUdpRtt (addrs : List SocketAddr) :
    Together network now hidden
      (fun sorted others => sorted.Perm addrs ∧ others.Perm addrs)
      (Resolver.sortByUdpRtt addrs) (Resolver.sortByUdpRtt addrs) := by
  apply lockstep_ask
  rintro left right alike sorted _ ⟨perm, rfl⟩ others _ ⟨otherPerm, rfl⟩
  exact ⟨alike, lockstep_done ⟨perm, otherPerm⟩⟩

theorem together_sendQueryHedged (qname other : Text) (qtype otherType : QueryType)
    (servers others : List SocketAddr) :
    Together network now hidden
      (fun answer otherAnswer => answer = .ok (network.serve servers qname qtype) ∧
        otherAnswer = .ok (network.serve others other otherType))
      (Resolver.sendQueryHedged qname qtype servers)
      (Resolver.sendQueryHedged other otherType others) := by
  apply lockstep_ask
  rintro left right alike _ _ ⟨rfl, rfl⟩ _ _ ⟨rfl, rfl⟩
  exact ⟨alike, lockstep_done ⟨rfl, rfl⟩⟩

theorem together_insertPackets (packets : List (Text × QueryType × DnsPacket)) :
    Together network now hidden (· = ·) (insertPackets env packets)
      (insertPackets env packets) := by
  apply lockstep_ask
  rintro left right alike _ _ rfl _ _ rfl
  exact ⟨alike.storeAll _, lockstep_done rfl⟩

/-- A delegation may be stored together with DS records that are never looked
up. -/
theorem together_insertDelegation (delegation ds : List (Text × QueryType × DnsPacket))
    (unseen : ∀ item ∈ ds, item.2.1 = .ds ∧ hidden item.1) :
    Together network now hidden (· = ·) (insertPackets env delegation)
      (insertPackets env (delegation ++ ds)) := by
  apply lockstep_ask
  rintro left right alike _ _ rfl _ _ rfl
  refine ⟨?_, lockstep_done rfl⟩
  rw [List.filterMap_append, storeAll_append]
  apply (alike.storeAll _).storeAll_hidden
  intro item itemMem
  obtain ⟨⟨domain, qtype, packet⟩, packetMem, stored⟩ := List.mem_filterMap.mp itemMem
  obtain ⟨writable, isItem⟩ := Option.ite_none_right_eq_some.mp stored
  cases isItem
  exact unseen _ packetMem

theorem together_addrsFromCache (nsNames : List Text) :
    Together network now hidden (· = ·) (addrsFromCache nsNames) (addrsFromCache nsNames) := by
  induction nsNames with
  | nil => exact together_pure []
  | cons nsName nsNames ih =>
      apply together_readCache.bind
      intro view other alike
      apply ih.bind
      rintro addrs _ rfl
      rw [addrsFromView_congr alike]
      exact together_pure _

/-- The addresses of nameservers are those of the glue, if it has any. -/
theorem together_resolveNsAddrsFromGlue (response : DnsPacket) (nsNames : List Text) :
    Together network now hidden
      (fun addrs others => addrs = others ∧
        (nsNames.flatMap (glueAddrsFor response) ≠ [] →
          addrs = nsNames.flatMap (glueAddrsFor response)))
      (resolveNsAddrsFromGlue env response nsNames)
      (resolveNsAddrsFromGlue env response nsNames) := by
  apply (together_insertPackets _).bind
  rintro _ _ -
  dsimp only
  split
  · rename_i noGlue
    apply (together_addrsFromCache nsNames).mono
    exact fun addrs others same => ⟨same, fun glue => absurd noGlue glue⟩
  · exact lockstep_done ⟨rfl, fun _ => rfl⟩

/-! ## Rounds in lockstep -/

section Round

variable {chase otherChase resolveNs otherNs : Text → QueryType → Resolution} {name : Text}
  {type : QueryType} {again otherAgain : Text → List SocketAddr → Nat → Resolution}
  {response : DnsPacket} {atRoot : List SocketAddr → Prop}

theorem together_keepResponse (response : DnsPacket) :
    Together network now hidden (· = ·) (keepResponse env name type response)
      (keepResponse env name type response) := by
  apply (together_insertPackets _).bind
  rintro _ _ -
  exact together_pure _

theorem together_handleAnswers
    (chases : response.answers.any (fun record => record.queryType == type) = false →
      ∀ target, extractCnameTarget response name = some target →
        Together network now hidden (· = ·) (chase target type) (otherChase target type)) :
    Together network now hidden (· = ·) (handleAnswers env chase name type response)
      (handleAnswers env otherChase name type response) := by
  unfold handleAnswers
  split
  · exact together_keepResponse response
  · rename_i noTarget
    rw [Bool.or_eq_true, not_or, Bool.not_eq_true] at noTarget
    split
    · rename_i target isTarget
      apply (chases noTarget.1 target isTarget).bind
      rintro result _ rfl
      cases result with
      | error error => exact together_pure _
      | ok finalResp => exact together_keepResponse _
    · exact together_keepResponse response

theorem together_resolveNsName {nsName : Text} {qts : List QueryType}
    (resolves : ∀ qt ∈ qts,
      Together network now hidden (· = ·) (resolveNs nsName qt) (otherNs nsName qt)) :
    Together network now hidden (· = ·) (resolveNsName resolveNs nsName qts)
      (resolveNsName otherNs nsName qts) := by
  induction qts with
  | nil => exact together_pure []
  | cons qt qts ih =>
      have later := ih fun qt qtMem => resolves qt (by simp [qtMem])
      apply (resolves qt (by simp)).bind
      rintro result _ rfl
      cases result with
      | error error => exact later
      | ok nsResp =>
          dsimp only
          split
          · exact later
          · exact together_pure _

theorem together_resolveNsNames {nsNames : List Text}
    (resolves : ∀ nsName ∈ nsNames, ∀ qt ∈ [QueryType.a, .aaaa],
      Together network now hidden (· = ·) (resolveNs nsName qt) (otherNs nsName qt)) :
    Together network now hidden (· = ·) (resolveNsNames resolveNs nsNames)
      (resolveNsNames otherNs nsNames) := by
  induction nsNames with
  | nil => exact together_pure []
  | cons nsName nsNames ih =>
      apply (together_resolveNsName (resolves nsName (by simp))).bind
      rintro addrs _ rfl
      split
      · exact ih fun later laterMem => resolves later (by simp [laterMem])
      · exact together_pure _

theorem together_referralAddrs {nsNames : List Text}
    (resolves : nsNames.flatMap (glueAddrsFor response) = [] → ∀ nsName ∈ nsNames,
      ∀ qt ∈ [QueryType.a, .aaaa],
        Together network now hidden (· = ·) (resolveNs nsName qt) (otherNs nsName qt)) :
    Together network now hidden (· = ·) (referralAddrs env resolveNs response nsNames)
      (referralAddrs env otherNs response nsNames) := by
  apply (together_resolveNsAddrsFromGlue response nsNames).bind
  rintro addrs _ ⟨rfl, isGlue⟩
  split
  · rename_i noAddrs
    apply together_resolveNsNames
    apply resolves
    by_contra glue
    exact glue ((isGlue glue).symm.trans noAddrs)
  · exact together_pure _

/-- The next rounds of the two loops, at the same zone and the same servers,
which at the root are some that are known. -/
abbrev TogetherAgain (network : Network) (now : Nat) (hidden : Text → Prop)
    (atRoot : List SocketAddr → Prop)
    (again otherAgain : Text → List SocketAddr → Nat → Resolution) : Prop :=
  ∀ zone addrs others, addrs.Perm others → (zone = [dot] → atRoot addrs) →
    Together network now hidden (· = ·) (again zone addrs 0) (otherAgain zone others 0)

theorem together_sortedAgain {addrs : List SocketAddr} {zone : Text}
    (together : TogetherAgain network now hidden atRoot again otherAgain)
    (below : zone ≠ [dot]) :
    Together network now hidden (· = ·)
      (Resolver.sortByUdpRtt addrs >>= fun sorted => again zone sorted 0)
      (Resolver.sortByUdpRtt addrs >>= fun sorted => otherAgain zone sorted 0) := by
  apply (together_sortByUdpRtt addrs).bind
  rintro sorted others ⟨perm, otherPerm⟩
  exact together zone sorted others (perm.trans otherPerm.symm) fun isRoot => absurd isRoot below

theorem together_followReferral
    (descends : referralZone response ≠ some [dot])
    (resolves : (extractNsNames response).flatMap (glueAddrsFor response) = [] →
      ∀ nsName ∈ extractNsNames response, ∀ qt ∈ [QueryType.a, .aaaa],
        Together network now hidden (· = ·) (resolveNs nsName qt) (otherNs nsName qt))
    (together : TogetherAgain network now hidden atRoot again otherAgain)
    (currentZone : Text) :
    Together network now hidden (· = ·)
      (followReferral env resolveNs name again currentZone response)
      (followReferral env otherNs name otherAgain currentZone response) := by
  unfold followReferral
  dsimp only
  split
  · exact together_pure _
  · rename_i named
    obtain ⟨zone, isZone⟩ := ResolverRules.exists_referralZone named
    have below : zone ≠ [dot] := fun isRoot => descends (isRoot ▸ isZone)
    rw [isZone, Option.getD_some]
    apply (together_insertPackets _).bind
    rintro _ _ -
    apply (together_referralAddrs resolves).bind
    rintro addrs _ rfl
    split
    · exact together_pure _
    · exact together_sortedAgain together below

/-- The answer to a full question. -/
theorem handleResponse_full (currentZone : Text) (addrs : List SocketAddr) (nsIdx : Nat) :
    handleResponse env chase resolveNs name type again false currentZone addrs nsIdx response =
      if response.answers ≠ [] then handleAnswers env chase name type response
      else if response.header.rescode = .nxdomain ∨ response.header.rescode = .refused then
        keepResponse env name type response
      else followReferral env resolveNs name again currentZone response := by
  rw [handleResponse, if_neg (by simp)]

theorem together_handleResponse {addrs others : List SocketAddr}
    (chases : response.answers.any (fun record => record.queryType == type) = false →
      ∀ target, extractCnameTarget response name = some target →
        Together network now hidden (· = ·) (chase target type) (otherChase target type))
    (descends : referralZone response ≠ some [dot])
    (resolves : response.answers = [] →
      (extractNsNames response).flatMap (glueAddrsFor response) = [] →
      ∀ nsName ∈ extractNsNames response, ∀ qt ∈ [QueryType.a, .aaaa],
        Together network now hidden (· = ·) (resolveNs nsName qt) (otherNs nsName qt))
    (together : TogetherAgain network now hidden atRoot again otherAgain)
    (currentZone : Text) (nsIdx : Nat) :
    Together network now hidden (· = ·)
      (handleResponse env chase resolveNs name type again false currentZone addrs nsIdx response)
      (handleResponse env otherChase otherNs name type otherAgain false currentZone others nsIdx
        response) := by
  rw [handleResponse_full, handleResponse_full]
  split
  · exact together_handleAnswers chases
  · rename_i noAnswers
    split
    · exact together_keepResponse response
    · exact together_followReferral descends (resolves (not_not.mp noAnswers)) together currentZone

theorem qtype_of_mem_cacheDsFromAuthority {item : Text × QueryType × DnsPacket}
    (itemMem : item ∈ cacheDsFromAuthority response) : item.2.1 = .ds := by
  obtain ⟨⟨domain, records⟩, -, inGroup⟩ := List.mem_flatMap.mp itemMem
  unfold gluePacket at inGroup
  dsimp only at inGroup
  split at inGroup
  · cases inGroup
  · rw [List.mem_singleton.mp inGroup]

/-- Where the root refers alike, following its answer to the shortened question
comes to the same servers as following its answer to the full one. -/
theorem together_followMinimized {rootHints addrs others : List SocketAddr}
    (refers : network.Refers rootHints name type)
    (unseen : ∀ domain ∈ (cacheDsFromAuthority (network.serve rootHints name type)).map Prod.fst,
      hidden domain)
    (together : TogetherAgain network now hidden atRoot again otherAgain)
    (currentZone : Text) (nsIdx : Nat) :
    Together network now hidden (· = ·)
      (followMinimized env again currentZone addrs nsIdx (network.shortAnswer rootHints name))
      (handleResponse env otherChase otherNs name type otherAgain false currentZone others nsIdx
        (network.serve rootHints name type)) := by
  have same : SameReferral (network.shortAnswer rootHints name)
      (network.serve rootHints name type) := ⟨refers.servers, refers.resources⟩
  have descends := network.descends rootHints name type
  have rescode : ¬ ((network.serve rootHints name type).header.rescode = .nxdomain ∨
      (network.serve rootHints name type).header.rescode = .refused) := by
    rintro (isNxdomain | isRefused)
    · exact refers.not_nxdomain isNxdomain
    · exact refers.not_refused isRefused
  have isDs : ∀ item ∈ cacheDsFromAuthority (network.serve rootHints name type),
      item.2.1 = .ds := fun _ => qtype_of_mem_cacheDsFromAuthority
  have glue := refers.glue
  have noShortAnswers := refers.shortAnswers
  rw [handleResponse_full, if_neg (not_not.mpr refers.answers), if_neg rescode]
  generalize network.serve rootHints name type = full at *
  generalize network.shortAnswer rootHints name = short at *
  have named : extractNsNames full ≠ [] := by
    intro unnamed
    exact glue (by rw [unnamed, List.flatMap_nil])
  obtain ⟨zone, isZone⟩ := ResolverRules.exists_referralZone named
  have below : zone ≠ [dot] := fun isRoot => descends (isRoot ▸ isZone)
  have shortZone : referralZone short = some zone := same.referralZone.trans isZone
  have noServers : extractNsFromRecords short.answers = [] := by
    rw [noShortAnswers]
    rfl
  have together_enterZone : Together network now hidden (fun entered _ => entered = zone)
      (enterZone env currentZone short)
      (insertPackets env (cacheNsDelegation zone full ++ cacheDsFromAuthority full)) := by
    have entered : enterZone env currentZone short =
        insertPackets env (cacheNsDelegation zone full) >>= fun _ => pure zone := by
      simp only [enterZone, shortZone, same.cacheNsDelegation]
    rw [entered]
    apply (together_insertDelegation _ _ _).bind_left
    · exact fun _ _ _ => lockstep_done rfl
    · exact fun item itemMem => ⟨isDs item itemMem, unseen _ (List.mem_map_of_mem itemMem)⟩
  unfold followMinimized followReferral
  simp only [isZone, Option.getD_some, if_neg named, if_pos noServers, same.extractNsNames,
    same.resolveNsAddrsFromGlue]
  apply together_enterZone.bind
  rintro entered _ rfl
  have together_addrs : Together network now hidden
      (fun found others => found = (extractNsNames full).flatMap (glueAddrsFor full) ∧
        others = found)
      (resolveNsAddrsFromGlue env full (extractNsNames full))
      (referralAddrs env otherNs full (extractNsNames full)) := by
    apply (together_resolveNsAddrsFromGlue full _).bind_right
    rintro found _ ⟨rfl, isGlue⟩
    rw [isGlue glue, if_neg glue]
    exact lockstep_done ⟨rfl, rfl⟩
  apply together_addrs.bind
  rintro found _ ⟨rfl, rfl⟩
  rw [if_neg glue, if_neg glue]
  exact together_sortedAgain together below

end Round

/-! ## Resolutions in lockstep -/

section Resolve

variable {chase otherChase resolveNs otherNs : Text → QueryType → Resolution}
  {qname name : Text} {qtype type : QueryType}

/-- The two resolutions of every question that comes up stay in lockstep. -/
abbrev TogetherMet (network : Network) (now : Nat) (rootHints : List SocketAddr) (qname : Text)
    (qtype : QueryType) (first second : Text → QueryType → Resolution) : Prop :=
  ∀ name type, network.Met qname qtype name type →
    Together network now (network.RootDs rootHints qname qtype) (· = ·) (first name type)
      (second name type)

theorem together_serverLoop (delegates : network.Delegates env.rootHints qname qtype)
    (met : network.Met qname qtype name type)
    (chases : TogetherMet network now env.rootHints qname qtype chase otherChase)
    (resolves : TogetherMet network now env.rootHints qname qtype resolveNs otherNs)
    (rounds : Nat) :
    TogetherAgain network now (network.RootDs env.rootHints qname qtype)
      (fun addrs => shortenedAtRoot name = true → addrs.Perm env.rootHints)
      (serverLoop env chase resolveNs name type rounds)
      (fullServerLoop env otherChase otherNs name type rounds) := by
  induction rounds with
  | zero => exact fun _ _ _ _ _ => together_pure _
  | succ rounds ih =>
      intro zone addrs others perm atHints
      unfold serverLoop fullServerLoop
      rw [perm.length_eq]
      split
      · exact together_pure _
      · rw [List.drop_zero, List.drop_zero]
        by_cases shortened : zone = [dot] ∧ shortenedAtRoot name = true
        · -- The root: the shortened question against the full one.
          obtain ⟨rfl, shortened⟩ := shortened
          rw [minimizeQuery_of_shortened shortened]
          apply (together_sendQueryHedged _ _ _ _ _ _).bind
          rintro _ _ ⟨rfl, rfl⟩
          have refers := delegates.refers name type met shortened
          have isMinimized : (decide (QueryType.ns ≠ type) ||
              !(afterLastDot name).eqIgnoreAsciiCase name) = true := by
            rw [not_eqIgnoreAsciiCase_of_shortened shortened, Bool.not_false, Bool.or_true]
          have nonempty : (network.shortAnswer env.rootHints name).authorities ≠ [] := by
            intro empty
            apply refers.glue
            rw [extractNsNames, ← extractNsFromRecords_filter, ← refers.servers, empty]
            rfl
          dsimp only
          rw [isMinimized, ← network.serve_perm perm, network.serve_perm (atHints rfl shortened),
            handleResponse, if_pos ⟨rfl, .inl nonempty⟩]
          exact together_followMinimized refers
            (fun domain domainMem => ⟨name, type, met, shortened, domainMem⟩) ih [dot] 0
        · -- The same question.
          have same : zone = [dot] → shortenedAtRoot name = false := by
            intro atRoot
            rw [← Bool.not_eq_true]
            exact fun isShortened => shortened ⟨atRoot, isShortened⟩
          rw [minimizeQuery_of_not_shortened same]
          apply (together_sendQueryHedged _ _ _ _ _ _).bind
          rintro _ _ ⟨rfl, rfl⟩
          have isFull : (decide (type ≠ type) || !name.eqIgnoreAsciiCase name) = false := by
            simp
          dsimp only
          rw [isFull, ← network.serve_perm perm]
          apply together_handleResponse
          · exact fun noTarget target isTarget =>
              chases target type (.target addrs met noTarget isTarget)
          · exact network.descends addrs name type
          · exact fun noAnswers noGlue nsName named qt address =>
              resolves nsName qt (.server addrs met noAnswers named noGlue address)
          · exact ih

theorem together_resolveWith (delegates : network.Delegates env.rootHints qname qtype)
    (chases : TogetherMet network now env.rootHints qname qtype chase otherChase) (levels : Nat)
    (caller : Caller) :
    TogetherMet network now env.rootHints qname qtype (resolveWith env chase levels caller)
      (fullResolveWith env otherChase levels caller) := by
  induction levels generalizing caller with
  | zero => exact fun _ _ _ => together_pure _
  | succ levels ih =>
      intro name type met
      have shown : type = .ds → ¬ network.RootDs env.rootHints qname qtype name := by
        rintro rfl
        exact delegates.unseen name met
      unfold resolveWith fullResolveWith
      apply (together_lookup caller shown).bind
      rintro found _ rfl
      cases found with
      | some cached => exact together_pure _
      | none =>
          apply together_readCache.bind
          intro view other alike
          have sameStart : findClosestNs other env.rootHints name =
              findClosestNs view env.rootHints name := (closestNs_congr alike _ _).symm
          rw [sameStart]
          apply (together_sortByUdpRtt _).bind
          rintro sorted others ⟨perm, otherPerm⟩
          apply together_serverLoop delegates met chases (ih .nameserver) _ _ _ _
            (perm.trans otherPerm.symm)
          intro atRoot shortened
          have proper := root_not_mem_zones shortened (delegates.refers name type met shortened).named
          have atHints : (findClosestNs view env.rootHints name).2 = env.rootHints :=
            closestNs_root proper atRoot
          rwa [← atHints]

theorem together_chaseCname (delegates : network.Delegates env.rootHints qname qtype)
    (cnames : Nat) :
    TogetherMet network now env.rootHints qname qtype (chaseCname env cnames)
      (fullChaseCname env cnames) := by
  induction cnames with
  | zero => exact fun _ _ _ => together_pure _
  | succ cnames ih => exact together_resolveWith delegates ih _ .cnameChase

theorem together_resolveIterative (delegates : network.Delegates env.rootHints qname qtype)
    (caller : Caller) (referralDepth cnameDepth : Nat) :
    Together network now (network.RootDs env.rootHints qname qtype) (· = ·)
      (resolveIterative env caller qname qtype referralDepth cnameDepth)
      (fullResolveIterative env caller qname qtype referralDepth cnameDepth) :=
  together_resolveWith delegates (together_chaseCname delegates _) _ caller qname qtype .start

end Resolve

end Together

/-! ## A root that denies -/

section Denied

variable {network : Network} {now : Nat} {env : ResolverEnv} {response : DnsPacket}
  {chase resolveNs : Text → QueryType → Resolution} {qname : Text} {qtype : QueryType}
  {again : Text → List SocketAddr → Nat → Resolution}

/-- The resolution fails, whatever the network answers. -/
abbrev Fails (network : Network) (now : Nat) (resolution : Resolution) : Prop :=
  ∀ cache, resolution.Obeys (network.protocol now)
    (fun _ result => ∃ error, result = .error error) cache

theorem referralZone_eq_none (unnamed : extractNsNames response = []) :
    referralZone response = none := by
  rw [referralZone, List.findSome?_eq_none_iff]
  intro record recordMem
  have notNs := List.filterMap_eq_nil_iff.mp unnamed record recordMem
  cases record with
  | ns domain host ttl => simp at notNs
  | _ => rfl

/-- An answer that names no server leads to the next one. -/
theorem fails_followMinimized {currentZone : Text} {nsAddrs : List SocketAddr} {nsIdx : Nat}
    (noAnswers : extractNsFromRecords response.answers = [])
    (unnamed : extractNsNames response = [])
    (later : Fails network now (again currentZone nsAddrs (nsIdx + 1))) :
    Fails network now (followMinimized env again currentZone nsAddrs nsIdx response) := by
  intro cache
  have noZone : enterZone env currentZone response = pure currentZone := by
    rw [enterZone, referralZone_eq_none unnamed]
  have noAddrs : ∀ cache, (resolveNsAddrsFromGlue env response []).Obeys (network.protocol now)
      (fun _ addrs => addrs = []) cache := fun _ => ⟨trivial, fun _ _ _ => rfl⟩
  simp only [followMinimized, noZone, noAnswers, unnamed, if_true]
  apply (noAddrs cache).bind
  rintro after _ rfl
  rw [if_pos rfl]
  exact later after

theorem fails_serverLoop (shortened : shortenedAtRoot qname = true) {addrs : List SocketAddr}
    (denies : network.Denies addrs qname) (rounds nsIdx : Nat) :
    Fails network now (serverLoop env chase resolveNs qname qtype rounds [dot] addrs nsIdx) := by
  induction rounds generalizing nsIdx with
  | zero => exact fun _ => ⟨_, rfl⟩
  | succ rounds ih =>
      intro cache
      unfold serverLoop
      split
      · exact ⟨_, rfl⟩
      · rename_i left
        have nonempty : addrs.drop nsIdx ≠ [] := by
          rw [Ne, List.drop_eq_nil_iff]
          exact left
        obtain ⟨answered, noAnswers, unnamed⟩ :=
          denies (addrs.drop nsIdx) nonempty (List.drop_subset nsIdx addrs)
        have sent : (Resolver.sendQueryHedged (afterLastDot qname) .ns (addrs.drop nsIdx)).Obeys
            (network.protocol now)
            (fun _ answer => answer = .ok (network.shortAnswer (addrs.drop nsIdx) qname)) cache :=
          ⟨trivial, fun _ _ moves => moves.1⟩
        have isMinimized : (decide (QueryType.ns ≠ qtype) ||
            !(afterLastDot qname).eqIgnoreAsciiCase qname) = true := by
          rw [not_eqIgnoreAsciiCase_of_shortened shortened, Bool.not_false, Bool.or_true]
        rw [minimizeQuery_of_shortened shortened]
        apply sent.bind
        rintro after _ rfl
        dsimp only
        rw [isMinimized, handleResponse, if_pos ⟨rfl, answered⟩]
        exact fails_followMinimized noAnswers unnamed (ih (nsIdx + 1)) after

theorem Network.Denies.of_perm {addrs rootHints : List SocketAddr}
    (denies : network.Denies rootHints qname) (perm : addrs.Perm rootHints) :
    network.Denies addrs qname :=
  fun servers nonempty inAddrs => denies servers nonempty (List.Subset.trans inAddrs perm.subset)

theorem closestNs_none (rootHints : List SocketAddr) (zones : List Text) :
    closestNs (fun _ _ => none) rootHints zones = ([dot], rootHints) := by
  induction zones with
  | nil => rfl
  | cons zone zones ih => exact ih

/-- With the empty cache, a resolution starts at the root hints. -/
theorem obeys_from_hints (loop : Text → List SocketAddr → Resolution)
    {post : Except ResolveError DnsPacket → Prop} (caller : Caller) (maxEntries : Nat)
    (minTtl maxTtl : UInt32)
    (loops : ∀ sorted, sorted.Perm env.rootHints → ∀ cache,
      (loop [dot] sorted).Obeys (network.protocol now) (fun _ => post) cache) :
    (do
      match ← Resolver.lookup caller qname qtype with
      | some cached => pure (.ok cached)
      | none =>
        let view ← Resolver.readCache
        let (currentZone, nsAddrs) := findClosestNs view env.rootHints qname
        let sorted ← Resolver.sortByUdpRtt nsAddrs
        loop currentZone sorted : Resolution).Obeys (network.protocol now) (fun _ => post)
      (.new maxEntries minTtl maxTtl) := by
  have looked : (Resolver.lookup caller qname qtype).Obeys (network.protocol now)
      (fun after found => found = none ∧ after = DnsCache.new maxEntries minTtl maxTtl)
      (.new maxEntries minTtl maxTtl) := ⟨trivial, fun _ _ moves => ⟨moves.1, moves.2⟩⟩
  have read : Resolver.readCache.Obeys (network.protocol now)
      (fun _ view => view = fun _ _ => none) (DnsCache.new maxEntries minTtl maxTtl) :=
    ⟨trivial, fun _ _ moves => moves.1⟩
  apply looked.bind
  rintro _ _ ⟨rfl, rfl⟩
  apply read.bind
  rintro cache _ rfl
  have sorts : (Resolver.sortByUdpRtt env.rootHints).Obeys (network.protocol now)
      (fun _ sorted => sorted.Perm env.rootHints) cache := ⟨trivial, fun _ _ moves => moves.1⟩
  rw [findClosestNs, closestNs_none]
  apply sorts.bind
  exact fun after sorted perm => loops sorted perm after

/-- From the empty cache, the minimized resolution fails. -/
theorem fails_resolveIterative (shortened : shortenedAtRoot qname = true)
    (denies : network.Denies env.rootHints qname) (caller : Caller) (maxEntries : Nat)
    (minTtl maxTtl : UInt32) (referralDepth cnameDepth : Nat) :
    (resolveIterative env caller qname qtype referralDepth cnameDepth).Obeys
      (network.protocol now) (fun _ result => ∃ error, result = .error error)
      (.new maxEntries minTtl maxTtl) := by
  unfold resolveIterative
  cases maxReferralDepth + 1 - referralDepth with
  | zero => exact ⟨_, rfl⟩
  | succ levels =>
      unfold resolveWith
      apply obeys_from_hints fun zone sorted => serverLoop env _ _ qname qtype _ zone sorted 0
      intro sorted perm
      exact fails_serverLoop shortened (denies.of_perm perm) _ 0

/-- With full questions, a root that says that a name does not exist is
believed. -/
theorem returns_fullResolveIterative (hinted : env.rootHints ≠ [])
    (noAnswers : (network.serve env.rootHints qname qtype).answers = [])
    (nxdomain : (network.serve env.rootHints qname qtype).header.rescode = .nxdomain)
    (caller : Caller) (maxEntries : Nat) (minTtl maxTtl : UInt32) (cnameDepth : Nat) :
    (fullResolveIterative env caller qname qtype 0 cnameDepth).Obeys
      (network.protocol now)
      (fun _ result => result = .ok (network.serve env.rootHints qname qtype))
      (.new maxEntries minTtl maxTtl) := by
  change (fullResolveWith env _ (maxReferralDepth + 1) caller qname qtype).Obeys _ _ _
  unfold fullResolveWith
  apply obeys_from_hints fun zone sorted => fullServerLoop env _ _ qname qtype _ zone sorted 0
  intro sorted perm cache
  have nonempty : ¬ sorted.length ≤ 0 := by
    rw [perm.length_eq]
    simpa using hinted
  have sent : (Resolver.sendQueryHedged qname qtype (sorted.drop 0)).Obeys
      (network.protocol now)
      (fun _ answer => answer = .ok (network.serve env.rootHints qname qtype)) cache := by
    rw [List.drop_zero, ← network.serve_perm perm]
    exact ⟨trivial, fun _ _ moves => moves.1⟩
  rw [maxReferralDepth, fullServerLoop, if_neg nonempty]
  apply sent.bind
  rintro after _ rfl
  dsimp only
  rw [handleResponse_full, if_neg (not_not.mpr noAnswers), if_pos (.inl nxdomain)]
  exact ⟨trivial, fun _ _ _ => rfl⟩

end Denied

/-! ## Minimisation and full questions -/

/-- The part of a result that a client sees of it. -/
def answered (result : Except ResolveError DnsPacket) :
    Except ResolveError (ResultCode × List DnsRecord) :=
  result.map fun response => (response.header.rescode, response.answers)

/-- From the given cache, the resolution that minimizes returns, and always the
response code and the answers of every one that does not. -/
def Network.Preserves (network : Network) (now : Nat) (env : ResolverEnv) (cache : DnsCache)
    (qname : Text) (qtype : QueryType) : Prop :=
  ∀ caller referralDepth cnameDepth,
    (∃ result, network.Returns now cache
      (resolveIterative env caller qname qtype referralDepth cnameDepth) result) ∧
    ∀ result reference,
      network.Returns now cache (resolveIterative env caller qname qtype referralDepth cnameDepth)
        result →
      network.Returns now cache
        (fullResolveIterative env caller qname qtype referralDepth cnameDepth) reference →
      answered result = answered reference

/-- Minimisation preserves the result where the root refers alike, and always
fails where the root denies the shortened question. -/
theorem minimizeQuery_preserves (network : Network) (now : Nat) (env : ResolverEnv)
    (maxEntries : Nat) (minTtl maxTtl : UInt32) (qname : Text) (qtype : QueryType) :
    (network.Delegates env.rootHints qname qtype →
      network.Preserves now env (.new maxEntries minTtl maxTtl) qname qtype) ∧
    (shortenedAtRoot qname = true → network.Denies env.rootHints qname →
      ∀ caller referralDepth cnameDepth result,
        network.Returns now (.new maxEntries minTtl maxTtl)
          (resolveIterative env caller qname qtype referralDepth cnameDepth) result →
        ∃ error, result = .error error) := by
  constructor
  · intro delegates caller referralDepth cnameDepth
    refine ⟨network.exists_returns now _ _, ?_⟩
    rintro result reference ⟨_, ends⟩ ⟨_, otherEnds⟩
    have together : Together network now _ (· = ·) _ _ :=
      together_resolveIterative delegates caller referralDepth cnameDepth
    rw [(together (Alike.refl _) ends otherEnds).1]
  · rintro shortened denies caller referralDepth cnameDepth result ⟨after, ends⟩
    exact ends.of_obeys (fails_resolveIterative shortened denies caller _ _ _ _ _)

/-! ## A tree of zones -/

def rootServer : SocketAddr :=
  .v4 (.new 198 41 0 4) 53

def comServer : SocketAddr :=
  .v4 (.new 192 5 6 30) 53

def zoneSoa (apex : Text) : DnsRecord :=
  .soa ⟨apex, text "ns", text "admin", 1, 1800, 900, 604800, 86400, 86400⟩

/-- The root of a tree with the only domain `com`. -/
def rootResponse (qname : Text) : DnsPacket :=
  if afterLastDot qname = text "com" then
    { header := { response := true }
      authorities := [.ns (text "com") (text "ns.com") 172800]
      resources := [.a (text "ns.com") (.new 192 5 6 30) 172800] }
  else
    { header := { response := true, rescode := if qname = [] then .noerror else .nxdomain }
      authorities := [zoneSoa []] }

/-- Every name in `com` has one address. -/
def comResponse (qname : Text) (qtype : QueryType) : DnsPacket :=
  if qtype = .a then
    { header := { response := true }, answers := [.a qname (.new 192 0 2 1) 300] }
  else { header := { response := true }, authorities := [zoneSoa (text "com")] }

def comTree : Network where
  serve servers qname qtype :=
    if comServer ∈ servers then comResponse qname qtype else rootResponse qname
  serve_perm := by
    intro servers others perm
    simp only [perm.mem_iff]
  descends := by
    intro servers qname qtype
    split
    · unfold comResponse
      split <;> simp [referralZone, zoneSoa]
    · unfold rootResponse
      split
      · decide
      · simp [referralZone, zoneSoa]

def comEnv : ResolverEnv where
  writable packet := (BytePacketBuffer.exec packet.write .new).1.isOk
  rootHints := [rootServer]

/-- Every question is answered or referred with glue, so no other comes up. -/
theorem comTree_met {name : Text} {type : QueryType}
    (met : comTree.Met (text "www.com") .a name type) : name = text "www.com" ∧ type = .a := by
  induction met with
  | start => exact ⟨rfl, rfl⟩
  | target servers met other isTarget ih =>
      obtain ⟨rfl, rfl⟩ := ih
      by_cases com : comServer ∈ servers
      · simp only [comTree, com, if_true] at other
        exact absurd other (by decide)
      · simp only [comTree, com, if_false] at isTarget
        have noTarget : extractCnameTarget (rootResponse (text "www.com")) (text "www.com") = none := by
          decide
        rw [noTarget] at isTarget
        cases isTarget
  | server servers met noAnswers named noGlue address ih =>
      obtain ⟨rfl, rfl⟩ := ih
      by_cases com : comServer ∈ servers
      · simp only [comTree, com, if_true] at noAnswers
        exact absurd noAnswers (by decide)
      · simp only [comTree, com, if_false] at noGlue
        exact absurd noGlue (by decide)

theorem comTree_delegates : comTree.Delegates [rootServer] (text "www.com") .a where
  refers := by
    intro name type met shortened
    obtain ⟨rfl, rfl⟩ := comTree_met met
    constructor <;> decide
  unseen := by
    intro name met
    obtain ⟨-, impossible⟩ := comTree_met met
    cases impossible

theorem comTree_denies : comTree.Denies [rootServer] (text "www.test") := by
  intro servers _ inRoot
  have notCom : comServer ∉ servers := by
    intro com
    have isRoot := List.mem_singleton.mp (inRoot com)
    exact absurd isRoot (by decide)
  simp only [Network.shortAnswer, comTree, notCom, if_false]
  decide

/-- A name that exists resolves alike, and one without a top-level domain to an
error. -/
theorem minimizeQuery_preserves_comTree :
    comTree.Preserves 0 comEnv (.new 10 0 3600) (text "www.com") .a ∧
      ∀ result, comTree.Returns 0 (.new 10 0 3600)
        (resolveIterative comEnv .client (text "www.test") .a 0 0) result →
        ∃ error, result = .error error :=
  ⟨(minimizeQuery_preserves comTree 0 comEnv 10 0 3600 (text "www.com") .a).1 comTree_delegates,
    (minimizeQuery_preserves comTree 0 comEnv 10 0 3600 (text "www.test") .a).2 (by decide)
      comTree_denies .client 0 0⟩

/-- The root denies `test` with its SOA: with full questions that is an
NXDOMAIN response, and with minimisation an error. -/
theorem comTree_not_preserved :
    (∀ reference, comTree.Returns 0 (.new 10 0 3600)
        (fullResolveIterative comEnv .client (text "www.test") .a 0 0) reference →
        ∃ response, reference = .ok response ∧ response.header.rescode = .nxdomain) ∧
      (∀ result, comTree.Returns 0 (.new 10 0 3600)
        (resolveIterative comEnv .client (text "www.test") .a 0 0) result →
        ∃ error, result = .error error) ∧
      ¬ comTree.Preserves 0 comEnv (.new 10 0 3600) (text "www.test") .a := by
  have full : ∀ reference, comTree.Returns 0 (.new 10 0 3600)
      (fullResolveIterative comEnv .client (text "www.test") .a 0 0) reference →
      reference = .ok (comTree.serve [rootServer] (text "www.test") .a) := by
    rintro reference ⟨after, ends⟩
    exact ends.of_obeys (returns_fullResolveIterative (by decide) (by decide) (by decide) _ _ _ _ _)
  have minimized : ∀ result, comTree.Returns 0 (.new 10 0 3600)
      (resolveIterative comEnv .client (text "www.test") .a 0 0) result →
      ∃ error, result = .error error := by
    rintro result ⟨after, ends⟩
    exact ends.of_obeys (fails_resolveIterative (by decide) comTree_denies _ _ _ _ _ _)
  refine ⟨?_, minimized, ?_⟩
  · intro reference returns
    exact ⟨_, full reference returns, by decide⟩
  · intro preserves
    obtain ⟨result, returns⟩ := comTree.exists_returns 0 (.new 10 0 3600)
      (resolveIterative comEnv .client (text "www.test") .a 0 0)
    obtain ⟨reference, otherReturns⟩ := comTree.exists_returns 0 (.new 10 0 3600)
      (fullResolveIterative comEnv .client (text "www.test") .a 0 0)
    have same := (preserves .client 0 0).2 result reference returns otherReturns
    obtain ⟨error, rfl⟩ := minimized result returns
    rw [full reference otherReturns] at same
    cases same

end Numa
