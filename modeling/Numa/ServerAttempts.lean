import Numa.Forward
import Numa.Lockstep

/-!
# Which servers are tried

`send_query_hedged` of `recursive.rs` asks one or two of the servers it is
given, and `resolve_iterative` counts two as tried when it fails.  A run of the
resolver keeps a record of the servers it has got last and of those it has
asked since.
-/

namespace Numa

/-- How the exchanges with the first two servers end, and in which order. -/
structure Race where
  primary : Except Unit DnsPacket
  secondary : Except Unit DnsPacket
  order : HedgeOrder

/-- The first success of two exchanges that both go on until then. -/
def Race.firstOk (race : Race) : Except Unit DnsPacket :=
  match race.order, race.primary, race.secondary with
  | .secondaryFirst, _, .ok resp => .ok resp
  | .secondaryFirst, primary, .error _ => primary
  | _, .ok resp, _ => .ok resp
  | _, .error _, secondary => secondary

/-- `send_query_hedged`, with the servers that are asked.  Before the hedge
delay only the first server is asked if its round-trip time is known. -/
def sendQueryHedged (servers : List SocketAddr) (primaryKnown : Bool) (race : Race) :
    Except Unit DnsPacket × List SocketAddr :=
  match servers with
  | [] => (.error (), [])
  | [server] => (race.primary, [server])
  | primary :: secondary :: _ =>
    match primaryKnown, race.order with
    | true, .beforeDelay => (race.primary, [primary])
    | _, _ => (race.firstOk, [primary, secondary])

/-- The first server has not failed alone: there is no other one, its round-trip
time is not known, or the hedge was sent before it failed. -/
def HedgedInTime (servers : List SocketAddr) (primaryKnown : Bool) (race : Race) : Prop :=
  servers.length < 2 ∨ primaryKnown = false ∨ race.order ≠ .beforeDelay ∨
    ∃ resp, race.primary = .ok resp

theorem take_one_subset_tried (servers : List SocketAddr) (primaryKnown : Bool) (race : Race) :
    servers.take 1 ⊆ (sendQueryHedged servers primaryKnown race).2 := by
  match servers with
  | [] => exact List.Subset.refl _
  | [server] => exact List.Subset.refl _
  | primary :: secondary :: rest =>
      simp only [sendQueryHedged]
      split <;> simp

/-- A query that fails in time has been sent to as many servers as the loop
counts. -/
theorem take_two_subset_tried {servers : List SocketAddr} {primaryKnown : Bool} {race : Race}
    {error : Unit} (inTime : HedgedInTime servers primaryKnown race)
    (failed : (sendQueryHedged servers primaryKnown race).1 = .error error) :
    servers.take 2 ⊆ (sendQueryHedged servers primaryKnown race).2 := by
  match servers with
  | [] => simp
  | [server] => simp [sendQueryHedged]
  | primary :: secondary :: rest =>
      simp only [sendQueryHedged, List.take_succ_cons, List.take_zero] at failed ⊢
      split
      · rename_i sentFirst
        have early : race.order = .beforeDelay := by assumption
        rw [early] at failed
        simp only at failed
        rcases inTime with short | unknown | hedged | ⟨resp, answered⟩
        · simp only [List.length_cons] at short
          omega
        · cases unknown
        · exact absurd early hedged
        · rw [answered] at failed
          cases failed
      · exact List.Subset.refl _

/-! ## The servers of a run -/

/-- The servers that were obtained last, and those asked since. -/
structure Attempts where
  servers : List SocketAddr
  tried : List SocketAddr

/-- Obtaining servers starts anew, and a query is sent as hedged queries are. -/
def attempting (within : List SocketAddr → Bool → Race → Prop) :
    Protocol Effect Effect.Answer Attempts where
  allowed _ _ := True
  moves before effect :=
    match effect with
    | .sortByUdpRtt addrs => fun sorted after => sorted.Perm addrs ∧ after = ⟨sorted, []⟩
    | .sendQueryHedged _ _ servers => fun answer after =>
      ∃ primaryKnown race, within servers primaryKnown race ∧
        answer = (sendQueryHedged servers primaryKnown race).1 ∧
        after = { before with
          tried := before.tried ++ (sendQueryHedged servers primaryKnown race).2 }
    | _ => fun _ after => after = before

/-- Where the result is that no nameserver is available, all were tried. -/
def Exhausts (after : Attempts) (result : Except ResolveError DnsPacket) : Prop :=
  result = .error .noNameserverAvailable → after.servers ⊆ after.tried

section Attempting

variable {env : ResolverEnv} {state : Attempts} {response : DnsPacket}

/-- The protocol in which every hedged query is in time. -/
abbrev inTime : Protocol Effect Effect.Answer Attempts :=
  attempting HedgedInTime

/-- The interaction asks no server and obtains none. -/
def Quiet {α : Type} (action : Resolver α) : Prop :=
  ∀ state, action.Obeys inTime (fun after _ => after = state) state

theorem quiet_insertPackets (packets : List (Text × QueryType × DnsPacket)) :
    Quiet (insertPackets env packets) :=
  fun _ => ⟨trivial, fun _ _ moves => moves⟩

theorem quiet_readCache : Quiet Resolver.readCache :=
  fun _ => ⟨trivial, fun _ _ moves => moves⟩

theorem Quiet.bind {α β : Type} {action : Resolver α} {next : α → Resolver β}
    (first : Quiet action) (later : ∀ value, Quiet (next value)) : Quiet (action >>= next) := by
  intro state
  apply (first state).bind
  rintro after value rfl
  exact later value after

theorem quiet_addrsFromCache (nsNames : List Text) : Quiet (addrsFromCache nsNames) := by
  induction nsNames with
  | nil => exact fun _ => rfl
  | cons nsName nsNames ih => exact quiet_readCache.bind fun _ => ih.bind fun _ _ => rfl

theorem quiet_resolveNsAddrsFromGlue (nsNames : List Text) :
    Quiet (resolveNsAddrsFromGlue env response nsNames) := by
  apply (quiet_insertPackets _).bind
  intro _
  dsimp only
  split
  · exact quiet_addrsFromCache nsNames
  · exact fun _ => rfl

theorem quiet_enterZone (currentZone : Text) : Quiet (enterZone env currentZone response) := by
  unfold enterZone
  split
  · exact (quiet_insertPackets _).bind fun _ _ => rfl
  · exact fun _ => rfl

theorem obeys_inTime {α : Type} (action : Resolver α) (state : Attempts) :
    action.Obeys inTime (fun _ _ => True) state :=
  Interaction.Obeys.of_invariant (fun _ _ _ => trivial) (fun _ _ _ _ _ _ => trivial) action trivial

theorem exhausts_keepResponse {qname : Text} {qtype : QueryType} (state : Attempts) :
    (keepResponse env qname qtype response).Obeys inTime Exhausts state := by
  apply (quiet_insertPackets _ state).bind
  rintro _ _ -
  exact fun impossible => nomatch impossible

section Round

variable {chase resolveNs : Text → QueryType → Resolution} {qname : Text} {qtype : QueryType}
  {again : Text → List SocketAddr → Nat → Resolution}

theorem exhausts_handleAnswers
    (chases : ∀ target qt state, (chase target qt).Obeys inTime Exhausts state)
    (state : Attempts) :
    (handleAnswers env chase qname qtype response).Obeys inTime Exhausts state := by
  unfold handleAnswers
  split
  · exact exhausts_keepResponse state
  · split
    · rename_i target _
      apply (chases target qtype state).bind
      intro after result exhausts
      cases result with
      | error error => exact exhausts
      | ok finalResp => exact exhausts_keepResponse after
    · exact exhausts_keepResponse state

/-- The next rounds of the loop, of whose servers those before the index were
tried. -/
abbrev ExhaustsAgain (again : Text → List SocketAddr → Nat → Resolution) : Prop :=
  ∀ zone nsIdx state, state.servers.take nsIdx ⊆ state.tried →
    (again zone state.servers nsIdx).Obeys inTime Exhausts state

theorem exhausts_sorted (next : ExhaustsAgain again) (zone : Text) (addrs : List SocketAddr)
    (state : Attempts) :
    (Resolver.sortByUdpRtt addrs >>= fun sorted => again zone sorted 0).Obeys inTime Exhausts
      state := by
  refine ⟨trivial, ?_⟩
  rintro sorted _ ⟨-, rfl⟩
  exact next zone 0 ⟨sorted, []⟩ (List.nil_subset _)

theorem exhausts_followMinimized (next : ExhaustsAgain again) (currentZone : Text) {nsIdx : Nat}
    (tried : state.servers.take (nsIdx + 1) ⊆ state.tried) :
    (followMinimized env again currentZone state.servers nsIdx response).Obeys inTime Exhausts
      state := by
  apply (quiet_enterZone currentZone state).bind
  rintro _ zone rfl
  apply (quiet_resolveNsAddrsFromGlue _ _).bind
  rintro _ newAddrs rfl
  split
  · exact next zone (nsIdx + 1) _ tried
  · exact exhausts_sorted next zone newAddrs _

theorem exhausts_followReferral (next : ExhaustsAgain again) (currentZone : Text)
    (state : Attempts) :
    (followReferral env resolveNs qname again currentZone response).Obeys inTime Exhausts
      state := by
  unfold followReferral
  dsimp only
  split
  · exact fun impossible => nomatch impossible
  · apply (obeys_inTime _ state).bind
    rintro after _ -
    apply (obeys_inTime _ after).bind
    rintro last newNsAddrs -
    split
    · exact fun impossible => nomatch impossible
    · exact exhausts_sorted next _ newNsAddrs last

/-- After a query, the server at the index was asked, and after a failed one
those that the loop counts. -/
theorem obeys_sendQueryHedged (q : Text) (t : QueryType) {nsIdx : Nat}
    (tried : state.servers.take nsIdx ⊆ state.tried) :
    (Resolver.sendQueryHedged q t (state.servers.drop nsIdx)).Obeys inTime
      (fun after answer => after.servers = state.servers ∧
        state.servers.take (nsIdx + 1) ⊆ after.tried ∧
        ∀ error, answer = .error error →
          state.servers.take (nsIdx + min (state.servers.length - nsIdx) 2) ⊆ after.tried)
      state := by
  refine ⟨trivial, ?_⟩
  rintro answer _ ⟨primaryKnown, race, isInTime, rfl, rfl⟩
  refine ⟨rfl, ?_, ?_⟩
  · rw [List.take_add]
    apply List.append_subset.mpr
    refine ⟨List.Subset.trans tried (List.subset_append_left _ _), ?_⟩
    exact List.Subset.trans (take_one_subset_tried _ _ _) (List.subset_append_right _ _)
  · intro error failed
    have counted : (state.servers.drop nsIdx).take (min (state.servers.length - nsIdx) 2) =
        (state.servers.drop nsIdx).take 2 := by
      rw [← List.length_drop, Nat.min_comm, ← List.take_take, List.take_length]
    rw [List.take_add, counted]
    apply List.append_subset.mpr
    refine ⟨List.Subset.trans tried (List.subset_append_left _ _), ?_⟩
    exact List.Subset.trans (take_two_subset_tried isInTime failed) (List.subset_append_right _ _)

theorem exhausts_handleResponse
    (chases : ∀ target qt state, (chase target qt).Obeys inTime Exhausts state)
    (next : ExhaustsAgain again) (minimized : Bool) (currentZone : Text) {nsIdx : Nat}
    (tried : state.servers.take (nsIdx + 1) ⊆ state.tried) :
    (handleResponse env chase resolveNs qname qtype again minimized currentZone state.servers nsIdx
      response).Obeys inTime Exhausts state := by
  unfold handleResponse
  split
  · exact exhausts_followMinimized next currentZone tried
  · split
    · exact exhausts_handleAnswers chases state
    · split
      · exact exhausts_keepResponse state
      · exact exhausts_followReferral next currentZone state

theorem exhausts_serverLoop
    (chases : ∀ target qt state, (chase target qt).Obeys inTime Exhausts state) (rounds : Nat) :
    ExhaustsAgain (serverLoop env chase resolveNs qname qtype rounds) := by
  induction rounds with
  | zero => exact fun _ _ _ _ impossible => nomatch impossible
  | succ rounds ih =>
      intro zone nsIdx state tried
      unfold serverLoop
      split
      · rename_i allTried
        rw [List.take_of_length_le allTried] at tried
        exact fun _ => tried
      · apply (obeys_sendQueryHedged _ _ tried).bind
        rintro after answer ⟨same, head, counted⟩
        rw [← same] at head counted ⊢
        cases answer with
        | error error => exact ih zone _ after (counted error rfl)
        | ok response => exact exhausts_handleResponse chases ih _ zone head

end Round

theorem exhausts_resolveWith {chase : Text → QueryType → Resolution}
    (chases : ∀ target qt state, (chase target qt).Obeys inTime Exhausts state) (levels : Nat)
    (caller : Caller) (qname : Text) (qtype : QueryType) (state : Attempts) :
    (resolveWith env chase levels caller qname qtype).Obeys inTime Exhausts state := by
  cases levels with
  | zero => exact fun impossible => nomatch impossible
  | succ levels =>
      refine ⟨trivial, ?_⟩
      rintro found _ rfl
      cases found with
      | some cached => exact fun impossible => nomatch impossible
      | none =>
          apply (quiet_readCache _).bind
          rintro _ view rfl
          exact exhausts_sorted (exhausts_serverLoop chases _) _ _ _

theorem exhausts_chaseCname (cnames : Nat) (target : Text) (qtype : QueryType)
    (state : Attempts) : (chaseCname env cnames target qtype).Obeys inTime Exhausts state := by
  induction cnames generalizing target qtype state with
  | zero => exact fun impossible => nomatch impossible
  | succ cnames ih => exact exhausts_resolveWith ih _ _ _ _ _

/-- While every hedged query is in time, a resolution that finds no nameserver
available has tried all of the servers it got last. -/
theorem servers_subset_tried (env : ResolverEnv) (caller : Caller) (qname : Text)
    (qtype : QueryType) (referralDepth cnameDepth : Nat) {start after : Attempts}
    (ends : (resolveIterative env caller qname qtype referralDepth cnameDepth).Ends
      (attempting HedgedInTime) start (.error .noNameserverAvailable) after) :
    after.servers ⊆ after.tried :=
  ends.of_obeys (exhausts_resolveWith (exhausts_chaseCname _) _ _ _ _ start) rfl

end Attempting

/-! ## Two servers -/

def deadServer : SocketAddr :=
  .v4 (.new 192 0 2 1) 53

def liveServer : SocketAddr :=
  .v4 (.new 192 0 2 2) 53

/-- The root is served by two servers. -/
def twoServers : ResolverEnv where
  writable _ := true
  rootHints := [deadServer, liveServer]

/-- A resolution that fails at the first query, as the race goes. -/
theorem ends_twoServers {within : List SocketAddr → Bool → Race → Prop} (primaryKnown : Bool)
    (race : Race) (isWithin : within twoServers.rootHints primaryKnown race)
    (failed : (sendQueryHedged twoServers.rootHints primaryKnown race).1 = .error ()) :
    (resolveIterative twoServers .client (text "com") .a 0 0).Ends (attempting within) ⟨[], []⟩
      (.error .noNameserverAvailable)
      ⟨twoServers.rootHints, (sendQueryHedged twoServers.rootHints primaryKnown race).2⟩ := by
  -- Nothing is cached, and the addresses are left in their order.
  refine Interaction.ends_ask_iff.mpr ⟨none, ⟨[], []⟩, rfl, ?_⟩
  refine Interaction.ends_ask_iff.mpr ⟨fun _ _ => none, ⟨[], []⟩, rfl, ?_⟩
  refine Interaction.ends_ask_iff.mpr ⟨twoServers.rootHints, _, ⟨.refl _, rfl⟩, ?_⟩
  refine Interaction.ends_ask_iff.mpr
    ⟨.error (), _, ⟨primaryKnown, race, isWithin, failed.symm, rfl⟩, ?_⟩
  exact .done _ _

/-- Both servers fail, the first one after the hedge was sent. -/
theorem servers_subset_tried_twoServers :
    twoServers.rootHints ⊆
      (sendQueryHedged twoServers.rootHints true ⟨.error (), .error (), .primaryFirst⟩).2 :=
  servers_subset_tried twoServers .client (text "com") .a 0 0
    (ends_twoServers true ⟨.error (), .error (), .primaryFirst⟩ (.inr (.inr (.inl nofun))) rfl)

/-- The first server, whose round-trip time is known, fails before the hedge
delay.  The second one would answer, and is not asked. -/
theorem liveServer_skipped :
    ¬ ∀ (env : ResolverEnv) (caller : Caller) (qname : Text) (qtype : QueryType)
      (referralDepth cnameDepth : Nat) (start after : Attempts),
      (resolveIterative env caller qname qtype referralDepth cnameDepth).Ends
        (attempting fun _ _ _ => True) start (.error .noNameserverAvailable) after →
      after.servers ⊆ after.tried := by
  intro neverSkipped
  let race : Race := ⟨.error (), .ok (DnsPacket.query 0 (text "com") .a), .beforeDelay⟩
  have tried : liveServer ∈ [deadServer] :=
    neverSkipped _ _ _ _ _ _ _ _ (ends_twoServers true race trivial rfl) (by decide)
  exact absurd tried (by decide)

end Numa
