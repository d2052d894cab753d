import Mathlib.Data.Set.Lattice
import Mathlib.Order.CompletePartialOrder
import Numa.Recursive

/-!
# Rules for iterative resolution

A resolution takes what it stores and returns from the responses of servers
and from the cache.  This file follows a packet through `resolve_iterative`
once, for any protocol and any property of packets that the steps on the way
keep.
-/

namespace Numa

/-- The nameservers that a response names. -/
def namedServers (response : DnsPacket) : List Text :=
  extractNsFromRecords response.answers ++ extractNsNames response

/-- A protocol over a ghost state that only grows, with what it makes of the
packets of a resolution. -/
structure ResolverRules (env : ResolverEnv) (σ : Type) [Preorder σ] where
  protocol : Protocol Effect Effect.Answer σ
  /-- The name and the type were looked up. -/
  asked : σ → Text → QueryType → Prop
  /-- The packet is the response of a server. -/
  heard : σ → DnsPacket → Prop
  /-- The packet may be returned, and stored for what was asked. -/
  good : σ → DnsPacket → Prop
  /-- The packet may be stored under the name and the type. -/
  storable : σ → Text × QueryType × DnsPacket → Prop
  /-- What these callers find in the cache is good. -/
  trusts : Caller → Prop
  grows : ∀ before effect answer after, protocol.moves before effect answer after → before ≤ after
  asked_mono : ∀ {before after qname qtype}, before ≤ after → asked before qname qtype →
    asked after qname qtype
  heard_mono : ∀ {before after packet}, before ≤ after → heard before packet → heard after packet
  good_mono : ∀ {before after packet}, before ≤ after → good before packet → good after packet
  good_of_heard : ∀ {state packet}, heard state packet → good state packet
  allowed_lookup : ∀ state caller qname qtype,
    protocol.allowed state (.lookup caller qname qtype)
  allowed_readCache : ∀ state, protocol.allowed state .readCache
  allowed_sort : ∀ state addrs, protocol.allowed state (.sortByUdpRtt addrs)
  allowed_send : ∀ state qname qtype servers,
    protocol.allowed state (.sendQueryHedged qname qtype servers)
  allowed_insert : ∀ {state} {packets : List (Text × QueryType × DnsPacket)},
    (∀ item ∈ packets, storable state item) →
    protocol.allowed state (.insertWires (packets.filterMap fun (domain, qtype, packet) =>
      if env.writable packet then some ⟨domain, qtype, .ofPacket packet⟩ else none))
  lookup : ∀ {before caller qname qtype found after},
    protocol.moves before (.lookup caller qname qtype) found after →
    asked after qname qtype ∧ (trusts caller → ∀ packet, found = some packet → good after packet)
  send : ∀ {before qname qtype servers response after},
    protocol.moves before (.sendQueryHedged qname qtype servers) (.ok response) after →
    heard after response
  storable_kept : ∀ {state qname qtype packet}, asked state qname qtype → good state packet →
    storable state (qname, qtype, packet)
  storable_glue : ∀ {state response nsNames}, heard state response →
    nsNames ⊆ namedServers response → ∀ item ∈ cacheGlue response nsNames, storable state item
  storable_delegation : ∀ {state response zone}, heard state response →
    referralZone response = some zone →
    ∀ item ∈ cacheNsDelegation zone response, storable state item
  storable_ds : ∀ {state response zone}, heard state response →
    referralZone response = some zone →
    ∀ item ∈ cacheDsFromAuthority response, storable state item
  good_combine : ∀ {state response finalResp}, heard state response →
    (trusts .cnameChase → good state finalResp) → good state (combineResponse response finalResp)

namespace ResolverRules

variable {env : ResolverEnv} {σ : Type} [Preorder σ] (rules : ResolverRules env σ)

/-- What is returned is good. -/
def Returns (after : σ) (result : Except ResolveError DnsPacket) : Prop :=
  ∀ packet, result = .ok packet → rules.good after packet

/-- The interaction obeys the protocol from any state on, and what it returns
is good if it matters. -/
def Sound (matters : Prop) (resolution : Resolution) : Prop :=
  ∀ state, resolution.Obeys rules.protocol
    (fun after result => matters → rules.Returns after result) state

/-- The interaction obeys the protocol, and only lets the ghost state grow. -/
def Calm {α : Type} (action : Resolver α) (state : σ) : Prop :=
  action.Obeys rules.protocol (fun after _ => state ≤ after) state

variable {rules} {state : σ} {response : DnsPacket}

theorem calm_ask {effect : Effect} (allowed : rules.protocol.allowed state effect) :
    rules.Calm (Interaction.ask effect .done) state :=
  ⟨allowed, fun answer after moves => rules.grows state effect answer after moves⟩

theorem calm_insertPackets {packets : List (Text × QueryType × DnsPacket)}
    (storable : ∀ item ∈ packets, rules.storable state item) :
    rules.Calm (insertPackets env packets) state :=
  calm_ask (rules.allowed_insert storable)

theorem calm_readCache : rules.Calm Resolver.readCache state :=
  calm_ask (rules.allowed_readCache state)

theorem calm_sortByUdpRtt (addrs : List SocketAddr) :
    rules.Calm (Resolver.sortByUdpRtt addrs) state :=
  calm_ask (rules.allowed_sort state addrs)

theorem calm_addrsFromCache (nsNames : List Text) :
    rules.Calm (addrsFromCache nsNames) state := by
  induction nsNames generalizing state with
  | nil => exact le_refl state
  | cons nsName nsNames ih =>
      apply calm_readCache.bind
      intro middle view first
      apply ih.bind
      intro after addrs second
      exact first.trans second

theorem calm_resolveNsAddrsFromGlue (heard : rules.heard state response) {nsNames : List Text}
    (named : nsNames ⊆ namedServers response) :
    rules.Calm (resolveNsAddrsFromGlue env response nsNames) state := by
  apply (calm_insertPackets (rules.storable_glue heard named)).bind
  intro middle _ first
  dsimp only
  split
  · apply (calm_addrsFromCache nsNames).mono
    exact fun _ _ second => first.trans second
  · exact first

section Round

variable {chase resolveNs : Text → QueryType → Resolution} {qname : Text} {qtype : QueryType}
  {again : Text → List SocketAddr → Nat → Resolution}

theorem obeys_resolveNsName (soundNs : ∀ name qt, rules.Sound False (resolveNs name qt))
    (nsName : Text) (qts : List QueryType) :
    ∀ state, (resolveNsName resolveNs nsName qts).Obeys rules.protocol (fun _ _ => True)
      state := by
  induction qts with
  | nil => exact fun _ => trivial
  | cons qt qts ih =>
      intro state
      apply (soundNs nsName qt state).bind
      rintro after result -
      cases result with
      | error error => exact ih after
      | ok nsResp =>
          dsimp only
          split
          · exact ih after
          · trivial

theorem obeys_resolveNsNames (soundNs : ∀ name qt, rules.Sound False (resolveNs name qt))
    (nsNames : List Text) :
    ∀ state, (resolveNsNames resolveNs nsNames).Obeys rules.protocol (fun _ _ => True) state := by
  induction nsNames with
  | nil => exact fun _ => trivial
  | cons nsName nsNames ih =>
      intro state
      apply (obeys_resolveNsName soundNs nsName _ state).bind
      rintro after addrs -
      split
      · exact ih after
      · trivial

/-- A response that is good is kept for what was asked. -/
theorem obeys_keepResponse (asked : rules.asked state qname qtype)
    (good : rules.good state response) :
    (keepResponse env qname qtype response).Obeys rules.protocol rules.Returns state := by
  have storable : ∀ item ∈ [(qname, qtype, response)], rules.storable state item := by
    intro item itemMem
    obtain rfl := List.mem_singleton.mp itemMem
    exact rules.storable_kept asked good
  apply (calm_insertPackets storable).bind
  rintro after _ grown packet same
  cases same
  exact rules.good_mono grown good

theorem calm_enterZone (heard : rules.heard state response) (currentZone : Text) :
    rules.Calm (enterZone env currentZone response) state := by
  unfold enterZone
  split
  · rename_i zone isZone
    apply (calm_insertPackets (rules.storable_delegation heard isZone)).bind
    exact fun _ _ grown => grown
  · exact le_refl state

/-- The next round of the loop, for what was asked. -/
abbrev SoundAgain (rules : ResolverRules env σ) (qname : Text) (qtype : QueryType)
    (again : Text → List SocketAddr → Nat → Resolution) : Prop :=
  ∀ zone addrs idx state, rules.asked state qname qtype →
    (again zone addrs idx).Obeys rules.protocol rules.Returns state

theorem obeys_followMinimized (soundAgain : SoundAgain rules qname qtype again)
    (heard : rules.heard state response) (asked : rules.asked state qname qtype)
    (currentZone : Text) (nsAddrs : List SocketAddr) (nsIdx : Nat) :
    (followMinimized env again currentZone nsAddrs nsIdx response).Obeys rules.protocol
      rules.Returns state := by
  apply (calm_enterZone heard currentZone).bind
  intro middle zone grown
  have named : (if extractNsFromRecords response.answers = [] then extractNsNames response
      else extractNsFromRecords response.answers) ⊆ namedServers response := by
    split
    · exact List.subset_append_right _ _
    · exact List.subset_append_left _ _
  apply (calm_resolveNsAddrsFromGlue (rules.heard_mono grown heard) named).bind
  intro after newAddrs later
  have askedAfter := rules.asked_mono (grown.trans later) asked
  split
  · exact soundAgain _ _ _ _ askedAfter
  · apply (calm_sortByUdpRtt newAddrs).bind
    intro final sorted last
    exact soundAgain _ _ _ _ (rules.asked_mono last askedAfter)

theorem obeys_handleAnswers
    (soundChase : ∀ target qt, rules.Sound (rules.trusts .cnameChase) (chase target qt))
    (heard : rules.heard state response) (asked : rules.asked state qname qtype) :
    (handleAnswers env chase qname qtype response).Obeys rules.protocol rules.Returns state := by
  have kept : (keepResponse env qname qtype response).Obeys rules.protocol rules.Returns state :=
    obeys_keepResponse asked (rules.good_of_heard heard)
  unfold handleAnswers
  split
  · exact kept
  · split
    · rename_i target _
      -- The response is kept while the chase goes on.
      apply ((soundChase target qtype state).grows rules.grows).bind
      rintro after result ⟨grown, returns⟩
      cases result with
      | error error =>
          intro packet same
          cases same
      | ok finalResp =>
          apply obeys_keepResponse (rules.asked_mono grown asked)
          apply rules.good_combine (rules.heard_mono grown heard)
          exact fun trusts => returns trusts finalResp rfl
    · exact kept

theorem obeys_referralAddrs (soundNs : ∀ name qt, rules.Sound False (resolveNs name qt))
    (heard : rules.heard state response) :
    (referralAddrs env resolveNs response (extractNsNames response)).Obeys rules.protocol
      (fun _ _ => True) state := by
  apply (calm_resolveNsAddrsFromGlue heard (List.subset_append_right _ _)).bind
  rintro after glueAddrs -
  split
  · exact obeys_resolveNsNames soundNs _ after
  · trivial

/-- A response that names nameservers names the zone they serve. -/
theorem exists_referralZone (named : extractNsNames response ≠ []) :
    ∃ zone, referralZone response = some zone := by
  obtain ⟨host, hostMem⟩ := List.exists_mem_of_ne_nil _ named
  obtain ⟨record, recordMem, isHost⟩ := List.mem_filterMap.mp hostMem
  rw [← Option.isSome_iff_exists, referralZone, List.findSome?_isSome_iff]
  refine ⟨record, recordMem, ?_⟩
  cases record with
  | ns domain host ttl => rfl
  | _ => simp at isHost

theorem obeys_followReferral (soundNs : ∀ name qt, rules.Sound False (resolveNs name qt))
    (soundAgain : SoundAgain rules qname qtype again)
    (heard : rules.heard state response) (asked : rules.asked state qname qtype)
    (currentZone : Text) :
    (followReferral env resolveNs qname again currentZone response).Obeys rules.protocol
      rules.Returns state := by
  unfold followReferral
  dsimp only
  split
  · intro packet same
    cases same
    exact rules.good_of_heard heard
  · rename_i named
    obtain ⟨zone, isZone⟩ := exists_referralZone named
    have storable : ∀ item ∈ cacheNsDelegation zone response ++ cacheDsFromAuthority response,
        rules.storable state item := by
      intro item itemMem
      rcases List.mem_append.mp itemMem with delegation | ds
      · exact rules.storable_delegation heard isZone item delegation
      · exact rules.storable_ds heard isZone item ds
    rw [isZone, Option.getD_some]
    apply (calm_insertPackets storable).bind
    intro middle _ grown
    apply ((obeys_referralAddrs soundNs (rules.heard_mono grown heard)).grows rules.grows).bind
    rintro after newNsAddrs ⟨later, -⟩
    have askedAfter := rules.asked_mono (grown.trans later) asked
    split
    · intro packet same
      cases same
    · apply (calm_sortByUdpRtt newNsAddrs).bind
      intro final sorted last
      exact soundAgain _ _ _ _ (rules.asked_mono last askedAfter)

theorem obeys_handleResponse
    (soundChase : ∀ target qt, rules.Sound (rules.trusts .cnameChase) (chase target qt))
    (soundNs : ∀ name qt, rules.Sound False (resolveNs name qt))
    (soundAgain : SoundAgain rules qname qtype again)
    (heard : rules.heard state response) (asked : rules.asked state qname qtype)
    (minimized : Bool) (currentZone : Text) (nsAddrs : List SocketAddr) (nsIdx : Nat) :
    (handleResponse env chase resolveNs qname qtype again minimized currentZone nsAddrs nsIdx
      response).Obeys rules.protocol rules.Returns state := by
  unfold handleResponse
  split
  · exact obeys_followMinimized soundAgain heard asked currentZone nsAddrs nsIdx
  · split
    · exact obeys_handleAnswers soundChase heard asked
    · split
      · exact obeys_keepResponse asked (rules.good_of_heard heard)
      · exact obeys_followReferral soundNs soundAgain heard asked currentZone

theorem soundAgain_serverLoop
    (soundChase : ∀ target qt, rules.Sound (rules.trusts .cnameChase) (chase target qt))
    (soundNs : ∀ name qt, rules.Sound False (resolveNs name qt)) (rounds : Nat) :
    SoundAgain rules qname qtype (serverLoop env chase resolveNs qname qtype rounds) := by
  induction rounds with
  | zero =>
      intro zone addrs idx state _ packet same
      cases same
  | succ rounds ih =>
      intro zone addrs idx state asked
      unfold serverLoop
      split
      · intro packet same
        cases same
      · refine ⟨rules.allowed_send state _ _ _, ?_⟩
        intro value after moves
        have askedAfter := rules.asked_mono (rules.grows _ _ _ _ moves) asked
        cases value with
        | error error => exact ih _ _ _ _ askedAfter
        | ok response =>
            exact obeys_handleResponse soundChase soundNs ih (rules.send moves) askedAfter _ _ _ _

end Round

theorem sound_resolveWith {chase : Text → QueryType → Resolution}
    (soundChase : ∀ target qt, rules.Sound (rules.trusts .cnameChase) (chase target qt))
    (levels : Nat) (caller : Caller) (qname : Text) (qtype : QueryType) :
    rules.Sound (rules.trusts caller) (resolveWith env chase levels caller qname qtype) := by
  induction levels generalizing caller qname qtype with
  | zero =>
      intro state _ packet same
      cases same
  | succ levels ih =>
      intro state
      have soundNs : ∀ name qt,
          rules.Sound False (resolveWith env chase levels .nameserver name qt) := by
        intro name qt state
        exact (ih .nameserver name qt state).mono fun _ _ _ impossible => impossible.elim
      refine ⟨rules.allowed_lookup state caller qname qtype, ?_⟩
      intro found after moves
      obtain ⟨asked, found_good⟩ := rules.lookup moves
      cases found with
      | some cached =>
          intro trusts packet same
          cases same
          exact found_good trusts cached rfl
      | none =>
          apply calm_readCache.bind
          intro middle view first
          apply (calm_sortByUdpRtt _).bind
          intro final sorted second
          have askedFinal := rules.asked_mono (first.trans second) asked
          apply (soundAgain_serverLoop soundChase soundNs _ _ _ _ final askedFinal).mono
          exact fun _ _ returns _ => returns

theorem sound_chaseCname (cnames : Nat) (target : Text) (qtype : QueryType) :
    rules.Sound (rules.trusts .cnameChase) (chaseCname env cnames target qtype) := by
  induction cnames generalizing target qtype with
  | zero =>
      intro state _ packet same
      cases same
  | succ cnames ih => exact sound_resolveWith ih _ .cnameChase target qtype

theorem sound_resolveIterative (caller : Caller) (qname : Text) (qtype : QueryType)
    (referralDepth cnameDepth : Nat) :
    rules.Sound (rules.trusts caller)
      (resolveIterative env caller qname qtype referralDepth cnameDepth) :=
  sound_resolveWith (sound_chaseCname _) _ caller qname qtype

end ResolverRules

end Numa
