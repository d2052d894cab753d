import Numa.Custody
import Numa.ResolverRules
import Numa.StrictMode

/-!
# Keys in custody

The keys in `refreshing` and in `inflight` over the runs of the service.  A key
is marked by a client's task, which passes it to the refresh that it spawns, and
a leader takes the key of its resolution.  Each of these keys is in the custody
of exactly one task, which takes it out of its set whatever happens, so no key
is worked on twice and none is left behind.
-/

namespace Numa

open PipelineRules

/-! ## Programs that leave the sets alone -/

/-- The effect has nothing to do with the two sets. -/
def Effect.aloof : Effect → Prop
  | markRefreshing _ | spawnRefresh _ | unmarkRefreshing _ | acquireInflight _
  | releaseInflight _ => False
  | _ => True

/-- The program leaves both sets alone. -/
def Aloof {α : Type} (action : Resolver α) : Prop :=
  action.Obeys (.only Effect.aloof) (fun _ _ => True) ()

section Aloof

variable {α β : Type} {env : ResolverEnv} {ctx : ServerCtx}

theorem Aloof.bind {first : Resolver α} {next : α → Resolver β} (firstAloof : Aloof first)
    (nextAloof : ∀ value, Aloof (next value)) : Aloof (first >>= next) :=
  Interaction.Obeys.bind firstAloof fun _ value _ => nextAloof value

theorem Aloof.ask {effect : Effect} {next : effect.Answer → Resolver α} (isAloof : effect.aloof)
    (nextAloof : ∀ answer, Aloof (next answer)) : Aloof (.ask effect next) :=
  ⟨isAloof, fun answer _ _ => nextAloof answer⟩

theorem aloof_pure (value : α) : Aloof (pure value) :=
  trivial

/-- Nothing is asked of the packets of a resolution. -/
def aloofRules (env : ResolverEnv) : ResolverRules env Unit where
  protocol := .only Effect.aloof
  asked _ _ _ := True
  heard _ _ := True
  good _ _ := True
  storable _ _ := True
  trusts _ := True
  grows _ _ _ _ _ := le_refl ()
  asked_mono _ _ := trivial
  heard_mono _ _ := trivial
  good_mono _ _ := trivial
  good_of_heard _ := trivial
  allowed_lookup _ _ _ _ := trivial
  allowed_readCache _ := trivial
  allowed_sort _ _ := trivial
  allowed_send _ _ _ _ := trivial
  allowed_insert _ := trivial
  lookup _ := ⟨trivial, fun _ _ _ => trivial⟩
  send _ := trivial
  storable_kept _ _ := trivial
  storable_glue _ _ _ _ := trivial
  storable_delegation _ _ _ _ := trivial
  storable_ds _ _ _ _ := trivial
  good_combine _ _ := trivial

theorem aloof_resolveIterative (caller : Caller) (qname : Text) (qtype : QueryType) :
    Aloof (resolveIterative env caller qname qtype 0 0) :=
  ((aloofRules env).sound_resolveIterative caller qname qtype 0 0 ()).mono fun _ _ _ => trivial

theorem aloof_resolveRecursive (caller : Caller) (qname : Text) (qtype : QueryType)
    (query : DnsPacket) : Aloof (resolveRecursive env caller qname qtype query) := by
  apply (aloof_resolveIterative caller qname qtype).bind
  intro result
  cases result <;> exact aloof_pure _

theorem aloof_insertPackets (packets : List (Text × QueryType × DnsPacket)) :
    Aloof (insertPackets env packets) :=
  .ask trivial fun _ => aloof_pure _

theorem aloof_forwardAndCache (qname : Text) (qtype : QueryType) :
    Aloof (forwardAndCache qname qtype) := by
  refine .ask trivial fun result => ?_
  cases result with
  | error error => exact aloof_pure _
  | ok wire =>
      refine .ask trivial fun _ => ?_
      dsimp only [Interaction.bind]
      split <;> exact aloof_pure _

theorem aloof_resolveMiss (query : DnsPacket) (qname : Text) (qtype : QueryType) :
    Aloof (resolveMiss ctx query qname qtype).2 := by
  unfold resolveMiss
  split
  · exact aloof_forwardAndCache qname qtype
  · split
    · exact aloof_resolveRecursive _ qname qtype query
    · exact aloof_forwardAndCache qname qtype

theorem aloof_refreshByForwarding (qname : Text) (qtype : QueryType) :
    Aloof (refreshByForwarding ctx qname qtype) := by
  unfold refreshByForwarding
  split
  · refine .ask trivial fun result => ?_
    cases result with
    | ok wire => exact .ask trivial fun _ => aloof_pure _
    | error error => exact aloof_pure _
  · exact aloof_pure _

theorem aloof_refreshEntry (qname : Text) (qtype : QueryType) :
    Aloof (refreshEntry ctx qname qtype) := by
  unfold refreshEntry
  split
  · exact aloof_refreshByForwarding qname qtype
  · split
    · apply (aloof_resolveRecursive .refresh qname qtype _).bind
      intro result
      cases result with
      | ok packet => exact aloof_insertPackets _
      | error error => exact aloof_pure _
    · exact aloof_refreshByForwarding qname qtype

theorem aloof_fetchKeys (name : Text) (qtype : QueryType) : Aloof (fetchKeys env name qtype) := by
  refine .ask trivial fun view => ?_
  dsimp only [Interaction.bind]
  split
  · exact aloof_pure _
  · apply (aloof_resolveIterative .validator name qtype).bind
    intro result
    cases result with
    | ok packet => exact aloof_insertPackets _
    | error error => exact aloof_pure _

theorem aloof_probeRoots (rootAddr : SocketAddr) (hints : List SocketAddr) :
    Aloof (probeRoots rootAddr hints) := by
  induction hints with
  | nil => exact aloof_pure _
  | cons hint hints ih =>
      refine .ask trivial fun result => ?_
      cases result with
      | ok packet => exact aloof_pure _
      | error error => exact ih

theorem aloof_primeDnskey (zone : Text) (server : SocketAddr) :
    Aloof (primeDnskey env zone server) := by
  refine .ask trivial fun result => ?_
  cases result with
  | ok packet => exact aloof_insertPackets _
  | error error => exact aloof_pure _

theorem aloof_primeTld (rootAddr : SocketAddr) (tld : Text) : Aloof (primeTld env rootAddr tld) := by
  refine .ask trivial fun result => ?_
  cases result with
  | error error => exact aloof_pure _
  | ok response =>
      dsimp only [Interaction.bind]
      split
      · exact aloof_pure _
      · apply (aloof_insertPackets _).bind
        intro _
        split
        · exact aloof_primeDnskey tld _
        · exact aloof_pure _

theorem aloof_primeTlds (rootAddr : SocketAddr) (tlds : List Text) :
    Aloof (primeTlds env rootAddr tlds) := by
  induction tlds with
  | nil => exact aloof_pure _
  | cons tld tlds ih => exact (aloof_primeTld rootAddr tld).bind fun _ => ih

theorem aloof_primeTldCache (tlds : List Text) : Aloof (primeTldCache env tlds) := by
  unfold primeTldCache
  split
  · exact aloof_pure _
  · split
    · exact aloof_pure _
    · exact (aloof_probeRoots _ _).bind fun rootAddr =>
        (aloof_primeDnskey _ rootAddr).bind fun _ => aloof_primeTlds rootAddr tlds

end Aloof

/-! ## The two sets -/

/-- The keys that a task has marked and not yet handed to a refresh, or that a
refresh has been handed. -/
def refreshMarks : Custody Effect Effect.Answer CacheKey where
  takes
    | .markRefreshing key, true => some key
    | _, _ => none
  gives
    | .spawnRefresh key => some key
    | .unmarkRefreshing key => some key
    | _ => none
  apart := by
    rintro (_ | _) _ ⟨⟩ _ <;> rfl

/-- The keys that a leader resolves. -/
def inflightEntries : Custody Effect Effect.Answer CacheKey where
  takes
    | .acquireInflight key, .leader => some key
    | _, _ => none
  gives
    | .releaseInflight key => some key
    | _ => none
  apart := by
    rintro (_ | _) _ ⟨⟩ _
    rfl

/-- A set of keys, in which an answer puts what it hands over and from which an
effect takes what it gives up, unless a spawned refresh gets it. -/
structure KeySet where
  custody : Custody Effect Effect.Answer CacheKey
  keys : System → List CacheKey
  /-- What a spawned refresh has in custody. -/
  spawned : CacheKey → Option CacheKey
  neutral : ∀ effect, effect.aloof → custody.Neutral effect
  gives_spawn : ∀ key, custody.gives (.spawnRefresh key) = spawned key
  takes_spawn : ∀ key answer, custody.takes (.spawnRefresh key) answer = none
  spawned_eq : ∀ {key other}, spawned key = some other → other = key
  keys_congr : ∀ {first second : System}, second.refreshing = first.refreshing →
    second.inflight = first.inflight → keys second = keys first
  keys_answer : ∀ {ctx : ServerCtx} {system after : System} {id : Nat} {effect : Effect}
    {reply : Reply} {value : effect.Answer},
    answer ctx system id effect reply = some (value, after) →
      (∃ key, effect = .spawnRefresh key) ∨
      (custody.gives effect = none ∧ custody.takes effect value = none ∧
        keys after = keys system) ∨
      (∃ key, custody.gives effect = none ∧ custody.takes effect value = some key ∧
        key ∉ keys system ∧ keys after = key :: keys system) ∨
      ∃ key, custody.gives effect = some key ∧ keys after = (keys system).erase key

theorem KeySet.held_congr (set : KeySet) {ι : Type} {holds : ι → Option CacheKey}
    {first second : System} (held : Held (set.keys first) holds)
    (refreshing : second.refreshing = first.refreshing)
    (inflight : second.inflight = first.inflight) : Held (set.keys second) holds := by
  rwa [set.keys_congr refreshing inflight]

/-- Aloof effects leave both sets and the tasks alone. -/
theorem frame_of_aloof {ctx : ServerCtx} {system after : System} {id : Nat} {effect : Effect}
    {reply : Reply} {value : effect.Answer}
    (answered : answer ctx system id effect reply = some (value, after)) (isAloof : effect.aloof) :
    after.refreshing = system.refreshing ∧ after.inflight = system.inflight ∧
      after.tasks = system.tasks ∧ after.started = system.started := by
  cases effect with
  | insertWires batch =>
      obtain ⟨cache, -, same⟩ := Option.bind_eq_some_iff.mp answered
      cases same
      exact ⟨rfl, rfl, rfl, rfl⟩
  | sortByUdpRtt addrs =>
      cases reply with
      | order sorted =>
          simp only [answer, Option.ite_none_right_eq_some] at answered
          cases answered.2
          exact ⟨rfl, rfl, rfl, rfl⟩
      | _ => cases answered
  | sendQueryHedged qname qtype servers =>
      cases reply with
      | response result => cases result <;> cases answered <;> exact ⟨rfl, rfl, rfl, rfl⟩
      | _ => cases answered
  | forwardRaw =>
      cases reply with
      | wire result => cases result <;> cases answered <;> exact ⟨rfl, rfl, rfl, rfl⟩
      | _ => cases answered
  | receive key =>
      cases reply with
      | broadcast result =>
          cases answered
          exact ⟨rfl, rfl, rfl, rfl⟩
      | _ => cases answered
  | markRefreshing key => exact isAloof.elim
  | spawnRefresh key => exact isAloof.elim
  | unmarkRefreshing key => exact isAloof.elim
  | acquireInflight key => exact isAloof.elim
  | releaseInflight key => exact isAloof.elim
  | _ =>
      cases answered
      exact ⟨rfl, rfl, rfl, rfl⟩

/-- Only a spawned refresh is a new task. -/
theorem tasks_of_answer {ctx : ServerCtx} {system after : System} {id : Nat} {effect : Effect}
    {reply : Reply} {value : effect.Answer}
    (answered : answer ctx system id effect reply = some (value, after)) :
    (∃ key, effect = .spawnRefresh key) ∨
      (after.tasks = system.tasks ∧ after.started = system.started) := by
  cases effect with
  | spawnRefresh key => exact .inl ⟨key, rfl⟩
  | markRefreshing key =>
      simp only [answer] at answered
      split at answered <;> cases answered <;> exact .inr ⟨rfl, rfl⟩
  | acquireInflight key =>
      simp only [answer] at answered
      split at answered <;> cases answered <;> exact .inr ⟨rfl, rfl⟩
  | unmarkRefreshing key =>
      cases answered
      exact .inr ⟨rfl, rfl⟩
  | releaseInflight key =>
      cases answered
      exact .inr ⟨rfl, rfl⟩
  | _ => exact .inr (frame_of_aloof answered trivial).2.2

def refreshingKeys : KeySet where
  custody := refreshMarks
  keys := System.refreshing
  spawned key := some key
  neutral := by
    intro effect isAloof
    cases effect with
    | markRefreshing key => exact isAloof.elim
    | spawnRefresh key => exact isAloof.elim
    | unmarkRefreshing key => exact isAloof.elim
    | _ => exact ⟨rfl, fun _ => rfl⟩
  gives_spawn _ := rfl
  takes_spawn _ _ := rfl
  spawned_eq := by
    rintro _ _ ⟨⟩
    rfl
  keys_congr same _ := same
  keys_answer := by
    intro ctx system after id effect reply value answered
    cases effect with
    | markRefreshing key =>
        simp only [answer] at answered
        split at answered
        · cases answered
          exact .inr (.inl ⟨rfl, rfl, rfl⟩)
        · rename_i fresh
          cases answered
          exact .inr (.inr (.inl ⟨key, rfl, rfl, fresh, rfl⟩))
    | spawnRefresh key => exact .inl ⟨key, rfl⟩
    | unmarkRefreshing key =>
        cases answered
        exact .inr (.inr (.inr ⟨key, rfl, rfl⟩))
    | acquireInflight key =>
        simp only [answer] at answered
        split at answered <;> cases answered <;> exact .inr (.inl ⟨rfl, rfl, rfl⟩)
    | releaseInflight key =>
        cases answered
        exact .inr (.inl ⟨rfl, rfl, rfl⟩)
    | _ => exact .inr (.inl ⟨rfl, rfl, (frame_of_aloof answered trivial).1⟩)

def inflightKeys : KeySet where
  custody := inflightEntries
  keys := System.inflight
  spawned _ := none
  neutral := by
    intro effect isAloof
    cases effect with
    | acquireInflight key => exact isAloof.elim
    | releaseInflight key => exact isAloof.elim
    | _ => exact ⟨rfl, fun _ => rfl⟩
  gives_spawn _ := rfl
  takes_spawn _ _ := rfl
  spawned_eq := by
    rintro _ _ ⟨⟩
  keys_congr _ same := same
  keys_answer := by
    intro ctx system after id effect reply value answered
    cases effect with
    | markRefreshing key =>
        simp only [answer] at answered
        split at answered <;> cases answered <;> exact .inr (.inl ⟨rfl, rfl, rfl⟩)
    | spawnRefresh key => exact .inl ⟨key, rfl⟩
    | unmarkRefreshing key =>
        cases answered
        exact .inr (.inl ⟨rfl, rfl, rfl⟩)
    | acquireInflight key =>
        simp only [answer] at answered
        split at answered
        · cases answered
          exact .inr (.inl ⟨rfl, rfl, rfl⟩)
        · rename_i fresh
          cases answered
          exact .inr (.inr (.inl ⟨key, rfl, rfl, fresh, rfl⟩))
    | releaseInflight key =>
        cases answered
        exact .inr (.inr (.inr ⟨key, rfl, rfl⟩))
    | _ => exact .inr (.inl ⟨rfl, rfl, (frame_of_aloof answered trivial).2.1⟩)

/-! ## The programs of the service -/

/-- The programs that take and give keys keep to the custody. -/
structure KeySet.Sound (set : KeySet) : Prop where
  refresh : ∀ (ctx : ServerCtx) key,
    set.custody.Keeps (spawnedRefresh ctx key) (set.spawned key)
  start : ∀ key, set.custody.Keeps (startRefresh key) none
  coalesced : ∀ key query leaderPath resolveFn, Aloof resolveFn →
    set.custody.Keeps (resolveCoalesced key query leaderPath resolveFn) none

theorem Aloof.obeys {α : Type} {action : Resolver α} (isAloof : Aloof action) (set : KeySet)
    (held : Option CacheKey) :
    action.Obeys set.custody.protocol (fun after _ => after = held) held :=
  Custody.obeys_of_only isAloof set.neutral held

theorem sound_refreshingKeys : refreshingKeys.Sound where
  refresh ctx key := by
    apply ((aloof_refreshEntry key.1 key.2).obeys refreshingKeys (some key)).bind
    rintro _ _ rfl
    refine ⟨⟨?_, fun _ _ => rfl⟩, ?_⟩
    · rintro _ ⟨⟩
      rfl
    · rintro _ _ rfl
      rfl
  start key := by
    refine ⟨⟨?_, fun some => absurd rfl some⟩, ?_⟩
    · rintro _ ⟨⟩
    · rintro (_ | _) _ rfl
      · rfl
      · refine ⟨⟨?_, fun _ _ => rfl⟩, ?_⟩
        · rintro _ ⟨⟩
          rfl
        · rintro _ _ rfl
          rfl
  coalesced key query leaderPath resolveFn isAloof := by
    have acquire : refreshMarks.Neutral (.acquireInflight key) := ⟨rfl, fun _ => rfl⟩
    have release : refreshMarks.Neutral (.releaseInflight key) := ⟨rfl, fun _ => rfl⟩
    have receive : refreshMarks.Neutral (.receive key) := ⟨rfl, fun _ => rfl⟩
    have broadcast : ∀ result, refreshMarks.Neutral (.broadcast key result) :=
      fun _ => ⟨rfl, fun _ => rfl⟩
    apply obeys_resolveCoalesced
    · exact acquire.allowed
    · intro after moves
      obtain rfl := acquire.eq_of_moves moves
      exact ⟨receive.allowed, fun _ _ received => receive.eq_of_moves received⟩
    · intro after moves
      obtain rfl := acquire.eq_of_moves moves
      apply (isAloof.obeys refreshingKeys none).mono
      rintro _ result rfl
      exact ⟨⟨release.allowed, fun _ _ released => release.eq_of_moves released⟩,
        (broadcast _).allowed, fun _ sent => (broadcast _).eq_of_moves sent⟩

theorem sound_inflightKeys : inflightKeys.Sound where
  refresh ctx key := by
    apply ((aloof_refreshEntry key.1 key.2).obeys inflightKeys none).bind
    rintro _ _ rfl
    have unmark : inflightEntries.Neutral (.unmarkRefreshing key) := ⟨rfl, fun _ => rfl⟩
    exact unmark.obeys_ask fun _ => rfl
  start key := by
    have mark : inflightEntries.Neutral (.markRefreshing key) := ⟨rfl, fun _ => rfl⟩
    have spawn : inflightEntries.Neutral (.spawnRefresh key) := ⟨rfl, fun _ => rfl⟩
    refine mark.obeys_ask fun inserted => ?_
    cases inserted with
    | false => rfl
    | true => exact spawn.obeys_ask fun _ => rfl
  coalesced key query leaderPath resolveFn isAloof := by
    have receive : inflightEntries.Neutral (.receive key) := ⟨rfl, fun _ => rfl⟩
    have broadcast : ∀ result, inflightEntries.Neutral (.broadcast key result) :=
      fun _ => ⟨rfl, fun _ => rfl⟩
    unfold resolveCoalesced
    refine ⟨⟨?_, fun some => absurd rfl some⟩, ?_⟩
    · rintro _ ⟨⟩
    · rintro (_ | _) _ rfl
      · apply (isAloof.obeys inflightKeys (some key)).bind
        rintro _ result rfl
        refine ⟨⟨?_, fun _ _ => rfl⟩, ?_⟩
        · rintro _ ⟨⟩
          rfl
        · rintro _ _ rfl
          cases result with
          | ok resp => exact (broadcast _).obeys_ask fun _ => rfl
          | error error => exact (broadcast _).obeys_ask fun _ => rfl
      · refine receive.obeys_ask fun result => ?_
        cases result with
        | some resp => rfl
        | none => rfl

section Clients

variable {set : KeySet} {ctx : PipelineCtx} {query : DnsPacket} {qname : Text} {qtype : QueryType}

theorem KeySet.Sound.keeps_resolveRemote (sound : set.Sound) {ctx : ServerCtx} :
    set.custody.Keeps (resolveRemote ctx query qname qtype) none := by
  have lookup : set.custody.Neutral (.lookupWithStatus qname qtype) := set.neutral _ trivial
  apply obeys_resolveRemote lookup.allowed
  · intro cached status freshness after moves
    obtain rfl := lookup.eq_of_moves moves
    unfold serveCached
    cases freshness.needsRefresh with
    | false => rfl
    | true =>
        apply (sound.start (qname, qtype)).bind
        intro _
        rfl
  · intro after moves
    obtain rfl := lookup.eq_of_moves moves
    exact sound.coalesced _ _ _ _ (aloof_resolveMiss query qname qtype)

/-- The custody of a client's task. -/
def clientCustody (custody : Custody Effect Effect.Answer CacheKey) :
    Custody QueryEffect QueryEffect.Answer CacheKey where
  takes
    | .resolver effect, answer => custody.takes effect answer
    | _, _ => none
  gives
    | .resolver effect => custody.gives effect
    | _ => none
  apart := by
    rintro (_ | _) _ gives answer
    all_goals first
      | exact custody.apart gives answer
      | cases gives

theorem neutral_local {custody : Custody Effect Effect.Answer CacheKey} {effect : QueryEffect}
    (isLocal : ∀ inner, effect ≠ .resolver inner) : (clientCustody custody).Neutral effect := by
  cases effect with
  | resolver inner => exact absurd rfl (isLocal inner)
  | _ => exact ⟨rfl, fun _ => rfl⟩

theorem KeySet.Sound.keeps_resolveOnce (sound : set.Sound) :
    (clientCustody set.custody).Keeps (resolveOnce ctx query qname qtype) none := by
  have resolveLocal : (clientCustody set.custody).Neutral (.resolveLocal qname qtype) :=
    neutral_local (by simp)
  refine resolveLocal.obeys_ask fun found => ?_
  cases found with
  | some answer => rfl
  | none =>
      apply Interaction.Obeys.embed
      apply sound.keeps_resolveRemote.transfer
      · exact fun _ _ allowed => allowed
      · rintro _ _ _ _ ⟨_, rfl, rfl⟩
        rfl

theorem KeySet.Sound.keeps_chaseLoop (sound : set.Sound) (left : Nat) (visited : List Text)
    (current : Text) (resp : DnsPacket) :
    (clientCustody set.custody).Keeps (chaseLoop ctx query qtype left visited current resp) none := by
  induction left generalizing visited current resp with
  | zero =>
      unfold chaseLoop
      split <;> rfl
  | succ left ih =>
      unfold chaseLoop
      split
      · rfl
      · dsimp only
        split
        · rfl
        · split
          · rfl
          · exact sound.keeps_resolveOnce.bind fun _ => ih _ _ _

theorem keeps_validateAndCache (response : DnsPacket) (path : QueryPath)
    (dnssec : DnssecStatus) :
    (clientCustody set.custody).Keeps
      (validateAndCache ctx query qname qtype response path dnssec) none := by
  unfold validateAndCache
  split
  · have validate : (clientCustody set.custody).Neutral (.validate response) :=
      neutral_local (by simp)
    refine validate.obeys_ask fun status => ?_
    have insert : (clientCustody set.custody).Neutral (.insertWithStatus qname qtype
        (applyStatus ctx query status response) status) := neutral_local (by simp)
    exact insert.obeys_ask fun _ => rfl
  · rfl

theorem keeps_applyRebind (path : QueryPath) (response : DnsPacket) :
    (clientCustody set.custody).Keeps (applyRebind qname path response) none := by
  unfold applyRebind
  split
  · rfl
  · have rebind : (clientCustody set.custody).Neutral .readRebind := neutral_local (by simp)
    exact rebind.obeys_ask fun _ => rfl

theorem KeySet.Sound.keeps_resolveWithCnameChase (sound : set.Sound) :
    (clientCustody set.custody).Keeps (resolveWithCnameChase ctx query qname qtype) none := by
  refine sound.keeps_resolveOnce.bind fun resolved => ?_
  refine (sound.keeps_chaseLoop _ _ _ _).bind fun result => ?_
  cases result <;> rfl

/-- A client's task ends with nothing in custody. -/
theorem KeySet.Sound.keeps_resolveQuery (sound : set.Sound) (filterAaaa : Bool) :
    (clientCustody set.custody).Keeps (resolveQuery ctx query filterAaaa) none := by
  unfold resolveQuery
  split
  · rfl
  · refine sound.keeps_resolveWithCnameChase.bind fun result => ?_
    cases result with
    | none => rfl
    | some resolved =>
        refine (keeps_validateAndCache _ _ _).bind fun validated => ?_
        refine (keeps_applyRebind _ _).bind fun filtered => ?_
        dsimp only
        split <;> rfl

end Clients

/-! ## The custody of a run -/

/-- Who has a key in custody. -/
inductive Holder
  | client (id : Nat)
  | task (id : Nat)
  deriving DecidableEq

/-- What is left to do of a task keeps to the custody of what it holds, and a
task that does not exist holds nothing. -/
def Service.KeepsAt (set : KeySet) (service : Service) : Holder → Option CacheKey → Prop
  | .client id, held =>
    match service.clients id with
    | some client => (clientCustody set.custody).Keeps client.program held
    | none => held = none
  | .task id, held =>
    match service.system.tasks id with
    | some task => set.custody.Keeps task.program held
    | none => held = none

/-- All holders but some keep to the custody of what they hold. -/
structure Kept (set : KeySet) (but : Holder → Prop) (holds : Holder → Option CacheKey)
    (service : Service) : Prop where
  keeps : ∀ holder, ¬ but holder → service.KeepsAt set holder (holds holder)
  arrived : ∀ id, service.arrived ≤ id → service.clients id = none
  started : ∀ id, service.system.started ≤ id → service.system.tasks id = none

/-- Every key of the set is in the custody of one holder, and all keep to it. -/
structure InCustody (set : KeySet) (holds : Holder → Option CacheKey) (service : Service) : Prop
    extends Kept set (fun _ => False) holds service where
  held : Held (set.keys service.system) holds

section Custody

variable {set : KeySet} {but : Holder → Prop} {holds : Holder → Option CacheKey}
  {service after : Service} {holder : Holder} {ctx : PipelineCtx} {verdict : Verdict} {id : Nat}

namespace Kept

/-- Only the tasks matter. -/
theorem congr (kept : Kept set but holds service)
    (tasks : after.system.tasks = service.system.tasks)
    (started : after.system.started = service.system.started)
    (clients : after.clients = service.clients) (arrived : after.arrived = service.arrived) :
    Kept set but holds after where
  keeps other notBut := by
    have keeps := kept.keeps other notBut
    cases other with
    | client id => rwa [Service.KeepsAt, clients]
    | task id => rwa [Service.KeepsAt, tasks]
  arrived := by
    rw [arrived, clients]
    exact kept.arrived
  started := by
    rw [started, tasks]
    exact kept.started

/-- The ids of the next task and the next client are new. -/
theorem task_started (kept : Kept set but holds service)
    (notBut : ¬ but (.task service.system.started)) : holds (.task service.system.started) = none := by
  have keeps := kept.keeps _ notBut
  rwa [Service.KeepsAt, kept.started _ (le_refl _)] at keeps

theorem client_arrived (kept : Kept set but holds service)
    (notBut : ¬ but (.client service.arrived)) : holds (.client service.arrived) = none := by
  have keeps := kept.keeps _ notBut
  rwa [Service.KeepsAt, kept.arrived _ (le_refl _)] at keeps

/-- A holder is left out while it takes its step. -/
theorem leaveOut (kept : Kept set (fun _ => False) holds service) (holder : Holder)
    (now : Option CacheKey) :
    Kept set (· = holder) (Function.update holds holder now) service where
  keeps other notHolder := by
    rw [Function.update_of_ne notHolder]
    exact kept.keeps other id
  arrived := kept.arrived
  started := kept.started

/-- The task that has taken its step is set. -/
theorem setTask (kept : Kept set (· = .task id) holds service) (task : Option Task)
    (this : match task with
      | some task => set.custody.Keeps task.program (holds (.task id))
      | none => holds (.task id) = none) (old : id < service.system.started) :
    Kept set (fun _ => False) holds
      { service with system := service.system.setTask id task } where
  keeps other _ := by
    by_cases same : other = .task id
    · subst same
      simp only [Service.KeepsAt, System.setTask_tasks_self]
      exact this
    · have keeps := kept.keeps other same
      cases other with
      | client found => exact keeps
      | task found =>
          have different : found ≠ id := fun isSame => same (isSame ▸ rfl)
          simp only [Service.KeepsAt, System.setTask_tasks_of_ne _ different]
          exact keeps
  arrived := kept.arrived
  started found isLater := by
    have later : service.system.started ≤ found := isLater
    have different : found ≠ id := by omega
    simp only [System.setTask_tasks_of_ne _ different]
    exact kept.started found later

/-- So is a client. -/
theorem setClient (kept : Kept set (· = .client id) holds service) (client : Option Client)
    (this : match client with
      | some client => (clientCustody set.custody).Keeps client.program (holds (.client id))
      | none => holds (.client id) = none) (old : id < service.arrived) :
    Kept set (fun _ => False) holds (service.setClient id client) where
  keeps other _ := by
    by_cases same : other = .client id
    · subst same
      simp only [Service.KeepsAt, Service.setClient_clients_self]
      exact this
    · have keeps := kept.keeps other same
      cases other with
      | task found => exact keeps
      | client found =>
          have different : found ≠ id := fun isSame => same (isSame ▸ rfl)
          simp only [Service.KeepsAt, Service.setClient_clients_of_ne _ different]
          exact keeps
  arrived found isLater := by
    have later : service.arrived ≤ found := isLater
    have different : found ≠ id := by omega
    rw [Service.setClient_clients_of_ne _ different]
    exact kept.arrived found later
  started := kept.started

/-- A task is spawned with a program that keeps to the custody of what it is
handed. -/
theorem spawn {handed : Option CacheKey} (kept : Kept set but holds service)
    {program : Resolver Unit} (keeps : set.custody.Keeps program handed)
    (refreshes : Option CacheKey) :
    Kept set but (Function.update holds (.task service.system.started) handed)
      { service with system := service.system.spawn refreshes program } where
  keeps other notBut := by
    by_cases isNew : other = .task service.system.started
    · subst isNew
      rw [Function.update_self]
      simp only [Service.KeepsAt, System.spawn, System.setTask_tasks_self]
      exact keeps
    · rw [Function.update_of_ne isNew]
      have others := kept.keeps other notBut
      cases other with
      | client found => exact others
      | task found =>
          have different : found ≠ service.system.started := fun same => isNew (same ▸ rfl)
          simp only [Service.KeepsAt, System.spawn, System.setTask_tasks_of_ne _ different]
          exact others
  arrived := kept.arrived
  started found isLater := by
    have later : service.system.started + 1 ≤ found := isLater
    have different : found ≠ service.system.started := by omega
    simp only [System.spawn, System.setTask_tasks_of_ne _ different]
    exact kept.started found (by omega)

/-- A client arrives. -/
theorem arrive (kept : Kept set (fun _ => False) holds service) (sound : set.Sound)
    (query : DnsPacket) (filterAaaa : Bool) :
    Kept set (fun _ => False) holds
      { service.setClient service.arrived
          (some ⟨query, [], resolveQuery ctx query filterAaaa⟩) with
        arrived := service.arrived + 1 } where
  keeps other notBut := by
    by_cases isNew : other = .client service.arrived
    · subst isNew
      rw [kept.client_arrived notBut]
      simp only [Service.KeepsAt, Service.setClient_clients_self]
      exact sound.keeps_resolveQuery filterAaaa
    · have keeps := kept.keeps other notBut
      cases other with
      | task found => exact keeps
      | client found =>
          have different : found ≠ service.arrived := fun same => isNew (same ▸ rfl)
          simp only [Service.KeepsAt, Service.setClient_clients_of_ne _ different]
          exact keeps
  arrived found isLater := by
    have later : service.arrived + 1 ≤ found := isLater
    have different : found ≠ service.arrived := by omega
    simp only [Service.setClient_clients_of_ne _ different]
    exact kept.arrived found (by omega)
  started := kept.started

end Kept

/-- What is held after an effect of a holder is answered. -/
theorem InCustody.answer (custody : InCustody set holds service) (sound : set.Sound)
    {effect : Effect} {reply : Reply} {value : effect.Answer} {system : System}
    (isOld : holder ≠ .task service.system.started)
    (allowed : set.custody.protocol.allowed (holds holder) effect)
    (answered : Numa.answer ctx.toServerCtx service.system id effect reply = some (value, system)) :
    ∃ given : Holder → Option CacheKey,
      given holder = set.custody.next (holds holder) effect value ∧
      Held (set.keys system) given ∧
      Kept set (· = holder) given { service with system := system } ∧
      service.system.started ≤ system.started := by
  rcases tasks_of_answer answered with ⟨key, rfl⟩ | ⟨sameTasks, sameStarted⟩
  · cases answered
    have idle := custody.task_started fun impossible => impossible
    have leftOut := custody.leaveOut holder
      (set.custody.next (holds holder) (.spawnRefresh key) ())
    refine ⟨_, ?_, ?_, leftOut.spawn (sound.refresh ctx.toServerCtx key) (some key),
      Nat.le_succ _⟩
    · rw [Function.update_of_ne isOld, Function.update_self]
    · have sameKeys : set.keys (service.system.spawn (some key)
          (spawnedRefresh ctx.toServerCtx key)) = set.keys service.system := set.keys_congr rfl rfl
      rw [sameKeys]
      cases handed : set.spawned key with
      | none =>
          have neutral : set.custody.Neutral (.spawnRefresh key) :=
            ⟨(set.gives_spawn key).trans handed, set.takes_spawn key⟩
          rw [show set.custody.next (holds holder) (.spawnRefresh key) () = holds holder from
            neutral.next_eq (), Function.update_eq_self]
          exact custody.held.update_none idle
      | some other =>
          obtain rfl := set.spawned_eq handed
          have gives := (set.gives_spawn other).trans handed
          have given : set.custody.next (holds holder) (.spawnRefresh other) () = none := by
            simp only [Custody.next, gives]
          rw [given]
          exact custody.held.pass (allowed.1 other gives) idle
  · refine ⟨Function.update holds holder (set.custody.next (holds holder) effect value),
      Function.update_self .., ?_, (custody.leaveOut holder _).congr sameTasks sameStarted rfl rfl,
      sameStarted.ge⟩
    rcases set.keys_answer answered with ⟨key, rfl⟩ | ⟨givesNone, takesNone, sameKeys⟩ |
      ⟨key, givesNone, takes, fresh, keysEq⟩ | ⟨key, gives, keysEq⟩
    · cases answered
      exact absurd sameStarted (Nat.succ_ne_self _)
    · have still : set.custody.next (holds holder) effect value = holds holder := by
        simp only [Custody.next, givesNone, takesNone]
      rw [still, Function.update_eq_self, sameKeys]
      exact custody.held
    · have taken : set.custody.next (holds holder) effect value = some key := by
        simp only [Custody.next, givesNone, takes]
      rw [taken, keysEq]
      refine custody.held.take fresh ?_
      by_contra holdsSome
      rw [allowed.2 holdsSome value] at takes
      cases takes
    · have given : set.custody.next (holds holder) effect value = none := by
        simp only [Custody.next, gives]
      rw [given, keysEq]
      exact custody.held.give (allowed.1 key gives)

theorem InCustody.keeps_task (custody : InCustody set holds service) {task : Task}
    (isTask : service.system.tasks id = some task) :
    set.custody.Keeps task.program (holds (.task id)) ∧ id < service.system.started := by
  have keeps := custody.keeps (.task id) fun impossible => impossible
  rw [Service.KeepsAt, isTask] at keeps
  refine ⟨keeps, ?_⟩
  by_contra notOld
  rw [custody.started id (by omega)] at isTask
  cases isTask

theorem InCustody.keeps_client (custody : InCustody set holds service) {client : Client}
    (isClient : service.clients id = some client) :
    (clientCustody set.custody).Keeps client.program (holds (.client id)) ∧
      id < service.arrived := by
  have keeps := custody.keeps (.client id) fun impossible => impossible
  rw [Service.KeepsAt, isClient] at keeps
  refine ⟨keeps, ?_⟩
  by_contra notOld
  rw [custody.arrived id (by omega)] at isClient
  cases isClient

/-- A background task takes a step. -/
theorem InCustody.step_task (custody : InCustody set holds service) (sound : set.Sound)
    {reply : Reply} {system : System}
    (ran : service.system.step ctx.toServerCtx (.run id reply) = some system) :
    ∃ given, InCustody set given { service with system := system } := by
  obtain ⟨task, isTask, ⟨value, isDone, rfl⟩ | ⟨effect, next, value, middle, isNext, answered,
    rfl⟩⟩ := step_run_cases ran
  · obtain ⟨keeps, old⟩ := custody.keeps_task isTask
    have leftOut := custody.leaveOut (.task id) (holds (.task id))
    rw [Function.update_eq_self] at leftOut
    rw [isDone] at keeps
    exact ⟨holds, leftOut.setTask none keeps old, set.held_congr custody.held rfl rfl⟩
  · obtain ⟨keeps, old⟩ := custody.keeps_task isTask
    rw [isNext] at keeps
    obtain ⟨given, nextEq, held, kept, grown⟩ := custody.answer sound
      (fun same => old.ne (Holder.task.inj same)) keeps.1 answered
    have later : set.custody.Keeps (next value) (given (.task id)) := keeps.2 value _ nextEq
    exact ⟨given, kept.setTask (some { task with program := next value }) later
      (old.trans_le grown), set.held_congr held rfl rfl⟩

/-- An effect of a client is answered. -/
theorem InCustody.answerClient (custody : InCustody set holds service) (sound : set.Sound)
    {effect : QueryEffect} {reply : QueryReply} {value : effect.Answer} {middle : Service}
    (allowed : (clientCustody set.custody).protocol.allowed (holds (.client id)) effect)
    (answered : service.answer ctx verdict id effect reply = some (value, middle)) :
    ∃ given : Holder → Option CacheKey,
      given (.client id) = (clientCustody set.custody).next (holds (.client id)) effect value ∧
      Held (set.keys middle.system) given ∧ Kept set (· = .client id) given middle ∧
      middle.arrived = service.arrived := by
  have still : ∀ after : Service, (clientCustody set.custody).Neutral effect →
      after.system.refreshing = service.system.refreshing →
      after.system.inflight = service.system.inflight →
      after.system.tasks = service.system.tasks →
      after.system.started = service.system.started → after.clients = service.clients →
      after.arrived = service.arrived →
      ∃ given : Holder → Option CacheKey,
        given (.client id) = (clientCustody set.custody).next (holds (.client id)) effect value ∧
        Held (set.keys after.system) given ∧ Kept set (· = .client id) given after ∧
        after.arrived = service.arrived := by
    intro after neutral refreshing inflight tasks started clients arrived
    have leftOut := custody.leaveOut (.client id) (holds (.client id))
    rw [Function.update_eq_self] at leftOut
    exact ⟨holds, (neutral.next_eq value).symm, set.held_congr custody.held refreshing inflight,
      leftOut.congr tasks started clients arrived, arrived⟩
  cases effect with
  | resolver inner =>
      cases reply with
      | resolver innerReply =>
          rcases Service.answerResolver_cases answered with ⟨key, result, rfl, rfl⟩ |
            ⟨key, rfl, rfl⟩ | ⟨system, inSystem, rfl⟩
          · exact still _ (set.neutral _ trivial) rfl rfl rfl rfl rfl rfl
          · exact still _ (set.neutral _ trivial) rfl rfl rfl rfl rfl rfl
          · obtain ⟨given, nextEq, held, kept, -⟩ :=
              custody.answer sound (by simp) allowed inSystem
            exact ⟨given, nextEq, held, kept, rfl⟩
      | _ => cases answered
  | _ =>
      rcases Service.answer_cases answered with ⟨_, _, _, isResolver, -⟩ |
        ⟨_, _, _, _, _, -, -, rfl⟩ | rfl
      · cases isResolver
      · exact still _ (neutral_local (by simp)) rfl rfl rfl rfl rfl rfl
      · exact still _ (neutral_local (by simp)) rfl rfl rfl rfl rfl rfl

/-- A client takes a step. -/
theorem InCustody.step_client (custody : InCustody set holds service) (sound : set.Sound)
    {reply : QueryReply} (stepped : service.step ctx verdict (.client id reply) = some after) :
    ∃ given, InCustody set given after := by
  obtain ⟨client, isClient, taken⟩ := Service.step_client_cases stepped
  obtain ⟨keeps, old⟩ := custody.keeps_client isClient
  have leftOut := custody.leaveOut (.client id) (holds (.client id))
  rw [Function.update_eq_self] at leftOut
  rcases taken with ⟨isDone, rfl⟩ | ⟨answer, isDone, rfl⟩ |
    ⟨effect, next, value, middle, isNext, answered, rfl⟩
  · rw [isDone] at keeps
    exact ⟨holds, leftOut.setClient none keeps old, custody.held⟩
  · rw [isDone] at keeps
    exact ⟨holds, (leftOut.setClient none keeps old).congr rfl rfl rfl rfl, custody.held⟩
  · rw [isNext] at keeps
    obtain ⟨given, nextEq, held, kept, arrived⟩ := custody.answerClient sound keeps.1 answered
    exact ⟨given, kept.setClient
      (some ⟨client.query, ⟨effect, value⟩ :: client.history, next value⟩)
      (keeps.2 value _ nextEq) (arrived ▸ old), held⟩

/-- Every step leaves every key in the custody of one holder. -/
theorem InCustody.step (custody : InCustody set holds service) (sound : set.Sound)
    {action : ServiceAction} (stepped : service.step ctx verdict action = some after) :
    ∃ given, InCustody set given after := by
  have notHere : ¬ False := fun impossible => impossible
  have spawned : ∀ {program : Resolver Unit} (refreshes : Option CacheKey), Aloof program →
      ∃ given, InCustody set given
        { service with system := service.system.spawn refreshes program } := by
    intro program refreshes isAloof
    have idle := custody.task_started notHere
    have kept := custody.toKept.spawn (isAloof.obeys set none) refreshes
    rw [← idle, Function.update_eq_self] at kept
    exact ⟨holds, kept, set.held_congr custody.held rfl rfl⟩
  cases action with
  | tick duration =>
      cases stepped
      exact ⟨holds, custody.toKept.congr rfl rfl rfl rfl, set.held_congr custody.held rfl rfl⟩
  | warm qname qtype =>
      cases stepped
      exact spawned _ (aloof_refreshEntry qname qtype)
  | prime tlds =>
      cases stepped
      exact spawned _ (aloof_primeTldCache tlds)
  | clear =>
      cases stepped
      exact ⟨holds, custody.toKept.congr rfl rfl rfl rfl, set.held_congr custody.held rfl rfl⟩
  | remove domain =>
      cases stepped
      exact ⟨holds, custody.toKept.congr rfl rfl rfl rfl, set.held_congr custody.held rfl rfl⟩
  | fetch id name qtype =>
      obtain ⟨client, -, taken⟩ := Option.bind_eq_some_iff.mp stepped
      simp only [Option.ite_none_right_eq_some] at taken
      cases taken.2
      exact spawned _ (aloof_fetchKeys name qtype)
  | arrive query filterAaaa =>
      cases stepped
      exact ⟨holds, custody.toKept.arrive sound query filterAaaa, custody.held⟩
  | task id reply =>
      obtain ⟨system, ran, rfl⟩ := Service.step_task_cases stepped
      exact custody.step_task sound ran
  | client id reply => exact custody.step_client sound stepped

/-- Whatever happens, what is left to do of a holder's task gives up this key
before it takes or gives up any other. -/
def Service.WillGive (set : KeySet) (service : Service) (holder : Holder) (key : CacheKey) : Prop :=
  match holder with
  | .client id => ∃ client, service.clients id = some client ∧
    (clientCustody set.custody).WillGive client.program key
  | .task id => ∃ task, service.system.tasks id = some task ∧ set.custody.WillGive task.program key

/-- An answer to every effect. -/
def anyAnswer : (effect : Effect) → effect.Answer
  | .lookup .. => none
  | .lookupWithStatus .. => none
  | .readCache => fun _ _ => none
  | .insertWires _ => ()
  | .sortByUdpRtt _ => []
  | .sendQueryHedged .. => .error ()
  | .forwardRaw => .error ()
  | .markRefreshing _ => false
  | .spawnRefresh _ => ()
  | .unmarkRefreshing _ => ()
  | .acquireInflight _ => .leader
  | .releaseInflight _ => ()
  | .broadcast .. => ()
  | .receive _ => none

def anyQueryAnswer : (effect : QueryEffect) → effect.Answer
  | .resolver effect => anyAnswer effect
  | .resolveLocal .. => none
  | .validate _ => .indeterminate
  | .insertWithStatus .. => ()
  | .readRebind => ⟨false, fun _ => false, fun _ => false⟩

/-- What a holder holds is what it will give up. -/
theorem InCustody.willGive_iff (custody : InCustody set holds service) {key : CacheKey} :
    service.WillGive set holder key ↔ holds holder = some key := by
  have keeps := custody.keeps holder fun impossible => impossible
  cases holder with
  | client id =>
      cases isClient : service.clients id with
      | none =>
          simp only [Service.KeepsAt, isClient] at keeps
          simp [Service.WillGive, isClient, keeps]
      | some client =>
          simp only [Service.KeepsAt, isClient] at keeps
          simp only [Service.WillGive, isClient, Option.some.injEq, exists_eq_left',
            keeps.willGive_iff anyQueryAnswer]
  | task id =>
      cases isTask : service.system.tasks id with
      | none =>
          simp only [Service.KeepsAt, isTask] at keeps
          simp [Service.WillGive, isTask, keeps]
      | some task =>
          simp only [Service.KeepsAt, isTask] at keeps
          simp only [Service.WillGive, isTask, Option.some.injEq, exists_eq_left',
            keeps.willGive_iff anyAnswer]

/-- In every run, each key of the set is in the custody of exactly one task. -/
theorem KeySet.Sound.custody_of_runAll (sound : set.Sound) {cache : DnsCache}
    (empty : set.keys (.init cache) = []) {actions : List ServiceAction}
    (ran : (Service.init cache).runAll ctx verdict actions = some service) :
    (set.keys service.system).Nodup ∧
      (∀ key, key ∈ set.keys service.system ↔ ∃! holder, service.WillGive set holder key) ∧
      ((∀ id, service.clients id = none) → (∀ id, service.system.tasks id = none) →
        set.keys service.system = []) := by
  let invariant := fun service => ∃ holds, InCustody set holds service
  have start : invariant (Service.init cache) :=
    ⟨fun _ => none, ⟨fun holder _ => by cases holder <;> rfl, fun _ _ => rfl, fun _ _ => rfl⟩,
      empty ▸ Held.nil⟩
  have always : invariant service := by
    apply Service.invariant_runAll start _ ran
    rintro before action next - ⟨_, custody⟩ stepped
    exact custody.step sound stepped
  obtain ⟨holds, custody⟩ := always
  refine ⟨custody.held.nodup, fun key => ?_, fun noClient noTask => ?_⟩
  · rw [custody.held.mem_iff]
    constructor
    · rintro ⟨holder, isHeld⟩
      refine ⟨holder, custody.willGive_iff.mpr isHeld, fun other willGive => ?_⟩
      exact custody.held.unique (custody.willGive_iff.mp willGive) isHeld
    · rintro ⟨holder, willGive, -⟩
      exact ⟨holder, custody.willGive_iff.mp willGive⟩
  · rw [List.eq_nil_iff_forall_not_mem]
    intro key keyMem
    obtain ⟨holder, isHeld⟩ := (custody.held.mem_iff key).mp keyMem
    have willGive := custody.willGive_iff.mpr isHeld
    cases holder with
    | client id =>
        obtain ⟨client, isClient, -⟩ := willGive
        rw [noClient] at isClient
        cases isClient
    | task id =>
        obtain ⟨task, isTask, -⟩ := willGive
        rw [noTask] at isTask
        cases isTask

/-- In every run, a key is marked as refreshing iff exactly one task will hand
it to a refresh or unmark it, so that no entry has two such refreshes and none
stays marked. -/
theorem refreshing_of_runAll {cache : DnsCache} {actions : List ServiceAction}
    (ran : (Service.init cache).runAll ctx verdict actions = some service) :
    service.system.refreshing.Nodup ∧
      (∀ key, key ∈ service.system.refreshing ↔
        ∃! holder, service.WillGive refreshingKeys holder key) ∧
      ((∀ id, service.clients id = none) → (∀ id, service.system.tasks id = none) →
        service.system.refreshing = []) :=
  sound_refreshingKeys.custody_of_runAll rfl ran

/-- A service that forwards its queries. -/
def relayCtx : PipelineCtx :=
  { strictCtx with upstreamMode := .forward }

/-- The answer of an upstream to the first client. -/
def relayedAnswer : DnsPacket :=
  { DnsPacket.responseFrom (strictQuery 1) .noerror with
    answers := [.a (text "test") (.new 192 0 2 1) 300] }

/-- A second client finds the entry of the first one when it is about to expire,
and marks it. -/
def markingRun : List ServiceAction :=
  coalescing 0 (strictQuery 1) ++
    [ .client 0 (.resolver (.wire (.ok (.ofPacket relayedAnswer)))), .client 0 (.resolver .nothing),
      .client 0 (.resolver .nothing), .client 0 (.resolver .nothing), .client 0 (.rebind rebindOff),
      .client 0 .nothing, .tick (fromSecs 299), .arrive (strictQuery 2) false,
      .client 1 (.resolveLocal none), .client 1 (.resolver .nothing), .client 1 (.resolver .nothing) ]

theorem refreshing_of_runAll_markingRun :
    ∃ service, (Service.init (.new 100000 60 86400)).runAll relayCtx strictVerdict markingRun =
        some service ∧ service.system.refreshing = [(text "test", .a)] ∧
      ∃! holder, service.WillGive refreshingKeys holder (text "test", .a) := by
  have marks : ((Service.init (.new 100000 60 86400)).runAll relayCtx strictVerdict
      markingRun).any (fun service =>
        decide (service.system.refreshing = [(text "test", .a)])) = true := by decide +kernel
  obtain ⟨service, ran, isMarked⟩ := (Option.any_eq_true _ _).mp marks
  have refreshing := of_decide_eq_true isMarked
  refine ⟨service, ran, refreshing, ((refreshing_of_runAll ran).2.1 _).mp ?_⟩
  rw [refreshing]
  exact List.mem_singleton_self _

end Custody

end Numa
