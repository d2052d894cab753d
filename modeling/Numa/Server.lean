import Mathlib.Logic.Function.Basic
import Numa.Recursive

/-!
# The server

`resolve_remote` and `refresh_entry` of `ctx.rs` as interactions, and the
system of all tasks that run them.  Tasks interleave at every effect, and the
clock moves between any two steps.  The upstreams a query is forwarded to and
the transport tag of a response are left out, as nothing depends on them.
-/

namespace Numa

structure ForwardingRule where
  suffix : Text

/-- Does some rule match the domain? -/
def matchForwardingRule (domain : Text) (rules : List ForwardingRule) : Bool :=
  rules.any fun rule => domain == rule.suffix || (dot :: rule.suffix).isSuffixOf domain

inductive UpstreamMode
  | auto
  | forward
  | recursive
  | odoh
  deriving DecidableEq

inductive QueryPath
  /-- `Local`. -/
  | localData
  | cached
  | forwarded
  | upstream
  | recursive
  | coalesced
  | blocked
  | overridden
  | upstreamError
  deriving DecidableEq

/-- Zones, overrides and the sinkhole. -/
def QueryPath.returnsTrustedLocalData : QueryPath → Bool
  | localData | overridden | blocked => true
  | cached | forwarded | upstream | recursive | coalesced | upstreamError => false

structure ServerCtx extends ResolverEnv where
  forwardingRules : List ForwardingRule
  upstreamMode : UpstreamMode

section Programs

variable (ctx : ServerCtx)

def cacheAndParse (qname : Text) (qtype : QueryType) (respWire : Wire) : Resolution := do
  Resolver.insertWires [⟨qname, qtype, respWire⟩]
  match respWire.packet with
  | some packet => pure (.ok packet)
  | none => pure (.error .failed)

/-- A forwarded query, whose answer is cached. -/
def forwardAndCache (qname : Text) (qtype : QueryType) : Resolution := do
  match ← Resolver.forwardRaw with
  | .ok wire => cacheAndParse qname qtype wire
  | .error _ => pure (.error .failed)

def resolveCoalesced (key : CacheKey) (query : DnsPacket) (leaderPath : QueryPath)
    (resolveFn : Resolution) : Resolver (DnsPacket × QueryPath) := do
  match ← Resolver.acquireInflight key with
  | .follower =>
    match ← Resolver.receive key with
    | some resp =>
      pure ({ resp with header := { resp.header with id := query.header.id } }, .coalesced)
    | none => pure (.responseFrom query .servfail, .upstreamError)
  | .leader =>
    let result ← resolveFn
    Resolver.releaseInflight key
    match result with
    | .ok resp =>
      Resolver.broadcast key (some resp)
      pure (resp, leaderPath)
    | .error _ =>
      Resolver.broadcast key none
      pure (.responseFrom query .servfail, .upstreamError)

/-- The background refresh that an entry about to expire starts, once. -/
def startRefresh (key : CacheKey) : Resolver Unit := do
  let inserted ← Resolver.markRefreshing key
  if inserted then Resolver.spawnRefresh key

/-- A cache hit, with the refresh it may start. -/
def serveCached (query : DnsPacket) (key : CacheKey) (cached : DnsPacket)
    (cachedDnssec : DnssecStatus) (freshness : Freshness) :
    Resolver (DnsPacket × QueryPath × DnssecStatus) := do
  if freshness.needsRefresh then startRefresh key
  let resp :=
    { cached with
      header :=
        { cached.header with
          id := query.header.id
          recursionDesired := query.header.recursionDesired
          recursionAvailable := true
          authedData := cachedDnssec == .secure || cached.header.authedData }
      questions := query.questions }
  pure (resp, .cached, cachedDnssec)

/-- What the leader does on a cache miss, and the path it is tagged with. -/
def resolveMiss (query : DnsPacket) (qname : Text) (qtype : QueryType) :
    QueryPath × Resolution :=
  if matchForwardingRule qname ctx.forwardingRules then
    (.forwarded, forwardAndCache qname qtype)
  else if ctx.upstreamMode = .recursive then
    (.recursive, resolveRecursive ctx.toResolverEnv .client qname qtype query)
  else (.upstream, forwardAndCache qname qtype)

def resolveRemote (query : DnsPacket) (qname : Text) (qtype : QueryType) :
    Resolver (DnsPacket × QueryPath × DnssecStatus) := do
  match ← Resolver.lookupWithStatus qname qtype with
  | some (cached, cachedDnssec, freshness) =>
    serveCached query (qname, qtype) cached cachedDnssec freshness
  | none =>
    let (leaderPath, resolveFn) := resolveMiss ctx query qname qtype
    let (resp, path) ← resolveCoalesced (qname, qtype) query leaderPath resolveFn
    pure (resp, path, .indeterminate)

/-- The refresh of an entry by a forwarded query. -/
def refreshByForwarding (qname : Text) (qtype : QueryType) : Resolver Unit := do
  if ctx.writable (.query 0 qname qtype) then
    match ← Resolver.forwardRaw with
    | .ok wire => Resolver.insertWires [⟨qname, qtype, wire⟩]
    | .error _ => pure ()

def refreshEntry (qname : Text) (qtype : QueryType) : Resolver Unit := do
  if matchForwardingRule qname ctx.forwardingRules then refreshByForwarding ctx qname qtype
  else if ctx.upstreamMode = .recursive then
    match ← resolveRecursive ctx.toResolverEnv .refresh qname qtype (.query 0 qname qtype) with
    | .ok resp => insertPackets ctx.toResolverEnv [(qname, qtype, resp)]
    | .error _ => pure ()
  else refreshByForwarding ctx qname qtype

end Programs

/-! ## The system -/

/-- A running task.  A refresh knows its entry. -/
structure Task where
  refreshes : Option CacheKey
  started : Nat
  program : Resolver Unit

/-- Records that a task received from a server. -/
structure Receipt where
  task : Nat
  time : Nat
  records : List DnsRecord

structure System where
  now : Nat
  cache : DnsCache
  refreshing : List CacheKey
  inflight : List CacheKey
  tasks : Nat → Option Task
  /-- The number of tasks started. -/
  started : Nat
  /-- Everything received so far. -/
  receipts : List Receipt

namespace System

def init (cache : DnsCache) : System where
  now := 0
  cache := cache
  refreshing := []
  inflight := []
  tasks _ := none
  started := 0
  receipts := []

def setTask (system : System) (id : Nat) (task : Option Task) : System :=
  { system with tasks := Function.update system.tasks id task }

@[simp]
theorem setTask_tasks_self (system : System) (id : Nat) (task : Option Task) :
    (system.setTask id task).tasks id = task := by
  simp [setTask]

theorem setTask_tasks_of_ne (system : System) {id other : Nat} (different : other ≠ id)
    (task : Option Task) : (system.setTask id task).tasks other = system.tasks other := by
  simp [setTask, different]

def spawn (system : System) (refreshes : Option CacheKey) (program : Resolver Unit) : System :=
  { system.setTask system.started (some ⟨refreshes, system.now, program⟩) with
    started := system.started + 1 }

/-- The state after a task has received records. -/
def receive (system : System) (id : Nat) (records : List DnsRecord) : System :=
  { system with receipts := ⟨id, system.now, records⟩ :: system.receipts }

end System

/-- The insertions of a batch in their order. -/
def insertBatch (now : Nat) : List Insertion → DnsCache → Option DnsCache
  | [], cache => some cache
  | item :: batch, cache => do
    let cache ← cache.insertWire now item.domain item.qtype item.wire .indeterminate
    insertBatch now batch cache

/-- The part of an answer that is not determined by the state. -/
inductive Reply
  | nothing
  | order (addrs : List SocketAddr)
  | response (result : Except Unit DnsPacket)
  | wire (result : Except Unit Wire)
  | broadcast (result : Option DnsPacket)

/-- What happens outside a task. -/
inductive Action
  /-- Time passes. -/
  | tick (duration : Nat)
  /-- A client asks. -/
  | query (query : DnsPacket) (qname : Text) (qtype : QueryType)
  /-- The warming of the cache refreshes an entry. -/
  | warm (qname : Text) (qtype : QueryType)
  /-- A task takes its next step. -/
  | run (id : Nat) (reply : Reply)

section Steps

variable (ctx : ServerCtx)

/-- The task that `resolve_remote` spawns for a marked entry. -/
def spawnedRefresh (key : CacheKey) : Resolver Unit := do
  refreshEntry ctx key.1 key.2
  Resolver.unmarkRefreshing key

/-- The answer to an effect and the state after it.  `none` is a panic or a
reply that does not fit. -/
def answer (system : System) (id : Nat) : (effect : Effect) → Reply →
    Option (effect.Answer × System)
  | .lookup _ qname qtype, _ => some (system.cache.lookup system.now qname qtype, system)
  | .lookupWithStatus qname qtype, _ =>
    some (system.cache.lookupWithStatus system.now qname qtype, system)
  | .readCache, _ => some (system.cache.lookup system.now, system)
  | .insertWires batch, _ => do
    let cache ← insertBatch system.now batch system.cache
    some ((), { system with cache := cache })
  | .sortByUdpRtt addrs, .order sorted => if sorted.isPerm addrs then some (sorted, system) else none
  | .sendQueryHedged .., .response (.ok packet) =>
    some (.ok packet, system.receive id packet.records)
  | .sendQueryHedged .., .response (.error error) => some (.error error, system)
  | .forwardRaw, .wire (.ok wire) => some (.ok wire, system.receive id wire.records)
  | .forwardRaw, .wire (.error error) => some (.error error, system)
  | .markRefreshing key, _ =>
    if key ∈ system.refreshing then some (false, system)
    else some (true, { system with refreshing := key :: system.refreshing })
  | .spawnRefresh key, _ => some ((), system.spawn (some key) (spawnedRefresh ctx key))
  | .unmarkRefreshing key, _ =>
    some ((), { system with refreshing := system.refreshing.erase key })
  | .acquireInflight key, _ =>
    if key ∈ system.inflight then some (.follower, system)
    else some (.leader, { system with inflight := key :: system.inflight })
  | .releaseInflight key, _ => some ((), { system with inflight := system.inflight.erase key })
  | .broadcast .., _ => some ((), system)
  | .receive _, .broadcast result => some (result, system)
  | _, _ => none

/-- One step of the system. -/
def System.step (system : System) : Action → Option System
  | .tick duration => some { system with now := system.now + duration }
  | .query query qname qtype =>
    some (system.spawn none do
      let _ ← resolveRemote ctx query qname qtype
      pure ())
  | .warm qname qtype => some (system.spawn (some (qname, qtype)) (refreshEntry ctx qname qtype))
  | .run id reply =>
    match system.tasks id with
    | none => none
    | some task =>
      match task.program with
      | .done _ => some (system.setTask id none)
      | .ask effect next => do
        let (value, after) ← answer ctx system id effect reply
        some (after.setTask id (some { task with program := next value }))

/-- The state after a run. -/
def System.runAll : System → List Action → Option System
  | system, [] => some system
  | system, action :: actions => do
    let after ← system.step ctx action
    after.runAll actions

end Steps

/-! ## What one step can do -/

/-- An entry after a batch is an old one or one of the batch. -/
theorem entry_insertBatch {now : Nat} {batch : List Insertion} {cache after : DnsCache}
    (inserted : insertBatch now batch cache = some after) :
    after.maxTtl = cache.maxTtl ∧ after.minTtl = cache.minTtl ∧
      ∀ domain qtype,
        after.entry domain qtype = cache.entry domain qtype ∨ after.entry domain qtype = none ∨
          ∃ item ∈ batch, (domain = item.domain ∧ qtype = item.qtype) ∧
            item.wire.scans = true ∧ after.entry domain qtype = some
            { wire := item.wire
              insertedAt := now
              ttl := cache.lifetime item.wire
              dnssecStatus := .indeterminate } := by
  induction batch generalizing cache with
  | nil =>
      cases inserted
      exact ⟨rfl, rfl, fun _ _ => .inl rfl⟩
  | cons item batch ih =>
      obtain ⟨middle, first, rest⟩ := Option.bind_eq_some_iff.mp inserted
      obtain ⟨firstMax, firstMin, firstEntry⟩ := DnsCache.entry_insertWire first
      obtain ⟨restMax, restMin, restEntry⟩ := ih rest
      refine ⟨restMax.trans firstMax, restMin.trans firstMin, fun domain qtype => ?_⟩
      have sameLifetime : ∀ wire, middle.lifetime wire = cache.lifetime wire := by
        intro wire
        rw [DnsCache.lifetime, DnsCache.lifetime, firstMax, firstMin]
      rcases restEntry domain qtype with same | gone | ⟨later, laterMem, sameKey, scans, isEntry⟩
      · rw [same]
        rcases firstEntry domain qtype with same | gone | ⟨sameKey, scans, isEntry⟩
        · exact .inl same
        · exact .inr (.inl gone)
        · exact .inr (.inr ⟨item, by simp, sameKey, scans, isEntry⟩)
      · exact .inr (.inl gone)
      · rw [sameLifetime] at isEntry
        exact .inr (.inr ⟨later, by simp [laterMem], sameKey, scans, isEntry⟩)

section Steps

variable {ctx : ServerCtx} {system after : System} {id : Nat}

/-- What an effect can do to the cache and the tasks: nothing, store a batch, or
spawn a refresh. -/
theorem answer_system_cases {effect : Effect} {reply : Reply} {value : effect.Answer}
    (answered : answer ctx system id effect reply = some (value, after)) :
    (after.cache = system.cache ∧ after.tasks = system.tasks) ∨
    (∃ batch cache, effect = .insertWires batch ∧
      insertBatch system.now batch system.cache = some cache ∧
      after = { system with cache := cache }) ∨
    ∃ key, effect = .spawnRefresh key ∧
      after = system.spawn (some key) (spawnedRefresh ctx key) := by
  cases effect with
  | insertWires batch =>
      obtain ⟨cache, inserted, same⟩ := Option.bind_eq_some_iff.mp answered
      cases same
      exact .inr (.inl ⟨batch, cache, rfl, inserted, rfl⟩)
  | spawnRefresh key =>
      cases answered
      exact .inr (.inr ⟨key, rfl, rfl⟩)
  | sortByUdpRtt addrs =>
      cases reply with
      | order sorted =>
          simp only [answer, Option.ite_none_right_eq_some] at answered
          cases answered.2
          exact .inl ⟨rfl, rfl⟩
      | _ => cases answered
  | sendQueryHedged qname qtype servers =>
      cases reply with
      | response result => cases result <;> cases answered <;> exact .inl ⟨rfl, rfl⟩
      | _ => cases answered
  | forwardRaw =>
      cases reply with
      | wire result => cases result <;> cases answered <;> exact .inl ⟨rfl, rfl⟩
      | _ => cases answered
  | markRefreshing key =>
      simp only [answer] at answered
      split at answered <;> cases answered <;> exact .inl ⟨rfl, rfl⟩
  | acquireInflight key =>
      simp only [answer] at answered
      split at answered <;> cases answered <;> exact .inl ⟨rfl, rfl⟩
  | receive key =>
      cases reply with
      | broadcast result =>
          cases answered
          exact .inl ⟨rfl, rfl⟩
      | _ => cases answered
  | _ =>
      cases answered
      exact .inl ⟨rfl, rfl⟩

/-- A step of a running task asks for an effect and is answered, or ends it. -/
theorem step_run_cases {reply : Reply}
    (stepped : system.step ctx (.run id reply) = some after) :
    ∃ task, system.tasks id = some task ∧
      ((∃ value, task.program = .done value ∧ after = system.setTask id none) ∨
        ∃ (effect : Effect) (next : effect.Answer → Resolver Unit) (value : effect.Answer)
          (middle : System), task.program = .ask effect next ∧
          answer ctx system id effect reply = some (value, middle) ∧
          after = middle.setTask id (some { task with program := next value })) := by
  simp only [System.step] at stepped
  cases isTask : system.tasks id with
  | none => simp [isTask] at stepped
  | some task =>
      refine ⟨task, rfl, ?_⟩
      simp only [isTask] at stepped
      cases program : task.program with
      | done value =>
          simp only [program, Option.some.injEq] at stepped
          exact .inl ⟨value, rfl, stepped.symm⟩
      | ask effect next =>
          simp only [program, Option.bind_eq_bind, Option.bind_eq_some_iff] at stepped
          obtain ⟨⟨value, middle⟩, answered, same⟩ := stepped
          exact .inr ⟨effect, next, value, middle, rfl, answered, (Option.some.inj same).symm⟩

end Steps

end Numa
