import Numa.ChainOfTrust
import Numa.Sourced

/-!
# Bounded staleness

The cache serves an entry for at most its lifetime and the stale window, which
bounds the age of what it serves by the time since the records were received,
unless cached records are stored again.  A refresh asks the cache before it
asks a server, and the cache still serves the entry that is to be refreshed, so
the refresh stores the old records with a new time.
-/

namespace Numa

/-- Everything the cache serves was received within the longest lifetime and
the stale window. -/
def System.BoundedStaleness (system : System) (maxTtl : UInt32) : Prop :=
  ∀ qname qtype packet status freshness,
    system.cache.lookupWithStatus system.now qname qtype = some (packet, status, freshness) →
    ∀ record ∈ packet.records, ∃ receipt ∈ system.receipts,
      record.data ∈ dataOf receipt.records ∧
        system.now ≤ receipt.time + (fromSecs maxTtl.toNat + staleWindow)

/-- The entry has only records that the task received from servers since it
was started. -/
def System.FromServers (system : System) (id : Nat) (task : Task) (entry : CacheEntry) : Prop :=
  ∀ record ∈ entry.wire.records, ∃ receipt ∈ system.receipts,
    receipt.task = id ∧ task.started ≤ receipt.time ∧ record.data ∈ dataOf receipt.records

/-! ## The condition -/

/-- Some record of the message is in the receipt. -/
def Receipt.Supplies (receipt : Receipt) (wire : Wire) : Prop :=
  ∃ record ∈ wire.records, record.data ∈ receipt.records.map DnsRecord.data

instance (receipt : Receipt) (wire : Wire) : Decidable (receipt.Supplies wire) :=
  inferInstanceAs (Decidable (∃ record ∈ wire.records,
    record.data ∈ receipt.records.map DnsRecord.data))

/-- The message is stored so soon after the task received its records that the
delay and the lifetime of the entry make at most the longest lifetime. -/
def System.Timely (system : System) (id : Nat) (item : Insertion) : Prop :=
  item.wire.scans = true → ∀ receipt ∈ system.receipts, receipt.task = id →
    receipt.Supplies item.wire →
      system.now + system.cache.lifetime item.wire ≤
        receipt.time + fromSecs system.cache.maxTtl.toNat

instance (system : System) (id : Nat) (item : Insertion) : Decidable (system.Timely id item) :=
  inferInstanceAs (Decidable (_ → ∀ receipt ∈ system.receipts, _ → _ → _))

/-- No resolution whose result is stored starts with a cache hit, and messages
are stored in time. -/
def System.permits (system : System) (id : Nat) : Effect → Bool
  | .lookup caller qname qtype =>
    !caller.stores || (system.cache.lookup system.now qname qtype).isNone
  | .insertWires batch => batch.all fun item => decide (system.Timely id item)
  | _ => true

def System.meets (system : System) : Action → Bool
  | .run id _ =>
    match (system.tasks id).map Task.program with
    | some (.ask effect _) => system.permits id effect
    | _ => true
  | _ => true

/-- The state after a run whose steps all meet the condition. -/
def System.runMeeting (ctx : ServerCtx) : System → List Action → Option System
  | system, [] => some system
  | system, action :: actions =>
    if system.meets action then do
      let after ← system.step ctx action
      after.runMeeting ctx actions
    else none

/-! ## One effect -/

section Effects

variable {ctx : ServerCtx} {system after : System} {id : Nat} {effect : Effect} {reply : Reply}
  {value : effect.Answer}

/-- What an effect can do: nothing that matters here, store a batch, receive
records, or spawn a refresh. -/
theorem answer_cases (answered : answer ctx system id effect reply = some (value, after)) :
    (heard effect value = ∅ ∧ after.now = system.now ∧ after.cache = system.cache ∧
      after.tasks = system.tasks ∧ after.started = system.started ∧
      after.receipts = system.receipts) ∨
    (∃ batch cache, effect = .insertWires batch ∧ heard effect value = ∅ ∧
      insertBatch system.now batch system.cache = some cache ∧
      after = { system with cache := cache }) ∨
    (∃ records, heard effect value = dataOf records ∧ after = system.receive id records) ∨
    (∃ key, heard effect value = ∅ ∧
      after = system.spawn (some key) (spawnedRefresh ctx key)) := by
  cases effect with
  | lookup caller qname qtype =>
      cases answered
      exact .inl ⟨rfl, rfl, rfl, rfl, rfl, rfl⟩
  | lookupWithStatus qname qtype =>
      cases answered
      exact .inl ⟨rfl, rfl, rfl, rfl, rfl, rfl⟩
  | readCache =>
      cases answered
      exact .inl ⟨rfl, rfl, rfl, rfl, rfl, rfl⟩
  | insertWires batch =>
      obtain ⟨cache, inserted, same⟩ := Option.bind_eq_some_iff.mp answered
      cases same
      exact .inr (.inl ⟨batch, cache, rfl, rfl, inserted, rfl⟩)
  | sortByUdpRtt addrs =>
      cases reply with
      | order sorted =>
          simp only [answer, Option.ite_none_right_eq_some] at answered
          cases answered.2
          exact .inl ⟨rfl, rfl, rfl, rfl, rfl, rfl⟩
      | _ => cases answered
  | sendQueryHedged qname qtype servers =>
      cases reply with
      | response result =>
          cases result with
          | error error =>
              cases answered
              exact .inl ⟨rfl, rfl, rfl, rfl, rfl, rfl⟩
          | ok packet =>
              cases answered
              exact .inr (.inr (.inl ⟨packet.records, rfl, rfl⟩))
      | _ => cases answered
  | forwardRaw =>
      cases reply with
      | wire result =>
          cases result with
          | error error =>
              cases answered
              exact .inl ⟨rfl, rfl, rfl, rfl, rfl, rfl⟩
          | ok wire =>
              cases answered
              exact .inr (.inr (.inl ⟨wire.records, rfl, rfl⟩))
      | _ => cases answered
  | markRefreshing key =>
      simp only [answer] at answered
      split at answered <;> cases answered <;> exact .inl ⟨rfl, rfl, rfl, rfl, rfl, rfl⟩
  | spawnRefresh key =>
      cases answered
      exact .inr (.inr (.inr ⟨key, rfl, rfl⟩))
  | unmarkRefreshing key =>
      cases answered
      exact .inl ⟨rfl, rfl, rfl, rfl, rfl, rfl⟩
  | acquireInflight key =>
      simp only [answer] at answered
      split at answered <;> cases answered <;> exact .inl ⟨rfl, rfl, rfl, rfl, rfl, rfl⟩
  | releaseInflight key =>
      cases answered
      exact .inl ⟨rfl, rfl, rfl, rfl, rfl, rfl⟩
  | broadcast key result =>
      cases answered
      exact .inl ⟨rfl, rfl, rfl, rfl, rfl, rfl⟩
  | receive key =>
      cases reply with
      | broadcast result =>
          cases answered
          exact .inl ⟨rfl, rfl, rfl, rfl, rfl, rfl⟩
      | _ => cases answered

theorem missed_of_permits (answered : answer ctx system id effect reply = some (value, after))
    (permitted : system.permits id effect = true) : Missed effect value := by
  cases effect with
  | lookup caller qname qtype =>
      cases answered
      intro stores
      have missed : system.cache.lookup system.now qname qtype = none := by
        simpa [System.permits, stores] using permitted
      exact missed
  | _ => trivial

end Effects

/-! ## The invariant -/

/-- The data that a task has received. -/
def received (receipts : List Receipt) (id : Nat) : Set DnsRecord :=
  {data | ∃ receipt ∈ receipts, receipt.task = id ∧ data ∈ dataOf receipt.records}

/-- Each record of the entry was received so late that the entry ends within
the longest lifetime after it. -/
def Backed (receipts : List Receipt) (maxTtl : UInt32) (entry : CacheEntry) : Prop :=
  ∀ record ∈ entry.wire.records, ∃ receipt ∈ receipts, record.data ∈ dataOf receipt.records ∧
    entry.insertedAt + entry.ttl ≤ receipt.time + fromSecs maxTtl.toNat

/-- A task that will store only what it has received since it was started. -/
structure TaskSound (now started : Nat) (receipts : List Receipt) (id : Nat) (task : Task) :
    Prop where
  old : id < started
  since : task.started ≤ now
  heardSince : ∀ receipt ∈ receipts, receipt.task = id → task.started ≤ receipt.time
  obeys : task.program.Obeys sourced (fun _ _ => True) (received receipts id)

structure System.Sound (system : System) (maxTtl : UInt32) : Prop where
  maxTtl_eq : system.cache.maxTtl = maxTtl
  entries : ∀ domain qtype entry, system.cache.entry domain qtype = some entry →
    Backed system.receipts maxTtl entry
  tasks : ∀ id task, system.tasks id = some task →
    TaskSound system.now system.started system.receipts id task
  receipts : ∀ receipt ∈ system.receipts, receipt.task < system.started

section Invariant

variable {ctx : ServerCtx} {system after : System} {maxTtl : UInt32} {id : Nat}

theorem received_cons_self (receipt : Receipt) (receipts : List Receipt) :
    received (receipt :: receipts) receipt.task =
      received receipts receipt.task ∪ dataOf receipt.records := by
  ext data
  simp only [received, List.mem_cons, Set.mem_ofPred_eq, Set.mem_union]
  constructor
  · rintro ⟨other, rfl | otherMem, isTask, dataMem⟩
    · exact .inr dataMem
    · exact .inl ⟨other, otherMem, isTask, dataMem⟩
  · rintro (⟨other, otherMem, isTask, dataMem⟩ | dataMem)
    · exact ⟨other, .inr otherMem, isTask, dataMem⟩
    · exact ⟨receipt, .inl rfl, rfl, dataMem⟩

theorem received_cons_ne {receipt : Receipt} (receipts : List Receipt)
    (different : receipt.task ≠ id) :
    received (receipt :: receipts) id = received receipts id := by
  ext data
  simp only [received, List.mem_cons, Set.mem_ofPred_eq]
  constructor
  · rintro ⟨other, rfl | otherMem, isTask, dataMem⟩
    · exact absurd isTask different
    · exact ⟨other, otherMem, isTask, dataMem⟩
  · rintro ⟨other, otherMem, isTask, dataMem⟩
    exact ⟨other, .inr otherMem, isTask, dataMem⟩

/-- A stored message whose records the task has received in time. -/
theorem backed_of_timely {item : Insertion} {status : DnssecStatus}
    (known : dataOf item.wire.records ⊆ received system.receipts id)
    (scans : item.wire.scans = true) (timely : system.Timely id item) :
    Backed system.receipts system.cache.maxTtl
      { wire := item.wire
        insertedAt := system.now
        ttl := system.cache.lifetime item.wire
        dnssecStatus := status } := by
  intro record recordMem
  obtain ⟨receipt, receiptMem, isTask, dataMem⟩ := dataOf_subset.mp known record recordMem
  exact ⟨receipt, receiptMem, dataMem,
    timely scans receipt receiptMem isTask ⟨record, recordMem, dataMem⟩⟩

theorem Backed.mono {receipts more : List Receipt} {entry : CacheEntry}
    (backed : Backed receipts maxTtl entry) (subset : receipts ⊆ more) :
    Backed more maxTtl entry := by
  intro record recordMem
  obtain ⟨receipt, receiptMem, holds⟩ := backed record recordMem
  exact ⟨receipt, subset receiptMem, holds⟩

/-- The invariant when one task has been given its next program. -/
theorem sound_setTask (maxTtlEq : after.cache.maxTtl = maxTtl)
    (entries : ∀ domain qtype entry, after.cache.entry domain qtype = some entry →
      Backed after.receipts maxTtl entry)
    (receipts : ∀ receipt ∈ after.receipts, receipt.task < after.started)
    (others : ∀ other task, other ≠ id → after.tasks other = some task →
      TaskSound after.now after.started after.receipts other task)
    {next : Option Task}
    (this : ∀ task, next = some task →
      TaskSound after.now after.started after.receipts id task) :
    (after.setTask id next).Sound maxTtl where
  maxTtl_eq := maxTtlEq
  entries := entries
  tasks := by
    intro other task isTask
    by_cases same : other = id
    · subst same
      rw [System.setTask_tasks_self] at isTask
      exact this task isTask
    · rw [System.setTask_tasks_of_ne _ same] at isTask
      exact others other task same isTask
  receipts := receipts

theorem sound_spawn (sound : system.Sound maxTtl) (refreshes : Option CacheKey)
    {program : Resolver Unit}
    (obeys : ∀ known, program.Obeys sourced (fun _ _ => True) known) :
    (system.spawn refreshes program).Sound maxTtl where
  maxTtl_eq := sound.maxTtl_eq
  entries := sound.entries
  tasks := by
    intro id task isTask
    by_cases new : id = system.started
    · subst new
      change (system.setTask _ _).tasks _ = some task at isTask
      rw [System.setTask_tasks_self] at isTask
      cases isTask
      refine ⟨Nat.lt_succ_self _, Nat.le_refl _, fun receipt receiptMem isTask => ?_, obeys _⟩
      have := sound.receipts receipt receiptMem
      omega
    · change (system.setTask _ _).tasks id = some task at isTask
      rw [System.setTask_tasks_of_ne _ new] at isTask
      have taskSound := sound.tasks id task isTask
      exact
        { taskSound with
          old := Nat.lt_succ_of_lt taskSound.old }
  receipts := fun receipt receiptMem => Nat.lt_succ_of_lt (sound.receipts receipt receiptMem)

/-- Storing what the task has received in time keeps the invariant. -/
theorem sound_insertBatch (sound : system.Sound maxTtl) {batch : List Insertion}
    {cache : DnsCache} (inserted : insertBatch system.now batch system.cache = some cache)
    (known : ∀ item ∈ batch, dataOf item.wire.records ⊆ received system.receipts id)
    (timely : ∀ item ∈ batch, system.Timely id item) {next : Option Task}
    (this : ∀ task, next = some task →
      TaskSound system.now system.started system.receipts id task) :
    (System.setTask { system with cache := cache } id next).Sound maxTtl := by
  obtain ⟨sameMax, -, entryCases⟩ := entry_insertBatch inserted
  apply sound_setTask
  · exact sameMax.trans sound.maxTtl_eq
  · intro domain qtype entry isEntry
    change cache.entry domain qtype = some entry at isEntry
    rcases entryCases domain qtype with same | gone | ⟨item, itemMem, -, scans, isNew⟩
    · exact sound.entries domain qtype entry (same ▸ isEntry)
    · rw [gone] at isEntry
      cases isEntry
    · rw [isNew] at isEntry
      cases isEntry
      rw [← sound.maxTtl_eq]
      exact backed_of_timely (known item itemMem) scans (timely item itemMem)
  · exact sound.receipts
  · exact fun other otherTask _ => sound.tasks other otherTask
  · exact this

/-- Receiving a response keeps the invariant. -/
theorem sound_receive (sound : system.Sound maxTtl) {task : Task}
    (taskSound : TaskSound system.now system.started system.receipts id task)
    {records : List DnsRecord} {program : Resolver Unit}
    (obeys : program.Obeys sourced (fun _ _ => True)
      (received system.receipts id ∪ dataOf records)) :
    ((system.receive id records).setTask id
      (some { task with program := program })).Sound maxTtl := by
  apply sound_setTask
  · exact sound.maxTtl_eq
  · intro domain qtype entry isEntry
    exact (sound.entries domain qtype entry isEntry).mono (List.subset_cons_self _ _)
  · intro receipt receiptMem
    rcases List.mem_cons.mp receiptMem with rfl | earlier
    · exact taskSound.old
    · exact sound.receipts receipt earlier
  · intro other otherTask different isOther
    have otherSound := sound.tasks other otherTask isOther
    refine ⟨otherSound.old, otherSound.since, fun receipt receiptMem isTask => ?_, ?_⟩
    · rcases List.mem_cons.mp receiptMem with rfl | earlier
      · exact absurd isTask.symm different
      · exact otherSound.heardSince receipt earlier isTask
    · change otherTask.program.Obeys sourced _ (received (_ :: _) other)
      rw [received_cons_ne _ (Ne.symm different)]
      exact otherSound.obeys
  · rintro _ ⟨⟩
    refine ⟨taskSound.old, taskSound.since, fun receipt receiptMem isTask => ?_, ?_⟩
    · rcases List.mem_cons.mp receiptMem with rfl | earlier
      · exact taskSound.since
      · exact taskSound.heardSince receipt earlier isTask
    · change program.Obeys sourced _ (received (⟨id, system.now, records⟩ :: _) id)
      rw [received_cons_self ⟨id, system.now, records⟩]
      exact obeys

/-- A step of a task keeps the invariant. -/
theorem sound_answer {task : Task} {effect : Effect} {next : effect.Answer → Resolver Unit}
    {reply : Reply} {value : effect.Answer} (sound : system.Sound maxTtl)
    (isTask : system.tasks id = some task) (isNext : task.program = .ask effect next)
    (permitted : system.permits id effect = true)
    (answered : answer ctx system id effect reply = some (value, after)) :
    (after.setTask id (some { task with program := next value })).Sound maxTtl := by
  have taskSound := sound.tasks id task isTask
  have obeys := taskSound.obeys
  rw [isNext] at obeys
  have missed := missed_of_permits answered permitted
  have obeysNext : (next value).Obeys sourced (fun _ _ => True)
      (received system.receipts id ∪ heard effect value) := obeys.2 value _ ⟨missed, rfl⟩
  rcases answer_cases answered with
    ⟨nothing, nowEq, cacheEq, tasksEq, startedEq, receiptsEq⟩ |
    ⟨batch, cache, rfl, nothing, inserted, rfl⟩ | ⟨records, heardEq, rfl⟩ | ⟨key, nothing, rfl⟩
  · rw [nothing, Set.union_empty] at obeysNext
    apply sound_setTask
    · rw [cacheEq, sound.maxTtl_eq]
    · rw [cacheEq, receiptsEq]
      exact sound.entries
    · rw [receiptsEq, startedEq]
      exact sound.receipts
    · rw [tasksEq, nowEq, startedEq, receiptsEq]
      exact fun other otherTask _ => sound.tasks other otherTask
    · rintro _ ⟨⟩
      rw [nowEq, startedEq, receiptsEq]
      exact { taskSound with obeys := obeysNext }
  · rw [nothing, Set.union_empty] at obeysNext
    have timely : ∀ item ∈ batch, system.Timely id item := fun item itemMem =>
      of_decide_eq_true (List.all_eq_true.mp permitted item itemMem)
    apply sound_insertBatch sound inserted obeys.1 timely
    rintro _ ⟨⟩
    exact { taskSound with obeys := obeysNext }
  · rw [heardEq] at obeysNext
    exact sound_receive sound taskSound obeysNext
  · rw [nothing, Set.union_empty] at obeysNext
    have obeysRefresh : ∀ known,
        (spawnedRefresh ctx key).Obeys sourced (fun _ _ => True) known :=
      fun _ => Sourced.obeys_spawnedRefresh key
    have spawned := sound_spawn sound (some key) obeysRefresh
    apply sound_setTask
    · exact spawned.maxTtl_eq
    · exact spawned.entries
    · exact spawned.receipts
    · exact fun other otherTask _ => spawned.tasks other otherTask
    · rintro _ ⟨⟩
      exact ⟨Nat.lt_succ_of_lt taskSound.old, taskSound.since, taskSound.heardSince, obeysNext⟩

theorem permits_of_meets {reply : Reply} {task : Task} {effect : Effect}
    {next : effect.Answer → Resolver Unit} (met : system.meets (.run id reply) = true)
    (isTask : system.tasks id = some task) (isNext : task.program = .ask effect next) :
    system.permits id effect = true := by
  simpa [System.meets, isTask, isNext] using met

theorem sound_step {action : Action} (sound : system.Sound maxTtl)
    (met : system.meets action = true) (stepped : system.step ctx action = some after) :
    after.Sound maxTtl := by
  cases action with
  | tick duration =>
      cases stepped
      refine ⟨sound.maxTtl_eq, sound.entries, fun id task isTask => ?_, sound.receipts⟩
      have taskSound := sound.tasks id task isTask
      exact { taskSound with since := Nat.le_add_right_of_le taskSound.since }
  | query query qname qtype =>
      cases stepped
      apply sound_spawn sound
      intro known
      apply (Sourced.obeys_resolveRemote query qname qtype).bind
      exact fun _ _ _ => trivial
  | warm qname qtype =>
      cases stepped
      exact sound_spawn sound _ fun _ => Sourced.obeys_refreshEntry qname qtype
  | run id reply =>
      obtain ⟨task, isTask, ⟨value, isDone, rfl⟩ | ⟨effect, next, value, middle, isNext,
        answered, rfl⟩⟩ := step_run_cases stepped
      · apply sound_setTask sound.maxTtl_eq sound.entries sound.receipts
        · exact fun other otherTask _ => sound.tasks other otherTask
        · rintro _ ⟨⟩
      · exact sound_answer sound isTask isNext (permits_of_meets met isTask isNext) answered

theorem sound_run {actions : List Action} (sound : system.Sound maxTtl)
    (ran : system.runMeeting ctx actions = some after) : after.Sound maxTtl := by
  induction actions generalizing system with
  | nil =>
      cases ran
      exact sound
  | cons action actions ih =>
      simp only [System.runMeeting, Option.bind_eq_bind, Option.ite_none_right_eq_some,
        Option.bind_eq_some_iff] at ran
      obtain ⟨met, middle, stepped, rest⟩ := ran
      exact ih (sound_step sound met stepped) rest

theorem sound_init (maxEntries : Nat) (minTtl maxTtl : UInt32) :
    (System.init (.new maxEntries minTtl maxTtl)).Sound maxTtl where
  maxTtl_eq := rfl
  entries := by
    intro domain qtype entry isEntry
    cases isEntry
  tasks := by
    intro id task isTask
    cases isTask
  receipts := by
    intro receipt receiptMem
    cases receiptMem

theorem System.Sound.boundedStaleness (sound : system.Sound maxTtl) :
    system.BoundedStaleness maxTtl := by
  intro qname qtype packet status freshness found record recordMem
  obtain ⟨entry, stored, ttl, isEntry, isStored, rfl, -, served⟩ :=
    DnsCache.lookupWithStatus_eq_some found
  have dataMem : record.data ∈ dataOf entry.wire.records := by
    have patched : record.data ∈ dataOf (stored.patch 0 ttl).records :=
      mem_dataOf.mpr ⟨record, recordMem, rfl⟩
    rw [dataOf_patch] at patched
    simpa [Wire.records, isStored] using patched
  obtain ⟨original, originalMem, sameData⟩ := mem_dataOf.mp dataMem
  obtain ⟨receipt, receiptMem, supplied, inTime⟩ :=
    sound.entries qname qtype entry isEntry original originalMem
  refine ⟨receipt, receiptMem, sameData ▸ supplied, ?_⟩
  omega

/-- A step of a task replaces entries only by what it received from servers. -/
theorem System.Sound.fromServers {task : Task} {reply : Reply} (sound : system.Sound maxTtl)
    (isTask : system.tasks id = some task)
    (stepped : system.step ctx (.run id reply) = some after) (domain : Text)
    (qtype : QueryType) :
    after.cache.entry domain qtype = system.cache.entry domain qtype ∨
      after.cache.entry domain qtype = none ∨
      ∃ entry, after.cache.entry domain qtype = some entry ∧
        system.FromServers id task entry := by
  have taskSound := sound.tasks id task isTask
  obtain ⟨_, sameTask, ⟨value, isDone, rfl⟩ | ⟨effect, next, value, middle, isNext, answered,
    rfl⟩⟩ := step_run_cases stepped
  · exact .inl rfl
  · obtain rfl := Option.some.inj (isTask.symm.trans sameTask)
    have obeys := taskSound.obeys
    rw [isNext] at obeys
    rcases answer_cases answered with ⟨-, -, cacheEq, -⟩ | ⟨batch, cache, rfl, -, inserted, rfl⟩ |
      ⟨records, -, rfl⟩ | ⟨key, -, rfl⟩
    · exact .inl (congrArg (DnsCache.entry · domain qtype) cacheEq)
    · obtain ⟨-, -, entryCases⟩ := entry_insertBatch inserted
      rcases entryCases domain qtype with same | gone | ⟨item, itemMem, -, -, isNew⟩
      · exact .inl same
      · exact .inr (.inl gone)
      · refine .inr (.inr ⟨_, isNew, fun record recordMem => ?_⟩)
        have known := dataOf_subset.mp (obeys.1 item itemMem) record recordMem
        obtain ⟨receipt, receiptMem, isReceipt, dataMem⟩ := known
        exact ⟨receipt, receiptMem, isReceipt,
          taskSound.heardSince receipt receiptMem isReceipt, dataMem⟩
    · exact .inl rfl
    · exact .inl rfl

end Invariant

def sampleServer : SocketAddr :=
  .v4 (.new 192 0 2 1) 53

/-- A server in recursive mode with one root hint. -/
def sampleServerCtx : ServerCtx where
  writable _ := true
  rootHints := [sampleServer]
  forwardingRules := []
  upstreamMode := .recursive

def sampleResponse : DnsPacket where
  header := { response := true }
  answers := [.a (text "test") (.new 192 0 2 7) 86400]

/-- A system with the default limits of the cache. -/
def sampleSystem : System :=
  .init (.new 100000 60 86400)

/-- The resolution of `test` by the first task, from the lookup to the last
insertion. -/
def sampleResolution : List Action :=
  [ .run 0 .nothing, .run 0 .nothing, .run 0 (.order [sampleServer]),
    .run 0 (.response (.ok sampleResponse)), .run 0 .nothing ]

/-- The cache is warmed from a server and serves a client. -/
def warmRun : List Action :=
  .warm (text "test") .a :: sampleResolution ++
    [ .run 0 .nothing, .run 0 .nothing, .tick (fromSecs 1000),
      .query (.query 7 (text "test") .a) (text "test") .a, .run 1 .nothing ]

/-- A client query fills the cache.  One second before the end of the stale
window the next query starts a refresh, which finds the entry in the cache and
stores it again. -/
def staleRun : List Action :=
  .query (.query 7 (text "test") .a) (text "test") .a :: .run 0 .nothing :: .run 0 .nothing ::
    sampleResolution ++
    [ .run 0 .nothing, .run 0 .nothing, .run 0 .nothing, .tick (fromSecs 89999),
      .query (.query 8 (text "test") .a) (text "test") .a, .run 1 .nothing, .run 1 .nothing,
      .run 1 .nothing, .run 1 .nothing, .run 2 .nothing, .run 2 .nothing, .run 2 .nothing,
      .run 2 .nothing, .tick (fromSecs 3000) ]

/-- Does the cache serve records of `test` that were received too long ago? -/
def servesStale (system : System) : Bool :=
  match system.cache.lookupWithStatus system.now (text "test") .a with
  | some (packet, _, _) =>
    packet.records.any fun record => system.receipts.all fun receipt =>
      !(receipt.records.map DnsRecord.data).contains record.data ||
        decide (receipt.time + (fromSecs 86400 + staleWindow) < system.now)
  | none => false

theorem not_boundedStaleness_of_servesStale {system : System}
    (stale : servesStale system = true) : ¬ system.BoundedStaleness 86400 := by
  intro bounded
  unfold servesStale at stale
  split at stale
  · rename_i packet status freshness found
    obtain ⟨record, recordMem, old⟩ := List.any_eq_true.mp stale
    obtain ⟨receipt, receiptMem, dataMem, recent⟩ :=
      bounded _ _ packet status freshness found record recordMem
    have tooOld := List.all_eq_true.mp old receipt receiptMem
    have contained : (receipt.records.map DnsRecord.data).contains record.data = true :=
      List.contains_iff_mem.mpr dataMem
    simp only [contained, Bool.not_true, Bool.false_or, decide_eq_true_eq] at tooOld
    have limit : fromSecs (86400 : UInt32).toNat = fromSecs 86400 := rfl
    omega
  · cases stale

end Numa
