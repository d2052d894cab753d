import Numa.Broadcast
import Numa.Server

/-!
# Single flight

`resolve_coalesced` lets concurrent queries for one key share a resolution.
This file has its callers take their steps in any order, one step for each time
the map of resolutions in flight or a channel is touched, and lets a caller be
cancelled wherever it awaits.  Cancelling a leader drops its locals in the
reverse order of their declaration: first the guard, then the sender.
-/

namespace Numa

/-- The holders of a sender: the map of resolutions in flight, or a caller. -/
inductive SenderOwner
  | inflight
  | caller (id : Nat)
  deriving DecidableEq

abbrev FlightChannel := Broadcast 1 Nat SenderOwner (Option DnsPacket)

/-- The arguments of a call. -/
structure Call where
  key : CacheKey
  query : DnsPacket
  leaderPath : QueryPath

/-- What a call returns: the response, its path and the text of an error. -/
abbrev CallResult := DnsPacket × QueryPath × Option Text

/-- Where a call stands.  Channels are named by numbers. -/
inductive Stage
  /-- The call has not started. -/
  | waiting
  /-- A leader that awaits `resolve_fn`. -/
  | resolving (channel : Nat)
  | resolved (channel : Nat) (result : Except Text DnsPacket)
  /-- A leader that has dropped its guard. -/
  | released (channel : Nat) (result : Except Text DnsPacket)
  | sent (channel : Nat) (result : Except Text DnsPacket)
  | led (channel : Nat) (result : Except Text DnsPacket) (returned : CallResult)
  /-- A cancelled leader, with its guard. -/
  | cancelling (channel : Nat)
  /-- A cancelled leader that has dropped its guard. -/
  | unwinding (channel : Nat)
  | leaderCancelled (channel : Nat)
  /-- A follower that awaits `recv`. -/
  | following (channel : Nat)
  | followed (channel : Nat) (returned : CallResult)
  | cancelled

/-- What a leader sends. -/
def messageOf : Except Text DnsPacket → Option DnsPacket
  | .ok resp => some resp
  | .error _ => none

/-- What a leader returns. -/
def leaderResult (call : Call) : Except Text DnsPacket → CallResult
  | .ok resp => (resp, call.leaderPath, none)
  | .error message => (.responseFrom call.query .servfail, .upstreamError, some message)

/-- What a follower returns for a response, or without one. -/
def followerResult (call : Call) : Option DnsPacket → CallResult
  | some resp =>
    ({ resp with header := { resp.header with id := call.query.header.id } }, .coalesced, none)
  | none => (.responseFrom call.query .servfail, .upstreamError, none)

/-- What a follower returns for what it receives, unless it has to wait. -/
def receivedResult (call : Call) : Received (Option DnsPacket) → Option CallResult
  | .value message => some (followerResult call message)
  | .lagged => some (followerResult call none)
  | .closed => some (followerResult call none)
  | .pending => none

structure Flight where
  calls : Nat → Call
  stages : Nat → Stage
  inflight : CacheKey → Option Nat
  channels : Nat → FlightChannel
  /-- The number of channels made. -/
  made : Nat

inductive FlightEvent
  /-- `acquire_inflight`, with the guard of a leader. -/
  | acquire (id : Nat)
  /-- `resolve_fn` is done. -/
  | resolve (id : Nat) (result : Except Text DnsPacket)
  /-- The drop of the guard, also of a cancelled leader. -/
  | dropGuard (id : Nat)
  | send (id : Nat)
  /-- The return of a leader, or the end of a cancelled one, which drops its
  sender. -/
  | finish (id : Nat)
  | receive (id : Nat)
  | cancel (id : Nat)

namespace Flight

/-- No call has started. -/
def init (calls : Nat → Call) : Flight where
  calls := calls
  stages _ := .waiting
  inflight _ := none
  channels _ := ⟨[], ∅, ∅⟩
  made := 0

def setStage (flight : Flight) (id : Nat) (stage : Stage) : Flight :=
  { flight with stages := Function.update flight.stages id stage }

def setChannel (flight : Flight) (number : Nat) (channel : FlightChannel) : Flight :=
  { flight with channels := Function.update flight.channels number channel }

def setInflight (flight : Flight) (key : CacheKey) (channel : Option Nat) : Flight :=
  { flight with inflight := Function.update flight.inflight key channel }

/-- `acquire_inflight` of a caller. -/
def acquire (flight : Flight) (id : Nat) : Flight :=
  match flight.inflight (flight.calls id).key with
  | some number =>
    (flight.setChannel number ((flight.channels number).subscribe id)).setStage id
      (.following number)
  | none =>
    let channel : FlightChannel := (Broadcast.new 1 (.caller id)).cloneSender .inflight
    { ((flight.setChannel flight.made channel).setInflight (flight.calls id).key
        (some flight.made)).setStage id (.resolving flight.made) with
      made := flight.made + 1 }

/-- `InflightGuard::drop`.  The sender in the map is dropped with its entry. -/
def dropGuard (flight : Flight) (id : Nat) : Flight :=
  match flight.inflight (flight.calls id).key with
  | some number =>
    (flight.setChannel number ((flight.channels number).dropSender .inflight)).setInflight
      (flight.calls id).key none
  | none => flight

/-- One step; `none` if the call is not at that point. -/
def step (flight : Flight) : FlightEvent → Option Flight
  | .acquire id =>
    match flight.stages id with
    | .waiting => some (flight.acquire id)
    | _ => none
  | .resolve id result =>
    match flight.stages id with
    | .resolving number => some (flight.setStage id (.resolved number result))
    | _ => none
  | .dropGuard id =>
    match flight.stages id with
    | .resolved number result => some ((flight.dropGuard id).setStage id (.released number result))
    | .cancelling number => some ((flight.dropGuard id).setStage id (.unwinding number))
    | _ => none
  | .send id =>
    match flight.stages id with
    | .released number result =>
      some ((flight.setChannel number ((flight.channels number).send (messageOf result))).setStage
        id (.sent number result))
    | _ => none
  | .finish id =>
    match flight.stages id with
    | .sent number result =>
      some ((flight.setChannel number ((flight.channels number).dropSender (.caller id))).setStage
        id (.led number result (leaderResult (flight.calls id) result)))
    | .unwinding number =>
      some ((flight.setChannel number ((flight.channels number).dropSender (.caller id))).setStage
        id (.leaderCancelled number))
    | _ => none
  | .receive id =>
    match flight.stages id with
    | .following number => do
      let position ← (flight.channels number).receivers.lookup id
      let returned ← receivedResult (flight.calls id)
        ((flight.channels number).receiveAt position)
      some ((flight.setChannel number ((flight.channels number).dropReceiver id)).setStage id
        (.followed number returned))
    | _ => none
  | .cancel id =>
    match flight.stages id with
    | .waiting => some (flight.setStage id .cancelled)
    | .resolving number => some (flight.setStage id (.cancelling number))
    | .following number =>
      some ((flight.setChannel number ((flight.channels number).dropReceiver id)).setStage id
        .cancelled)
    | _ => none

/-- The state after some steps. -/
def runAll : Flight → List FlightEvent → Option Flight
  | flight, [] => some flight
  | flight, event :: events => do
    let after ← flight.step event
    after.runAll events

end Flight

/-! ## The invariant -/

/-- The part of a call in the protocol. -/
structure Part where
  /-- The channel that the leader made. -/
  leads : Option Nat := none
  /-- The same between its acquisition and the drop of its guard. -/
  guards : Option Nat := none
  /-- The same as long as it holds its sender. -/
  holdsSender : Option Nat := none
  hasSent : Option (Option DnsPacket) := none
  /-- The channel that a follower awaits. -/
  follows : Option Nat := none
  /-- The channel of a follower, and what it has returned. -/
  hasReturned : Option (Nat × CallResult) := none

def Stage.part : Stage → Part
  | waiting => {}
  | resolving number => { leads := some number, guards := some number, holdsSender := some number }
  | resolved number _ => { leads := some number, guards := some number, holdsSender := some number }
  | released number _ => { leads := some number, holdsSender := some number }
  | sent number result =>
    { leads := some number, holdsSender := some number, hasSent := some (messageOf result) }
  | led number result _ => { leads := some number, hasSent := some (messageOf result) }
  | cancelling number => { leads := some number, guards := some number, holdsSender := some number }
  | unwinding number => { leads := some number, holdsSender := some number }
  | leaderCancelled number => { leads := some number }
  | following number => { follows := some number }
  | followed number returned => { hasReturned := some (number, returned) }
  | cancelled => {}

theorem Stage.part_of_guards {stage : Stage} {number : Nat}
    (guards : stage.part.guards = some number) :
    stage.part = { leads := some number, guards := some number, holdsSender := some number } := by
  cases stage <;> simp_all [part]

theorem Stage.leads_of_holdsSender {stage : Stage} {number : Nat}
    (holds : stage.part.holdsSender = some number) : stage.part.leads = some number := by
  cases stage <;> simp_all [part]

namespace Flight

def part (flight : Flight) (id : Nat) : Part :=
  (flight.stages id).part

/-- The outcome of a leader for those who follow it: the message it has sent,
or that it is gone without one. -/
def Settled (flight : Flight) (leader number : Nat) (message : Option DnsPacket) : Prop :=
  (flight.part leader).leads = some number ∧
    ((flight.part leader).hasSent = some message ∨
      (flight.part leader).hasSent = none ∧ (flight.part leader).holdsSender = none ∧
        message = none)

structure Coherent (flight : Flight) : Prop where
  /-- Channels are made before they are used. -/
  fresh : ∀ id number, (flight.part id).leads = some number → number < flight.made
  /-- A channel has one leader. -/
  unique : ∀ id other number, (flight.part id).leads = some number →
    (flight.part other).leads = some number → id = other
  /-- The entry of a leader with a guard is in the map. -/
  guarded : ∀ id number, (flight.part id).guards = some number →
    flight.inflight (flight.calls id).key = some number
  /-- An entry of the map is that of a leader with a guard. -/
  mapped : ∀ key number, flight.inflight key = some number →
    ∃ id, (flight.calls id).key = key ∧ (flight.part id).guards = some number
  callerSender : ∀ id number, .caller id ∈ (flight.channels number).senders ↔
    (flight.part id).holdsSender = some number
  mapSender : ∀ number, .inflight ∈ (flight.channels number).senders ↔
    ∃ id, (flight.part id).guards = some number
  unsent : ∀ id number, (flight.part id).leads = some number →
    (flight.part id).hasSent = none → (flight.channels number).sent = []
  /-- A follower awaits the first message of a leader with its key. -/
  subscribed : ∀ id number, (flight.part id).follows = some number →
    (flight.channels number).receivers.lookup id = some 0 ∧
      ∃ leader, (flight.part leader).leads = some number ∧
        (flight.calls leader).key = (flight.calls id).key
  /-- What a leader has sent is there for its followers. -/
  delivered : ∀ id number leader message, (flight.part id).follows = some number →
    (flight.part leader).leads = some number → (flight.part leader).hasSent = some message →
    (flight.channels number).sent = [message]
  /-- A follower has returned the outcome of its leader. -/
  returned : ∀ id number result, (flight.part id).hasReturned = some (number, result) →
    ∃ leader message, flight.Settled leader number message ∧
      (flight.calls leader).key = (flight.calls id).key ∧
      result = followerResult (flight.calls id) message

theorem coherent_init (calls : Nat → Call) : (init calls).Coherent := by
  constructor <;> simp [init, part, Stage.part]

/-! ## The moves -/

section Moves

variable {flight : Flight} {id number : Nat}

/-- A step that only its own caller sees. -/
theorem Coherent.relabel (coherent : flight.Coherent) {stage : Stage}
    (same : stage.part = flight.part id) : (flight.setStage id stage).Coherent := by
  have parts : (flight.setStage id stage).part = flight.part := by
    funext other
    by_cases isId : other = id
    · subst isId
      simp [part, setStage, same]
    · simp [part, setStage, isId]
  obtain ⟨fresh, unique, guarded, mapped, callerSender, mapSender, unsent, subscribed, delivered,
    returned⟩ := coherent
  constructor <;> simp only [Settled, parts] at * <;> assumption

theorem Coherent.lead (coherent : flight.Coherent) (waits : flight.part id = {})
    (free : flight.inflight (flight.calls id).key = none) :
    (flight.acquire id).Coherent := by
  have leads : (Stage.resolving flight.made).part =
      { leads := some flight.made, guards := some flight.made, holdsSender := some flight.made } := rfl
  cases coherent
  unfold acquire
  rw [free]
  constructor <;>
    simp only [part, setStage, setInflight, setChannel, Broadcast.cloneSender, Broadcast.new,
      Settled, Function.update_apply, apply_ite Stage.part] at * <;>
    grind [Stage.leads_of_holdsSender, Stage.part_of_guards]

theorem Coherent.follow (coherent : flight.Coherent) (waits : flight.part id = {})
    (taken : flight.inflight (flight.calls id).key = some number) :
    (flight.acquire id).Coherent := by
  have follows : (Stage.following number).part = { follows := some number } := rfl
  cases coherent
  unfold acquire
  rw [taken]
  constructor <;>
    simp only [part, setStage, setChannel, Broadcast.subscribe,
      Settled, Function.update_apply, apply_ite Stage.part] at * <;>
    grind [Stage.part_of_guards, AList.lookup_insert, AList.lookup_insert_ne]

theorem Coherent.dropGuard (coherent : flight.Coherent)
    (guarded : (flight.part id).guards = some number) {stage : Stage}
    (released : stage.part = { leads := some number, holdsSender := some number }) :
    ((flight.dropGuard id).setStage id stage).Coherent := by
  have before := Stage.part_of_guards guarded
  have taken := coherent.guarded id number guarded
  cases coherent
  unfold Flight.dropGuard
  rw [taken]
  constructor <;>
    simp only [part, setStage, setChannel, setInflight, Broadcast.dropSender,
      Settled, Function.update_apply, apply_ite Stage.part] at * <;>
    grind [Stage.leads_of_holdsSender, Stage.part_of_guards]

theorem Coherent.send (coherent : flight.Coherent) {result : Except Text DnsPacket}
    (released : flight.part id = { leads := some number, holdsSender := some number }) :
    ((flight.setChannel number ((flight.channels number).send (messageOf result))).setStage
        id (.sent number result)).Coherent := by
  have after : (Stage.sent number result).part =
      { leads := some number
        holdsSender := some number
        hasSent := some (messageOf result) } := rfl
  have unsent := coherent.unsent id number (by rw [released]) (by rw [released])
  have deliver : ∀ other, (flight.part other).follows = some number →
      ((flight.channels number).send (messageOf result)).sent = [messageOf result] := by
    intro other follows
    rw [Broadcast.send_of_receiver (coherent.subscribed other number follows).1, unsent]
    rfl
  obtain ⟨fresh, unique, guarded, mapped, callerSender, mapSender, unsent, subscribed, delivered,
    returned⟩ := coherent
  constructor <;>
    simp only [part, setStage, setChannel,
      Settled, Function.update_apply, apply_ite Stage.part] at *
  case subscribed => 
    clear mapSender mapped
    grind [Broadcast.receivers_send]
  case returned =>
    clear mapSender mapped
    grind
  all_goals grind [Broadcast.senders_send]

theorem Coherent.finish (coherent : flight.Coherent) {message : Option (Option DnsPacket)}
    (before : flight.part id = { leads := some number, holdsSender := some number, hasSent := message })
    {stage : Stage} (after : stage.part = { leads := some number, hasSent := message }) :
    ((flight.setChannel number ((flight.channels number).dropSender (.caller id))).setStage
        id stage).Coherent := by
  obtain ⟨fresh, unique, guarded, mapped, callerSender, mapSender, unsent, subscribed, delivered,
    returned⟩ := coherent
  constructor <;>
    simp only [part, setStage, setChannel, Broadcast.dropSender,
      Settled, Function.update_apply, apply_ite Stage.part] at *
  case subscribed | returned =>
    clear mapSender mapped
    grind [Stage.leads_of_holdsSender]
  all_goals grind [Stage.leads_of_holdsSender]

/-- A follower drops its receiver, with or without a result. -/
theorem Coherent.unfollow (coherent : flight.Coherent)
    (before : flight.part id = { follows := some number }) {stage : Stage}
    {outcome : Option (Nat × CallResult)} (after : stage.part = { hasReturned := outcome })
    (isOutcome : ∀ channel result, outcome = some (channel, result) →
      ∃ leader message, flight.Settled leader channel message ∧
        (flight.calls leader).key = (flight.calls id).key ∧
        result = followerResult (flight.calls id) message) :
    ((flight.setChannel number ((flight.channels number).dropReceiver id)).setStage
        id stage).Coherent := by
  obtain ⟨fresh, unique, guarded, mapped, callerSender, mapSender, unsent, subscribed, delivered,
    returned⟩ := coherent
  constructor <;>
    simp only [part, setStage, setChannel, Broadcast.dropReceiver,
      Settled, Function.update_apply, apply_ite Stage.part] at *
  case subscribed | returned =>
    clear mapSender mapped
    grind [AList.lookup_erase_ne]
  all_goals grind [AList.lookup_erase_ne]

theorem Coherent.leave (coherent : flight.Coherent)
    (before : flight.part id = { follows := some number }) {stage : Stage}
    (after : stage.part = {}) :
    ((flight.setChannel number ((flight.channels number).dropReceiver id)).setStage
        id stage).Coherent :=
  coherent.unfollow before after fun _ _ impossible => (Option.some_ne_none _ impossible.symm).elim

theorem Coherent.receive (coherent : flight.Coherent)
    (before : flight.part id = { follows := some number }) {leader : Nat}
    {message : Option DnsPacket} (settled : flight.Settled leader number message)
    (sameKey : (flight.calls leader).key = (flight.calls id).key) :
    ((flight.setChannel number ((flight.channels number).dropReceiver id)).setStage
        id (.followed number (followerResult (flight.calls id) message))).Coherent := by
  apply coherent.unfollow before rfl
  rintro channel result ⟨⟩
  exact ⟨leader, message, settled, sameKey, rfl⟩

end Moves

/-- What a follower receives is the outcome of its leader. -/
theorem Coherent.settled_of_received {flight : Flight} (coherent : flight.Coherent)
    {id number position : Nat} {returned : CallResult}
    (follows : (flight.part id).follows = some number)
    (subscribed : (flight.channels number).receivers.lookup id = some position)
    (received : receivedResult (flight.calls id) ((flight.channels number).receiveAt position) =
      some returned) :
    ∃ leader message, flight.Settled leader number message ∧
      (flight.calls leader).key = (flight.calls id).key ∧
      returned = followerResult (flight.calls id) message := by
  obtain ⟨first, leader, leads, sameKey⟩ := coherent.subscribed id number follows
  rw [first] at subscribed
  cases subscribed
  cases sent : (flight.part leader).hasSent with
  | some message =>
      have queued := coherent.delivered id number leader message follows leads sent
      rw [Broadcast.receiveAt, queued] at received
      cases received
      exact ⟨leader, message, ⟨leads, .inl sent⟩, sameKey, rfl⟩
  | none =>
      have empty := coherent.unsent leader number leads sent
      rw [Broadcast.receiveAt, empty] at received
      by_cases closed : (flight.channels number).senders = ∅
      · simp only [closed] at received
        cases received
        refine ⟨leader, none, ⟨leads, .inr ⟨sent, ?_, rfl⟩⟩, sameKey, rfl⟩
        cases holds : (flight.part leader).holdsSender with
        | none => rfl
        | some other =>
            have same := (Stage.leads_of_holdsSender holds).symm.trans leads
            cases same
            have live := (coherent.callerSender leader number).mpr holds
            rw [closed] at live
            exact absurd live (Finset.notMem_empty _)
      · simp [closed, receivedResult] at received

theorem Coherent.step {flight after : Flight} (coherent : flight.Coherent) {event : FlightEvent}
    (stepped : flight.step event = some after) : after.Coherent := by
  cases event with
  | acquire id =>
      simp only [Flight.step] at stepped
      split at stepped
      · rename_i waits
        cases stepped
        have none : flight.part id = {} := by rw [part, waits]; rfl
        cases taken : flight.inflight (flight.calls id).key with
        | none => exact coherent.lead none taken
        | some number => exact coherent.follow none taken
      · cases stepped
  | resolve id result =>
      simp only [Flight.step] at stepped
      split at stepped
      · rename_i isResolving
        cases stepped
        exact coherent.relabel (by rw [part, isResolving]; rfl)
      · cases stepped
  | dropGuard id =>
      simp only [Flight.step] at stepped
      split at stepped
      · rename_i isResolved
        cases stepped
        exact coherent.dropGuard (by rw [part, isResolved]; rfl) rfl
      · rename_i isCancelling
        cases stepped
        exact coherent.dropGuard (by rw [part, isCancelling]; rfl) rfl
      · cases stepped
  | send id =>
      simp only [Flight.step] at stepped
      split at stepped
      · rename_i isReleased
        cases stepped
        exact coherent.send (by rw [part, isReleased]; rfl)
      · cases stepped
  | finish id =>
      simp only [Flight.step] at stepped
      split at stepped
      · rename_i isSent
        cases stepped
        exact coherent.finish (by rw [part, isSent]; rfl) rfl
      · rename_i isUnwinding
        cases stepped
        exact coherent.finish (by rw [part, isUnwinding]; rfl) rfl
      · cases stepped
  | receive id =>
      simp only [Flight.step] at stepped
      split at stepped
      · rename_i number isFollowing
        have before : flight.part id = { follows := some number } := by
          rw [part, isFollowing]
          rfl
        simp only [Option.bind_eq_bind, Option.bind_eq_some_iff] at stepped
        obtain ⟨position, subscribed, returned, received, same⟩ := stepped
        cases same
        obtain ⟨leader, message, settled, sameKey, rfl⟩ :=
          coherent.settled_of_received (by rw [before]) subscribed received
        exact coherent.receive before settled sameKey
      · cases stepped
  | cancel id =>
      simp only [Flight.step] at stepped
      split at stepped
      · rename_i waits
        cases stepped
        exact coherent.relabel (by rw [part, waits]; rfl)
      · rename_i isResolving
        cases stepped
        exact coherent.relabel (by rw [part, isResolving]; rfl)
      · rename_i isFollowing
        cases stepped
        exact coherent.leave (by rw [part, isFollowing]; rfl) rfl
      · cases stepped

theorem Coherent.runAll {flight after : Flight} (coherent : flight.Coherent)
    {events : List FlightEvent} (ran : flight.runAll events = some after) : after.Coherent := by
  induction events generalizing flight with
  | nil =>
      cases ran
      exact coherent
  | cons event events ih =>
      simp only [Flight.runAll, Option.bind_eq_bind, Option.bind_eq_some_iff] at ran
      obtain ⟨middle, stepped, rest⟩ := ran
      exact ih (coherent.step stepped) rest

theorem calls_acquire (flight : Flight) (id : Nat) : (flight.acquire id).calls = flight.calls := by
  unfold acquire
  split <;> rfl

theorem calls_dropGuard (flight : Flight) (id : Nat) :
    (flight.dropGuard id).calls = flight.calls := by
  unfold dropGuard
  split <;> rfl

theorem calls_step {flight after : Flight} {event : FlightEvent}
    (stepped : flight.step event = some after) : after.calls = flight.calls := by
  cases event with
  | receive id =>
      simp only [step] at stepped
      split at stepped
      · simp only [Option.bind_eq_bind, Option.bind_eq_some_iff] at stepped
        obtain ⟨_, _, _, _, same⟩ := stepped
        cases same
        rfl
      · cases stepped
  | acquire id =>
      simp only [step] at stepped
      split at stepped <;> cases stepped
      exact calls_acquire flight id
  | dropGuard id =>
      simp only [step] at stepped
      split at stepped <;> cases stepped <;> exact calls_dropGuard flight id
  | resolve id result =>
      simp only [step] at stepped
      split at stepped <;> cases stepped
      rfl
  | send id =>
      simp only [step] at stepped
      split at stepped <;> cases stepped
      rfl
  | finish id =>
      simp only [step] at stepped
      split at stepped <;> cases stepped <;> rfl
  | cancel id =>
      simp only [step] at stepped
      split at stepped <;> cases stepped <;> rfl

theorem calls_runAll {flight after : Flight} {events : List FlightEvent}
    (ran : flight.runAll events = some after) : after.calls = flight.calls := by
  induction events generalizing flight with
  | nil =>
      cases ran
      rfl
  | cons event events ih =>
      simp only [runAll, Option.bind_eq_bind, Option.bind_eq_some_iff] at ran
      obtain ⟨middle, stepped, rest⟩ := ran
      exact (ih rest).trans (calls_step stepped)

/-! ## What holds in every run -/

/-- Leaders with guards for one key are one. -/
theorem Coherent.leader_unique {flight : Flight} (coherent : flight.Coherent)
    {id other number second : Nat} (guards : (flight.part id).guards = some number)
    (otherGuards : (flight.part other).guards = some second)
    (sameKey : (flight.calls id).key = (flight.calls other).key) : id = other := by
  have entry := coherent.guarded id number guards
  rw [sameKey, coherent.guarded other second otherGuards] at entry
  cases entry
  have leads : (flight.part id).leads = some number := by
    rw [part, Stage.part_of_guards guards]
  have otherLeads : (flight.part other).leads = some number := by
    rw [part, Stage.part_of_guards otherGuards]
  exact coherent.unique id other number leads otherLeads

theorem Coherent.inflight_isSome_iff {flight : Flight} (coherent : flight.Coherent)
    (key : CacheKey) :
    (flight.inflight key).isSome = true ↔
      ∃ id, (flight.calls id).key = key ∧ (flight.part id).guards.isSome = true := by
  constructor
  · intro present
    obtain ⟨number, entry⟩ := Option.isSome_iff_exists.mp present
    obtain ⟨id, isKey, guards⟩ := coherent.mapped key number entry
    exact ⟨id, isKey, by rw [guards]; rfl⟩
  · rintro ⟨id, rfl, guarded⟩
    obtain ⟨number, guards⟩ := Option.isSome_iff_exists.mp guarded
    rw [coherent.guarded id number guards]
    rfl

/-- A guard that is dropped removes the entry of its own leader. -/
theorem Coherent.dropGuard_own {flight after : Flight} (coherent : flight.Coherent) {id : Nat}
    (stepped : flight.step (.dropGuard id) = some after) :
    ∃ number, (flight.part id).leads = some number ∧
      flight.inflight (flight.calls id).key = some number ∧
      after.inflight = Function.update flight.inflight (flight.calls id).key none := by
  have own : ∀ number, (flight.part id).guards = some number →
      (flight.part id).leads = some number ∧
        flight.inflight (flight.calls id).key = some number ∧
        (flight.dropGuard id).inflight =
          Function.update flight.inflight (flight.calls id).key none := by
    intro number guards
    have entry := coherent.guarded id number guards
    refine ⟨by rw [part, Stage.part_of_guards guards], entry, ?_⟩
    rw [Flight.dropGuard, entry]
    rfl
  simp only [Flight.step] at stepped
  split at stepped
  · rename_i number result isResolved
    cases stepped
    exact ⟨number, own number (by rw [part, isResolved]; rfl)⟩
  · rename_i number isCancelling
    cases stepped
    exact ⟨number, own number (by rw [part, isCancelling]; rfl)⟩
  · cases stepped

/-- A settled leader has sent its result, or it was cancelled. -/
theorem Settled.cases {flight : Flight} {leader number : Nat} {message : Option DnsPacket}
    (settled : flight.Settled leader number message) :
    (∃ result, (flight.stages leader = .sent number result ∨
        ∃ returned, flight.stages leader = .led number result returned) ∧
      message = messageOf result) ∨
      flight.stages leader = .leaderCancelled number ∧ message = none := by
  obtain ⟨leads, outcome⟩ := settled
  rw [part] at leads outcome
  cases stage : flight.stages leader <;> rw [stage] at leads outcome <;>
    simp_all [Stage.part]

/-- A follower that has to wait has a leader with a sender. -/
theorem Coherent.receives_or_live {flight : Flight} (coherent : flight.Coherent)
    {id number : Nat} (isFollowing : flight.stages id = .following number) :
    (∃ after, flight.step (.receive id) = some after) ∨
      ∃ leader, (flight.part leader).holdsSender = some number ∧
        (flight.calls leader).key = (flight.calls id).key ∧
        .caller leader ∈ (flight.channels number).senders := by
  have follows : (flight.part id).follows = some number := by
    rw [part, isFollowing]
    rfl
  obtain ⟨first, leader, leads, sameKey⟩ := coherent.subscribed id number follows
  cases holds : (flight.part leader).holdsSender with
  | some other =>
      have same := (Stage.leads_of_holdsSender holds).symm.trans leads
      cases same
      exact .inr ⟨leader, holds, sameKey, (coherent.callerSender leader number).mpr holds⟩
  | none =>
      left
      have gets : ∃ returned, receivedResult (flight.calls id)
          ((flight.channels number).receiveAt 0) = some returned := by
        cases sent : (flight.part leader).hasSent with
        | some message =>
            have queued := coherent.delivered id number leader message follows leads sent
            rw [Broadcast.receiveAt, queued]
            exact ⟨_, rfl⟩
        | none =>
            have empty := coherent.unsent leader number leads sent
            -- Every sender of the channel is its leader's or the map's.
            have closed : (flight.channels number).senders = ∅ := by
              rw [Finset.eq_empty_iff_forall_notMem]
              rintro (_ | other) live
              · obtain ⟨other, guards⟩ := (coherent.mapSender number).mp live
                have parts := Stage.part_of_guards guards
                have same : other = leader := coherent.unique other leader number
                  (by rw [part, parts]) leads
                rw [← same, part, parts] at holds
                cases holds
              · have otherHolds := (coherent.callerSender other number).mp live
                have same : other = leader := coherent.unique other leader number
                  (Stage.leads_of_holdsSender otherHolds) leads
                rw [← same, otherHolds] at holds
                cases holds
            rw [Broadcast.receiveAt, empty]
            simp [closed, receivedResult]
      obtain ⟨returned, received⟩ := gets
      simp only [Flight.step, isFollowing, first, Option.bind_eq_bind, Option.bind_some, received]
      exact ⟨_, rfl⟩

/-- Callers with one key. -/
def sameKeyCalls (id : Nat) : Call where
  key := (text "coalesce.test", .a)
  query := .query (100 + id.toUInt16) (text "coalesce.test") .a
  leaderPath := .recursive

/-- A second leader starts, and is cancelled, while the follower of the first
one still waits. -/
def overtakingEvents : List FlightEvent :=
  [.acquire 0, .acquire 1, .resolve 0 (.ok (.query 0 (text "coalesce.test") .a)), .dropGuard 0,
    .acquire 2, .acquire 3, .send 0, .cancel 2, .dropGuard 2, .receive 1, .finish 2, .receive 3]

end Flight

end Numa
