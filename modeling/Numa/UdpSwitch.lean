import Numa.Forward
import Numa.SharedTasks
import Numa.SrttCache

/-!
# When recursion gives up UDP

`send_query`, `reset_udp_state` and `probe_udp` of `recursive.rs` share a
counter of failures and a switch, `UDP_FAILURES` and `UDP_DISABLED`.  Both are
atomic, and the tasks interleave between any two accesses.  The arithmetic of
the counter wraps, as in a release build.
-/

namespace Numa

inductive UdpEffect
  | loadDisabled
  | storeDisabled (disabled : Bool)
  /-- `UDP_FAILURES.store(0)`. -/
  | clearFailures
  /-- `UDP_FAILURES.fetch_add(1)`. -/
  | countFailure
  | forwardUdp (server : SocketAddr)
  | forwardTcp (server : SocketAddr)
  | recordRtt (key : SrttKey)
  | recordFailure (key : SrttKey)

@[reducible]
def UdpEffect.Answer : UdpEffect → Type
  | loadDisabled => Bool
  | countFailure => UInt8
  | forwardUdp _ | forwardTcp _ => Except Unit DnsPacket
  | storeDisabled _ | clearFailures | recordRtt _ | recordFailure _ => Unit

abbrev UdpTask (α : Type) := Interaction UdpEffect UdpEffect.Answer α

open Interaction (ask done)

namespace UdpTask

def tcpWithSrtt (server : SocketAddr) : UdpTask (Except Unit DnsPacket) :=
  ask (.forwardTcp server) fun
    | .ok resp => ask (.recordRtt (server.ip, .tcp)) fun _ => done (.ok resp)
    | .error error => ask (.recordFailure (server.ip, .tcp)) fun _ => done (.error error)

/-- The branch of a UDP query that fails. -/
def afterFailure (server : SocketAddr) (error : Unit) (fails : UInt8) :
    UdpTask (Except Unit DnsPacket) :=
  let givesUp := ask (.recordFailure (server.ip, .udp)) fun _ => done (.error error)
  if .ofNat udpFailThreshold ≤ fails then
    ask .loadDisabled fun disabled =>
      if disabled then givesUp
      else ask (.storeDisabled true) fun _ => tcpWithSrtt server
  else givesUp

def sendQuery (server : SocketAddr) : UdpTask (Except Unit DnsPacket) :=
  if server.isIpv6 then tcpWithSrtt server
  else
    ask .loadDisabled fun disabled =>
      if disabled then tcpWithSrtt server
      else
        ask (.forwardUdp server) fun
          | .ok resp =>
            if resp.header.truncatedMessage then tcpWithSrtt server
            else
              ask .clearFailures fun _ =>
                ask (.recordRtt (server.ip, .udp)) fun _ => done (.ok resp)
          | .error error =>
            ask .countFailure fun before => afterFailure server error (before + 1)

def resetUdpState : UdpTask Unit :=
  ask (.storeDisabled false) fun _ => ask .clearFailures fun _ => done ()

def probeUdp (rootHints : List SocketAddr) : UdpTask Unit :=
  ask .loadDisabled fun disabled =>
    if disabled then
      match rootHints.head? with
      | none => done ()
      | some hint =>
        ask (.forwardUdp hint) fun
          | .ok _ => resetUdpState
          | .error _ => done ()
    else done ()

/-- What runs over the switch: queries, probes, and resets on a new network. -/
inductive IsTask : UdpTask Unit → Prop
  | sendQuery (server : SocketAddr) : IsTask (sendQuery server >>= fun _ => done ())
  | resetUdpState : IsTask resetUdpState
  | probeUdp (rootHints : List SocketAddr) : IsTask (probeUdp rootHints)

end UdpTask

/-! ## The switch -/

/-- The switch and the counter, with what was done to the counter, the last
first: `true` for a failure and `false` for a reset to zero. -/
structure UdpSwitch where
  failures : UInt8
  disabled : Bool
  counts : List Bool

namespace UdpSwitch

def init : UdpSwitch :=
  ⟨0, false, []⟩

/-- The number of failures since the counter was last cleared. -/
def streak (switch : UdpSwitch) : Nat :=
  (switch.counts.takeWhile id).length

def Happens (switch : UdpSwitch) : (effect : UdpEffect) → effect.Answer → UdpSwitch → Prop
  | .loadDisabled, disabled, after => disabled = switch.disabled ∧ after = switch
  | .storeDisabled disabled, _, after => after = { switch with disabled := disabled }
  | .clearFailures, _, after =>
    after = { switch with failures := 0, counts := false :: switch.counts }
  | .countFailure, before, after => before = switch.failures ∧
      after = { switch with failures := before + 1, counts := true :: switch.counts }
  | .forwardUdp _, _, after | .forwardTcp _, _, after | .recordRtt _, _, after
  | .recordFailure _, _, after => after = switch

end UdpSwitch

/-- Where a task is in a change of the switch. -/
inductive UdpPhase
  | idle
  /-- It has counted enough failures and has not looked at the switch. -/
  | counted
  /-- It has found UDP enabled and is to disable it. -/
  | tripping
  /-- It has enabled UDP and is to clear the counter. -/
  | resetting
  deriving DecidableEq

namespace UdpPhase

def next : UdpPhase → (effect : UdpEffect) → effect.Answer → UdpPhase
  | idle, .countFailure, before => if .ofNat udpFailThreshold ≤ before + 1 then counted else idle
  | idle, .storeDisabled _, _ => resetting
  | counted, .loadDisabled, disabled => if disabled then idle else tripping
  | tripping, .storeDisabled _, _ => idle
  | resetting, .clearFailures, _ => idle
  | phase, _, _ => phase

def Allowed : UdpPhase → UdpEffect → Prop
  | idle, effect => effect ≠ .storeDisabled true
  | counted, effect => effect = .loadDisabled
  | tripping, effect => effect = .storeDisabled true
  | resetting, effect => effect = .clearFailures

end UdpPhase

def udpRules : TaskRules UdpEffect UdpEffect.Answer UdpSwitch UdpPhase where
  happens := UdpSwitch.Happens
  allowed := UdpPhase.Allowed
  next := UdpPhase.next
  idle := .idle

/-! ## The tasks keep to their phases -/

namespace UdpTask

/-- A query ends idle. -/
def EndsIdle (program : UdpTask (Except Unit DnsPacket)) (phase : UdpPhase) : Prop :=
  program.Obeys udpRules.protocol (fun last _ => last = .idle) phase

theorem endsIdle_tcpWithSrtt (server : SocketAddr) : EndsIdle (tcpWithSrtt server) .idle := by
  refine ⟨nofun, ?_⟩
  rintro (error | resp) _ rfl <;> exact ⟨nofun, by rintro _ _ rfl; rfl⟩

theorem endsIdle_afterFailure (server : SocketAddr) (error : Unit) (before : UInt8) :
    EndsIdle (afterFailure server error (before + 1))
      (UdpPhase.next .idle .countFailure before) := by
  have givesUp : EndsIdle
      (ask (.recordFailure (server.ip, .udp)) fun _ => done (.error error)) .idle :=
    ⟨nofun, by rintro _ _ rfl; rfl⟩
  unfold afterFailure UdpPhase.next
  dsimp only
  split
  · refine ⟨rfl, ?_⟩
    rintro (_ | _) _ rfl
    · refine ⟨rfl, ?_⟩
      rintro _ _ rfl
      exact endsIdle_tcpWithSrtt server
    · exact givesUp
  · exact givesUp

theorem endsIdle_sendQuery (server : SocketAddr) : EndsIdle (sendQuery server) .idle := by
  unfold sendQuery
  split
  · exact endsIdle_tcpWithSrtt server
  · refine ⟨nofun, ?_⟩
    rintro (_ | _) _ rfl
    · refine ⟨nofun, ?_⟩
      rintro (error | resp) _ rfl
      · refine ⟨nofun, ?_⟩
        rintro before _ rfl
        exact endsIdle_afterFailure server error before
      · dsimp only
        split
        · exact endsIdle_tcpWithSrtt server
        · exact ⟨nofun, by rintro _ _ rfl; exact ⟨nofun, by rintro _ _ rfl; rfl⟩⟩
    · exact endsIdle_tcpWithSrtt server

theorem runs_resetUdpState : udpRules.Runs resetUdpState := by
  refine ⟨nofun, ?_⟩
  rintro _ _ rfl
  exact ⟨rfl, by rintro _ _ rfl; rfl⟩

theorem runs_probeUdp (rootHints : List SocketAddr) : udpRules.Runs (probeUdp rootHints) := by
  refine ⟨nofun, ?_⟩
  rintro (_ | _) _ rfl
  · rfl
  · simp only [if_true]
    cases rootHints.head? with
    | none => rfl
    | some hint =>
        refine ⟨nofun, ?_⟩
        rintro (error | resp) _ rfl
        · rfl
        · exact runs_resetUdpState

theorem runs_of_isTask {program : UdpTask Unit} (isTask : IsTask program) :
    udpRules.Runs program := by
  cases isTask with
  | sendQuery server => exact (endsIdle_sendQuery server).bind fun _ _ isIdle => isIdle
  | resetUdpState => exact runs_resetUdpState
  | probeUdp rootHints => exact runs_probeUdp rootHints

end UdpTask

/-! ## The switch over runs -/

/-- Three failures have been counted with no reset between them. -/
def ThreeInARow (counts : List Bool) : Prop :=
  [true, true, true] <:+: counts

/-- Some task has counted enough failures and may disable UDP. -/
def GivingUp (phases : Nat → UdpPhase) : Prop :=
  ∃ id, phases id = .counted ∨ phases id = .tripping

/-- The counter is the streak modulo its size.  UDP is disabled when the streak
is long enough, unless a task is about to change the switch, and nobody gives up
UDP without three failures in a row. -/
structure Switched (switch : UdpSwitch) (phases : Nat → UdpPhase) : Prop where
  failures : switch.failures.toNat = switch.streak % 256
  caught : switch.disabled = true ∨ switch.streak < udpFailThreshold ∨ ∃ id, phases id ≠ .idle
  backed : switch.disabled = true ∨ GivingUp phases → ThreeInARow switch.counts

theorem threeInARow_of_streak {switch : UdpSwitch} (long : udpFailThreshold ≤ switch.streak) :
    ThreeInARow switch.counts := by
  have whole : ∀ count ∈ switch.counts.takeWhile id, count = true := fun count mem =>
    List.mem_takeWhile_imp mem
  have front : (switch.counts.takeWhile id).take 3 = [true, true, true] := by
    have enough : 3 ≤ (switch.counts.takeWhile id).length := long
    rw [List.eq_replicate_of_mem whole, List.take_replicate, Nat.min_eq_left enough]
    rfl
  rw [ThreeInARow, ← front]
  exact ((List.take_prefix _ _).trans (List.takeWhile_prefix _)).isInfix

theorem ThreeInARow.cons {counts : List Bool} (three : ThreeInARow counts) (count : Bool) :
    ThreeInARow (count :: counts) :=
  three.trans (List.suffix_cons _ _).isInfix

theorem switched_init : Switched .init fun _ => .idle where
  failures := rfl
  caught := .inr (.inl (by decide))
  backed := by
    rintro (disabled | ⟨_, isCounted | isTripping⟩)
    · cases disabled
    · cases isCounted
    · cases isTripping

section Update

variable {phases : Nat → UdpPhase} {id : Nat} {phase : UdpPhase}

/-- The others are still busy when an idle task moves. -/
theorem exists_busy_update (isIdle : phases id = .idle) (busy : ∃ other, phases other ≠ .idle)
    (phase : UdpPhase) : ∃ other, Function.update phases id phase other ≠ .idle := by
  obtain ⟨other, isBusy⟩ := busy
  have different : other ≠ id := by
    rintro rfl
    exact isBusy isIdle
  exact ⟨other, by rwa [Function.update_of_ne different]⟩

theorem GivingUp.of_update (notCounted : phase ≠ .counted) (notTripping : phase ≠ .tripping)
    (givingUp : GivingUp (Function.update phases id phase)) : GivingUp phases := by
  obtain ⟨other, isGivingUp⟩ := givingUp
  by_cases same : other = id
  · rw [same, Function.update_self] at isGivingUp
    exact isGivingUp.elim (absurd · notCounted) (absurd · notTripping)
  · rw [Function.update_of_ne same] at isGivingUp
    exact ⟨other, isGivingUp⟩

end Update

section Keep

variable {switch : UdpSwitch} {phases : Nat → UdpPhase} {id : Nat}

theorem Switched.countFailure (switched : Switched switch phases) (isIdle : phases id = .idle) :
    Switched { switch with failures := switch.failures + 1, counts := true :: switch.counts }
      (Function.update phases id (UdpPhase.next .idle .countFailure switch.failures)) := by
  have failures := switched.failures
  have longer : UdpSwitch.streak
      { switch with failures := switch.failures + 1, counts := true :: switch.counts } =
      switch.streak + 1 := rfl
  have added : (switch.failures + 1).toNat = (switch.streak + 1) % 256 := by
    rw [UInt8.toNat_add, failures]
    simp
  have enough : UInt8.ofNat udpFailThreshold ≤ switch.failures + 1 ↔ 3 ≤ (switch.streak + 1) % 256 := by
    rw [UInt8.le_iff_toNat_le, added]
    rfl
  refine ⟨added, ?_, fun gaveUp => ?_⟩
  · rcases switched.caught with disabled | short | busy
    · exact .inl disabled
    · rw [longer]
      by_cases reached : switch.streak + 1 < udpFailThreshold
      · exact .inr (.inl reached)
      · have isThird : 3 ≤ (switch.streak + 1) % 256 := by
          rw [udpFailThreshold] at reached short
          omega
        refine .inr (.inr ⟨id, ?_⟩)
        rw [Function.update_self, UdpPhase.next, if_pos (enough.mpr isThird)]
        decide
    · exact .inr (.inr (exists_busy_update isIdle busy _))
  · by_cases reached : 3 ≤ (switch.streak + 1) % 256
    · exact threeInARow_of_streak (by rw [longer, udpFailThreshold]; omega)
    · rw [UdpPhase.next, if_neg (enough.not.mpr reached)] at gaveUp
      exact (switched.backed (gaveUp.imp_right (.of_update (by decide) (by decide)))).cons true

theorem Switched.clearFailures (switched : Switched switch phases) (id : Nat) :
    Switched { switch with failures := 0, counts := false :: switch.counts }
      (Function.update phases id .idle) where
  failures := rfl
  caught := .inr (.inl (Nat.zero_lt_succ _))
  backed gaveUp :=
    (switched.backed (gaveUp.imp_right (.of_update (by decide) (by decide)))).cons false

/-- UDP is enabled, and the counter is cleared next. -/
theorem Switched.enable (switched : Switched switch phases) (id : Nat) :
    Switched { switch with disabled := false } (Function.update phases id .resetting) where
  failures := switched.failures
  caught := .inr (.inr ⟨id, by rw [Function.update_self]; decide⟩)
  backed gaveUp := by
    rcases gaveUp with disabled | givingUp
    · cases disabled
    · exact switched.backed (.inr (givingUp.of_update (by decide) (by decide)))

/-- A task that has counted enough failures looks at the switch. -/
theorem Switched.look (switched : Switched switch phases) (isCounted : phases id = .counted) :
    Switched switch (Function.update phases id (if switch.disabled then .idle else .tripping)) where
  failures := switched.failures
  caught := by
    cases disabled : switch.disabled with
    | true => exact .inl rfl
    | false => exact .inr (.inr ⟨id, by rw [Function.update_self]; decide⟩)
  backed _ := switched.backed (.inr ⟨id, .inl isCounted⟩)

theorem Switched.disable (switched : Switched switch phases) (isTripping : phases id = .tripping) :
    Switched { switch with disabled := true } (Function.update phases id .idle) where
  failures := switched.failures
  caught := .inl rfl
  backed _ := switched.backed (.inr ⟨id, .inr isTripping⟩)

end Keep

theorem keeps_switched : udpRules.Keeps Switched := by
  intro switch phases id effect answer after switched allowed happens
  change UdpPhase.Allowed (phases id) effect at allowed
  change UdpSwitch.Happens switch effect answer after at happens
  change Switched after (Function.update phases id (UdpPhase.next (phases id) effect answer))
  cases phase : phases id with
  | idle =>
      have unchanged : Switched switch (Function.update phases id .idle) := by
        rw [← phase, Function.update_eq_self]
        exact switched
      rw [phase] at allowed
      cases effect with
      | loadDisabled =>
          rw [happens.2]
          exact unchanged
      | storeDisabled disabled =>
          cases disabled with
          | true => exact absurd rfl allowed
          | false =>
              rw [happens]
              exact switched.enable id
      | clearFailures =>
          rw [happens]
          exact switched.clearFailures id
      | countFailure =>
          obtain ⟨rfl, rfl⟩ := happens
          exact switched.countFailure phase
      | forwardUdp | forwardTcp | recordRtt | recordFailure =>
          cases happens
          exact unchanged
  | counted =>
      rw [phase] at allowed
      cases allowed
      obtain ⟨rfl, rfl⟩ := happens
      exact switched.look phase
  | tripping =>
      rw [phase] at allowed
      cases allowed
      cases happens
      exact switched.disable phase
  | resetting =>
      rw [phase] at allowed
      cases allowed
      cases happens
      exact switched.clearFailures id

end Numa
