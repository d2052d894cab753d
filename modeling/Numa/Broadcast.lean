import Mathlib.Data.Finset.Basic
import Mathlib.Data.List.AList

/-!
# Broadcast channels

A broadcast channel keeps the last values sent, as many as its capacity.  A
receiver gets the values sent after it subscribed, in their order; one that has
fallen behind is told so.  When the last sender is gone and the values are
read, the channel is closed.  Handles are named by who holds them.
-/

namespace Numa

/-- A channel whose receivers are held by `ρ` and its senders by `σ`. -/
structure Broadcast (capacity : Nat) (ρ σ α : Type) where
  /-- All values sent, with the oldest first. -/
  sent : List α
  senders : Finset σ
  /-- Each receiver with the number of the value it gets next. -/
  receivers : AList fun _ : ρ => Nat

/-- What a receiver gets. -/
inductive Received (α : Type)
  | value (value : α)
  | lagged
  | closed
  /-- The receiver has to wait. -/
  | pending

namespace Broadcast

variable {capacity : Nat} {ρ σ α : Type}

/-- A channel with one sender.  Its first receiver is dropped. -/
def new (capacity : Nat) (sender : σ) : Broadcast capacity ρ σ α where
  sent := []
  senders := {sender}
  receivers := ∅

/-- Clone a sender for someone else. -/
def cloneSender [DecidableEq σ] (channel : Broadcast capacity ρ σ α) (sender : σ) :
    Broadcast capacity ρ σ α :=
  { channel with senders := insert sender channel.senders }

def dropSender [DecidableEq σ] (channel : Broadcast capacity ρ σ α) (sender : σ) :
    Broadcast capacity ρ σ α :=
  { channel with senders := channel.senders.erase sender }

/-- A receiver of the values sent from now on. -/
def subscribe [DecidableEq ρ] (channel : Broadcast capacity ρ σ α) (receiver : ρ) :
    Broadcast capacity ρ σ α :=
  { channel with receivers := channel.receivers.insert receiver channel.sent.length }

def dropReceiver [DecidableEq ρ] (channel : Broadcast capacity ρ σ α) (receiver : ρ) :
    Broadcast capacity ρ σ α :=
  { channel with receivers := channel.receivers.erase receiver }

/-- Send a value.  Without a receiver it is an error, and the value is lost. -/
def send (channel : Broadcast capacity ρ σ α) (value : α) : Broadcast capacity ρ σ α :=
  if channel.receivers.entries = [] then channel
  else { channel with sent := channel.sent ++ [value] }

/-- What a receiver gets at a position. -/
def receiveAt [DecidableEq σ] (channel : Broadcast capacity ρ σ α) (position : Nat) :
    Received α :=
  if position + capacity < channel.sent.length then .lagged
  else
    match channel.sent[position]? with
    | some value => .value value
    | none => if channel.senders = ∅ then .closed else .pending

theorem send_of_receiver [DecidableEq ρ] {channel : Broadcast capacity ρ σ α} {receiver : ρ}
    {position : Nat} (subscribed : channel.receivers.lookup receiver = some position) (value : α) :
    channel.send value = { channel with sent := channel.sent ++ [value] } := by
  have nonempty : channel.receivers.entries ≠ [] := by
    intro empty
    have mem := AList.mem_lookup_iff.mp subscribed
    rw [empty] at mem
    cases mem
  rw [send, if_neg nonempty]

@[simp]
theorem senders_send (channel : Broadcast capacity ρ σ α) (value : α) :
    (channel.send value).senders = channel.senders := by
  unfold send
  split <;> rfl

@[simp]
theorem receivers_send (channel : Broadcast capacity ρ σ α) (value : α) :
    (channel.send value).receivers = channel.receivers := by
  unfold send
  split <;> rfl

end Broadcast

end Numa
