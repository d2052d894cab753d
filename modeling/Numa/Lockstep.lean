import Numa.Interaction

/-!
# Interactions in lockstep

Two computations run in surroundings of their own.  When alike surroundings
give them alike answers, what they return is related: this file states that as
a relation between computations and gives the rules by which it goes through
composed computations.
-/

namespace Numa

namespace Interaction

variable {E : Type} {Answer : E → Type} {α β γ δ σ : Type}

section Ends

variable (protocol : Protocol E Answer σ)

/-- From the first state the computation may return the value and leave the
surroundings in the last state. -/
inductive Ends : Interaction E Answer α → σ → α → σ → Prop
  | done (value : α) (state : σ) : Ends (done value) state value state
  | ask {effect : E} {next : Answer effect → Interaction E Answer α} {answer : Answer effect}
      {before middle after : σ} {value : α} (moves : protocol.moves before effect answer middle)
      (rest : Ends (next answer) middle value after) :
      Ends (ask effect next) before value after

variable {protocol} {before after : σ} {value : α}

theorem ends_ask_iff {effect : E} {next : Answer effect → Interaction E Answer α} :
    (Interaction.ask effect next).Ends protocol before value after ↔
      ∃ answer middle, protocol.moves before effect answer middle ∧
        (next answer).Ends protocol middle value after := by
  constructor
  · rintro (_ | ⟨moves, rest⟩)
    exact ⟨_, _, moves, rest⟩
  · rintro ⟨answer, middle, moves, rest⟩
    exact .ask moves rest

theorem ends_bind_iff {first : Interaction E Answer α} {next : α → Interaction E Answer β}
    {result : β} :
    (first >>= next).Ends protocol before result after ↔
      ∃ value middle, first.Ends protocol before value middle ∧
        (next value).Ends protocol middle result after := by
  induction first generalizing before with
  | done value =>
      constructor
      · intro ends
        exact ⟨value, before, .done value before, ends⟩
      · rintro ⟨_, _, ⟨⟩, ends⟩
        exact ends
  | ask effect rest ih =>
      rw [ask_bind, ends_ask_iff]
      constructor
      · rintro ⟨answer, middle, moves, ends⟩
        obtain ⟨value, last, endsFirst, endsNext⟩ := (ih answer).mp ends
        exact ⟨value, last, .ask moves endsFirst, endsNext⟩
      · rintro ⟨value, last, _ | ⟨moves, endsFirst⟩, endsNext⟩
        exact ⟨_, _, moves, (ih _).mpr ⟨value, last, endsFirst, endsNext⟩⟩

/-- What a computation that keeps to a protocol returns. -/
theorem Ends.of_obeys {post : σ → α → Prop} {action : Interaction E Answer α}
    (ends : action.Ends protocol before value after)
    (obeys : action.Obeys protocol post before) : post after value := by
  induction ends with
  | done value state => exact obeys
  | ask moves rest ih => exact ih (obeys.2 _ _ moves)

/-- Surroundings that always answer bring a computation to its end. -/
theorem exists_ends
    (answers : ∀ state effect, ∃ answer after, protocol.moves state effect answer after)
    (action : Interaction E Answer α) (before : σ) :
    ∃ value after, action.Ends protocol before value after := by
  induction action generalizing before with
  | done value => exact ⟨value, before, .done value before⟩
  | ask effect next ih =>
      obtain ⟨answer, middle, moves⟩ := answers before effect
      obtain ⟨value, after, rest⟩ := ih answer middle
      exact ⟨value, after, .ask moves rest⟩

end Ends

section Lockstep

variable {protocol : Protocol E Answer σ} {alike : σ → σ → Prop}

/-- From alike states the computations end with related values, in alike
states. -/
def Lockstep (protocol : Protocol E Answer σ) (alike : σ → σ → Prop) (related : α → β → Prop)
    (first : Interaction E Answer α) (second : Interaction E Answer β) : Prop :=
  ∀ ⦃left right⦄, alike left right →
    ∀ ⦃value left'⦄, first.Ends protocol left value left' →
      ∀ ⦃other right'⦄, second.Ends protocol right other right' →
        related value other ∧ alike left' right'

theorem lockstep_done {related : α → β → Prop} {value : α} {other : β}
    (holds : related value other) :
    Lockstep protocol alike related (done value) (done other) := by
  rintro left right alikeStates _ _ ⟨⟩ _ _ ⟨⟩
  exact ⟨holds, alikeStates⟩

/-- Two effects, after whose answers the computations go on in lockstep. -/
theorem lockstep_ask {related : α → β → Prop} {effect other : E}
    {next : Answer effect → Interaction E Answer α} {otherNext : Answer other → Interaction E Answer β}
    (step : ∀ left right, alike left right →
      ∀ answer left', protocol.moves left effect answer left' →
        ∀ otherAnswer right', protocol.moves right other otherAnswer right' →
          alike left' right' ∧
            Lockstep protocol alike related (next answer) (otherNext otherAnswer)) :
    Lockstep protocol alike related (ask effect next) (ask other otherNext) := by
  rintro left right alikeStates value left' ends otherValue right' otherEnds
  obtain ⟨answer, middle, moves, rest⟩ := ends_ask_iff.mp ends
  obtain ⟨otherAnswer, otherMiddle, otherMoves, otherRest⟩ := ends_ask_iff.mp otherEnds
  obtain ⟨alikeMiddles, later⟩ :=
    step left right alikeStates answer middle moves otherAnswer otherMiddle otherMoves
  exact later alikeMiddles rest otherRest

theorem Lockstep.bind {middle : α → β → Prop} {related : γ → δ → Prop}
    {first : Interaction E Answer α} {second : Interaction E Answer β}
    {next : α → Interaction E Answer γ} {otherNext : β → Interaction E Answer δ}
    (together : Lockstep protocol alike middle first second)
    (later : ∀ value other, middle value other →
      Lockstep protocol alike related (next value) (otherNext other)) :
    Lockstep protocol alike related (first >>= next) (second >>= otherNext) := by
  rintro left right alikeStates value left' ends other right' otherEnds
  obtain ⟨early, between, endsFirst, endsNext⟩ := ends_bind_iff.mp ends
  obtain ⟨otherEarly, otherBetween, otherFirst, otherNext⟩ := ends_bind_iff.mp otherEnds
  obtain ⟨holds, alikeBetween⟩ := together alikeStates endsFirst otherFirst
  exact later early otherEarly holds alikeBetween endsNext otherNext

/-- The first computation goes on alone. -/
theorem Lockstep.bind_left {middle : α → β → Prop} {related : γ → β → Prop}
    {first : Interaction E Answer α} {second : Interaction E Answer β}
    {next : α → Interaction E Answer γ} (together : Lockstep protocol alike middle first second)
    (later : ∀ value other, middle value other →
      Lockstep protocol alike related (next value) (done other)) :
    Lockstep protocol alike related (first >>= next) second := by
  rintro left right alikeStates value left' ends other right' otherEnds
  obtain ⟨early, between, endsFirst, endsNext⟩ := ends_bind_iff.mp ends
  obtain ⟨holds, alikeBetween⟩ := together alikeStates endsFirst otherEnds
  exact later early other holds alikeBetween endsNext (.done _ _)

/-- The second computation goes on alone. -/
theorem Lockstep.bind_right {middle : α → β → Prop} {related : α → δ → Prop}
    {first : Interaction E Answer α} {second : Interaction E Answer β}
    {otherNext : β → Interaction E Answer δ} (together : Lockstep protocol alike middle first second)
    (later : ∀ value other, middle value other →
      Lockstep protocol alike related (done value) (otherNext other)) :
    Lockstep protocol alike related first (second >>= otherNext) := by
  rintro left right alikeStates value left' ends other right' otherEnds
  obtain ⟨otherEarly, otherBetween, otherFirst, endsNext⟩ := ends_bind_iff.mp otherEnds
  obtain ⟨holds, alikeBetween⟩ := together alikeStates ends otherFirst
  exact later value otherEarly holds alikeBetween (.done _ _) endsNext

theorem Lockstep.mono {related weaker : α → β → Prop} {first : Interaction E Answer α}
    {second : Interaction E Answer β} (together : Lockstep protocol alike related first second)
    (implies : ∀ value other, related value other → weaker value other) :
    Lockstep protocol alike weaker first second := by
  rintro left right alikeStates value left' ends other right' otherEnds
  obtain ⟨holds, alikeAfter⟩ := together alikeStates ends otherEnds
  exact ⟨implies value other holds, alikeAfter⟩

end Lockstep

end Interaction

end Numa
