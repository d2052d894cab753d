import Mathlib.Order.Basic
import Mathlib.Tactic.Common

/-!
# Interactions

A concurrent task is a computation that asks its surroundings for effects and
goes on with their answers; what other tasks do between two effects is part of
the answers.  This file states what a task may ask for as a protocol over a
ghost state, which the answers move, and gives the rules by which composed
computations obey a protocol.
-/

namespace Numa

/-- A computation that asks for effects. -/
inductive Interaction (E : Type) (Answer : E → Type) (α : Type) : Type
  | done (value : α)
  | ask (effect : E) (next : Answer effect → Interaction E Answer α)

namespace Interaction

variable {E : Type} {Answer : E → Type} {α β σ : Type}

/-- Go on with the value of the first computation. -/
def bind (first : Interaction E Answer α) (next : α → Interaction E Answer β) :
    Interaction E Answer β :=
  match first with
  | done value => next value
  | ask effect rest => ask effect fun answer => (rest answer).bind next

instance : Monad (Interaction E Answer) where
  pure := done
  bind := bind

@[simp]
theorem pure_eq_done (value : α) : (pure value : Interaction E Answer α) = done value :=
  rfl

@[simp]
theorem done_bind (value : α) (next : α → Interaction E Answer β) :
    (done value >>= next) = next value :=
  rfl

@[simp]
theorem ask_bind (effect : E) (rest : Answer effect → Interaction E Answer α)
    (next : α → Interaction E Answer β) :
    (ask effect rest >>= next) = ask effect fun answer => rest answer >>= next :=
  rfl

/-- The computation among more effects. -/
def embed {E' : Type} {Answer' : E' → Type} (inject : E → E')
    (back : ∀ effect, Answer' (inject effect) → Answer effect) :
    Interaction E Answer α → Interaction E' Answer' α
  | done value => done value
  | ask effect next => ask (inject effect) fun answer => (next (back effect answer)).embed inject back

end Interaction

/-- What a task may ask for in a ghost state, and how an answer moves the ghost
state.  An answer that moves it nowhere is assumed away. -/
structure Protocol (E : Type) (Answer : E → Type) (σ : Type) where
  allowed : σ → E → Prop
  moves : σ → (effect : E) → Answer effect → σ → Prop

/-- What a protocol over more effects says of some of them. -/
def Protocol.pullback {E E' σ : Type} {Answer : E → Type} {Answer' : E' → Type}
    (protocol : Protocol E' Answer' σ) (inject : E → E')
    (back : ∀ effect, Answer' (inject effect) → Answer effect) : Protocol E Answer σ where
  allowed state effect := protocol.allowed state (inject effect)
  moves state effect answer after :=
    ∃ given, back effect given = answer ∧ protocol.moves state (inject effect) given after

namespace Interaction

variable {E : Type} {Answer : E → Type} {α β σ : Type}

/-- Every effect the computation asks for is allowed, and its value satisfies
the postcondition. -/
def Obeys (protocol : Protocol E Answer σ) (post : σ → α → Prop) :
    Interaction E Answer α → σ → Prop
  | done value, state => post state value
  | ask effect next, state =>
    protocol.allowed state effect ∧
      ∀ answer after, protocol.moves state effect answer after →
        Obeys protocol post (next answer) after

variable {protocol : Protocol E Answer σ} {state : σ}

theorem Obeys.mono {post weaker : σ → α → Prop} {action : Interaction E Answer α}
    (obeys : action.Obeys protocol post state)
    (implies : ∀ after value, post after value → weaker after value) :
    action.Obeys protocol weaker state := by
  induction action generalizing state with
  | done value => exact implies state value obeys
  | ask effect next ih =>
      refine ⟨obeys.1, fun answer after moves => ?_⟩
      exact ih answer (obeys.2 answer after moves)

/-- A composed computation obeys the protocol when its second part does from
wherever the first part leaves the ghost state. -/
theorem Obeys.bind {middle : σ → α → Prop} {post : σ → β → Prop}
    {first : Interaction E Answer α} {next : α → Interaction E Answer β}
    (obeys : first.Obeys protocol middle state)
    (later : ∀ after value, middle after value → (next value).Obeys protocol post after) :
    (first >>= next).Obeys protocol post state := by
  induction first generalizing state with
  | done value => exact later state value obeys
  | ask effect rest ih =>
      refine ⟨obeys.1, fun answer after moves => ?_⟩
      exact ih answer (obeys.2 answer after moves)

/-- A computation obeys a protocol that allows everything in the states it can
be moved to. -/
theorem Obeys.of_invariant {invariant : σ → Prop}
    (allowed : ∀ before effect, invariant before → protocol.allowed before effect)
    (kept : ∀ before effect answer after, invariant before →
      protocol.moves before effect answer after → invariant after)
    (action : Interaction E Answer α) (holds : invariant state) :
    action.Obeys protocol (fun after _ => invariant after) state := by
  induction action generalizing state with
  | done value => exact holds
  | ask effect next ih =>
      refine ⟨allowed state effect holds, fun answer after moves => ?_⟩
      exact ih answer (kept state effect answer after holds moves)

/-- A protocol that allows more and whose answers tell more is obeyed too. -/
theorem Obeys.transfer {other : Protocol E Answer σ} {post : σ → α → Prop}
    {action : Interaction E Answer α}
    (allowed : ∀ before effect, protocol.allowed before effect → other.allowed before effect)
    (moves : ∀ before effect answer after, other.moves before effect answer after →
      protocol.moves before effect answer after)
    (obeys : action.Obeys protocol post state) : action.Obeys other post state := by
  induction action generalizing state with
  | done value => exact obeys
  | ask effect next ih =>
      refine ⟨allowed state effect obeys.1, fun answer after moved => ?_⟩
      exact ih answer (obeys.2 answer after (moves state effect answer after moved))

theorem Obeys.embed {E' : Type} {Answer' : E' → Type} {protocol : Protocol E' Answer' σ}
    {inject : E → E'} {back : ∀ effect, Answer' (inject effect) → Answer effect}
    {post : σ → α → Prop} {action : Interaction E Answer α}
    (obeys : action.Obeys (protocol.pullback inject back) post state) :
    (action.embed inject back).Obeys protocol post state := by
  induction action generalizing state with
  | done value => exact obeys
  | ask effect next ih =>
      refine ⟨obeys.1, fun given after moves => ?_⟩
      exact ih _ (obeys.2 _ after ⟨given, rfl, moves⟩)

/-- The ghost state only grows when every answer lets it grow. -/
theorem Obeys.grows [Preorder σ] {post : σ → α → Prop} {action : Interaction E Answer α}
    (grow : ∀ before effect answer after, protocol.moves before effect answer after →
      before ≤ after)
    (obeys : action.Obeys protocol post state) :
    action.Obeys protocol (fun after value => state ≤ after ∧ post after value) state := by
  induction action generalizing state with
  | done value => exact ⟨le_refl state, obeys⟩
  | ask effect next ih =>
      refine ⟨obeys.1, fun answer after moves => ?_⟩
      have later := ih answer (obeys.2 answer after moves)
      have above : state ≤ after := grow state effect answer after moves
      exact later.mono fun final value holds => ⟨above.trans holds.1, holds.2⟩

/-! ## Runs -/

/-- The computation has asked for these effects, got these answers and returned
the value. -/
inductive Runs : Interaction E Answer α → List (Sigma Answer) → α → Prop
  | done (value : α) : Runs (done value) [] value
  | ask {effect : E} {next : Answer effect → Interaction E Answer α} {trace : List (Sigma Answer)}
      {value : α} (answer : Answer effect) (ran : Runs (next answer) trace value) :
      Runs (ask effect next) (⟨effect, answer⟩ :: trace) value

variable {trace : List (Sigma Answer)}

@[simp]
theorem runs_done_iff {value result : α} :
    (done value : Interaction E Answer α).Runs trace result ↔ trace = [] ∧ result = value := by
  constructor
  · rintro ⟨⟩
    exact ⟨rfl, rfl⟩
  · rintro ⟨rfl, rfl⟩
    exact .done _

theorem runs_ask_iff {effect : E} {next : Answer effect → Interaction E Answer α} {result : α} :
    (Interaction.ask effect next).Runs trace result ↔
      ∃ answer rest, (next answer).Runs rest result ∧ trace = ⟨effect, answer⟩ :: rest := by
  constructor
  · rintro (_ | ⟨answer, ran⟩)
    exact ⟨answer, _, ran, rfl⟩
  · rintro ⟨answer, rest, ran, rfl⟩
    exact .ask answer ran

theorem runs_bind_iff {first : Interaction E Answer α} {next : α → Interaction E Answer β}
    {result : β} :
    (first >>= next).Runs trace result ↔
      ∃ value early late, first.Runs early value ∧ (next value).Runs late result ∧
        trace = early ++ late := by
  induction first generalizing trace with
  | done value =>
      constructor
      · intro ran
        exact ⟨value, [], trace, .done value, ran, rfl⟩
      · rintro ⟨_, _, late, ⟨⟩, ran, rfl⟩
        exact ran
  | ask effect rest ih =>
      rw [ask_bind, runs_ask_iff]
      constructor
      · rintro ⟨answer, later, ran, rfl⟩
        obtain ⟨value, early, late, ranFirst, ranNext, rfl⟩ := (ih answer).mp ran
        exact ⟨value, _, late, .ask answer ranFirst, ranNext, rfl⟩
      · rintro ⟨value, _, late, _ | ⟨answer, ranFirst⟩, ranNext, rfl⟩
        exact ⟨answer, _, (ih answer).mpr ⟨value, _, late, ranFirst, ranNext, rfl⟩, rfl⟩

/-- Whatever the surroundings answer, the computation comes to its end. -/
theorem exists_runs (answers : List (Sigma Answer) → ∀ effect, Answer effect)
    (action : Interaction E Answer α) (before : List (Sigma Answer)) :
    ∃ trace value, action.Runs trace value ∧
      ∀ early effect answer late, trace = early ++ ⟨effect, answer⟩ :: late →
        answer = answers (before ++ early) effect := by
  induction action generalizing before with
  | done value => exact ⟨[], value, .done value, by simp⟩
  | ask effect next ih =>
      obtain ⟨trace, value, ran, follows⟩ :=
        ih (answers before effect) (before ++ [⟨effect, answers before effect⟩])
      refine ⟨_, value, .ask _ ran, ?_⟩
      rintro (_ | ⟨first, early⟩) other answer late split
      · cases split
        rw [List.append_nil]
      · rw [List.cons_append, List.cons.injEq] at split
        obtain ⟨rfl, rest⟩ := split
        have later := follows early other answer late rest
        rwa [List.append_assoc] at later

/-- What a run of a computation that keeps to a protocol returns, when the
answers leave the ghost state alone. -/
theorem Runs.of_obeys {post : σ → α → Prop} {action : Interaction E Answer α} {value : α}
    (ran : action.Runs trace value) (obeys : action.Obeys protocol post state)
    (still : ∀ effect answer, protocol.moves state effect answer state) : post state value := by
  induction ran with
  | done value => exact obeys
  | ask answer ran ih => exact ih (obeys.2 answer state (still _ answer))

/-! ## Computations on their way -/

/-- With answers that move the state so, the computation has been carried out as
far as to the rest of it. -/
inductive CarriedOut (moves : σ → (effect : E) → Answer effect → σ → Prop) :
    Interaction E Answer α → σ → Interaction E Answer α → σ → Prop
  | start (action : Interaction E Answer α) (state : σ) :
      CarriedOut moves action state action state
  | ask {effect : E} {next : Answer effect → Interaction E Answer α}
      {rest : Interaction E Answer α} {before middle after : σ} (answer : Answer effect)
      (moved : moves before effect answer middle)
      (later : CarriedOut moves (next answer) middle rest after) :
      CarriedOut moves (ask effect next) before rest after

section CarriedOut

variable {post : σ → α → Prop} {action rest : Interaction E Answer α} {after : σ}

/-- What is left of a computation that obeys the protocol obeys it too. -/
theorem CarriedOut.obeys (carriedOut : CarriedOut protocol.moves action state rest after)
    (obeys : action.Obeys protocol post state) : rest.Obeys protocol post after := by
  induction carriedOut with
  | start action state => exact obeys
  | ask answer moved later ih => exact ih (obeys.2 answer _ moved)

/-- Wherever a computation is interrupted, the state is safe. -/
theorem CarriedOut.isSafe {safe : σ → Prop}
    (carriedOut : CarriedOut protocol.moves action state rest after)
    (obeys : action.Obeys protocol post state)
    (asking : ∀ last effect, protocol.allowed last effect → safe last)
    (ending : ∀ last value, post last value → safe last) : safe after := by
  have obeysRest := carriedOut.obeys obeys
  cases rest with
  | done value => exact ending after value obeysRest
  | ask effect next => exact asking after effect obeysRest.1

end CarriedOut

end Interaction

end Numa
