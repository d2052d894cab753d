import Mathlib.Logic.Relation
import Mathlib.Tactic.Common

/-!
# Loops

A loop is given by its body, which does one turn from a state: it goes on with
another state or leaves the loop with a result, and it may panic.  When every
turn from a state with an invariant keeps the invariant and lowers a measure,
the loop ends without a panic.
-/

namespace Numa

/-- What a turn of a loop does. -/
inductive Turn (σ ρ : Type)
  | again (state : σ)
  | leave (result : ρ)

namespace Turn

variable {σ ρ : Type} {good : σ → Prop} {post : ρ → Prop} {found : Option (Turn σ ρ)}

/-- A turn goes on with a good state or leaves with a good result. -/
def Meets (good : σ → Prop) (post : ρ → Prop) : Turn σ ρ → Prop
  | again state => good state
  | leave result => post result

theorem exists_again {next : σ} (goesOn : found = some (.again next)) (isGood : good next) :
    ∃ turn, found = some turn ∧ turn.Meets good post :=
  ⟨.again next, goesOn, isGood⟩

theorem exists_leave {result : ρ} (leaves : found = some (.leave result)) (holds : post result) :
    ∃ turn, found = some turn ∧ turn.Meets good post :=
  ⟨.leave result, leaves, holds⟩

end Turn

namespace Loop

variable {σ ρ : Type}

section Run

variable (body : σ → Option (Turn σ ρ))

/-- Run the loop.  `none` is a panic, and also a loop that does not end in
time. -/
def run : (turns : Nat) → σ → Option ρ
  | 0, _ => none
  | turns + 1, state => do
    match ← body state with
    | .again next => run turns next
    | .leave result => some result

/-- The states at the head of the loop. -/
def Reaches : σ → σ → Prop :=
  Relation.ReflTransGen fun before after => body before = some (.again after)

/-- A turn from a state with the invariant does not panic, keeps the invariant
and lowers the measure, and the result that it may leave with is good. -/
def Keeps (invariant : σ → Prop) (measure : σ → Nat) (post : ρ → Prop) : Prop :=
  ∀ state, invariant state → ∃ turn, body state = some turn ∧
    turn.Meets (fun next => invariant next ∧ measure next < measure state) post

end Run

variable {body : σ → Option (Turn σ ρ)} {invariant : σ → Prop} {measure : σ → Nat}
  {post : ρ → Prop} {start state : σ}

theorem run_of_again {turns : Nat} {next : σ} (again : body start = some (.again next)) :
    run body (turns + 1) start = run body turns next := by
  simp [run, again]

theorem run_of_leave {turns : Nat} {result : ρ} (leave : body start = some (.leave result)) :
    run body (turns + 1) start = some result := by
  simp [run, leave]

/-- More turns do not change the result. -/
theorem run_of_le {turns more : Nat} {result : ρ} (ran : run body turns start = some result)
    (enough : turns ≤ more) : run body more start = some result := by
  induction turns generalizing start more with
  | zero => cases ran
  | succ turns ih =>
      obtain ⟨more, rfl⟩ : ∃ less, more = less + 1 := ⟨more - 1, by omega⟩
      simp only [run, Option.bind_eq_bind, Option.bind_eq_some_iff] at ran ⊢
      obtain ⟨turn, found, goesOn⟩ := ran
      refine ⟨turn, found, ?_⟩
      cases turn with
      | again next => exact ih goesOn (by omega)
      | leave left => exact goesOn

/-- The invariant holds at the head of the loop in every turn. -/
theorem Keeps.invariant_of_reaches (keeps : Keeps body invariant measure post)
    (holds : invariant start) (reaches : Reaches body start state) : invariant state := by
  induction reaches with
  | refl => exact holds
  | tail _ goes ih =>
      obtain ⟨turn, ran, meets⟩ := keeps _ ih
      obtain rfl := Option.some.inj (ran.symm.trans goes)
      exact meets.1

/-- No turn panics. -/
theorem Keeps.isSome_of_reaches (keeps : Keeps body invariant measure post)
    (holds : invariant start) (reaches : Reaches body start state) :
    (body state).isSome = true := by
  obtain ⟨turn, ran, -⟩ := keeps state (keeps.invariant_of_reaches holds reaches)
  simp [ran]

/-- As many turns as the measure allows are enough. -/
theorem Keeps.exists_run (keeps : Keeps body invariant measure post) {turns : Nat}
    (holds : invariant start) (enough : measure start < turns) :
    ∃ result, run body turns start = some result ∧ post result := by
  induction turns generalizing start with
  | zero => omega
  | succ turns ih =>
      obtain ⟨turn, ran, meets⟩ := keeps start holds
      cases turn with
      | again next =>
          obtain ⟨kept, lower⟩ := meets
          rw [run_of_again ran]
          exact ih kept (by omega)
      | leave result => exact ⟨result, run_of_leave ran, meets⟩

end Loop

end Numa
