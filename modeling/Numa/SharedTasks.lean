import Mathlib.Logic.Function.Basic
import Mathlib.Logic.Relation
import Numa.Interaction

/-!
# Tasks over a shared state

Tasks interact with a state that they share, one effect at a time, in any
interleaving.  Each task has a phase of its own, which its effects and their
answers move, and a task that is idle may be dropped.  When the programs keep
to what their phases allow, an invariant of the shared state and the phases
holds in every run as soon as single effects keep it.
-/

namespace Numa

/-- What effects do to the shared state, and to the phase of the task. -/
structure TaskRules (E : Type) (Answer : E → Type) (σ φ : Type) where
  happens : σ → (effect : E) → Answer effect → σ → Prop
  allowed : φ → E → Prop
  next : φ → (effect : E) → Answer effect → φ
  idle : φ

/-- Tasks with their programs and phases.  A task that is not there is idle. -/
structure Crew (E : Type) (Answer : E → Type) (σ φ : Type) where
  shared : σ
  phases : Nat → φ
  programs : Nat → Option (Interaction E Answer Unit)

/-- The state after a task has moved. -/
def Crew.set {E : Type} {Answer : E → Type} {σ φ : Type} (crew : Crew E Answer σ φ) (id : Nat)
    (shared : σ) (phase : φ) (program : Option (Interaction E Answer Unit)) :
    Crew E Answer σ φ where
  shared := shared
  phases := Function.update crew.phases id phase
  programs := Function.update crew.programs id program

namespace TaskRules

variable {E : Type} {Answer : E → Type} {σ φ : Type} (rules : TaskRules E Answer σ φ)

/-- The phases as a protocol. -/
def protocol : Protocol E Answer φ where
  allowed := rules.allowed
  moves phase effect answer after := after = rules.next phase effect answer

/-- A program starts and ends idle, and does what its phases allow. -/
def Runs (program : Interaction E Answer Unit) : Prop :=
  program.Obeys rules.protocol (fun phase _ => phase = rules.idle) rules.idle

/-- No tasks yet. -/
def init (shared : σ) : Crew E Answer σ φ where
  shared := shared
  phases _ := rules.idle
  programs _ := none

inductive Step (starts : Interaction E Answer Unit → Prop) (crew : Crew E Answer σ φ) :
    Crew E Answer σ φ → Prop
  | start (id : Nat) {program : Interaction E Answer Unit} (isFree : crew.programs id = none)
      (isStart : starts program) :
      Step starts crew (crew.set id crew.shared (crew.phases id) (some program))
  | run (id : Nat) {effect : E} {next : Answer effect → Interaction E Answer Unit}
      {answer : Answer effect} {after : σ} (isTask : crew.programs id = some (.ask effect next))
      (happens : rules.happens crew.shared effect answer after) :
      Step starts crew
        (crew.set id after (rules.next (crew.phases id) effect answer) (some (next answer)))
  | leave (id : Nat) (isIdle : crew.phases id = rules.idle) :
      Step starts crew (crew.set id crew.shared (crew.phases id) none)

/-- Every effect that a phase allows keeps the invariant. -/
def Keeps (invariant : σ → (Nat → φ) → Prop) : Prop :=
  ∀ {shared phases id effect answer after}, invariant shared phases →
    rules.allowed (phases id) effect → rules.happens shared effect answer after →
    invariant after (Function.update phases id (rules.next (phases id) effect answer))

variable {rules} {starts : Interaction E Answer Unit → Prop}
  {invariant : σ → (Nat → φ) → Prop} {crew after : Crew E Answer σ φ}

/-- What is left of a task keeps to its phase, and who is not there is idle. -/
structure Sound (rules : TaskRules E Answer σ φ) (invariant : σ → (Nat → φ) → Prop)
    (crew : Crew E Answer σ φ) : Prop where
  holds : invariant crew.shared crew.phases
  obeys : ∀ id program, crew.programs id = some program →
    program.Obeys rules.protocol (fun phase _ => phase = rules.idle) (crew.phases id)
  absent : ∀ id, crew.programs id = none → crew.phases id = rules.idle

theorem Sound.set (sound : Sound rules invariant crew) {id : Nat} {shared : σ} {phase : φ}
    {program : Option (Interaction E Answer Unit)}
    (holds : invariant shared (Function.update crew.phases id phase))
    (obeys : ∀ found, program = some found →
      found.Obeys rules.protocol (fun last _ => last = rules.idle) phase)
    (absent : program = none → phase = rules.idle) :
    Sound rules invariant (crew.set id shared phase program) := by
  refine ⟨holds, fun other found isTask => ?_, fun other isAbsent => ?_⟩
  · simp only [Crew.set, Function.update_apply] at isTask ⊢
    split_ifs at isTask ⊢
    · exact obeys found isTask
    · exact sound.obeys other found isTask
  · simp only [Crew.set, Function.update_apply] at isAbsent ⊢
    split_ifs at isAbsent ⊢
    · exact absent isAbsent
    · exact sound.absent other isAbsent

theorem Sound.step (keeps : rules.Keeps invariant)
    (runs : ∀ program, starts program → rules.Runs program)
    (sound : Sound rules invariant crew) (step : rules.Step starts crew after) :
    Sound rules invariant after := by
  have unchanged : ∀ id, invariant crew.shared (Function.update crew.phases id (crew.phases id)) := by
    intro id
    rw [Function.update_eq_self]
    exact sound.holds
  cases step with
  | @start id program isFree isStart =>
      refine sound.set (unchanged id) ?_ nofun
      rintro found ⟨⟩
      rw [sound.absent id isFree]
      exact runs program isStart
  | @run id effect next answer middle isTask happens =>
      have obeys := sound.obeys id _ isTask
      refine sound.set (keeps sound.holds obeys.1 happens) ?_ nofun
      rintro found ⟨⟩
      exact obeys.2 answer _ rfl
  | leave id isIdle => exact sound.set (unchanged id) nofun fun _ => isIdle

/-- The invariant holds in every run. -/
theorem holds_of_run (keeps : rules.Keeps invariant)
    (runs : ∀ program, starts program → rules.Runs program) {shared : σ}
    (initially : invariant shared fun _ => rules.idle)
    (run : Relation.ReflTransGen (rules.Step starts) (rules.init shared) crew) :
    invariant crew.shared crew.phases := by
  have sound : Sound rules invariant crew := by
    induction run with
    | refl => exact ⟨initially, by rintro _ _ ⟨⟩, fun _ _ => rfl⟩
    | tail _ step ih => exact ih.step keeps runs step
  exact sound.holds

end TaskRules

end Numa
