import Mathlib.Data.Set.Card
import Numa.SharedTasks

/-!
# Counting tasks by their phases

A number in the shared state may stand for the tasks that are in phases of a
kind: a semaphore for those that hold a permit, two counters for those that one
of them has counted and the other has not.  When single effects move the number
as they move their task, the number is right in every run.
-/

namespace Numa

variable {φ : Type}

/-- How many tasks are in phases of a kind. -/
noncomputable def tasksIn (kind : φ → Prop) (phases : Nat → φ) : Nat :=
  {id | kind (phases id)}.ncard

/-- A task leaves the kind with its old phase and enters it with the new one. -/
theorem tasksIn_update {kind : φ → Prop} [DecidablePred kind] {phases : Nat → φ}
    (finite : {id | kind (phases id)}.Finite) (id : Nat) (phase : φ) :
    tasksIn kind (Function.update phases id phase) + (if kind (phases id) then 1 else 0) =
      tasksIn kind phases + (if kind phase then 1 else 0) := by
  have others : ({other | kind (phases other)} \ {id}).ncard +
      (if kind (phases id) then 1 else 0) = tasksIn kind phases := by
    split_ifs with before
    · exact Set.ncard_sdiff_singleton_add_one before finite
    · have outside : id ∉ {other | kind (phases other)} := before
      rw [Set.sdiff_singleton_eq_self outside, tasksIn, Nat.add_zero]
  have updated : {other | kind (Function.update phases id phase other)} =
      if kind phase then insert id ({other | kind (phases other)} \ {id})
      else {other | kind (phases other)} \ {id} := by
    ext other
    by_cases same : other = id
    · subst same
      split_ifs with after <;> simp [after]
    · split_ifs <;> simp [same]
  have counted : tasksIn kind (Function.update phases id phase) =
      ({other | kind (phases other)} \ {id}).ncard + (if kind phase then 1 else 0) := by
    rw [tasksIn, updated]
    split_ifs
    · exact Set.ncard_insert_of_notMem (by simp) (finite.sdiff)
    · rfl
  omega

namespace TaskRules

variable {E : Type} {Answer : E → Type} {σ : Type} {rules : TaskRules E Answer σ φ}

/-- Only finitely many tasks are in phases of a kind, and the number counts
them. -/
structure Counted (kind : φ → Prop) (level : σ → Int) (shared : σ) (phases : Nat → φ) : Prop where
  finite : {id | kind (phases id)}.Finite
  level_eq : level shared = tasksIn kind phases

/-- Every effect moves the number as it moves its task. -/
def Counts (rules : TaskRules E Answer σ φ) (kind : φ → Prop) [DecidablePred kind]
    (level : σ → Int) : Prop :=
  ∀ {shared phase effect answer after}, rules.allowed phase effect →
    rules.happens shared effect answer after →
    level after + (if kind phase then 1 else 0) =
      level shared + (if kind (rules.next phase effect answer) then 1 else 0)

variable {kind : φ → Prop} [DecidablePred kind] {level : σ → Int}

theorem Counts.keeps (counts : rules.Counts kind level) : rules.Keeps (Counted kind level) := by
  intro shared phases id effect answer after counted allowed happens
  constructor
  · refine (counted.finite.insert id).subset fun other isKind => ?_
    by_cases same : other = id
    · exact .inl same
    · rw [Set.mem_ofPred_eq, Function.update_of_ne same] at isKind
      exact .inr isKind
  · have moved := counts allowed happens
    have census := tasksIn_update counted.finite id (rules.next (phases id) effect answer)
    have before := counted.level_eq
    split_ifs at moved census <;> omega

omit [DecidablePred kind] in
theorem counted_init {shared : σ} (idle : ¬kind rules.idle) (zero : level shared = 0) :
    Counted kind level shared fun _ => rules.idle := by
  have nobody : {_id : Nat | kind rules.idle} = ∅ := by simp [idle]
  refine ⟨by rw [nobody]; exact Set.finite_empty, ?_⟩
  rw [tasksIn, nobody, Set.ncard_empty, zero]
  rfl

/-- The number counts the tasks in every run. -/
theorem Counts.level_of_run (counts : rules.Counts kind level)
    {starts : Interaction E Answer Unit → Prop}
    (runs : ∀ program, starts program → rules.Runs program) (idle : ¬kind rules.idle) {shared : σ}
    (zero : level shared = 0) {crew : Crew E Answer σ φ}
    (run : Relation.ReflTransGen (rules.Step starts) (rules.init shared) crew) :
    level crew.shared = tasksIn kind crew.phases :=
  (holds_of_run counts.keeps runs (counted_init idle zero) run).level_eq

end TaskRules

end Numa
