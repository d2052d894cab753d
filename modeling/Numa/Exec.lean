import Mathlib.Logic.Relation
import Mathlib.Tactic.Common

/-!
# Stateful computations that may abort

A computation over a state `σ` returns a value and a new state or aborts.
This file inverts a successful run of a composed computation into the runs of
its parts, inverts searches through lists by tests that may abort, and gives
the rules by which a computation moves its state only along a relation.
-/

namespace Numa

/-- A computation over the state `σ`; `none` is an abort. -/
abbrev Exec (σ : Type) := StateT σ Option

namespace Exec

variable {σ α β : Type}

@[simp]
theorem pure_eq_some {value result : α} {state final : σ} :
    (pure value : Exec σ α) state = some (result, final) ↔
      value = result ∧ state = final := by
  change some (value, state) = some (result, final) ↔ _
  simp

@[simp]
theorem bind_eq_some {first : Exec σ α} {next : α → Exec σ β} {state final : σ}
    {result : β} :
    (first >>= next) state = some (result, final) ↔
      ∃ value middle, first state = some (value, middle) ∧
        next value middle = some (result, final) := by
  change (first state).bind (fun pair => next pair.1 pair.2) = _ ↔ _
  rcases first state with _ | ⟨value, middle⟩ <;> simp

/-- A composed computation goes on where its first part returned. -/
theorem bind_of_eq_some {first : Exec σ α} {next : α → Exec σ β} {state middle : σ} {value : α}
    (ran : first state = some (value, middle)) :
    (first >>= next) state = next value middle := by
  change (first state).bind (fun pair => next pair.1 pair.2) = _
  rw [ran, Option.bind_some]

@[simp]
theorem get_eq_some {state final result : σ} :
    (get : Exec σ σ) state = some (result, final) ↔ state = result ∧ state = final := by
  change some (state, state) = some (result, final) ↔ _
  simp

@[simp]
theorem liftM_eq_some {attempt : Option α} {result : α} {state final : σ} :
    (liftM attempt : Exec σ α) state = some (result, final) ↔
      attempt = some result ∧ state = final := by
  change attempt.bind (fun value => some (value, state)) = some (result, final) ↔ _
  cases attempt <;> simp

/-- Every run of the computation moves the state along the relation. -/
def Moves (relation : σ → σ → Prop) (action : Exec σ α) : Prop :=
  ∀ state result final, action state = some (result, final) → relation state final

section Moves

variable {relation : σ → σ → Prop}

theorem moves_pure (reflexive : Std.Refl relation) (value : α) :
    Moves relation (pure value : Exec σ α) := by
  intro state result final ran
  obtain ⟨-, rfl⟩ := pure_eq_some.mp ran
  exact reflexive.refl state

theorem moves_get (reflexive : Std.Refl relation) :
    Moves relation (get : Exec σ σ) := by
  intro state result final ran
  obtain ⟨-, rfl⟩ := get_eq_some.mp ran
  exact reflexive.refl state

theorem moves_liftM (reflexive : Std.Refl relation) (attempt : Option α) :
    Moves relation (liftM attempt : Exec σ α) := by
  intro state result final ran
  obtain ⟨-, rfl⟩ := liftM_eq_some.mp ran
  exact reflexive.refl state

theorem moves_bind (transitive : IsTrans σ relation) {first : Exec σ α}
    {next : α → Exec σ β} (firstMoves : Moves relation first)
    (nextMoves : ∀ value, Moves relation (next value)) :
    Moves relation (first >>= next) := by
  intro state result final ran
  obtain ⟨value, middle, firstRan, nextRan⟩ := bind_eq_some.mp ran
  exact transitive.trans _ _ _ (firstMoves _ _ _ firstRan) (nextMoves _ _ _ _ nextRan)

theorem moves_ite {condition : Prop} [Decidable condition] {first second : Exec σ α}
    (firstMoves : Moves relation first) (secondMoves : Moves relation second) :
    Moves relation (if condition then first else second) := by
  by_cases holds : condition
  · rwa [if_pos holds]
  · rwa [if_neg holds]

end Moves

end Exec

section Searches

variable {α : Type} {test : α → Option Bool} {items : List α}

/-- A search that succeeds has found an element. -/
theorem exists_of_anyM_eq_true (found : items.anyM test = some true) :
    ∃ item ∈ items, test item = some true := by
  induction items with
  | nil => simp [List.anyM] at found
  | cons item items ih =>
      rw [List.anyM] at found
      cases tested : test item with
      | none => simp [tested] at found
      | some result =>
          cases result with
          | true => exact ⟨item, by simp, tested⟩
          | false =>
              obtain ⟨later, laterMem, laterTested⟩ := ih (by simpa [tested] using found)
              exact ⟨later, by simp [laterMem], laterTested⟩

/-- A search returns if no test aborts. -/
theorem anyM_ne_none (total : ∀ item ∈ items, test item ≠ none) :
    items.anyM test ≠ none := by
  induction items with
  | nil => simp [List.anyM]
  | cons head items ih =>
      rw [List.anyM]
      cases tested : test head with
      | none => exact absurd tested (total head (by simp))
      | some result =>
          cases result with
          | true => simp
          | false => exact ih fun item itemMem => total item (by simp [itemMem])

/-- A search succeeds if no test aborts and one succeeds. -/
theorem anyM_eq_true_of_mem {item : α} (total : ∀ item ∈ items, test item ≠ none)
    (itemMem : item ∈ items) (accepted : test item = some true) :
    items.anyM test = some true := by
  induction items with
  | nil => simp at itemMem
  | cons head items ih =>
      rw [List.anyM]
      cases tested : test head with
      | none => exact absurd tested (total head (by simp))
      | some result =>
          cases result with
          | true => rfl
          | false =>
              have laterMem : item ∈ items := by
                rcases List.mem_cons.mp itemMem with rfl | later
                · simp [tested] at accepted
                · exact later
              exact ih (fun other otherMem => total other (by simp [otherMem])) laterMem

/-- A check of all elements that succeeds accepts every element. -/
theorem forall_of_allM_eq_true (checked : items.allM test = some true) :
    ∀ item ∈ items, test item = some true := by
  induction items with
  | nil => simp
  | cons head items ih =>
      rw [List.allM] at checked
      cases tested : test head with
      | none => simp [tested] at checked
      | some result =>
          cases result with
          | false => simp [tested] at checked
          | true =>
              intro item itemMem
              rcases List.mem_cons.mp itemMem with rfl | later
              · exact tested
              · exact ih (by simpa [tested] using checked) item later

private theorem filterAuxM_eq_some_iff {kept result : List α} :
    items.filterAuxM test kept = some result ↔
      (∀ item ∈ items, test item ≠ none) ∧
        result = (items.filter fun item => test item == some true).reverse ++ kept := by
  induction items generalizing kept with
  | nil => simp [List.filterAuxM, eq_comm]
  | cons head items ih =>
      rw [List.filterAuxM]
      cases tested : test head with
      | none => simp [tested]
      | some accepted => cases accepted <;> simp [tested, ih]

/-- A filter returns when no test aborts, and then keeps what passes. -/
theorem filterM_eq_some_iff {result : List α} :
    items.filterM test = some result ↔
      (∀ item ∈ items, test item ≠ none) ∧
        result = items.filter fun item => test item == some true := by
  rw [List.filterM, Option.bind_eq_bind, Option.bind_eq_some_iff]
  simp only [filterAuxM_eq_some_iff, List.append_nil]
  constructor
  · rintro ⟨kept, ⟨total, rfl⟩, reversed⟩
    exact ⟨total, by simpa [eq_comm] using reversed⟩
  · rintro ⟨total, rfl⟩
    exact ⟨_, ⟨total, rfl⟩, by simp⟩

/-- A list with an element of a kind has a first one. -/
theorem exists_first_of_exists_mem {kind : α → Prop} (found : ∃ item ∈ items, kind item) :
    ∃ before item after, items = before ++ item :: after ∧ kind item ∧
      ∀ earlier ∈ before, ¬ kind earlier := by
  classical
  obtain ⟨item, itemMem, isKind⟩ := found
  obtain ⟨first, firstFound⟩ : ∃ first, items.find? (fun item => decide (kind item)) =
      some first := by
    rw [← Option.isSome_iff_exists, List.find?_isSome]
    exact ⟨item, itemMem, by simpa using isKind⟩
  obtain ⟨firstKind, before, after, split, earlier⟩ :=
    List.find?_eq_some_iff_append.mp firstFound
  exact ⟨before, first, after, split, by simpa using firstKind, by simpa using earlier⟩

theorem mapM_eq_some_map {α β : Type} {f : α → Option β} {g : α → β} {items : List α}
    (total : ∀ item ∈ items, f item = some (g item)) : items.mapM f = some (items.map g) := by
  induction items with
  | nil => rfl
  | cons item items ih =>
      have later := ih fun other otherMem => total other (List.mem_cons_of_mem _ otherMem)
      rw [List.mapM_cons, total item (by simp), later]
      rfl

/-- A traversal in another order has the same results in that order. -/
theorem mapM_perm {α β : Type} {step : α → Option β} {items others : List α}
    (perm : items.Perm others) {results : List β} (ran : items.mapM step = some results) :
    ∃ permuted, others.mapM step = some permuted ∧ results.Perm permuted := by
  induction perm generalizing results with
  | nil => exact ⟨results, ran, .refl _⟩
  | cons item perm ih =>
      simp only [List.mapM_cons, Option.bind_eq_bind, Option.bind_eq_some_iff] at ran ⊢
      obtain ⟨first, ranFirst, later, ranLater, ⟨⟩⟩ := ran
      obtain ⟨permuted, ranPermuted, same⟩ := ih ranLater
      exact ⟨first :: permuted, ⟨first, ranFirst, permuted, ranPermuted, rfl⟩, same.cons first⟩
  | swap item next items =>
      simp only [List.mapM_cons, Option.bind_eq_bind, Option.bind_eq_some_iff] at ran ⊢
      obtain ⟨first, ranFirst, _, ⟨second, ranSecond, later, ranLater, ⟨⟩⟩, ⟨⟩⟩ := ran
      exact ⟨second :: first :: later,
        ⟨second, ranSecond, _, ⟨first, ranFirst, later, ranLater, rfl⟩, rfl⟩, .swap _ _ _⟩
  | trans _ _ firstIH secondIH =>
      obtain ⟨middle, ranMiddle, toMiddle⟩ := firstIH ran
      obtain ⟨permuted, ranPermuted, fromMiddle⟩ := secondIH ranMiddle
      exact ⟨permuted, ranPermuted, toMiddle.trans fromMiddle⟩

/-- A traversal returns exactly when no step aborts. -/
theorem mapM_isSome_iff {β : Type} {step : α → Option β} :
    (items.mapM step).isSome = true ↔ ∀ item ∈ items, (step item).isSome = true := by
  induction items with
  | nil => simp
  | cons item items ih =>
      rw [List.mapM_cons, List.forall_mem_cons, ← ih]
      cases step item <;> cases items.mapM step <;> simp

end Searches

end Numa
