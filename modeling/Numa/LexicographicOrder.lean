import Mathlib.Tactic.Common

/-!
# Lexicographic comparison

Two lists are compared at the first place where they differ; a list comes
before those that continue it.
-/

namespace Numa

variable {α : Type}

/-- The first items in which two lists differ. -/
def DifferAt (first second : List α) (item other : α) : Prop :=
  item ≠ other ∧ ∃ common firsts seconds, first = common ++ item :: firsts ∧
    second = common ++ other :: seconds

theorem DifferAt.cons {first second : List α} {item other : α}
    (differ : DifferAt first second item other) (head : α) :
    DifferAt (head :: first) (head :: second) item other := by
  obtain ⟨different, common, firsts, seconds, rfl, rfl⟩ := differ
  exact ⟨different, head :: common, firsts, seconds, rfl, rfl⟩

theorem DifferAt.append {first second : List α} {item other : α}
    (differ : DifferAt first second item other) (behind after : List α) :
    DifferAt (first ++ behind) (second ++ after) item other := by
  obtain ⟨different, common, firsts, seconds, rfl, rfl⟩ := differ
  exact ⟨different, common, firsts ++ behind, seconds ++ after, by simp, by simp⟩

theorem DifferAt.append_left {first second : List α} {item other : α}
    (differ : DifferAt first second item other) (front : List α) :
    DifferAt (front ++ first) (front ++ second) item other := by
  obtain ⟨different, common, firsts, seconds, rfl, rfl⟩ := differ
  exact ⟨different, front ++ common, firsts, seconds, by simp, by simp⟩

theorem DifferAt.symm {first second : List α} {item other : α}
    (differ : DifferAt first second item other) : DifferAt second first other item := by
  obtain ⟨different, common, firsts, seconds, firstEq, secondEq⟩ := differ
  exact ⟨different.symm, common, seconds, firsts, secondEq, firstEq⟩

theorem DifferAt.not_begins {first second : List α} {item other : α}
    (differ : DifferAt first second item other) : ¬ first <+: second := by
  obtain ⟨different, common, firsts, seconds, rfl, rfl⟩ := differ
  intro goesOn
  obtain ⟨rest, same⟩ := (List.prefix_append_right_inj common).mp goesOn
  exact different (List.cons.inj same).1

/-- One list continues the other, or they differ somewhere. -/
theorem prefix_or_differAt (first second : List α) :
    first <+: second ∨ second <+: first ∨ ∃ item other, DifferAt first second item other := by
  induction first generalizing second with
  | nil => exact .inl List.nil_prefix
  | cons item first ih =>
      cases second with
      | nil => exact .inr (.inl List.nil_prefix)
      | cons next second =>
          by_cases same : item = next
          · subst same
            rcases ih second with shorter | longer | ⟨x, y, differ⟩
            · exact .inl ((List.prefix_cons_inj item).mpr shorter)
            · exact .inr (.inl ((List.prefix_cons_inj item).mpr longer))
            · exact .inr (.inr ⟨x, y, differ.cons item⟩)
          · exact .inr (.inr ⟨item, next, same, [], first, second, rfl, rfl⟩)

theorem DifferAt.unique {first second : List α} {item other next last : α}
    (differ : DifferAt first second item other) (again : DifferAt first second next last) :
    item = next ∧ other = last := by
  obtain ⟨different, common, firsts, seconds, rfl, rfl⟩ := differ
  obtain ⟨otherwise, alike, nexts, lasts, firstEq, secondEq⟩ := again
  induction common generalizing alike with
  | nil =>
      cases alike with
      | nil => exact ⟨(List.cons.inj firstEq).1, (List.cons.inj secondEq).1⟩
      | cons head alike =>
          exact absurd ((List.cons.inj firstEq).1.trans (List.cons.inj secondEq).1.symm) different
  | cons head common ih =>
      cases alike with
      | nil =>
          have same := (List.cons.inj firstEq).1.symm.trans (List.cons.inj secondEq).1
          exact absurd same otherwise
      | cons _ alike => exact ih alike (List.cons.inj firstEq).2 (List.cons.inj secondEq).2

variable [Ord α]

theorem compare_cons_of_ne {first second : α} (firsts seconds : List α)
    (differ : compare first second ≠ .eq) :
    compare (first :: firsts) (second :: seconds) = compare first second := by
  rw [List.compare_cons_cons]
  cases decided : compare first second with
  | lt => rfl
  | gt => rfl
  | eq => exact absurd decided differ

/-- What two lists begin with alike does not matter. -/
theorem compare_append_left [Std.ReflOrd α] (common first second : List α) :
    compare (common ++ first) (common ++ second) = compare first second := by
  induction common with
  | nil => rfl
  | cons item common ih =>
      have same : compare item item = .eq := Std.ReflCmp.compare_self
      rw [List.cons_append, List.cons_append, List.compare_cons_cons, same, ih]
      rfl

/-- A list comes before those that continue it. -/
theorem compare_append_of_ne_nil [Std.ReflOrd α] (first : List α) {later : List α}
    (goesOn : later ≠ []) : compare first (first ++ later) = .lt := by
  obtain ⟨item, items, rfl⟩ := List.exists_cons_of_ne_nil goesOn
  have cancelled := compare_append_left first [] (item :: items)
  rwa [List.append_nil] at cancelled

/-- Of lists that are equally long, what stands behind matters only when they
are alike. -/
theorem compare_append_of_length_eq {first second : List α}
    (lengths : first.length = second.length) (behind other : List α) :
    compare (first ++ behind) (second ++ other) =
      (compare first second).then (compare behind other) := by
  induction first generalizing second with
  | nil =>
      obtain rfl := List.eq_nil_of_length_eq_zero lengths.symm
      rfl
  | cons item first ih =>
      cases second with
      | nil => simp at lengths
      | cons next second =>
          have later : first.length = second.length := by simpa using lengths
          rw [List.cons_append, List.cons_append, List.compare_cons_cons, List.compare_cons_cons,
            ih later]
          cases compare item next <;> rfl

/-- The first difference decides. -/
theorem DifferAt.compare_eq [Std.LawfulEqOrd α] {first second : List α}
    {item other : α} (differ : DifferAt first second item other) :
    compare first second = compare item other := by
  obtain ⟨different, common, firsts, seconds, rfl, rfl⟩ := differ
  rw [compare_append_left]
  exact compare_cons_of_ne _ _ fun same => different (Std.LawfulEqOrd.eq_of_compare same)

/-! ## Digits -/

/-- Octets are compared as numbers. -/
theorem compare_uInt8 (first second : UInt8) :
    compare first second = compare first.toNat second.toNat := by
  rcases Nat.lt_trichotomy first.toNat second.toNat with below | same | above
  · rw [Std.compare_eq_lt.mpr (UInt8.lt_iff_toNat_lt.mpr below), Nat.compare_eq_lt.mpr below]
  · obtain rfl := UInt8.toNat_inj.mp same
    rw [Nat.compare_eq_eq.mpr rfl]
    exact Std.ReflCmp.compare_self
  · rw [Std.compare_eq_gt.mpr (UInt8.lt_iff_toNat_lt.mpr above), Nat.compare_eq_gt.mpr above]

theorem compare_add_left (offset first second : Nat) :
    compare (offset + first) (offset + second) = compare first second := by
  cases decided : compare first second with
  | lt =>
      have := Nat.compare_eq_lt.mp decided
      exact Nat.compare_eq_lt.mpr (by omega)
  | eq =>
      have := Nat.compare_eq_eq.mp decided
      exact Nat.compare_eq_eq.mpr (by omega)
  | gt =>
      have := Nat.compare_eq_gt.mp decided
      exact Nat.compare_eq_gt.mpr (by omega)

/-- Numbers are compared by their digits, the higher ones first. -/
theorem compare_div_then_mod (base first second : Nat) :
    (compare (first / base) (second / base)).then (compare (first % base) (second % base)) =
      compare first second := by
  cases decided : compare (first / base) (second / base) with
  | lt =>
      have less := Nat.lt_of_div_lt_div (Nat.compare_eq_lt.mp decided)
      exact (Nat.compare_eq_lt.mpr less).symm
  | gt =>
      have more := Nat.lt_of_div_lt_div (Nat.compare_eq_gt.mp decided)
      exact (Nat.compare_eq_gt.mpr more).symm
  | eq =>
      have same := Nat.compare_eq_eq.mp decided
      rw [← Nat.div_add_mod first base, ← Nat.div_add_mod second base, same, compare_add_left,
        Nat.mul_add_mod, Nat.mul_add_mod, Nat.mod_mod, Nat.mod_mod]
      rfl

end Numa
