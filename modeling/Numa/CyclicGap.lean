import Mathlib.Data.List.Rotate
import Mathlib.Tactic.Common

/-!
# Gaps of a sorted cycle

A strictly sorted list closed to a cycle links every element to the next one
and the last to the first.  A value strictly between the two ends of a link, in
the cyclic sense, is not in the list.
-/

namespace Numa

variable {α : Type} (cmp : α → α → Ordering)

/-- Is the item strictly between the two ends, going up from the first and past
the largest value if the last is not above the first? -/
def inGap (first last item : α) : Bool :=
  if cmp first last = .lt then cmp item first == .gt && cmp item last == .lt
  else cmp item first == .gt || cmp item last == .lt

/-- The list is strictly sorted. -/
def StrictlySorted (cycle : List α) : Prop :=
  cycle.Pairwise fun first second => cmp first second = .lt

/-- The largest element that is not above the item. -/
def IsFloor (cycle : List α) (item floor : α) : Prop :=
  floor ∈ cycle ∧ (cmp floor item).isLE = true ∧
    ∀ other ∈ cycle, (cmp other item).isLE = true → (cmp other floor).isLE = true

/-- The second element follows the first on the cycle. -/
def Linked (cycle : List α) (first last : α) : Prop :=
  (first, last) ∈ cycle.zip (cycle.rotate 1)

instance [DecidableEq α] (cycle : List α) (first last : α) :
    Decidable (Linked cycle first last) :=
  inferInstanceAs (Decidable ((first, last) ∈ cycle.zip (cycle.rotate 1)))

instance (cycle : List α) : Decidable (StrictlySorted cmp cycle) :=
  inferInstanceAs (Decidable (cycle.Pairwise fun first second => cmp first second = .lt))

instance [DecidableEq α] (cycle : List α) (item floor : α) :
    Decidable (IsFloor cmp cycle item floor) :=
  inferInstanceAs (Decidable (floor ∈ cycle ∧ (cmp floor item).isLE = true ∧
    ∀ other ∈ cycle, (cmp other item).isLE = true → (cmp other floor).isLE = true))

variable {cmp} {cycle : List α} {first last item : α}

theorem Linked.left_mem (linked : Linked cycle first last) : first ∈ cycle :=
  (List.of_mem_zip linked).1

theorem Linked.right_mem (linked : Linked cycle first last) : last ∈ cycle :=
  List.mem_rotate.mp (List.of_mem_zip linked).2

theorem Linked.exists_index (linked : Linked cycle first last) :
    ∃ (index : Nat) (bound : index < cycle.length), first = cycle.get ⟨index, bound⟩ ∧
      last = cycle.get ⟨(index + 1) % cycle.length, Nat.mod_lt _ (by omega)⟩ := by
  obtain ⟨index, bound, pair⟩ := List.mem_iff_getElem.mp linked
  have inCycle : index < cycle.length := by
    simp only [List.length_zip, List.length_rotate] at bound
    omega
  rw [List.getElem_zip, Prod.mk.injEq, List.getElem_rotate] at pair
  exact ⟨index, inCycle, pair.1.symm, pair.2.symm⟩

section Ordered

variable [Std.TransCmp cmp]

theorem StrictlySorted.index_lt (sorted : StrictlySorted cmp cycle) {low high : Nat}
    (lowBound : low < cycle.length) (highBound : high < cycle.length)
    (below : cmp (cycle.get ⟨low, lowBound⟩) (cycle.get ⟨high, highBound⟩) = .lt) :
    low < high := by
  rcases Nat.lt_trichotomy low high with less | rfl | greater
  · exact less
  · exact absurd below (by simp [Std.ReflCmp.compare_self])
  · have above := List.pairwise_iff_getElem.mp sorted high low highBound lowBound greater
    exact absurd below (Std.OrientedCmp.not_lt_of_lt above)

/-- No element of a sorted cycle lies in the gap of one of its links. -/
theorem Linked.not_mem_of_inGap (linked : Linked cycle first last)
    (sorted : StrictlySorted cmp cycle) (gap : inGap cmp first last item = true) :
    item ∉ cycle := by
  intro itemMem
  obtain ⟨index, bound, rfl, rfl⟩ := linked.exists_index
  obtain ⟨place, placeBound, rfl⟩ := List.mem_iff_getElem.mp itemMem
  have nextBound : (index + 1) % cycle.length < cycle.length := Nat.mod_lt _ (by omega)
  have aboveFirst : cmp cycle[place] (cycle.get ⟨index, bound⟩) = .gt → index < place :=
    fun greater => sorted.index_lt bound placeBound (Std.OrientedCmp.gt_iff_lt.mp greater)
  have belowLast : cmp cycle[place] (cycle.get ⟨(index + 1) % cycle.length, nextBound⟩) = .lt →
      place < (index + 1) % cycle.length :=
    sorted.index_lt placeBound nextBound
  unfold inGap at gap
  split at gap
  · simp only [Bool.and_eq_true, beq_iff_eq] at gap
    have := aboveFirst gap.1
    have := belowLast gap.2
    have := Nat.mod_le (index + 1) cycle.length
    omega
  · rename_i wraps
    have lastIndex : index + 1 = cycle.length := by
      by_contra notLast
      have inside : index + 1 < cycle.length := by omega
      refine wraps ?_
      simp only [Nat.mod_eq_of_lt inside]
      exact List.pairwise_iff_getElem.mp sorted index (index + 1) bound inside (by omega)
    simp only [Bool.or_eq_true, beq_iff_eq] at gap
    rcases gap with above | below
    · have := aboveFirst above
      omega
    · have := belowLast below
      rw [lastIndex, Nat.mod_self] at this
      omega

/-! ## Floors -/

theorem isLE_or_gt (first second : α) :
    (cmp first second).isLE = true ∨ cmp second first = .lt := by
  by_cases below : (cmp first second).isLE = true
  · exact .inl below
  · exact .inr (Std.OrientedCmp.lt_of_not_isLE below)

theorem exists_isFloor (some : ∃ other ∈ cycle, (cmp other item).isLE = true) :
    ∃ floor, IsFloor cmp cycle item floor := by
  induction cycle with
  | nil =>
      obtain ⟨_, otherMem, -⟩ := some
      cases otherMem
  | cons head rest ih =>
      by_cases restSome : ∃ other ∈ rest, (cmp other item).isLE = true
      · obtain ⟨floor, floorMem, floorBelow, greatest⟩ := ih restSome
        by_cases better : (cmp head item).isLE = true ∧ cmp floor head = .lt
        · refine ⟨head, List.mem_cons_self, better.1, ?_⟩
          intro other otherMem otherBelow
          rcases List.mem_cons.mp otherMem with rfl | inRest
          · simp [Std.ReflCmp.compare_self]
          · exact Std.TransCmp.isLE_trans (greatest other inRest otherBelow)
              (Ordering.isLE_of_eq_lt better.2)
        · refine ⟨floor, List.mem_cons_of_mem _ floorMem, floorBelow, ?_⟩
          intro other otherMem otherBelow
          rcases List.mem_cons.mp otherMem with rfl | inRest
          · exact (isLE_or_gt other floor).resolve_right fun above => better ⟨otherBelow, above⟩
          · exact greatest other inRest otherBelow
      · obtain ⟨other, otherMem, otherBelow⟩ := some
        have none : ∀ later ∈ rest, ¬ (cmp later item).isLE = true :=
          fun later laterMem laterBelow => restSome ⟨later, laterMem, laterBelow⟩
        rcases List.mem_cons.mp otherMem with rfl | inRest
        · refine ⟨other, List.mem_cons_self, otherBelow, ?_⟩
          intro later laterMem laterBelow
          rcases List.mem_cons.mp laterMem with rfl | inRest
          · simp [Std.ReflCmp.compare_self]
          · exact absurd laterBelow (none later inRest)
        · exact absurd otherBelow (none other inRest)

theorem IsFloor.unique [Std.LawfulEqCmp cmp] {floor other : α}
    (isFloor : IsFloor cmp cycle item floor) (isOther : IsFloor cmp cycle item other) :
    floor = other := by
  have below := isOther.2.2 floor isFloor.1 isFloor.2.1
  have above := isFloor.2.2 other isOther.1 isOther.2.1
  exact Std.LawfulEqCmp.eq_of_compare (Std.OrientedCmp.isLE_antisymm below above)

theorem isFloor_self (itemMem : item ∈ cycle) : IsFloor cmp cycle item item :=
  ⟨itemMem, by simp [Std.ReflCmp.compare_self], fun _ _ below => below⟩

/-- The first end of a link is the floor of the items in its gap, and of its
own. -/
theorem Linked.isFloor_iff (linked : Linked cycle first last)
    (sorted : StrictlySorted cmp cycle) (some : ∃ other ∈ cycle, (cmp other item).isLE = true) :
    IsFloor cmp cycle item first ↔
      cmp first item = .eq ∨ inGap cmp first last item = true := by
  have outside : ∀ other ∈ cycle, ¬ inGap cmp first last other = true :=
    fun other otherMem gap => linked.not_mem_of_inGap sorted gap otherMem
  constructor
  · rintro ⟨-, below, greatest⟩
    cases compared : cmp first item with
    | eq => exact .inl rfl
    | gt => simp [compared] at below
    | lt =>
        right
        have above : cmp item first = .gt := Std.OrientedCmp.gt_of_lt compared
        unfold inGap
        split
        · rename_i increases
          have inside : cmp item last = .lt := by
            rcases (isLE_or_gt last item : (cmp _ _).isLE = true ∨ _) with lastBelow | lastAbove
            · have back := greatest last linked.right_mem lastBelow
              exact absurd increases (Std.OrientedCmp.not_lt_of_isLE back)
            · exact lastAbove
          simp [above, inside]
        · simp [above]
  · intro either
    refine ⟨linked.left_mem, ?_, ?_⟩
    · rcases either with same | gap
      · simp [same]
      · by_contra notBelow
        have below := Std.OrientedCmp.lt_of_not_isLE notBelow
        have notAbove : cmp item first ≠ .gt := by simp [below]
        unfold inGap at gap
        split at gap
        · simp [notAbove] at gap
        · rename_i wraps
          -- Something is not above the item, so it is in the gap as well.
          obtain ⟨other, otherMem, otherBelow⟩ := some
          have itemBelow : cmp item last = .lt := by simpa [notAbove] using gap
          apply outside other otherMem
          simp [inGap, wraps, Std.TransCmp.lt_of_isLE_of_lt otherBelow itemBelow]
    · intro other otherMem otherBelow
      rcases (isLE_or_gt other first : (cmp _ _).isLE = true ∨ _) with below | above
      · exact below
      · have otherAbove : cmp other first = .gt := Std.OrientedCmp.gt_of_lt above
        rcases either with same | gap
        · have itemBelow : cmp first other = .lt → False := by
            intro less
            have := Std.TransCmp.lt_of_lt_of_isLE less otherBelow
            simp [same] at this
          exact (itemBelow above).elim
        · exfalso
          apply outside other otherMem
          unfold inGap at gap ⊢
          split
          · rename_i increases
            rw [if_pos increases] at gap
            simp only [Bool.and_eq_true, beq_iff_eq] at gap
            simp [otherAbove, Std.TransCmp.lt_of_isLE_of_lt otherBelow gap.2]
          · simp [otherAbove]

end Ordered

end Numa
