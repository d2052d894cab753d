import Mathlib.Algebra.Order.Group.Nat
import Mathlib.Data.List.DropRight
import Mathlib.Tactic.Common

/-!
# Logs whose items are numbered

A log numbers its items from one on and shows the last few of them, newest
first.  A follower remembers the largest number it has seen: it takes in the
items behind that number and counts those that are missing in front of them.
Whatever it polls and whenever, it gets every item once and in order, but for
exactly those it has counted.
-/

namespace Numa

open scoped List

variable {α : Type}

/-- The last items of a log with their numbers, newest first. -/
def newest (count : Nat) (items : List α) : List (α × Nat) :=
  ((items.zipIdx 1).rtake count).reverse

/-- One who polls a log. -/
structure Follower (α : Type) where
  last : Nat
  received : List α
  lost : Nat

namespace Follower

def start : Follower α :=
  ⟨0, [], 0⟩

/-- Take in the items of a page that have not been seen. -/
def takeIn (follower : Follower α) (page : List (α × Nat)) : Follower α :=
  match (page.filter fun item => follower.last < item.2).reverse with
  | [] => follower
  | first :: rest =>
    { last := (rest.getLastD first).2
      received := follower.received ++ (first :: rest).map Prod.fst
      lost := follower.lost + (first.2 - (follower.last + 1)) }

end Follower

/-- What is received are items up to the last number, in their order, and the
others are counted. -/
structure Follows (items : List α) (follower : Follower α) : Prop where
  inside : follower.last ≤ items.length
  inOrder : follower.received <+ items.take follower.last
  counted : follower.received.length + follower.lost = follower.last

/-! ## The end of a log -/

theorem length_rtake (items : List α) (count : Nat) :
    (items.rtake count).length = min count items.length := by
  rw [List.rtake_eq_reverse_take_reverse, List.length_reverse, List.length_take,
    List.length_reverse]

/-- A full window moves on by one item. -/
theorem rtake_concat (items : List α) (item : α) (size : Nat) :
    (if size ≤ (items.rtake (max size 1)).length then (items.rtake (max size 1)).tail
      else items.rtake (max size 1)) ++ [item] = (items ++ [item]).rtake (max size 1) := by
  obtain ⟨rest, sizeEq⟩ : ∃ rest, max size 1 = rest + 1 := ⟨max size 1 - 1, by omega⟩
  rw [sizeEq, List.rtake_concat_succ, length_rtake]
  congr 1
  split
  · rw [List.rtake, List.rtake, List.tail_drop]
    by_cases full : rest < items.length
    · congr 1
      omega
    · rw [Nat.sub_eq_zero_of_le (by omega), Nat.sub_eq_zero_of_le (by omega : items.length ≤ rest)]
      have empty : items = [] := List.eq_nil_of_length_eq_zero (by omega)
      rw [empty]
      rfl
  · rw [List.rtake, List.rtake]
    congr 1
    omega

/-! ## What a follower gets -/

variable {items : List α} {follower : Follower α}

theorem drop_zipIdx (items : List α) (count first : Nat) :
    (items.zipIdx first).drop count = (items.drop count).zipIdx (first + count) := by
  induction count generalizing items first with
  | zero => rfl
  | succ count ih =>
      cases items with
      | nil => simp
      | cons item items =>
          rw [List.zipIdx_cons, List.drop_succ_cons, ih, List.drop_succ_cons]
          congr 1
          omega

theorem filter_zipIdx (items : List α) (last first : Nat) :
    (items.zipIdx first).filter (fun item => last < item.2) =
      (items.zipIdx first).drop (last + 1 - first) := by
  induction items generalizing first with
  | nil => simp
  | cons item items ih =>
      rw [List.zipIdx_cons, List.filter_cons, ih (first + 1)]
      by_cases seen : last < first
      · have none : last + 1 - first = 0 := by omega
        have later : last + 1 - (first + 1) = 0 := by omega
        simp [seen, none, later]
      · have next : last + 1 - first = last + 1 - (first + 1) + 1 := by omega
        simp [seen, next]

/-- The items of a page that are new, oldest first. -/
theorem filter_newest (items : List α) (last count : Nat) :
    ((newest count items).filter fun item => last < item.2).reverse =
      (items.zipIdx 1).drop (max last (items.length - count)) := by
  have unseen := drop_zipIdx items (items.length - count) 1
  rw [newest, List.filter_reverse, List.reverse_reverse, List.rtake, List.length_zipIdx, unseen,
    filter_zipIdx, ← unseen, List.drop_drop]
  congr 1
  omega

/-- A poll brings the follower to the end of the log. -/
theorem takeIn_newest (items : List α) (follower : Follower α) (count : Nat) :
    follower.takeIn (newest count items) =
      if max follower.last (items.length - count) < items.length then
        { last := items.length
          received := follower.received ++ items.drop (max follower.last (items.length - count))
          lost := follower.lost + (max follower.last (items.length - count) - follower.last) }
      else follower := by
  generalize seenEq : max follower.last (items.length - count) = seen
  rw [Follower.takeIn, filter_newest, seenEq, drop_zipIdx]
  by_cases some : seen < items.length
  · obtain ⟨item, rest, split⟩ := List.exists_cons_of_ne_nil
      (List.ne_nil_of_length_pos (by rw [List.length_drop]; omega : 0 < (items.drop seen).length))
    have restLength : rest.length + 1 = items.length - seen := by
      rw [← List.length_drop, split, List.length_cons]
    rw [if_pos some, split, List.zipIdx_cons]
    simp only [List.map_cons, List.zipIdx_map_fst, Follower.mk.injEq, true_and]
    constructor
    · rcases List.eq_nil_or_concat rest with rfl | ⟨front, newestItem, rfl⟩
      · simp at restLength ⊢
        omega
      · simp at restLength ⊢
        omega
    · omega
  · rw [if_neg some, List.drop_eq_nil_of_le (by omega)]
    rfl

theorem follows_start : Follows ([] : List α) .start where
  inside := Nat.zero_le _
  inOrder := .slnil
  counted := rfl

theorem Follows.push (follows : Follows items follower) (item : α) :
    Follows (items ++ [item]) follower where
  inside := by
    rw [List.length_append]
    exact follows.inside.trans (Nat.le_add_right _ _)
  inOrder := by
    rw [List.take_append_of_le_length follows.inside]
    exact follows.inOrder
  counted := follows.counted

theorem Follows.poll (follows : Follows items follower) (count : Nat) :
    Follows items (follower.takeIn (newest count items)) := by
  rw [takeIn_newest]
  split
  · rename_i some
    generalize seenEq : max follower.last (items.length - count) = seen at some
    have behind : follower.last ≤ seen := seenEq ▸ le_max_left _ _
    have counted := follows.counted
    refine ⟨le_rfl, ?_, ?_⟩
    · rw [List.take_length]
      calc
        follower.received ++ items.drop seen <+ items.take follower.last ++ items.drop seen :=
          follows.inOrder.append (.refl _)
        _ <+ items.take follower.last ++ items.drop follower.last :=
          .append (.refl _) (List.drop_sublist_drop_left items behind)
        _ = items := List.take_append_drop _ _
    · simp only [List.length_append, List.length_drop]
      omega
  · exact follows

/-- Whoever polls at least one item is up to date. -/
theorem Follows.upToDate (follows : Follows items follower) {count : Nat} (positive : 0 < count) :
    (follower.takeIn (newest count items)).last = items.length := by
  have inside := follows.inside
  rw [takeIn_newest]
  split
  · rfl
  · omega

/-- A follower that has counted nothing has all items up to its last number. -/
theorem Follows.received_eq (follows : Follows items follower) (nothing : follower.lost = 0) :
    follower.received = items.take follower.last := by
  have counted := follows.counted
  have inside := follows.inside
  refine follows.inOrder.eq_of_length ?_
  rw [List.length_take, Nat.min_eq_left inside]
  omega

end Numa
