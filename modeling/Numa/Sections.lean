import Mathlib.Data.List.Basic
import Mathlib.Data.List.MinMax
import Mathlib.Order.Nat
import Mathlib.Tactic.Common

/-!
# Lines in sections

A reader goes over lines, starts a section at each heading and hands out what
the section before says.  What it hands out in one pass is what the sections
say one by one.  Where the results are sorted by a key, the first match is the
first one of those with the largest key.
-/

namespace Numa

/-- How the lines of a section are read. -/
structure SectionReader (Line Block Out : Type) where
  isHeading : Line → Bool
  empty : Block
  line : Block → Line → Block
  result : Block → Option Out

namespace SectionReader

variable {Line Block Out : Type} (reader : SectionReader Line Block Out)

/-- What a section says. -/
def read (lines : List Line) : Option Out :=
  reader.result (lines.foldl reader.line reader.empty)

def sections (lines : List Line) : List (List Line) :=
  lines.splitOnP reader.isHeading

/-- One step of the pass. -/
def step (state : List Out × Block) (line : Line) : List Out × Block :=
  if reader.isHeading line then (state.1 ++ (reader.result state.2).toList, reader.empty)
  else (state.1, reader.line state.2 line)

/-- What has been handed out at the end. -/
def finish (state : List Out × Block) : List Out :=
  state.1 ++ (reader.result state.2).toList

theorem finish_foldl (lines : List Line) (outs : List Out) (block : Block) :
    reader.finish (lines.foldl reader.step (outs, block)) =
      outs ++ (reader.result
        (((reader.sections lines).headD []).foldl reader.line block)).toList ++
        (reader.sections lines).tail.filterMap reader.read := by
  induction lines generalizing outs block with
  | nil => simp [finish, sections, List.splitOnP_nil]
  | cons line lines ih =>
      obtain ⟨first, rest, split⟩ : ∃ first rest, lines.splitOnP reader.isHeading = first :: rest :=
        List.exists_cons_of_ne_nil (List.splitOnP_ne_nil _ _)
      rw [sections, split] at ih
      cases heading : reader.isHeading line with
      | true =>
          have whole : reader.sections (line :: lines) = [] :: first :: rest := by
            rw [sections, List.splitOnP_cons_eq_if_modifyHead, if_pos heading, split]
          have turned : reader.step (outs, block) line =
              (outs ++ (reader.result block).toList, reader.empty) := by
            rw [step, if_pos heading]
          rw [List.foldl_cons, turned, ih, whole, List.headD_cons, List.headD_cons, List.tail_cons,
            List.tail_cons, List.foldl_nil, List.filterMap_cons, read]
          cases reader.result (first.foldl reader.line reader.empty) <;> simp
      | false =>
          have whole : reader.sections (line :: lines) = (line :: first) :: rest := by
            rw [sections, List.splitOnP_cons_eq_if_modifyHead, if_neg (by simp [heading]), split]
            rfl
          have turned : reader.step (outs, block) line = (outs, reader.line block line) := by
            rw [step, if_neg (by simp [heading])]
          rw [List.foldl_cons, turned, ih, whole]
          rfl

/-- A pass over the lines hands out what the sections say. -/
theorem finish_eq (lines : List Line) :
    reader.finish (lines.foldl reader.step ([], reader.empty)) =
      (reader.sections lines).filterMap reader.read := by
  obtain ⟨first, rest, split⟩ : ∃ first rest, reader.sections lines = first :: rest :=
    List.exists_cons_of_ne_nil (List.splitOnP_ne_nil _ _)
  rw [finish_foldl, split, List.headD_cons, List.tail_cons, List.filterMap_cons, read]
  cases reader.result (first.foldl reader.line reader.empty) <;> simp

end SectionReader

/-! ## Stable sorting -/

section Sorted

variable {α : Type} (key : α → Nat)

/-- `sort_by_key` with `Reverse`, which is stable. -/
def sortByLargest (items : List α) : List α :=
  items.mergeSort fun first second => decide (key second ≤ key first)

theorem larger_trans (first second third : α) (firstLarger : decide (key second ≤ key first) = true)
    (secondLarger : decide (key third ≤ key second) = true) :
    decide (key third ≤ key first) = true :=
  decide_eq_true (Nat.le_trans (of_decide_eq_true secondLarger) (of_decide_eq_true firstLarger))

theorem larger_total (first second : α) :
    (decide (key second ≤ key first) || decide (key first ≤ key second)) = true := by
  rw [Bool.or_eq_true, decide_eq_true_eq, decide_eq_true_eq]
  exact Nat.le_total _ _

theorem sortByLargest_perm (items : List α) : (sortByLargest key items).Perm items :=
  List.mergeSort_perm items _

/-- Items with one key stay in their order. -/
theorem filter_sortByLargest (items : List α) (value : Nat) :
    (sortByLargest key items).filter (fun item => decide (key item = value)) =
      items.filter fun item => decide (key item = value) := by
  have ordered : (items.filter fun item => decide (key item = value)).Pairwise
      fun first second => decide (key second ≤ key first) = true := by
    rw [List.pairwise_filter]
    refine List.pairwise_of_forall fun first second firstIs secondIs => ?_
    rw [of_decide_eq_true firstIs, of_decide_eq_true secondIs]
    exact decide_eq_true (Nat.le_refl value)
  have kept : List.Sublist (items.filter fun item => decide (key item = value))
      (sortByLargest key items) :=
    List.sublist_mergeSort (larger_trans key) (larger_total key) ordered List.filter_sublist
  have inside := kept.filter fun item => decide (key item = value)
  simp only [List.filter_filter, Bool.and_self] at inside
  exact (inside.eq_of_length (((sortByLargest_perm key items).filter _).length_eq).symm).symm

variable {key}

/-- What is found first is the first one of those with the largest key. -/
theorem find?_sortByLargest {items : List α} {p : α → Bool} {found : α}
    (isFound : (sortByLargest key items).find? p = some found) :
    (items.filter fun item => decide (key item = key found)).find? p = some found ∧
      ∀ other ∈ items, p other = true → key other ≤ key found := by
  obtain ⟨holds, front, back, split, others⟩ := List.find?_eq_some_iff_append.mp isFound
  constructor
  · rw [← filter_sortByLargest, List.find?_filter, List.find?_eq_some_iff_append]
    refine ⟨by simp [holds], front, back, split, fun other mem => ?_⟩
    have fails := others other mem
    simp only [Bool.not_eq_true'] at fails
    simp [fails]
  · intro other mem otherHolds
    have ordered : (sortByLargest key items).Pairwise
        fun first second => decide (key second ≤ key first) = true :=
      List.pairwise_mergeSort (larger_trans key) (larger_total key) items
    rw [split, List.pairwise_append, List.pairwise_cons] at ordered
    have inSorted := (sortByLargest_perm key items).mem_iff.mpr mem
    rw [split, List.mem_append, List.mem_cons] at inSorted
    rcases inSorted with inFront | rfl | inBack
    · have fails := others other inFront
      rw [otherHolds] at fails
      cases fails
    · exact Nat.le_refl _
    · exact of_decide_eq_true (ordered.2.1.1 other inBack)

/-- The first of those with the largest key. -/
theorem argmax_eq_of_head? {items : List α} {item : α}
    (isFirst : (items.filter fun other => decide (key other = key item)).head? = some item)
    (isLargest : ∀ other ∈ items, key other ≤ key item) : items.argmax key = some item := by
  induction items with
  | nil => simp at isFirst
  | cons first items ih =>
      have later := fun other mem => isLargest other (List.mem_cons_of_mem first mem)
      rw [List.argmax_cons]
      by_cases same : key first = key item
      · rw [List.filter_cons_of_pos (by simpa using same), List.head?_cons,
          Option.some.injEq] at isFirst
        subst isFirst
        cases largest : items.argmax key with
        | none => rfl
        | some other =>
            exact if_neg (Nat.not_lt.mpr (later other (List.argmax_mem largest)))
      · rw [List.filter_cons_of_neg (by simpa using same)] at isFirst
        rw [ih isFirst later]
        have atMost := isLargest first List.mem_cons_self
        exact if_pos (by omega)

/-- The first match of the sorted items is the match with the largest key. -/
theorem find?_sortByLargest_eq_argmax (items : List α) (p : α → Bool) :
    (sortByLargest key items).find? p = (items.filter p).argmax key := by
  cases search : (sortByLargest key items).find? p with
  | none =>
      rw [List.find?_eq_none] at search
      have noMatch : items.filter p = [] := List.filter_eq_nil_iff.mpr fun item mem =>
        search item ((sortByLargest_perm key items).mem_iff.mpr mem)
      rw [noMatch, List.argmax_nil]
  | some found =>
      obtain ⟨isFirst, isLargest⟩ := find?_sortByLargest search
      refine (argmax_eq_of_head? ?_ fun other mem => ?_).symm
      · rw [← isFirst, List.filter_filter, ← List.head?_filter, List.filter_filter]
        congr 2
        funext item
        exact Bool.and_comm _ _
      · obtain ⟨inItems, holds⟩ := List.mem_filter.mp mem
        exact isLargest other inItems holds

end Sorted

end Numa
