import Mathlib.Algebra.GroupWithZero.Nat
import Mathlib.Data.List.AList

/-!
# Maps

Hash maps as association lists without duplicate keys: what `retain` leaves in
a map, and how the sum of a weight over the values of a map changes with the
operations on it.  Over a map of maps the weight is the size of the inner map.
-/

namespace Numa

section Retain

variable {α β : Type} (keep : α → β → Option β)

/-- One entry of a map under the closure of `retain`. -/
def retainEntry (entry : Sigma fun _ : α => β) : Option (Sigma fun _ : α => β) :=
  (keep entry.1 entry.2).map fun value => ⟨entry.1, value⟩

theorem keys_retainEntry_sublist (entries : List (Sigma fun _ : α => β)) :
    (entries.filterMap (retainEntry keep)).keys.Sublist entries.keys := by
  induction entries with
  | nil => simp
  | cons entry entries ih =>
      rw [List.filterMap_cons, List.keys_cons]
      cases kept : keep entry.1 entry.2 with
      | none => simpa [retainEntry, kept] using ih.cons entry.1
      | some value => simpa [retainEntry, kept] using ih.cons_cons entry.1

/-- `HashMap::retain`, with a closure that may change the values it keeps. -/
def retain (map : AList fun _ : α => β) : AList fun _ : α => β where
  entries := map.entries.filterMap (retainEntry keep)
  nodupKeys := (keys_retainEntry_sublist keep map.entries).nodup map.nodupKeys

theorem lookup_retain [DecidableEq α] (map : AList fun _ : α => β) (key : α) :
    (retain keep map).lookup key = (map.lookup key).bind (keep key) := by
  refine Option.ext fun value => ?_
  have memIff := @AList.mem_lookup_iff α (fun _ => β) _ key value (retain keep map)
  rw [Option.mem_def] at memIff
  rw [memIff, retain, List.mem_filterMap, Option.bind_eq_some_iff]
  constructor
  · rintro ⟨⟨other, old⟩, entryMem, kept⟩
    obtain ⟨new, keptOld, same⟩ := Option.map_eq_some_iff.mp kept
    cases same
    exact ⟨old, AList.mem_lookup_iff.mpr entryMem, keptOld⟩
  · rintro ⟨old, found, kept⟩
    exact ⟨⟨key, old⟩, AList.mem_lookup_iff.mp found, by simp [retainEntry, kept]⟩

end Retain

section Weight

variable {α β : Type} (weight : β → Nat)

/-- The sum of the weights of the values in a map. -/
def totalWeight (map : AList fun _ : α => β) : Nat :=
  (map.entries.map fun entry => weight entry.2).sum

/-- A map is emptied of what `retain` drops. -/
theorem totalWeight_retain (keep : α → β → Option β) (map : AList fun _ : α => β) :
    totalWeight weight (retain keep map) =
      (map.entries.map fun entry => ((keep entry.1 entry.2).map weight).getD 0).sum := by
  rw [totalWeight, retain]
  dsimp only
  induction map.entries with
  | nil => rfl
  | cons entry entries ih =>
      rw [List.filterMap_cons, List.map_cons, List.sum_cons, ← ih]
      cases kept : keep entry.1 entry.2 <;> simp [retainEntry, kept]

variable [DecidableEq α]

theorem sum_kerase {entries : List (Sigma fun _ : α => β)} {key : α} {value : β}
    (found : entries.dlookup key = some value) :
    (entries.map fun entry => weight entry.2).sum =
      weight value + ((entries.kerase key).map fun entry => weight entry.2).sum := by
  induction entries with
  | nil => simp at found
  | cons entry entries ih =>
      by_cases same : key = entry.1
      · subst same
        rw [List.dlookup_cons_eq] at found
        cases found
        rw [List.kerase_cons_eq rfl, List.map_cons, List.sum_cons]
      · rw [List.dlookup_cons_ne _ _ same] at found
        rw [List.kerase_cons_ne same, List.map_cons, List.sum_cons, List.map_cons,
          List.sum_cons, ih found]
        omega

/-- Erasing a key takes away the weight of its value. -/
theorem totalWeight_eq_add_erase {map : AList fun _ : α => β} {key : α} {value : β}
    (found : map.lookup key = some value) :
    totalWeight weight map = weight value + totalWeight weight (map.erase key) :=
  sum_kerase weight found

theorem erase_eq_self {map : AList fun _ : α => β} {key : α} (missing : map.lookup key = none) :
    map.erase key = map := by
  have notMem : key ∉ map := AList.lookup_eq_none.mp missing
  exact AList.ext (List.kerase_of_notMem_keys notMem)

theorem totalWeight_insert (map : AList fun _ : α => β) (key : α) (value : β) :
    totalWeight weight (map.insert key value) =
      weight value + totalWeight weight (map.erase key) := by
  rw [totalWeight, AList.entries_insert, List.map_cons, List.sum_cons]
  rfl

/-- The weight of a map is that of the value at a key, if any, and the rest. -/
theorem totalWeight_eq_getD_add_erase (map : AList fun _ : α => β) (key : α) :
    totalWeight weight map =
      ((map.lookup key).map weight).getD 0 + totalWeight weight (map.erase key) := by
  cases found : map.lookup key with
  | none => simp [erase_eq_self found]
  | some value => exact totalWeight_eq_add_erase weight found

theorem length_erase {map : AList fun _ : α => β} {key : α} (mem : key ∈ map) :
    (map.erase key).entries.length + 1 = map.entries.length := by
  have keys : (map.erase key).keys.length + 1 = map.keys.length := by
    rw [AList.keys_erase]
    exact List.length_erase_add_one mem
  simpa [AList.keys, List.keys] using keys

theorem length_insert (map : AList fun _ : α => β) (key : α) (value : β) :
    (map.insert key value).entries.length =
      if key ∈ map then map.entries.length else map.entries.length + 1 := by
  rw [AList.entries_insert, List.length_cons]
  split
  · rename_i mem
    exact length_erase mem
  · rename_i notMem
    rw [List.kerase_of_notMem_keys notMem]

end Weight

end Numa
