import Mathlib.Data.Finset.Sort
import Numa.Blocklist

/-!
# Persisted domain lists

`PersistedDomainList` of `domain_list.rs` with the file that its runtime
entries are saved to, over runs with restarts.  What the program writes is read
back as it was written.
-/

namespace Numa

/-- A text in lower case stays what it is, also without the dots at its end. -/
structure IsLowercasing (toLowercase : Text → Text) : Prop where
  lowered : ∀ name, toLowercase (toLowercase name).trimEndDots = (toLowercase name).trimEndDots

theorem trimEndDots_trimEndDots (name : Text) : name.trimEndDots.trimEndDots = name.trimEndDots :=
  List.rdropWhile_idempotent _ name

theorem IsLowercasing.normalize_normalize {toLowercase : Text → Text}
    (lowercasing : IsLowercasing toLowercase) (domain : Text) :
    normalize toLowercase (normalize toLowercase domain) = normalize toLowercase domain := by
  rw [normalize, normalize, lowercasing.lowered, trimEndDots_trimEndDots]

/-! ## Suffixes -/

/-- The parent is the name itself or stands behind one of its dots. -/
def IsParent (parent name : Text) : Prop :=
  parent = name ∨ ∃ front, name = front ++ dot :: parent

theorem mem_behindDots_iff {parent name : Text} :
    parent ∈ behindDots name ↔ ∃ front, name = front ++ dot :: parent := by
  induction name with
  | nil => simp [behindDots]
  | cons octet rest ih =>
      constructor
      · intro parentMem
        unfold behindDots at parentMem
        split at parentMem
        · rename_i isDot
          rcases List.mem_cons.mp parentMem with rfl | later
          · exact ⟨[], by rw [isDot, List.nil_append]⟩
          · obtain ⟨front, rfl⟩ := ih.mp later
            exact ⟨octet :: front, rfl⟩
        · obtain ⟨front, rfl⟩ := ih.mp parentMem
          exact ⟨octet :: front, rfl⟩
      · rintro ⟨front, same⟩
        cases front with
        | nil =>
            obtain ⟨rfl, rfl⟩ := List.cons.inj same
            simp [behindDots]
        | cons first front =>
            obtain ⟨rfl, rfl⟩ := List.cons.inj same
            have later := ih.mpr ⟨front, rfl⟩
            unfold behindDots
            split
            · exact List.mem_cons_of_mem _ later
            · exact later

/-- `find_in_set` finds an entry iff one is a parent of the name. -/
theorem findInSet_isSome_iff {domain : Text} {set : Finset Text} :
    (findInSet domain set).isSome = true ↔ ∃ entry ∈ set, IsParent entry domain := by
  rw [findInSet, List.find?_isSome]
  constructor
  · rintro ⟨entry, entryMem, inSet⟩
    refine ⟨entry, of_decide_eq_true inSet, ?_⟩
    exact (List.mem_cons.mp entryMem).imp_right mem_behindDots_iff.mp
  · rintro ⟨entry, inSet, isParent⟩
    refine ⟨entry, ?_, decide_eq_true inSet⟩
    exact List.mem_cons.mpr (isParent.imp_right mem_behindDots_iff.mpr)

/-! ## The list and its file -/

namespace PersistedDomainList

variable (toLowercase : Text → Text)

/-- `insert_from_config`. -/
def insertFromConfig (list : PersistedDomainList) (domain : Text) : PersistedDomainList :=
  { list with config := Insert.insert (normalize toLowercase domain) list.config }

/-- What `load_persisted` does with an entry of the file. -/
def loadEntry (list : PersistedDomainList) (domain : Text) : PersistedDomainList :=
  let domain := normalize toLowercase domain
  if domain ∈ list.config then list else { list with user := Insert.insert domain list.user }

def loadPersisted (list : PersistedDomainList) (stored : List Text) : PersistedDomainList :=
  stored.foldl (loadEntry toLowercase) list

/-- `new`, with what the file holds. -/
def new (configSeeds stored : List Text) : PersistedDomainList :=
  loadPersisted toLowercase (configSeeds.foldl (insertFromConfig toLowercase) {}) stored

/-- What `save` writes. -/
def saved (list : PersistedDomainList) : List Text :=
  list.user.sort (· ≤ ·)

/-- `matches`. -/
def isMatch (list : PersistedDomainList) (qname : Text) : Bool :=
  (list.findNormalized (normalize toLowercase qname)).isSome

/-- `is_config`. -/
def isConfig (list : PersistedDomainList) (domain : Text) : Bool :=
  decide (normalize toLowercase domain ∈ list.config)

/-- `entries`. -/
def entries (list : PersistedDomainList) : List Text :=
  (list.config ∪ list.user).sort (· ≤ ·)

def len (list : PersistedDomainList) : Nat :=
  list.config.card + list.user.card

def isEmpty (list : PersistedDomainList) : Bool :=
  decide (list.config = ∅ ∧ list.user = ∅)

end PersistedDomainList

attribute [ext] PersistedDomainList

namespace PersistedDomainList

variable {toLowercase : Text → Text}

theorem config_foldl_insertFromConfig (configSeeds : List Text) (list : PersistedDomainList) :
    (configSeeds.foldl (insertFromConfig toLowercase) list).config =
      (configSeeds.map (normalize toLowercase)).toFinset ∪ list.config := by
  induction configSeeds generalizing list with
  | nil => simp
  | cons domain configSeeds ih =>
      rw [List.foldl_cons, ih, List.map_cons, List.toFinset_cons]
      ext entry
      simp only [insertFromConfig, Finset.mem_union, Finset.mem_insert]
      tauto

theorem user_foldl_insertFromConfig (configSeeds : List Text) (list : PersistedDomainList) :
    (configSeeds.foldl (insertFromConfig toLowercase) list).user = list.user := by
  induction configSeeds generalizing list with
  | nil => rfl
  | cons domain configSeeds ih => exact ih (list.insertFromConfig toLowercase domain)

theorem config_loadPersisted (list : PersistedDomainList) (stored : List Text) :
    (list.loadPersisted toLowercase stored).config = list.config := by
  induction stored generalizing list with
  | nil => rfl
  | cons domain stored ih =>
      rw [loadPersisted, List.foldl_cons]
      apply (ih _).trans
      unfold loadEntry
      dsimp only
      split <;> rfl

theorem mem_user_loadPersisted (list : PersistedDomainList) (stored : List Text) (entry : Text) :
    entry ∈ (list.loadPersisted toLowercase stored).user ↔
      entry ∈ list.user ∨ entry ∈ stored.map (normalize toLowercase) ∧ entry ∉ list.config := by
  induction stored generalizing list with
  | nil => simp [loadPersisted]
  | cons domain stored ih =>
      rw [loadPersisted, List.foldl_cons, ← loadPersisted, ih, List.map_cons, List.mem_cons]
      unfold loadEntry
      dsimp only
      split
      · rename_i inConfig
        constructor
        · tauto
        · rintro (inUser | ⟨rfl | later, notConfig⟩)
          · exact .inl inUser
          · exact absurd inConfig notConfig
          · exact .inr ⟨later, notConfig⟩
      · rename_i notConfig
        rw [Finset.mem_insert]
        constructor
        · rintro ((rfl | inUser) | later)
          · exact .inr ⟨.inl rfl, notConfig⟩
          · exact .inl inUser
          · exact .inr ⟨.inr later.1, later.2⟩
        · tauto

theorem config_new (configSeeds stored : List Text) :
    (new toLowercase configSeeds stored).config =
      (configSeeds.map (normalize toLowercase)).toFinset := by
  rw [new, config_loadPersisted, config_foldl_insertFromConfig]
  exact Finset.union_empty _

/-- The runtime entries of a new list are those of the file that the
configuration does not have. -/
theorem mem_user_new (configSeeds stored : List Text) (entry : Text) :
    entry ∈ (new toLowercase configSeeds stored).user ↔
      entry ∈ stored.map (normalize toLowercase) ∧
        entry ∉ (configSeeds.map (normalize toLowercase)).toFinset := by
  rw [new, mem_user_loadPersisted, user_foldl_insertFromConfig, config_foldl_insertFromConfig]
  simp

theorem findNormalized_isSome_iff {list : PersistedDomainList} {domain : Text} :
    (list.findNormalized domain).isSome = true ↔
      ∃ entry ∈ list.config ∪ list.user, IsParent entry domain := by
  rw [findNormalized, Option.isSome_or, Bool.or_eq_true, findInSet_isSome_iff,
    findInSet_isSome_iff]
  simp only [Finset.mem_union, or_and_right, exists_or]

/-- Entries are matched by the names below them. -/
theorem isMatch_iff (list : PersistedDomainList) (qname : Text) :
    list.isMatch toLowercase qname = true ↔
      ∃ entry ∈ list.entries, IsParent entry (normalize toLowercase qname) := by
  simp only [isMatch, findNormalized_isSome_iff, entries, Finset.mem_sort]

end PersistedDomainList

/-- A list with what its file holds. -/
structure StoredList where
  list : PersistedDomainList
  stored : List Text

inductive ListOperation
  | insert (domain : Text)
  | remove (domain : Text)
  /-- The program ends and is started again. -/
  | restart

namespace StoredList

variable (toLowercase : Text → Text) (configSeeds : List Text)

def start (stored : List Text) : StoredList where
  list := .new toLowercase configSeeds stored
  stored := stored

/-- The state with another list, saved. -/
def save (list : PersistedDomainList) : StoredList where
  list := list
  stored := list.saved

/-- `insert`, which saves a new entry. -/
def insert (state : StoredList) (domain : Text) : StoredList :=
  if normalize toLowercase domain ∈ state.list.config ∪ state.list.user then state
  else save (state.list.insert toLowercase domain)

/-- `remove`, which saves when there was such an entry. -/
def remove (state : StoredList) (domain : Text) : StoredList :=
  let (list, removed) := state.list.remove toLowercase domain
  if removed then save list else state

def restart (state : StoredList) : StoredList :=
  start toLowercase configSeeds state.stored

def apply (state : StoredList) : ListOperation → StoredList
  | .insert domain => state.insert toLowercase domain
  | .remove domain => state.remove toLowercase domain
  | .restart => state.restart toLowercase configSeeds

def applyAll (state : StoredList) (operations : List ListOperation) : StoredList :=
  operations.foldl (apply toLowercase configSeeds) state

/-! ## Runs -/

variable {toLowercase configSeeds}

/-- The layers are disjoint and normalized, and the file restores them. -/
structure Kept (toLowercase : Text → Text) (configSeeds : List Text) (state : StoredList) :
    Prop where
  config : state.list.config = (configSeeds.map (normalize toLowercase)).toFinset
  user : ∀ entry, entry ∈ state.list.user ↔
    entry ∈ state.stored.map (normalize toLowercase) ∧ entry ∉ state.list.config

theorem kept_start (stored : List Text) :
    (start toLowercase configSeeds stored).Kept toLowercase configSeeds where
  config := PersistedDomainList.config_new configSeeds stored
  user := by
    intro entry
    rw [start, PersistedDomainList.config_new, PersistedDomainList.mem_user_new]

theorem Kept.normalized (lowercasing : IsLowercasing toLowercase) {state : StoredList}
    (kept : state.Kept toLowercase configSeeds) {entry : Text}
    (entryMem : entry ∈ state.list.config ∪ state.list.user) :
    normalize toLowercase entry = entry := by
  have written : ∃ domain, normalize toLowercase domain = entry := by
    rcases Finset.mem_union.mp entryMem with inConfig | inUser
    · rw [kept.config, List.mem_toFinset] at inConfig
      obtain ⟨domain, -, same⟩ := List.mem_map.mp inConfig
      exact ⟨domain, same⟩
    · obtain ⟨domain, -, same⟩ := List.mem_map.mp ((kept.user entry).mp inUser).1
      exact ⟨domain, same⟩
  obtain ⟨domain, rfl⟩ := written
  exact lowercasing.normalize_normalize domain

theorem Kept.disjoint {state : StoredList} (kept : state.Kept toLowercase configSeeds) :
    Disjoint state.list.config state.list.user := by
  rw [Finset.disjoint_right]
  exact fun entry inUser => ((kept.user entry).mp inUser).2

/-- A saved list whose entries are normalized is restored. -/
theorem kept_save {list : PersistedDomainList}
    (config : list.config = (configSeeds.map (normalize toLowercase)).toFinset)
    (disjoint : Disjoint list.config list.user)
    (normalized : ∀ entry ∈ list.user, normalize toLowercase entry = entry) :
    (save list).Kept toLowercase configSeeds where
  config := config
  user := by
    have fixed : ∀ entry ∈ list.saved, normalize toLowercase entry = id entry := by
      intro entry entryMem
      exact normalized entry ((Finset.mem_sort _).mp entryMem)
    have same : list.saved.map (normalize toLowercase) = list.saved := by
      rw [List.map_congr_left fixed, List.map_id]
    intro entry
    rw [save, same, PersistedDomainList.saved, Finset.mem_sort]
    exact ⟨fun inUser => ⟨inUser, Finset.disjoint_right.mp disjoint inUser⟩, And.left⟩

theorem Kept.insert (lowercasing : IsLowercasing toLowercase) {state : StoredList}
    (kept : state.Kept toLowercase configSeeds) (domain : Text) :
    (state.insert toLowercase domain).Kept toLowercase configSeeds := by
  unfold StoredList.insert
  split
  · exact kept
  · rename_i isNew
    rw [Finset.mem_union, not_or] at isNew
    have inserted : state.list.insert toLowercase domain =
        { state.list with user := Insert.insert (normalize toLowercase domain) state.list.user } := by
      rw [PersistedDomainList.insert, if_neg isNew.1]
    rw [inserted]
    apply kept_save
    · exact kept.config
    · rw [Finset.disjoint_insert_right]
      exact ⟨isNew.1, kept.disjoint⟩
    · intro entry entryMem
      rcases Finset.mem_insert.mp entryMem with rfl | inUser
      · exact lowercasing.normalize_normalize domain
      · exact kept.normalized lowercasing (Finset.mem_union_right _ inUser)

theorem Kept.remove (lowercasing : IsLowercasing toLowercase) {state : StoredList}
    (kept : state.Kept toLowercase configSeeds) (domain : Text) :
    (state.remove toLowercase domain).Kept toLowercase configSeeds := by
  unfold StoredList.remove PersistedDomainList.remove
  dsimp only
  split
  · apply kept_save
    · exact kept.config
    · exact kept.disjoint.mono_right (Finset.erase_subset _ _)
    · intro entry entryMem
      have inUser := Finset.mem_of_mem_erase entryMem
      exact kept.normalized lowercasing (Finset.mem_union_right _ inUser)
  · exact kept

theorem Kept.apply (lowercasing : IsLowercasing toLowercase) {state : StoredList}
    (kept : state.Kept toLowercase configSeeds) (operation : ListOperation) :
    (state.apply toLowercase configSeeds operation).Kept toLowercase configSeeds := by
  cases operation with
  | insert domain => exact kept.insert lowercasing domain
  | remove domain => exact kept.remove lowercasing domain
  | restart => exact kept_start state.stored

theorem Kept.applyAll (lowercasing : IsLowercasing toLowercase) {state : StoredList}
    (kept : state.Kept toLowercase configSeeds) (operations : List ListOperation) :
    (state.applyAll toLowercase configSeeds operations).Kept toLowercase configSeeds := by
  induction operations generalizing state with
  | nil => exact kept
  | cons operation operations ih => exact ih (kept.apply lowercasing operation)

theorem Kept.restart {state : StoredList} (kept : state.Kept toLowercase configSeeds) :
    (state.restart toLowercase configSeeds).list = state.list := by
  ext entry
  · rw [kept.config]
    exact Finset.ext_iff.mp (PersistedDomainList.config_new _ _) entry
  · rw [kept.user, kept.config]
    exact PersistedDomainList.mem_user_new _ _ entry

/-- Whatever is inserted, removed and restarted, the two layers are disjoint and
normalized, the configuration stays, the listing is sorted and counted, entries
are matched by the names below them, and a restart changes nothing. -/
theorem layers_of_run (lowercasing : IsLowercasing toLowercase) (configSeeds stored : List Text)
    (operations : List ListOperation) :
    let state := (start toLowercase configSeeds stored).applyAll toLowercase configSeeds operations
    Disjoint state.list.config state.list.user ∧
      (∀ entry ∈ state.list.config ∪ state.list.user, normalize toLowercase entry = entry) ∧
      state.list.config = (configSeeds.map (normalize toLowercase)).toFinset ∧
      (state.list.entries.Pairwise (· < ·) ∧
        ∀ entry, entry ∈ state.list.entries ↔ entry ∈ state.list.config ∪ state.list.user) ∧
      state.list.len = state.list.entries.length ∧
      (∀ qname, state.list.isMatch toLowercase qname = true ↔
        ∃ entry ∈ state.list.entries, IsParent entry (normalize toLowercase qname)) ∧
      (state.restart toLowercase configSeeds).list = state.list := by
  intro state
  have kept : state.Kept toLowercase configSeeds :=
    (kept_start stored).applyAll lowercasing operations
  refine ⟨kept.disjoint, fun entry => kept.normalized lowercasing, kept.config, ⟨?_, ?_⟩, ?_,
    state.list.isMatch_iff, kept.restart⟩
  · have sorted := Finset.pairwise_sort (state.list.config ∪ state.list.user) (· ≤ ·)
    have distinct := Finset.sort_nodup (state.list.config ∪ state.list.user) (· ≤ ·)
    exact (sorted.and distinct).imp fun both => Std.lt_of_le_of_ne both.1 both.2
  · exact fun entry => Finset.mem_sort _
  · rw [PersistedDomainList.entries, Finset.length_sort, Finset.card_union_of_disjoint kept.disjoint]
    rfl

/-- `to_lowercase` of an ASCII text. -/
theorem isLowercasing_ascii : IsLowercasing Text.toLowercase where
  lowered := by
    intro name
    have lowered : ∀ octet ∈ (Text.toLowercase name).trimEndDots,
        toAsciiLowercase octet = id octet := by
      intro octet octetMem
      have isLowered := (List.rdropWhile_prefix _ _).subset octetMem
      obtain ⟨source, -, rfl⟩ := List.mem_map.mp isLowered
      exact toAsciiLowercase_toAsciiLowercase source
    rw [Text.toLowercase, List.map_congr_left lowered, List.map_id]

/-- A runtime entry survives a restart, and removing a configured one does
nothing. -/
theorem layers_of_run_reopened :
    let state := (start Text.toLowercase [text "Corp.example."] [text "nas.lan"]).applyAll
      Text.toLowercase [text "Corp.example."]
      [.insert (text "Router.LAN."), .remove (text "corp.example")]
    (state.restart Text.toLowercase [text "Corp.example."]).list =
        ⟨{text "corp.example"}, {text "nas.lan", text "router.lan"}⟩ ∧
      state.list.entries.length = 3 := by
  obtain ⟨-, -, -, -, counted, -, restarted⟩ :=
    layers_of_run isLowercasing_ascii [text "Corp.example."] [text "nas.lan"]
      [.insert (text "Router.LAN."), .remove (text "corp.example")]
  constructor
  · rw [restarted]
    ext entry
    · exact Finset.ext_iff.mp (by decide +kernel) entry
    · exact Finset.ext_iff.mp (by decide +kernel) entry
  · rw [← counted]
    decide +kernel

end StoredList

end Numa
