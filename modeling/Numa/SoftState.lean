import Mathlib.Data.List.AList

/-!
# Tables of what was heard

A table keeps what it heard last of every key until that is too old.  It hears
of several keys at once, it may be cleared, and what is too old may be dropped at
any time.  What it holds follows from what it heard.
-/

namespace Numa

/-- Several keys are heard of, the later entries counting, or all is forgotten. -/
inductive News (κ α : Type)
  | heard (entries : List (κ × α))
  | cleared

variable {κ α : Type} [DecidableEq κ]

/-- The last value of a key. -/
def lastOf : List (κ × α) → κ → Option α
  | [], _ => none
  | (found, value) :: later, key =>
    (lastOf later key).or (if found = key then some value else none)

theorem mem_of_lastOf {entries : List (κ × α)} {key : κ} {value : α}
    (last : lastOf entries key = some value) : (key, value) ∈ entries := by
  induction entries with
  | nil => cases last
  | cons entry later ih =>
      rcases Option.or_eq_some_iff.mp last with inLater | ⟨-, here⟩
      · exact List.mem_cons_of_mem _ (ih inLater)
      · split_ifs at here with same
        cases here
        rw [← same]
        exact List.mem_cons_self

theorem lastOf_eq_none_iff {entries : List (κ × α)} {key : κ} :
    lastOf entries key = none ↔ ∀ entry ∈ entries, entry.1 ≠ key := by
  induction entries with
  | nil => simp [lastOf]
  | cons entry later ih =>
      simp only [lastOf, Option.or_eq_none_iff, ih, List.forall_mem_cons, ite_eq_right_iff,
        reduceCtorEq, imp_false]
      exact and_comm

/-- What was heard last of a key, with the latest news in front. -/
def lastNews : List (News κ α) → κ → Option α
  | [], _ => none
  | .cleared :: _, _ => none
  | .heard entries :: earlier, key => (lastOf entries key).or (lastNews earlier key)

/-- The news leave what was heard of a key. -/
def News.Silent (key : κ) : News κ α → Prop
  | heard entries => lastOf entries key = none
  | cleared => False

/-- What was heard last of a key was heard at some point, and nothing came after
that. -/
theorem lastNews_eq_some_iff {news : List (News κ α)} {key : κ} {value : α} :
    lastNews news key = some value ↔ ∃ later entries earlier,
      news = later ++ .heard entries :: earlier ∧ lastOf entries key = some value ∧
        ∀ item ∈ later, item.Silent key := by
  constructor
  · intro isLast
    induction news with
    | nil => cases isLast
    | cons item earlier ih =>
        cases item with
        | cleared => cases isLast
        | heard entries =>
            rcases Option.or_eq_some_iff.mp isLast with here | ⟨silent, before⟩
            · exact ⟨[], entries, earlier, rfl, here, List.forall_mem_nil _⟩
            · obtain ⟨later, found, rest, rfl, last, silentLater⟩ := ih before
              exact ⟨.heard entries :: later, found, rest, rfl, last,
                List.forall_mem_cons.mpr ⟨silent, silentLater⟩⟩
  · rintro ⟨later, entries, earlier, rfl, last, silent⟩
    induction later with
    | nil => rw [List.nil_append, lastNews, last, Option.some_or]
    | cons item later ih =>
        obtain ⟨silentHere, silentLater⟩ := List.forall_mem_cons.mp silent
        cases item with
        | cleared => exact silentHere.elim
        | heard others =>
            have nothing : lastOf others key = none := silentHere
            rw [List.cons_append, lastNews, nothing, Option.none_or]
            exact ih silentLater

/-- Where a key is heard of and nothing is forgotten, it is heard of last there. -/
theorem exists_lastNews_append {recent : List (News κ α)} (earlier : List (News κ α)) {key : κ}
    (heard : ∃ item ∈ recent, ¬ item.Silent key) (kept : ∀ item ∈ recent, item ≠ .cleared) :
    ∃ entries value, .heard entries ∈ recent ∧ lastOf entries key = some value ∧
      lastNews (recent ++ earlier) key = some value := by
  induction recent with
  | nil => simp at heard
  | cons item recent ih =>
      cases item with
      | cleared => exact absurd rfl (kept _ List.mem_cons_self)
      | heard entries =>
          rw [List.cons_append, lastNews]
          cases last : lastOf entries key with
          | some value => exact ⟨entries, value, List.mem_cons_self, last, rfl⟩
          | none =>
              have heardBefore : ∃ item ∈ recent, ¬ item.Silent key := by
                obtain ⟨item, itemMem, notSilent⟩ := heard
                rcases List.mem_cons.mp itemMem with rfl | inRecent
                · exact absurd last notSilent
                · exact ⟨item, inRecent, notSilent⟩
              obtain ⟨found, value, foundMem, isLast, isNews⟩ := ih heardBefore
                fun other otherMem => kept other (List.mem_cons_of_mem _ otherMem)
              exact ⟨found, value, List.mem_cons_of_mem _ foundMem, isLast, isNews⟩

/-! ## Tables -/

abbrev Table (κ α : Type) := AList fun _ : κ => α

namespace Table

/-- The entries are put in one by one. -/
def hear (table : Table κ α) (entries : List (κ × α)) : Table κ α :=
  entries.foldl (fun table entry => table.insert entry.1 entry.2) table

/-- Only some values stay. -/
def retain (keep : α → Bool) (table : Table κ α) : Table κ α where
  entries := table.entries.filter fun entry => keep entry.2
  nodupKeys := table.nodupKeys.sublist List.filter_sublist

theorem lookup_hear (table : Table κ α) (entries : List (κ × α)) (key : κ) :
    (table.hear entries).lookup key = (lastOf entries key).or (table.lookup key) := by
  induction entries generalizing table with
  | nil => rfl
  | cons entry later ih =>
      rw [hear, List.foldl_cons, ← hear, ih, lastOf]
      by_cases same : entry.1 = key
      · rw [if_pos same, ← same, AList.lookup_insert]
        cases lastOf later entry.1 <;> rfl
      · rw [if_neg same, AList.lookup_insert_ne (Ne.symm same), Option.or_none]

theorem lookup_retain_eq_some_iff {keep : α → Bool} {table : Table κ α} {key : κ} {value : α} :
    (table.retain keep).lookup key = some value ↔
      table.lookup key = some value ∧ keep value = true := by
  rw [← Option.mem_def, ← Option.mem_def, AList.mem_lookup_iff, AList.mem_lookup_iff, retain,
    List.mem_filter]

theorem lookup_of_lookup_erase {table : Table κ α} {key other : κ} {value : α}
    (found : (AList.erase key table).lookup other = some value) :
    other ≠ key ∧ table.lookup other = some value := by
  by_cases same : other = key
  · rw [same, AList.lookup_erase] at found
    cases found
  · exact ⟨same, by rwa [AList.lookup_erase_ne same] at found⟩

end Table

/-- A table holds what was heard last of each key, and may have lost what is
expired. -/
structure Remembers (expiry : α → Nat) (now : Nat) (table : Table κ α)
    (news : List (News κ α)) : Prop where
  known {key : κ} {value : α} (found : table.lookup key = some value) :
    lastNews news key = some value
  kept {key : κ} {value : α} (isLast : lastNews news key = some value)
    (fresh : now < expiry value) : table.lookup key = some value

namespace Remembers

variable {expiry : α → Nat} {now : Nat} {table : Table κ α} {news : List (News κ α)}

theorem nil : Remembers expiry now (∅ : Table κ α) ([] : List (News κ α)) where
  known found := by
    rw [AList.lookup_empty] at found
    cases found
  kept isLast _ := nomatch isLast

theorem later {after : Nat} (remembers : Remembers expiry now table news)
    (order : now ≤ after) : Remembers expiry after table news where
  known := remembers.known
  kept isLast fresh := remembers.kept isLast (Nat.lt_of_le_of_lt order fresh)

theorem hear (remembers : Remembers expiry now table news) (entries : List (κ × α)) :
    Remembers expiry now (table.hear entries) (.heard entries :: news) where
  known found := by
    rw [Table.lookup_hear] at found
    rw [lastNews]
    rcases Option.or_eq_some_iff.mp found with last | ⟨silent, before⟩
    · rw [last, Option.some_or]
    · rw [silent, Option.none_or]
      exact remembers.known before
  kept isLast fresh := by
    rw [Table.lookup_hear]
    rcases Option.or_eq_some_iff.mp isLast with last | ⟨silent, before⟩
    · rw [last, Option.some_or]
    · rw [silent, Option.none_or]
      exact remembers.kept before fresh

theorem clear : Remembers expiry now (∅ : Table κ α) (.cleared :: news) where
  known found := by
    rw [AList.lookup_empty] at found
    cases found
  kept isLast _ := nomatch isLast

/-- What is expired may be dropped. -/
theorem drop {less : Table κ α} (remembers : Remembers expiry now table news)
    (from_table : ∀ {key value}, less.lookup key = some value → table.lookup key = some value)
    (stays : ∀ {key value}, table.lookup key = some value → now < expiry value →
      less.lookup key = some value) : Remembers expiry now less news where
  known found := remembers.known (from_table found)
  kept isLast fresh := stays (remembers.kept isLast fresh) fresh

theorem erase (remembers : Remembers expiry now table news) {key : κ}
    (expired : ∀ value, table.lookup key = some value → expiry value ≤ now) :
    Remembers expiry now (table.erase key) news := by
  refine remembers.drop (fun found => (Table.lookup_of_lookup_erase found).2)
    fun {other value} found fresh => ?_
  have different : other ≠ key := by
    rintro rfl
    exact absurd (expired value found) (Nat.not_le.mpr fresh)
  rwa [AList.lookup_erase_ne different]

theorem retain (remembers : Remembers expiry now table news) {keep : α → Bool}
    (keeps : ∀ {key value}, table.lookup key = some value → now < expiry value →
      keep value = true) : Remembers expiry now (table.retain keep) news :=
  remembers.drop (fun found => (Table.lookup_retain_eq_some_iff.mp found).1)
    fun found fresh => Table.lookup_retain_eq_some_iff.mpr ⟨found, keeps found fresh⟩

end Remembers

end Numa
