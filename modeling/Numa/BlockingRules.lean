import Numa.BlocklistRefresh

/-!
# What is blocked

`is_blocked` and `check` decide on a name by the entries that it stands below.
An entry of the allowlist overrules every other entry, and a refresh of the
lists changes nothing for the names below an entry made by hand.
-/

namespace Numa

/-- What `str::to_lowercase` does to ASCII: letters in upper case are lowered
like those in lower case, and a dot at the end stays. -/
structure LowersAscii (toLowercase : Text → Text) : Prop where
  ascii : ∀ name, toLowercase name.toLowercase = toLowercase name
  endDot : ∀ name, toLowercase (name ++ [dot]) = toLowercase name ++ [dot]

/-- The entries of both layers. -/
def PersistedDomainList.domains (list : PersistedDomainList) : Finset Text :=
  list.config ∪ list.user

/-- Does the name stand below an entry, or is it one? -/
def Covered (entries : Finset Text) (name : Text) : Prop :=
  ∃ entry ∈ entries, IsParent entry name

inductive BlockingOperation
  | addToAllowlist (domain : Text)
  | removeFromAllowlist (domain : Text)
  | addToBlocklist (domain : Text)
  | removeFromBlocklist (domain : Text)
  | swapDomains (domains : Finset Text) (sources : List Text)
  | setEnabled (enabled : Bool)
  | pause (secs : Nat)
  | unpause

def BlockingOperation.isSwap : BlockingOperation → Bool
  | .swapDomains .. => true
  | _ => false

namespace BlocklistStore

def new (allowlist manual : PersistedDomainList) : BlocklistStore where
  allowlist := allowlist
  manual := manual

section Run

variable (toLowercase : Text → Text)

/-- The store after an operation at some time; `none` is a panic. -/
def apply (store : BlocklistStore) (now : Nat) : BlockingOperation → Option BlocklistStore
  | .addToAllowlist domain => some (store.addToAllowlist toLowercase domain)
  | .removeFromAllowlist domain => some (store.removeFromAllowlist toLowercase domain)
  | .addToBlocklist domain => some (store.addToBlocklist toLowercase domain)
  | .removeFromBlocklist domain => some (store.removeFromBlocklist toLowercase domain)
  | .swapDomains domains sources => some (store.swapDomains now domains sources)
  | .setEnabled enabled => some (store.setEnabled enabled)
  | .pause secs => store.pause now secs
  | .unpause => some store.unpause

/-- The store after operations at their times. -/
def applyAll (store : BlocklistStore) : List (Nat × BlockingOperation) → Option BlocklistStore
  | [] => some store
  | (now, operation) :: operations => do
    let after ← store.apply toLowercase now operation
    after.applyAll operations

end Run

/-- The result of `check` with what it says about a normalized name. -/
inductive Explains (store : BlocklistStore) (domain : Text) : BlockCheckResult → Prop
  | disabled : Explains store domain ⟨false, "blocking is disabled", none⟩
  | allowedExact (allowed : domain ∈ store.allowlist.domains) :
      Explains store domain ⟨false, "exact match in allowlist", some domain⟩
  | allowedParent (rule : Text) (allowed : rule ∈ store.allowlist.domains)
      (parent : ∃ front, domain = front ++ dot :: rule) :
      Explains store domain ⟨false, "parent domain in allowlist", some rule⟩
  | manual (rule : Text) (blocked : rule ∈ store.manual.domains) (parent : IsParent rule domain) :
      Explains store domain ⟨true, "manually blocked", some rule⟩
  | listedExact (blocked : domain ∈ store.domains) :
      Explains store domain ⟨true, "exact match in blocklist", some domain⟩
  | listedParent (rule : Text) (blocked : rule ∈ store.domains)
      (parent : ∃ front, domain = front ++ dot :: rule) :
      Explains store domain ⟨true, "parent domain in blocklist", some rule⟩
  | notListed : Explains store domain ⟨false, "not in blocklist", none⟩

end BlocklistStore

/-! ## Normalized names -/

theorem LowersAscii.normalize_append_dot {toLowercase : Text → Text}
    (lowers : LowersAscii toLowercase) (name : Text) :
    normalize toLowercase (name ++ [dot]) = normalize toLowercase name := by
  rw [normalize, lowers.endDot, Text.trimEndDots, List.rdropWhile_concat_pos _ _ _ (by simp)]
  rfl

theorem LowersAscii.normalize_trimEndDots {toLowercase : Text → Text}
    (lowers : LowersAscii toLowercase) (name : Text) :
    normalize toLowercase name.trimEndDots = normalize toLowercase name := by
  induction name using List.reverseRecOn with
  | nil => rfl
  | append_singleton front octet ih =>
      by_cases isDot : octet = dot
      · subst isDot
        rw [lowers.normalize_append_dot, ← ih, Text.trimEndDots,
          List.rdropWhile_concat_pos _ _ _ (by simp)]
        rfl
      · rw [Text.trimEndDots, List.rdropWhile_concat_neg _ _ _ (by simpa using isDot)]

/-- Names that differ in ASCII case and in dots at their ends are normalized to
the same name. -/
theorem LowersAscii.normalize_congr {toLowercase : Text → Text}
    (lowers : LowersAscii toLowercase) {first second : Text}
    (alike : first.trimEndDots.eqIgnoreAsciiCase second.trimEndDots = true) :
    normalize toLowercase first = normalize toLowercase second := by
  have same := Text.eqIgnoreAsciiCase_iff.mp alike
  have lowered : ∀ name, normalize toLowercase name.toLowercase = normalize toLowercase name := by
    intro name
    rw [normalize, lowers.ascii]
    rfl
  calc normalize toLowercase first
      = normalize toLowercase first.trimEndDots.toLowercase := by
        rw [lowered, lowers.normalize_trimEndDots]
    _ = normalize toLowercase second.trimEndDots.toLowercase := by rw [same]
    _ = normalize toLowercase second := by rw [lowered, lowers.normalize_trimEndDots]

/-! ## The entries that are found -/

/-- What `find_in_set` finds is an entry that the name stands below. -/
theorem findInSet_eq_some {domain rule : Text} {set : Finset Text}
    (found : findInSet domain set = some rule) : rule ∈ set ∧ IsParent rule domain := by
  unfold findInSet at found
  have inSet := List.find?_some found
  refine ⟨of_decide_eq_true inSet, ?_⟩
  exact (List.mem_cons.mp (List.mem_of_find?_eq_some found)).imp_right mem_behindDots_iff.mp

theorem PersistedDomainList.findNormalized_eq_some {list : PersistedDomainList}
    {domain rule : Text} (found : list.findNormalized domain = some rule) :
    rule ∈ list.domains ∧ IsParent rule domain := by
  rw [findNormalized, Option.or_eq_some_iff] at found
  rcases found with inConfig | ⟨-, inUser⟩
  · exact (findInSet_eq_some inConfig).imp_left (Finset.mem_union_left _)
  · exact (findInSet_eq_some inUser).imp_left (Finset.mem_union_right _)

theorem PersistedDomainList.covered_iff {list : PersistedDomainList} {domain : Text} :
    Covered list.domains domain ↔ (list.findNormalized domain).isSome = true :=
  findNormalized_isSome_iff.symm

namespace BlocklistStore

variable {toLowercase : Text → Text} {store : BlocklistStore}

/-! ## One decision -/

/-- The rules of blocking. -/
theorem isBlocked_eq_true_iff {now : Nat} {domain : Text} :
    store.isBlocked toLowercase now domain = true ↔
      (store.enabled = true ∧ store.isPaused now = false) ∧
        ¬ Covered store.allowlist.domains (normalize toLowercase domain) ∧
        Covered (store.manual.domains ∪ store.domains) (normalize toLowercase domain) := by
  have either : Covered (store.manual.domains ∪ store.domains) (normalize toLowercase domain) ↔
      (store.manual.findNormalized (normalize toLowercase domain)).isSome = true ∨
        (findInSet (normalize toLowercase domain) store.domains).isSome = true := by
    rw [← PersistedDomainList.covered_iff, findInSet_isSome_iff]
    simp only [Covered, Finset.mem_union, or_and_right, exists_or]
  rw [either, PersistedDomainList.covered_iff, isBlocked]
  cases store.enabled with
  | false => simp
  | true =>
      cases store.isPaused now with
      | true => simp
      | false =>
          cases allowed : store.allowlist.findNormalized (normalize toLowercase domain) <;>
            simp [allowed]

/-- `check` explains what `is_blocked` decides. -/
theorem check_explains (now : Nat) (domain : Text) :
    (store.check toLowercase now domain).blocked = store.isBlocked toLowercase now domain ∧
      store.Explains (normalize toLowercase domain) (store.check toLowercase now domain) := by
  by_cases off : store.enabled = false ∨ store.isPaused now = true
  · have checked : store.check toLowercase now domain = ⟨false, "blocking is disabled", none⟩ :=
      if_pos off
    rw [checked]
    refine ⟨?_, .disabled⟩
    rw [eq_comm, ← Bool.not_eq_true, isBlocked_eq_true_iff]
    rcases off with disabled | paused
    · simp [disabled]
    · simp [paused]
  · rw [not_or, Bool.not_eq_false, Bool.not_eq_true] at off
    rw [check, isBlocked, if_neg (by simp [off]), if_neg (by simp [off]), if_neg (by simp [off])]
    dsimp only
    cases allowed : store.allowlist.findNormalized (normalize toLowercase domain) with
    | some rule =>
        obtain ⟨ruleMem, parent⟩ := PersistedDomainList.findNormalized_eq_some allowed
        refine ⟨rfl, ?_⟩
        by_cases exactly : rule = normalize toLowercase domain
        · subst exactly
          simpa using .allowedExact ruleMem
        · simpa [exactly] using .allowedParent rule ruleMem (parent.resolve_left exactly)
    | none =>
        cases manual : store.manual.findNormalized (normalize toLowercase domain) with
        | some rule =>
            obtain ⟨ruleMem, parent⟩ := PersistedDomainList.findNormalized_eq_some manual
            exact ⟨rfl, .manual rule ruleMem parent⟩
        | none =>
            cases listed : findInSet (normalize toLowercase domain) store.domains with
            | some rule =>
                obtain ⟨ruleMem, parent⟩ := findInSet_eq_some listed
                refine ⟨rfl, ?_⟩
                by_cases exactly : rule = normalize toLowercase domain
                · subst exactly
                  simpa using .listedExact ruleMem
                · simpa [exactly] using .listedParent rule ruleMem (parent.resolve_left exactly)
            | none => exact ⟨rfl, .notListed⟩

/-- The decisions depend on the normalized name only. -/
theorem check_congr {first second : Text}
    (same : normalize toLowercase first = normalize toLowercase second) (now : Nat) :
    store.check toLowercase now first = store.check toLowercase now second ∧
      store.isBlocked toLowercase now first = store.isBlocked toLowercase now second := by
  simp only [check, isBlocked, same]
  exact ⟨trivial, trivial⟩

/-! ## Runs -/

/-- Stores that differ in the downloaded lists at most. -/
structure SameByHand (first second : BlocklistStore) : Prop where
  allowlist : first.allowlist = second.allowlist
  manual : first.manual = second.manual
  enabled : first.enabled = second.enabled
  pausedUntil : first.pausedUntil = second.pausedUntil

theorem SameByHand.refl (store : BlocklistStore) : SameByHand store store :=
  ⟨rfl, rfl, rfl, rfl⟩

/-- They decide alike on the names below an entry made by hand. -/
theorem SameByHand.check_eq {other : BlocklistStore} (same : SameByHand store other)
    {domain : Text} (covered : Covered (store.allowlist.domains ∪ store.manual.domains)
      (normalize toLowercase domain)) (now : Nat) :
    store.check toLowercase now domain = other.check toLowercase now domain := by
  have paused : store.isPaused now = other.isPaused now := by
    rw [isPaused, isPaused, same.pausedUntil]
  have found : (store.allowlist.findNormalized (normalize toLowercase domain)).isSome = true ∨
      (store.manual.findNormalized (normalize toLowercase domain)).isSome = true := by
    rw [← PersistedDomainList.covered_iff, ← PersistedDomainList.covered_iff]
    simpa only [Covered, Finset.mem_union, or_and_right, exists_or] using covered
  rw [check, check, ← same.enabled, ← paused, ← same.allowlist, ← same.manual]
  cases allowed : store.allowlist.findNormalized (normalize toLowercase domain) with
  | some rule => simp only [allowed]
  | none =>
      rw [allowed, Option.isSome_none] at found
      obtain ⟨rule, manual⟩ := Option.isSome_iff_exists.mp (found.resolve_left (by simp))
      simp only [allowed, manual]

/-- An operation does the same to the entries made by hand, and a refresh does
nothing to them. -/
theorem SameByHand.apply {other after : BlocklistStore} (same : SameByHand store other)
    {now : Nat} {operation : BlockingOperation}
    (applied : store.apply toLowercase now operation = some after) :
    if operation.isSwap then SameByHand after other
    else ∃ otherAfter, other.apply toLowercase now operation = some otherAfter ∧
      SameByHand after otherAfter := by
  obtain ⟨allowlist, manual, enabled, pausedUntil⟩ := same
  cases operation with
  | swapDomains domains sources =>
      cases applied
      exact ⟨allowlist, manual, enabled, pausedUntil⟩
  | pause secs =>
      obtain ⟨resume, isResume, rfl⟩ := Option.map_eq_some_iff.mp applied
      refine ⟨{ other with pausedUntil := some resume }, ?_, allowlist, manual, enabled, rfl⟩
      rw [BlocklistStore.apply, pause, isResume]
      rfl
  | addToAllowlist domain =>
      cases applied
      exact ⟨_, rfl, by rw [addToAllowlist, addToAllowlist, allowlist], manual, enabled, pausedUntil⟩
  | removeFromAllowlist domain =>
      cases applied
      exact ⟨_, rfl, by rw [removeFromAllowlist, removeFromAllowlist, allowlist], manual, enabled,
        pausedUntil⟩
  | addToBlocklist domain =>
      cases applied
      exact ⟨_, rfl, allowlist, by rw [addToBlocklist, addToBlocklist, manual], enabled, pausedUntil⟩
  | removeFromBlocklist domain =>
      cases applied
      exact ⟨_, rfl, allowlist, by rw [removeFromBlocklist, removeFromBlocklist, manual], enabled,
        pausedUntil⟩
  | setEnabled enabled =>
      cases applied
      exact ⟨_, rfl, allowlist, manual, rfl, pausedUntil⟩
  | unpause =>
      cases applied
      exact ⟨_, rfl, allowlist, manual, enabled, rfl⟩

/-- A run without its refreshes leaves the same entries made by hand. -/
theorem SameByHand.applyAll {other after : BlocklistStore}
    {operations : List (Nat × BlockingOperation)} (same : SameByHand store other)
    (ran : store.applyAll toLowercase operations = some after) :
    ∃ otherAfter, other.applyAll toLowercase
        (operations.filter fun timed => !timed.2.isSwap) = some otherAfter ∧
      SameByHand after otherAfter := by
  induction operations generalizing store other with
  | nil =>
      cases ran
      exact ⟨other, rfl, same⟩
  | cons timed operations ih =>
      obtain ⟨now, operation⟩ := timed
      obtain ⟨middle, applied, rest⟩ := Option.bind_eq_some_iff.mp ran
      have stepped := same.apply applied
      cases isSwap : operation.isSwap with
      | true =>
          rw [isSwap, if_pos rfl] at stepped
          rw [List.filter_cons_of_neg (by simp [isSwap])]
          exact ih stepped rest
      | false =>
          rw [isSwap, if_neg (by simp)] at stepped
          obtain ⟨otherMiddle, otherApplied, sameMiddle⟩ := stepped
          obtain ⟨otherAfter, otherRan, sameAfter⟩ := ih sameMiddle rest
          refine ⟨otherAfter, ?_, sameAfter⟩
          rw [List.filter_cons_of_pos (by simp [isSwap]), BlocklistStore.applyAll, otherApplied]
          exact otherRan

/-- In the store of every run a name is blocked iff blocking is on, it stands
below no entry of the allowlist and below some other entry.  The explanation
agrees and names a rule of the right list, case and dots at the end do not
matter, and without the refreshes of the run the names below entries made by
hand are decided in the same way. -/
theorem blocking_of_run (lowers : LowersAscii toLowercase) {allowlist manual : PersistedDomainList}
    {operations : List (Nat × BlockingOperation)}
    (ran : (new allowlist manual).applyAll toLowercase operations = some store) :
    (∀ now domain, store.isBlocked toLowercase now domain = true ↔
      (store.enabled = true ∧ store.isPaused now = false) ∧
        ¬ Covered store.allowlist.domains (normalize toLowercase domain) ∧
        Covered (store.manual.domains ∪ store.domains) (normalize toLowercase domain)) ∧
    (∀ now domain,
      (store.check toLowercase now domain).blocked = store.isBlocked toLowercase now domain ∧
        store.Explains (normalize toLowercase domain) (store.check toLowercase now domain)) ∧
    (∀ now first second, first.trimEndDots.eqIgnoreAsciiCase second.trimEndDots = true →
      store.check toLowercase now first = store.check toLowercase now second ∧
        store.isBlocked toLowercase now first = store.isBlocked toLowercase now second) ∧
    (∀ time domains sources now domain,
      Covered (store.allowlist.domains ∪ store.manual.domains) (normalize toLowercase domain) →
        (store.swapDomains time domains sources).check toLowercase now domain =
          store.check toLowercase now domain) ∧
    ∃ unswapped, (new allowlist manual).applyAll toLowercase
        (operations.filter fun timed => !timed.2.isSwap) = some unswapped ∧
      ∀ now domain,
        Covered (store.allowlist.domains ∪ store.manual.domains) (normalize toLowercase domain) →
          unswapped.check toLowercase now domain = store.check toLowercase now domain := by
  refine ⟨fun now domain => isBlocked_eq_true_iff, check_explains, ?_, ?_, ?_⟩
  · exact fun now first second alike => check_congr (lowers.normalize_congr alike) now
  · intro time domains sources now domain covered
    have same : SameByHand store (store.swapDomains time domains sources) := ⟨rfl, rfl, rfl, rfl⟩
    exact (same.check_eq covered now).symm
  · obtain ⟨unswapped, ranUnswapped, same⟩ := (SameByHand.refl _).applyAll ran
    exact ⟨unswapped, ranUnswapped, fun now domain covered => (same.check_eq covered now).symm⟩

/-- `to_lowercase` of an ASCII text. -/
theorem lowersAscii_ascii : LowersAscii Text.toLowercase where
  ascii := by
    intro name
    simp only [Text.toLowercase, List.map_map]
    apply List.map_congr_left
    intro octet _
    exact toAsciiLowercase_toAsciiLowercase octet
  endDot := by
    intro name
    rw [Text.toLowercase, List.map_append]
    rfl

/-- A block of a domain under an allowed one. -/
def allowedParentRun : List (Nat × BlockingOperation) :=
  [(1, .swapDomains {text "ads.example.com"} []), (2, .addToAllowlist (text "Example.com.")),
    (3, .addToBlocklist (text "evil.test"))]

theorem blocking_of_run_allowedParentRun :
    ∃ store, (new {} {}).applyAll Text.toLowercase allowedParentRun = some store ∧
      ¬ (store.isBlocked Text.toLowercase 4 (text "ads.example.com") = true) ∧
      store.isBlocked Text.toLowercase 4 (text "www.Evil.test.") = true ∧
      store.Explains (text "ads.example.com")
        (store.check Text.toLowercase 4 (text "ADS.example.com")) := by
  obtain ⟨store, ran⟩ := Option.isSome_iff_exists.mp
    (by decide +kernel :
      ((new {} {}).applyAll Text.toLowercase allowedParentRun).isSome = true)
  obtain ⟨-, explained, alike, -, -⟩ := blocking_of_run lowersAscii_ascii ran
  have decided : ((new {} {}).applyAll Text.toLowercase allowedParentRun).map (fun store =>
      (store.isBlocked Text.toLowercase 4 (text "ads.example.com"),
        store.isBlocked Text.toLowercase 4 (text "www.Evil.test"))) = some (false, true) := by
    decide +kernel
  rw [ran, Option.map_some, Option.some_inj, Prod.mk.injEq] at decided
  refine ⟨store, ran, by simp [decided.1], ?_, ?_⟩
  · rw [(alike 4 _ (text "www.Evil.test") (by decide +kernel)).2]
    exact decided.2
  · exact (explained 4 (text "ADS.example.com")).2

end BlocklistStore

end Numa
