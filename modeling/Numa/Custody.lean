import Mathlib.Data.List.Nodup
import Mathlib.Logic.Function.Basic
import Numa.Interaction

/-!
# Things in custody

A list of things of which each has exactly one holder, and the protocol of a
holder, which takes one thing at a time and gives it up before it ends.  What a
holder has in custody shows in its runs: it gives the thing up first, whatever
it is answered.
-/

namespace Numa

/-! ## Holders -/

/-- Every thing in the list has exactly one holder. -/
structure Held {κ ι : Type} (things : List κ) (holds : ι → Option κ) : Prop where
  nodup : things.Nodup
  mem_iff : ∀ thing, thing ∈ things ↔ ∃ holder, holds holder = some thing
  unique : ∀ {first second thing}, holds first = some thing → holds second = some thing →
    first = second

namespace Held

variable {κ ι : Type} [DecidableEq ι] {things : List κ} {holds : ι → Option κ} {holder : ι}
  {thing : κ}

omit [DecidableEq ι] in
theorem nil : Held ([] : List κ) fun _ : ι => none where
  nodup := List.nodup_nil
  mem_iff _ := by simp
  unique := by rintro _ _ _ ⟨⟩

/-- A new thing is taken by a holder of nothing. -/
theorem take (held : Held things holds) (fresh : thing ∉ things) (idle : holds holder = none) :
    Held (thing :: things) (Function.update holds holder (some thing)) := by
  have other : ∀ {found}, found ≠ holder → ∀ {item},
      Function.update holds holder (some thing) found = some item →
      holds found = some item ∧ item ≠ thing := by
    intro found different item isHeld
    rw [Function.update_of_ne different] at isHeld
    refine ⟨isHeld, ?_⟩
    rintro rfl
    exact fresh ((held.mem_iff item).mpr ⟨found, isHeld⟩)
  refine ⟨List.nodup_cons.mpr ⟨fresh, held.nodup⟩, fun item => ?_, ?_⟩
  · rw [List.mem_cons, held.mem_iff]
    constructor
    · rintro (rfl | ⟨found, isHeld⟩)
      · exact ⟨holder, Function.update_self ..⟩
      · have different : found ≠ holder := by
          rintro rfl
          rw [idle] at isHeld
          cases isHeld
        exact ⟨found, by rwa [Function.update_of_ne different]⟩
    · rintro ⟨found, isHeld⟩
      by_cases same : found = holder
      · subst same
        rw [Function.update_self] at isHeld
        exact .inl (Option.some.inj isHeld).symm
      · exact .inr ⟨found, (other same isHeld).1⟩
  · intro first second item isFirst isSecond
    by_cases sameFirst : first = holder <;> by_cases sameSecond : second = holder
    · rw [sameFirst, sameSecond]
    · rw [sameFirst, Function.update_self] at isFirst
      exact absurd (Option.some.inj isFirst).symm (other sameSecond isSecond).2
    · rw [sameSecond, Function.update_self] at isSecond
      exact absurd (Option.some.inj isSecond).symm (other sameFirst isFirst).2
    · exact held.unique (other sameFirst isFirst).1 (other sameSecond isSecond).1

/-- A holder gives its thing up. -/
theorem give [BEq κ] [LawfulBEq κ] (held : Held things holds) (isHeld : holds holder = some thing) :
    Held (things.erase thing) (Function.update holds holder none) := by
  have other : ∀ {found item}, Function.update holds holder none found = some item →
      found ≠ holder ∧ holds found = some item := by
    intro found item isFound
    by_cases same : found = holder
    · rw [same, Function.update_self] at isFound
      cases isFound
    · rw [Function.update_of_ne same] at isFound
      exact ⟨same, isFound⟩
  refine ⟨held.nodup.erase thing, fun item => ?_, ?_⟩
  · rw [held.nodup.mem_erase_iff, held.mem_iff]
    constructor
    · rintro ⟨different, found, isFound⟩
      have notHolder : found ≠ holder := by
        rintro rfl
        exact different (Option.some.inj (isFound.symm.trans isHeld))
      exact ⟨found, by rwa [Function.update_of_ne notHolder]⟩
    · rintro ⟨found, isFound⟩
      obtain ⟨notHolder, isFound⟩ := other isFound
      refine ⟨?_, found, isFound⟩
      rintro rfl
      exact notHolder (held.unique isFound isHeld)
  · intro first second item isFirst isSecond
    exact held.unique (other isFirst).2 (other isSecond).2

/-- A holder passes its thing to a holder of nothing. -/
theorem pass (held : Held things holds) {next : ι} (isHeld : holds holder = some thing)
    (idle : holds next = none) :
    Held things (Function.update (Function.update holds holder none) next (some thing)) := by
  classical
  have gone : thing ∉ things.erase thing := by
    rw [held.nodup.mem_erase_iff]
    exact fun impossible => impossible.1 rfl
  have isMem : thing ∈ things := (held.mem_iff thing).mpr ⟨holder, isHeld⟩
  have idleStill : Function.update holds holder none next = none := by
    by_cases same : next = holder
    · rw [same, Function.update_self]
    · rw [Function.update_of_ne same, idle]
  have passed := (held.give isHeld).take gone idleStill
  refine ⟨held.nodup, fun item => ?_, passed.unique⟩
  rw [← passed.mem_iff, List.mem_cons, held.nodup.mem_erase_iff]
  constructor
  · intro mem
    by_cases same : item = thing
    · exact .inl same
    · exact .inr ⟨same, mem⟩
  · rintro (rfl | ⟨-, mem⟩)
    · exact isMem
    · exact mem

/-- What a holder of nothing is said to hold does not matter elsewhere. -/
theorem update_none (held : Held things holds) (idle : holds holder = none) :
    Held things (Function.update holds holder none) := by
  rwa [← idle, Function.update_eq_self]

end Held

/-- Only some effects may be asked for. -/
def Protocol.only {E : Type} {Answer : E → Type} (quiet : E → Prop) : Protocol E Answer Unit where
  allowed _ effect := quiet effect
  moves _ _ _ _ := True

/-! ## The protocol of a holder -/

/-- Which answers hand a thing over, and which effects give one up. -/
structure Custody (E : Type) (Answer : E → Type) (κ : Type) where
  takes : (effect : E) → Answer effect → Option κ
  gives : E → Option κ
  apart : ∀ {effect thing}, gives effect = some thing → ∀ answer, takes effect answer = none

namespace Custody

variable {E : Type} {Answer : E → Type} {κ α β : Type} (custody : Custody E Answer κ)

/-- What is held after an effect. -/
def next (held : Option κ) (effect : E) (answer : Answer effect) : Option κ :=
  match custody.gives effect with
  | some _ => none
  | none =>
    match custody.takes effect answer with
    | some thing => some thing
    | none => held

/-- Only what is held may be given up, and only then another thing be taken. -/
def protocol : Protocol E Answer (Option κ) where
  allowed held effect :=
    (∀ thing, custody.gives effect = some thing → held = some thing) ∧
      (held ≠ none → ∀ answer, custody.takes effect answer = none)
  moves held effect answer after := after = custody.next held effect answer

/-- The effect has nothing to do with things. -/
def Neutral (effect : E) : Prop :=
  custody.gives effect = none ∧ ∀ answer, custody.takes effect answer = none

/-- From what is held at first, the program gives up what it has taken before it
ends. -/
def Keeps (program : Interaction E Answer α) (held : Option κ) : Prop :=
  program.Obeys custody.protocol (fun after _ => after = none) held

/-- Whatever it is answered, the program gives this thing up first. -/
def WillGive (program : Interaction E Answer α) (thing : κ) : Prop :=
  ∀ trace value, program.Runs trace value → ∃ early effect answer late,
    trace = early ++ ⟨effect, answer⟩ :: late ∧ custody.gives effect = some thing ∧
      ∀ step ∈ early, custody.gives step.1 = none ∧ custody.takes step.1 step.2 = none

variable {custody} {held : Option κ} {effect : E}

theorem Neutral.allowed (neutral : custody.Neutral effect) : custody.protocol.allowed held effect := by
  refine ⟨fun thing given => ?_, fun _ => neutral.2⟩
  rw [neutral.1] at given
  cases given

theorem Neutral.next_eq (neutral : custody.Neutral effect) (answer : Answer effect) :
    custody.next held effect answer = held := by
  rw [next, neutral.1, neutral.2 answer]

theorem Neutral.eq_of_moves {answer : Answer effect} {after : Option κ}
    (neutral : custody.Neutral effect) (moves : custody.protocol.moves held effect answer after) :
    after = held :=
  moves.trans (neutral.next_eq answer)

/-- A neutral effect before a program. -/
theorem Neutral.obeys_ask {post : Option κ → α → Prop} {rest : Answer effect → Interaction E Answer α}
    (neutral : custody.Neutral effect)
    (later : ∀ answer, (rest answer).Obeys custody.protocol post held) :
    (Interaction.ask effect rest).Obeys custody.protocol post held := by
  refine ⟨neutral.allowed, fun answer after moves => ?_⟩
  obtain rfl := neutral.eq_of_moves moves
  exact later answer

/-- A program that only asks for neutral effects leaves alone what is held. -/
theorem obeys_of_only {action : Interaction E Answer α} {quiet : E → Prop}
    (only : action.Obeys (.only quiet) (fun _ _ => True) ())
    (neutral : ∀ effect, quiet effect → custody.Neutral effect) (held : Option κ) :
    action.Obeys custody.protocol (fun after _ => after = held) held := by
  induction action with
  | done value => rfl
  | ask effect rest ih =>
      exact (neutral effect only.1).obeys_ask fun answer => ih answer (only.2 answer () trivial)

theorem Keeps.bind {first : Interaction E Answer α} {rest : α → Interaction E Answer β}
    (keeps : custody.Keeps first held) (later : ∀ value, custody.Keeps (rest value) none) :
    custody.Keeps (first >>= rest) held := by
  refine Interaction.Obeys.bind keeps ?_
  rintro _ value rfl
  exact later value

theorem Keeps.willGive {program : Interaction E Answer α} {thing : κ}
    (keeps : custody.Keeps program (some thing)) : custody.WillGive program thing := by
  intro trace value ran
  induction ran with
  | done value => cases keeps
  | @ask effect rest trace value answer ran ih =>
      obtain ⟨⟨given, taken⟩, later⟩ := keeps
      cases gives : custody.gives effect with
      | some other =>
          cases given other gives
          exact ⟨[], effect, answer, trace, rfl, gives, List.forall_mem_nil _⟩
      | none =>
          have takesNothing := taken (Option.some_ne_none _) answer
          have still : custody.next (some thing) effect answer = some thing := by
            rw [next, gives, takesNothing]
          obtain ⟨early, last, result, late, rfl, isGiven, before⟩ :=
            ih (later answer _ still.symm)
          exact ⟨_ :: early, last, result, late, rfl, isGiven,
            List.forall_mem_cons.mpr ⟨⟨gives, takesNothing⟩, before⟩⟩

/-- What a run gives up first was held at first. -/
theorem Keeps.held_of_gives {program : Interaction E Answer α} {early late : List (Sigma Answer)}
    {answer : Answer effect} {value : α} {thing : κ} (keeps : custody.Keeps program held)
    (ran : program.Runs (early ++ ⟨effect, answer⟩ :: late) value)
    (gives : custody.gives effect = some thing)
    (before : ∀ step ∈ early, custody.gives step.1 = none ∧ custody.takes step.1 step.2 = none) :
    held = some thing := by
  induction early generalizing program with
  | nil =>
      cases ran
      exact keeps.1.1 thing gives
  | cons step early ih =>
      cases ran with
      | @ask first rest _ _ given ran =>
          obtain ⟨⟨givesNone, takesNone⟩, others⟩ := List.forall_mem_cons.mp before
          have still : custody.next held first given = held := by
            rw [next, givesNone, takesNone]
          exact ih (keeps.2 given _ still.symm) ran others

/-- A program that keeps to the protocol gives up first what it holds. -/
theorem Keeps.willGive_iff {program : Interaction E Answer α} {thing : κ}
    (answers : ∀ effect, Answer effect) (keeps : custody.Keeps program held) :
    custody.WillGive program thing ↔ held = some thing := by
  constructor
  · intro willGive
    obtain ⟨trace, value, ran, -⟩ := program.exists_runs (fun _ => answers) []
    obtain ⟨early, effect, answer, late, rfl, gives, before⟩ := willGive trace value ran
    exact keeps.held_of_gives ran gives before
  · rintro rfl
    exact keeps.willGive

end Custody

end Numa
