import Numa.Forward

/-!
# The race of a hedged query

`forward_with_hedging_raw` as it goes from one `select!` to the next.  A select
polls the branches that are not disabled and takes the one that is ready first;
any of them may be.  A future that has been taken must not be polled again, and
a select without a branch panics.
-/

namespace Numa

/-- What a select takes. -/
inductive HedgeEvent (ε ρ : Type)
  | delay
  | primary (result : Except ε ρ)
  | secondary (result : Except ε ρ)

inductive HedgeBranch
  | delay
  | primary
  | secondary
  deriving DecidableEq

/-- Where the call stands. -/
inductive HedgeStage (ε ρ : Type)
  /-- At the select of the first phase. -/
  | beforeDelay
  /-- At the select of the loop, with `primary_err` and `secondary_err`. -/
  | racing (primaryErr secondaryErr : Option ε)
  | returned (result : Except ε ρ)

variable {ε ρ : Type}

def HedgeEvent.branch : HedgeEvent ε ρ → HedgeBranch
  | delay => .delay
  | primary _ => .primary
  | secondary _ => .secondary

namespace HedgeStage

/-- The branches that the select at this point polls. -/
def polled : HedgeStage ε ρ → List HedgeBranch
  | beforeDelay => [.primary, .delay]
  | racing primaryErr secondaryErr =>
    (if primaryErr.isNone then [.primary] else []) ++
      (if secondaryErr.isNone then [.secondary] else [])
  | returned _ => []

/-- The `match` after the select of the loop. -/
def afterSelect (primaryErr secondaryErr : Option ε) : HedgeStage ε ρ :=
  match primaryErr, secondaryErr with
  | some pe, some _ => .returned (.error pe)
  | pe, se => .racing pe se

/-- The select takes a branch; `none` if it does not poll it. -/
def select : HedgeStage ε ρ → HedgeEvent ε ρ → Option (HedgeStage ε ρ)
  | beforeDelay, .primary result => some (.returned result)
  | beforeDelay, .delay => some (.racing none none)
  | racing none secondaryErr, .primary r =>
    match r with
    | .ok resp => some (.returned (.ok resp))
    | .error e =>
      match secondaryErr with
      | some se => some (.returned (.error se))
      | none => some (afterSelect (some e) none)
  | racing primaryErr none, .secondary r =>
    match r with
    | .ok resp => some (.returned (.ok resp))
    | .error e =>
      match primaryErr with
      | some pe => some (.returned (.error pe))
      | none => some (afterSelect none (some e))
  | _, _ => none

/-- The stage after some selects. -/
def run (events : List (HedgeEvent ε ρ)) : Option (HedgeStage ε ρ) :=
  events.foldlM select .beforeDelay

end HedgeStage

/-- Which selects lead where. -/
inductive HedgeCourse : List (HedgeEvent ε ρ) → HedgeStage ε ρ → Prop
  | start : HedgeCourse [] .beforeDelay
  | early (result : Except ε ρ) : HedgeCourse [.primary result] (.returned result)
  | fired : HedgeCourse [.delay] (.racing none none)
  | primaryWins (resp : ρ) : HedgeCourse [.delay, .primary (.ok resp)] (.returned (.ok resp))
  | secondaryWins (resp : ρ) : HedgeCourse [.delay, .secondary (.ok resp)] (.returned (.ok resp))
  | primaryFails (pe : ε) : HedgeCourse [.delay, .primary (.error pe)] (.racing (some pe) none)
  | secondaryFails (se : ε) :
      HedgeCourse [.delay, .secondary (.error se)] (.racing none (some se))
  | secondaryRescues (pe : ε) (resp : ρ) :
      HedgeCourse [.delay, .primary (.error pe), .secondary (.ok resp)] (.returned (.ok resp))
  | primaryRescues (se : ε) (resp : ρ) :
      HedgeCourse [.delay, .secondary (.error se), .primary (.ok resp)] (.returned (.ok resp))
  | primaryFailed (pe se : ε) :
      HedgeCourse [.delay, .primary (.error pe), .secondary (.error se)] (.returned (.error pe))
  | secondaryFailed (pe se : ε) :
      HedgeCourse [.delay, .secondary (.error se), .primary (.error pe)] (.returned (.error se))

/-- One select. -/
theorem HedgeCourse.select {events : List (HedgeEvent ε ρ)} {stage next : HedgeStage ε ρ}
    {event : HedgeEvent ε ρ} (course : HedgeCourse events stage)
    (selects : stage.select event = some next) : HedgeCourse (events ++ [event]) next := by
  cases course with
  | start =>
      cases event with
      | delay =>
          cases selects
          exact .fired
      | primary result =>
          cases selects
          exact .early result
      | secondary result => cases selects
  | fired =>
      cases event with
      | delay => cases selects
      | primary result =>
          cases result with
          | ok resp =>
              cases selects
              exact .primaryWins resp
          | error pe =>
              cases selects
              exact .primaryFails pe
      | secondary result =>
          cases result with
          | ok resp =>
              cases selects
              exact .secondaryWins resp
          | error se =>
              cases selects
              exact .secondaryFails se
  | primaryFails pe =>
      cases event with
      | delay => cases selects
      | primary result => cases selects
      | secondary result =>
          cases result with
          | ok resp =>
              cases selects
              exact .secondaryRescues pe resp
          | error se =>
              cases selects
              exact .primaryFailed pe se
  | secondaryFails se =>
      cases event with
      | delay => cases selects
      | secondary result => cases selects
      | primary result =>
          cases result with
          | ok resp =>
              cases selects
              exact .primaryRescues se resp
          | error pe =>
              cases selects
              exact .secondaryFailed pe se
  | _ => cases selects

/-- A whole race. -/
theorem HedgeStage.course_of_run {events : List (HedgeEvent ε ρ)} {stage : HedgeStage ε ρ}
    (runs : HedgeStage.run events = some stage) : HedgeCourse events stage := by
  induction events using List.reverseRecOn generalizing stage with
  | nil =>
      cases runs
      exact .start
  | append_singleton events event ih =>
      rw [HedgeStage.run, List.foldlM_append] at runs
      obtain ⟨before, earlier, last⟩ := Option.bind_eq_some_iff.mp runs
      have selects : before.select event = some stage := by simpa using last
      exact (ih earlier).select selects

section Course

variable {events : List (HedgeEvent ε ρ)} {stage : HedgeStage ε ρ}

/-- No future is polled that has been taken. -/
theorem HedgeCourse.disjoint_polled (course : HedgeCourse events stage) :
    stage.polled.Disjoint (events.map HedgeEvent.branch) := by
  cases course <;> simp [HedgeStage.polled, HedgeEvent.branch]

theorem HedgeCourse.polled_ne_nil (course : HedgeCourse events stage)
    (goesOn : ∀ result, stage ≠ .returned result) : stage.polled ≠ [] := by
  cases course with
  | start => simp [HedgeStage.polled]
  | fired => simp [HedgeStage.polled]
  | primaryFails pe => simp [HedgeStage.polled]
  | secondaryFails se => simp [HedgeStage.polled]
  | _ => exact absurd rfl (goesOn _)

/-- A select may take any of the branches it polls. -/
theorem HedgeStage.exists_select (stage : HedgeStage ε ρ) {event : HedgeEvent ε ρ}
    (polled : event.branch ∈ stage.polled) : ∃ next, stage.select event = some next := by
  cases stage with
  | beforeDelay =>
      cases event with
      | delay => exact ⟨_, rfl⟩
      | primary result => exact ⟨_, rfl⟩
      | secondary result => simp [HedgeStage.polled, HedgeEvent.branch] at polled
  | racing primaryErr secondaryErr =>
      cases event with
      | delay => cases primaryErr <;> cases secondaryErr <;>
          simp [HedgeStage.polled, HedgeEvent.branch] at polled
      | primary result =>
          cases primaryErr with
          | none => cases result <;> cases secondaryErr <;> exact ⟨_, rfl⟩
          | some pe => cases secondaryErr <;> simp [HedgeStage.polled, HedgeEvent.branch] at polled
      | secondary result =>
          cases secondaryErr with
          | none => cases result <;> cases primaryErr <;> exact ⟨_, rfl⟩
          | some se => cases primaryErr <;> simp [HedgeStage.polled, HedgeEvent.branch] at polled
  | returned result => simp [HedgeStage.polled] at polled

/-- Once the hedge has fired, an error means that both futures have failed. -/
theorem HedgeCourse.failed {error : ε} (course : HedgeCourse events (.returned (.error error)))
    (fired : .delay ∈ events) :
    ∃ pe se, .primary (.error pe) ∈ events ∧ .secondary (.error se) ∈ events ∧
      (error = pe ∨ error = se) := by
  cases course with
  | early => simp at fired
  | primaryFailed pe se => exact ⟨error, se, by simp, by simp, .inl rfl⟩
  | secondaryFailed pe se => exact ⟨pe, error, by simp, by simp, .inr rfl⟩

end Course

/-! ## The race behind the results of two exchanges -/

/-- What the selects take where the exchanges end in an order with some results. -/
def HedgeOrder.events : HedgeOrder → (primary secondary : Except ε ρ) → List (HedgeEvent ε ρ)
  | .beforeDelay, primary, _ => [.primary primary]
  | .primaryFirst, .ok resp, _ => [.delay, .primary (.ok resp)]
  | .primaryFirst, .error pe, secondary => [.delay, .primary (.error pe), .secondary secondary]
  | .secondaryFirst, _, .ok resp => [.delay, .secondary (.ok resp)]
  | .secondaryFirst, primary, .error se => [.delay, .secondary (.error se), .primary primary]

/-- The race returns what `forwardWithHedgingRaw` does. -/
theorem HedgeOrder.run_events (order : HedgeOrder) (primary secondary : Except Unit (List UInt8)) :
    HedgeStage.run (order.events primary secondary) =
      some (.returned (forwardWithHedgingRaw order primary secondary)) := by
  cases order <;> cases primary <;> cases secondary <;> rfl

end Numa
