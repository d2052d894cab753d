import Mathlib.Data.Prod.Lex
import Mathlib.Order.WellFounded
import Numa.Interaction

/-!
# Recursive calls

A recursive procedure is given by its body, an interaction that asks for the
results of calls beside other effects.  A machine runs it with a stack of the
callers that wait, one effect at a time.  Where every call of a body is below
the call that the body belongs to, in some well-founded relation, the machine
has no infinite run, whatever the answers are.
-/

namespace Numa

namespace Interaction

variable {E C R α β : Type} {Answer : E → Type}

/-- Calls are answered by results. -/
abbrev CallAnswer (C R : Type) (Answer : E → Type) : E ⊕ C → Type :=
  Sum.elim Answer fun _ => R

/-- A computation that calls. -/
abbrev Calling (C R : Type) (Answer : E → Type) (α : Type) :=
  Interaction (E ⊕ C) (CallAnswer C R Answer) α

/-- A computation that does not call. -/
def lift (C R : Type) (action : Interaction E Answer α) : Calling C R Answer α :=
  match action with
  | done value => .done value
  | ask effect next => .ask (.inl effect) fun answer => (next answer).lift C R

def call (Answer : E → Type) (site : C) : Calling C R Answer R :=
  .ask (.inr site) .done

/-- Whatever the answers are, the calls are good. -/
def CallsIn (good : C → Prop) : Calling C R Answer α → Prop
  | done _ => True
  | ask (.inl _) next => ∀ answer, CallsIn good (next answer)
  | ask (.inr site) next => good site ∧ ∀ result, CallsIn good (next result)

section CallsIn

variable {good : C → Prop}

theorem CallsIn.bind {first : Calling C R Answer α} {next : α → Calling C R Answer β}
    (calls : CallsIn good first) (later : ∀ value, CallsIn good (next value)) :
    CallsIn good (first >>= next) := by
  induction first with
  | done value => exact later value
  | ask effect rest ih =>
      cases effect with
      | inl effect => exact fun answer => ih answer (calls answer)
      | inr site => exact ⟨calls.1, fun result => ih result (calls.2 result)⟩

theorem callsIn_lift (action : Interaction E Answer α) : CallsIn good (action.lift C R) := by
  induction action with
  | done value => trivial
  | ask effect next ih => exact ih

theorem callsIn_call {site : C} (isGood : good site) :
    CallsIn good (call Answer site : Calling C R Answer R) :=
  ⟨isGood, fun _ => trivial⟩

end CallsIn

/-! ## The machine -/

/-- The computation that runs, and the callers that wait for its result. -/
structure CallStack (C R : Type) (Answer : E → Type) where
  running : Calling C R Answer R
  waiting : List (R → Calling C R Answer R)

namespace CallStack

/-- The call alone. -/
def start (Answer : E → Type) (site : C) : CallStack C R Answer where
  running := call Answer site
  waiting := []

/-- One step, and the effect that is asked for in it with its answer. -/
inductive Step (body : C → Calling C R Answer R) :
    CallStack C R Answer → Option (Sigma Answer) → CallStack C R Answer → Prop
  | answer {effect : E} {next : Answer effect → Calling C R Answer R}
      {waiting : List (R → Calling C R Answer R)} (answer : Answer effect) :
      Step body ⟨.ask (.inl effect) next, waiting⟩ (some ⟨effect, answer⟩) ⟨next answer, waiting⟩
  | enter {site : C} {next : R → Calling C R Answer R}
      {waiting : List (R → Calling C R Answer R)} :
      Step body ⟨.ask (.inr site) next, waiting⟩ none ⟨body site, next :: waiting⟩
  | leave {result : R} {next : R → Calling C R Answer R}
      {waiting : List (R → Calling C R Answer R)} :
      Step body ⟨.done result, next :: waiting⟩ none ⟨next result, waiting⟩

/-- Some steps, and what was asked for in them. -/
inductive Steps (body : C → Calling C R Answer R) :
    CallStack C R Answer → List (Sigma Answer) → CallStack C R Answer → Prop
  | refl (stack : CallStack C R Answer) : Steps body stack [] stack
  | step {before between after : CallStack C R Answer} {label : Option (Sigma Answer)}
      {trace : List (Sigma Answer)} (first : Step body before label between)
      (rest : Steps body between trace after) : Steps body before (label.toList ++ trace) after

variable {body : C → Calling C R Answer R}

/-- A stack that cannot go on has come to its end. -/
theorem exists_step_or_done [∀ effect, Nonempty (Answer effect)] (stack : CallStack C R Answer) :
    (∃ label after, Step body stack label after) ∨ ∃ result, stack = ⟨.done result, []⟩ := by
  obtain ⟨running, waiting⟩ := stack
  cases running with
  | done result =>
      cases waiting with
      | nil => exact .inr ⟨result, rfl⟩
      | cons next waiting => exact .inl ⟨_, _, .leave⟩
  | ask effect next =>
      cases effect with
      | inl effect =>
          obtain ⟨answer⟩ := (inferInstance : Nonempty (Answer effect))
          exact .inl ⟨_, _, .answer answer⟩
      | inr site => exact .inl ⟨_, _, .enter⟩

/-! ## Calls of a run -/

/-- The calls that are still to come are good. -/
structure Calls (good : C → Prop) (stack : CallStack C R Answer) : Prop where
  running : CallsIn good stack.running
  waiting : ∀ next ∈ stack.waiting, ∀ result, CallsIn good (next result)

theorem Calls.step {good : C → Prop} (bodies : ∀ site, good site → CallsIn good (body site))
    {before after : CallStack C R Answer} {label : Option (Sigma Answer)}
    (calls : before.Calls good) (step : Step body before label after) : after.Calls good := by
  cases step with
  | answer answer => exact ⟨calls.running answer, calls.waiting⟩
  | enter =>
      obtain ⟨isGood, later⟩ := calls.running
      refine ⟨bodies _ isGood, ?_⟩
      intro next mem
      rcases List.mem_cons.mp mem with rfl | mem
      · exact later
      · exact calls.waiting next mem
  | leave =>
      exact ⟨calls.waiting _ List.mem_cons_self _,
        fun next mem => calls.waiting next (List.mem_cons_of_mem _ mem)⟩

theorem Calls.steps {good : C → Prop} (bodies : ∀ site, good site → CallsIn good (body site))
    {before after : CallStack C R Answer} {trace : List (Sigma Answer)}
    (calls : before.Calls good) (steps : Steps body before trace after) : after.Calls good := by
  induction steps with
  | refl stack => exact calls
  | step first rest ih => exact ih (calls.step bodies first)

/-! ## Termination -/

/-- No infinite run starts here. -/
def Ends (body : C → Calling C R Answer R) (stack : CallStack C R Answer) : Prop :=
  Acc (fun after before => ∃ label, Step body before label after) stack

theorem ends_done {result : R} : Ends body ⟨.done result, []⟩ := by
  constructor
  rintro after ⟨label, step⟩
  cases step

theorem ends_leave {result : R} {next : R → Calling C R Answer R}
    {waiting : List (R → Calling C R Answer R)} (ends : Ends body ⟨next result, waiting⟩) :
    Ends body ⟨.done result, next :: waiting⟩ := by
  constructor
  rintro after ⟨label, step⟩
  cases step
  exact ends

/-- A computation comes to its end when its calls do and those who wait do. -/
theorem ends_of_callsIn {good : C → Prop}
    (bodies : ∀ site, good site → ∀ waiting, (∀ result, Ends body ⟨.done result, waiting⟩) →
      Ends body ⟨body site, waiting⟩)
    {running : Calling C R Answer R} (calls : CallsIn good running)
    {waiting : List (R → Calling C R Answer R)}
    (wait : ∀ result, Ends body ⟨.done result, waiting⟩) : Ends body ⟨running, waiting⟩ := by
  induction running with
  | done result => exact wait result
  | ask effect next ih =>
      cases effect with
      | inl effect =>
          constructor
          rintro after ⟨label, step⟩
          cases step with
          | answer answer => exact ih answer (calls answer)
      | inr site =>
          constructor
          rintro after ⟨label, step⟩
          cases step with
          | enter =>
              apply bodies site calls.1
              intro result
              exact ends_leave (ih result (calls.2 result))

variable {below : C → C → Prop}

/-- A call comes to its end when those who wait for it do. -/
theorem ends_body (wellFounded : WellFounded below)
    (decreases : ∀ site, CallsIn (below · site) (body site)) (site : C)
    (waiting : List (R → Calling C R Answer R))
    (wait : ∀ result, Ends body ⟨.done result, waiting⟩) : Ends body ⟨body site, waiting⟩ := by
  induction site using wellFounded.induction generalizing waiting with
  | _ site ih => exact ends_of_callsIn ih (decreases site) wait

/-- Recursive calls end where every body calls below itself. -/
theorem ends_of_decreases (wellFounded : WellFounded below)
    (decreases : ∀ site, CallsIn (below · site) (body site)) (stack : CallStack C R Answer) :
    Ends body stack := by
  have allCalls : ∀ running : Calling C R Answer R, CallsIn (fun _ => True) running := by
    intro running
    induction running with
    | done result => trivial
    | ask effect next ih =>
        cases effect with
        | inl effect => exact ih
        | inr site => exact ⟨trivial, ih⟩
  have ends : ∀ running waiting, (∀ result, Ends body ⟨.done result, waiting⟩) →
      Ends body ⟨running, waiting⟩ := fun running waiting =>
    ends_of_callsIn (fun site _ => ends_body wellFounded decreases site) (allCalls running)
  obtain ⟨running, waiting⟩ := stack
  apply ends
  induction waiting with
  | nil => exact fun result => ends_done
  | cons next waiting ih => exact fun result => ends_leave (ends _ _ ih)

/-- A stack from which runs end is at the start of no infinite one. -/
theorem Ends.not_exists_run {stack : CallStack C R Answer} (ends : Ends body stack) :
    ¬ ∃ run : Nat → CallStack C R Answer, run 0 = stack ∧
      ∀ n, ∃ label, Step body (run n) label (run (n + 1)) := by
  induction ends with
  | intro stack _ ih =>
      rintro ⟨run, rfl, steps⟩
      exact ih (run 1) (steps 0) ⟨fun n => run (n + 1), rfl, fun n => steps (n + 1)⟩

end CallStack

/-! ## Calls by what they come to -/

/-- The computation with the calls carried out. -/
def interpret (meaning : C → Interaction E Answer R) : Calling C R Answer α → Interaction E Answer α
  | done value => done value
  | ask (.inl effect) next => ask effect fun answer => interpret meaning (next answer)
  | ask (.inr site) next => meaning site >>= fun result => interpret meaning (next result)

section Interpret

variable {meaning : C → Interaction E Answer R}

theorem bind_assoc {γ : Type} (first : Interaction E Answer α)
    (next : α → Interaction E Answer β) (last : β → Interaction E Answer γ) :
    ((first >>= next) >>= last) = first >>= fun value => next value >>= last := by
  induction first with
  | done value => rfl
  | ask effect rest ih =>
      simp only [ask_bind]
      congr 1
      funext answer
      exact ih answer

@[simp]
theorem bind_done (action : Interaction E Answer α) : (action >>= done) = action := by
  induction action with
  | done value => rfl
  | ask effect next ih =>
      rw [ask_bind]
      congr 1
      funext answer
      exact ih answer

@[simp]
theorem interpret_done (value : α) :
    interpret meaning (done value : Calling C R Answer α) = done value :=
  rfl

@[simp]
theorem interpret_bind (first : Calling C R Answer α) (next : α → Calling C R Answer β) :
    interpret meaning (first >>= next) =
      interpret meaning first >>= fun value => interpret meaning (next value) := by
  induction first with
  | done value => rfl
  | ask effect rest ih =>
      cases effect with
      | inl effect =>
          simp only [ask_bind, interpret]
          congr 1
          funext answer
          exact ih answer
      | inr site =>
          simp only [ask_bind, interpret, bind_assoc]
          congr 1
          funext result
          exact ih result

@[simp]
theorem interpret_lift (action : Interaction E Answer α) :
    interpret meaning (action.lift C R) = action := by
  induction action with
  | done value => rfl
  | ask effect next ih =>
      simp only [lift, interpret]
      congr 1
      funext answer
      exact ih answer

@[simp]
theorem interpret_call (site : C) : interpret meaning (call Answer site) = meaning site :=
  bind_done (meaning site)

end Interpret

/-- What a stack comes to. -/
def CallStack.meaning (meaning : C → Interaction E Answer R) (stack : CallStack C R Answer) :
    Interaction E Answer R :=
  stack.waiting.foldl (fun first next => first >>= fun result => interpret meaning (next result))
    (interpret meaning stack.running)

namespace CallStack

section Meaning

variable {meaning : C → Interaction E Answer R} {body : C → Calling C R Answer R} {good : C → Prop}

/-- Those who wait go on where the computation does. -/
theorem foldl_ask (waiting : List (R → Calling C R Answer R)) (effect : E)
    (next : Answer effect → Interaction E Answer R) :
    waiting.foldl (fun first next => first >>= fun result => interpret meaning (next result))
        (.ask effect next) =
      .ask effect fun answer => waiting.foldl
        (fun first next => first >>= fun result => interpret meaning (next result)) (next answer) := by
  induction waiting generalizing next with
  | nil => rfl
  | cons caller waiting ih => exact ih _

theorem meaning_answer (effect : E) (next : Answer effect → Calling C R Answer R)
    (waiting : List (R → Calling C R Answer R)) :
    CallStack.meaning meaning ⟨.ask (.inl effect) next, waiting⟩ =
      .ask effect fun answer => CallStack.meaning meaning ⟨next answer, waiting⟩ :=
  foldl_ask waiting effect _

/-- A call that is entered comes to what its body comes to. -/
theorem meaning_enter {site : C} (solves : meaning site = interpret meaning (body site))
    (next : R → Calling C R Answer R) (waiting : List (R → Calling C R Answer R)) :
    CallStack.meaning meaning ⟨.ask (.inr site) next, waiting⟩ =
      CallStack.meaning meaning ⟨body site, next :: waiting⟩ := by
  simp only [CallStack.meaning, interpret, List.foldl_cons]
  rw [solves]

/-- The next effect of a stack is that of the computation that runs. -/
theorem runs_meaning_answer {effect : E} {next : Answer effect → Calling C R Answer R}
    {waiting : List (R → Calling C R Answer R)} {trace : List (Sigma Answer)} {result : R} :
    (CallStack.meaning meaning ⟨.ask (.inl effect) next, waiting⟩).Runs trace result ↔
      ∃ answer rest, (CallStack.meaning meaning ⟨next answer, waiting⟩).Runs rest result ∧
        trace = ⟨effect, answer⟩ :: rest := by
  rw [meaning_answer, runs_ask_iff]

theorem runs_meaning_enter {site : C} (solves : meaning site = interpret meaning (body site))
    {next : R → Calling C R Answer R} {waiting : List (R → Calling C R Answer R)}
    {trace : List (Sigma Answer)} {result : R} :
    (CallStack.meaning meaning ⟨.ask (.inr site) next, waiting⟩).Runs trace result ↔
      (CallStack.meaning meaning ⟨body site, next :: waiting⟩).Runs trace result := by
  rw [meaning_enter solves]

/-- What the machine asks for and returns is a run of what the stack comes to. -/
theorem runs_of_steps (solves : ∀ site, good site → meaning site = interpret meaning (body site))
    (bodies : ∀ site, good site → CallsIn good (body site)) {stack final : CallStack C R Answer} {trace : List (Sigma Answer)}
    {result : R} (steps : Steps body stack trace final) (isFinal : final = ⟨.done result, []⟩)
    (calls : stack.Calls good) : (stack.meaning meaning).Runs trace result := by
  induction steps with
  | refl stack =>
      subst isFinal
      exact .done result
  | step first rest ih =>
      have later := ih isFinal (calls.step bodies first)
      cases first with
      | answer answer =>
          exact runs_meaning_answer.mpr ⟨answer, _, later, rfl⟩
      | enter =>
          exact (runs_meaning_enter (solves _ calls.running.1)).mpr later
      | leave => exact later

/-- The machine has all the runs of what the stack comes to. -/
theorem steps_of_runs (solves : ∀ site, good site → meaning site = interpret meaning (body site))
    (bodies : ∀ site, good site → CallsIn good (body site)) {stack : CallStack C R Answer} (ends : Ends body stack)
    {trace : List (Sigma Answer)} {result : R} (calls : stack.Calls good)
    (runs : (stack.meaning meaning).Runs trace result) :
    Steps body stack trace ⟨.done result, []⟩ := by
  induction ends generalizing trace with
  | intro stack _ ih =>
      obtain ⟨running, waiting⟩ := stack
      cases running with
      | done value =>
          cases waiting with
          | nil =>
              obtain ⟨rfl, rfl⟩ := runs_done_iff.mp runs
              exact .refl _
          | cons next waiting =>
              have first : Step body ⟨.done value, next :: waiting⟩ none ⟨next value, waiting⟩ :=
                .leave
              exact .step first (ih _ ⟨_, first⟩ (calls.step bodies first) runs)
      | ask effect next =>
          cases effect with
          | inl effect =>
              obtain ⟨answer, rest, later, rfl⟩ := runs_meaning_answer.mp runs
              have first : Step body ⟨.ask (.inl effect) next, waiting⟩ (some ⟨effect, answer⟩)
                  ⟨next answer, waiting⟩ := .answer answer
              exact .step first (ih _ ⟨_, first⟩ (calls.step bodies first) later)
          | inr site =>
              have entered := (runs_meaning_enter (solves site calls.running.1)).mp runs
              have first : Step body ⟨.ask (.inr site) next, waiting⟩ none
                  ⟨body site, next :: waiting⟩ := .enter
              exact .step first (ih _ ⟨_, first⟩ (calls.step bodies first) entered)

end Meaning

end CallStack

end Interaction

end Numa
