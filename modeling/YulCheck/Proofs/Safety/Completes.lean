import YulCheck.Proofs.Lexical.Agreement
import YulCheck.Proofs.Safety.Hosts

/-! # Walks that come to an end

`LexicalWalk.Completes` tells that a walk is not broken, whatever is answered to its requests, as long
as names refer to what the environments say, the scopes that are needed are there, and the number of
errors never falls. A run gives such answers if it agrees with the environments and its host touches
the reporter only by reporting. So it ends with a result, or is stopped behind an error.
-/

namespace YulCheck

variable {σ α β : Type}

/-! ### Answers that a run gives -/

/-- Whether a request can be answered in an environment, given the numbers of errors before and
after. -/
def Request.Allows (environment : Environment) (errors : Nat) :
    (request : Request) → request.Answer → (after : Nat) → Prop
  | .lookup _ name, answer, after => answer = environment.lookup? name ∧ after = errors
  | .hasScope _, answer, after | .activate .., answer, after => answer = true ∧ after = errors
  | .errorCount, answer, after => answer = errors ∧ after = errors
  | .report _ diagnostic, _, after =>
    after = if diagnostic.isError then errors + 1 else errors
  | .consult .., _, after => errors ≤ after
  | .bind .., _, after => after = errors
  | .openScope _, _, after | .resumeScope _, _, after | .leaveScope, _, after
  | .warnOnce _, _, after | .noteTypes .., _, after
  | .noteEffects _, _, after => after = errors

theorem Request.Allows.le {environment : Environment} {errors after : Nat} {request : Request}
    {answer : request.Answer} (allows : request.Allows environment errors answer after) :
    errors ≤ after := by
  cases request with
  | lookup | hasScope | activate | errorCount => exact Nat.le_of_eq allows.2.symm
  | openScope | resumeScope | leaveScope | bind | warnOnce | noteTypes | noteEffects =>
    exact Nat.le_of_eq (Eq.symm allows)
  | consult => exact allows
  | report place diagnostic =>
    rw [Allows] at allows
    split at allows <;> omega

namespace Run

/-- Whether a part of a run ends with a property of its result and the number of errors, or is stopped
behind an error. -/
def Ends (errors : Nat) (holds : α → Nat → Prop) : Except Failure α → RunState σ → Prop
  | .ok result, after => holds result after.reporter.errorCount
  | .error _, after => errors < after.reporter.errorCount

variable {host? : Option (Host σ)} {state : RunState σ} {environment : Environment}

theorem exists_consult (orderly : ∀ host ∈ host?, host.IsOrderly) (place : Place)
    (identifier : Identifier) (use : IdentifierUse) :
    ∃ outcome after, consult host? place identifier use state = .ok (outcome, after) ∧
      Ends state.reporter.errorCount (fun _ errors => state.reporter.errorCount ≤ errors) outcome
        after := by
  cases host? with
  | none => exact ⟨_, _, consult_none place identifier use state, Nat.le_refl _⟩
  | some host =>
    rw [consult_some]
    obtain ⟨answer, after, hostState, failures, answered, reports, known⟩ := orderly host rfl
      ⟨identifier, use, (state.facts.scopeOf? (.block place.block)).any
        state.facts.scopes.isInFunction⟩ state.reporter state.hostState
    rw [answered]
    cases answer with
    | ok isKnown => exact ⟨_, _, rfl, reports.errorCount_le⟩
    | error failure =>
      exact ⟨_, _, rfl, reports.errorCount_lt (List.ne_nil_of_mem (known failure rfl))⟩

theorem exists_report (state : RunState σ) (place : Place) (diagnostic : Diagnostic) :
    ∃ outcome after, report place diagnostic state = .ok (outcome, after) ∧
      Ends state.reporter.errorCount (fun _ errors =>
        errors = if diagnostic.isError then state.reporter.errorCount + 1
          else state.reporter.errorCount) outcome after := by
  have count := state.reporter.errorCount_report diagnostic
  rw [report_apply]
  rcases reported : state.reporter.report diagnostic with ⟨failure | _, after⟩
  · exact ⟨_, _, rfl, Reporter.errorCount_lt_of_report reported⟩
  · rw [reported] at count
    exact ⟨_, _, rfl, count⟩

/-- A request that is answered as the environment does is answered as it allows. -/
theorem exists_answer (orderly : ∀ host ∈ host?, host.IsOrderly) {request : Request}
    (answers : environment.Answers state request) :
    ∃ outcome after, answer host? request state = .ok (outcome, after) ∧
      Ends state.reporter.errorCount (request.Allows environment state.reporter.errorCount) outcome
        after := by
  cases request with
  | openScope | resumeScope | leaveScope | bind => exact absurd answers not_false
  | hasScope owner => exact ⟨_, _, rfl, answers, rfl⟩
  | lookup block name =>
    obtain ⟨scope, owned, found⟩ := answers
    rw [answer, lookup_apply, owned]
    exact ⟨_, _, rfl, found, rfl⟩
  | activate owner name =>
    obtain ⟨scope, owned, isBound⟩ := answers
    rw [answer, activate_apply, owned]
    exact ⟨_, _, rfl, isBound, rfl⟩
  | errorCount => exact ⟨_, _, rfl, rfl, rfl⟩
  | report place diagnostic => exact exists_report state place diagnostic
  | warnOnce diagnostic =>
    refine ⟨_, _, rfl, ?_⟩
    show Reporter.errorCount _ = state.reporter.errorCount
    dsimp only
    split
    · rfl
    · exact Reporter.errorCount_reportWarning _ _
  | consult place identifier use => exact exists_consult orderly place identifier use
  | noteTypes | noteEffects => exact ⟨_, _, rfl, rfl⟩

end Run

/-! ### Walks -/

namespace LexicalWalk

/-- Whether a walk that starts with a number of errors comes to an end with a property of its result
and the number of errors, whatever it is answered. -/
def Completes : LexicalWalk α → (errors : Nat) → (holds : α → Nat → Prop) → Prop
  | done result, errors, holds => holds result errors
  | broken _, _, _ => False
  | step environment request next, errors, holds =>
    ∀ answer after, request.Allows environment errors answer after →
      (next answer).Completes after holds

variable {walk : LexicalWalk α} {next : α → LexicalWalk β} {errors : Nat}
  {middle weaker : α → Nat → Prop} {holds : β → Nat → Prop}

theorem Completes.imp (completes : walk.Completes errors middle)
    (implies : ∀ result after, middle result after → weaker result after) :
    walk.Completes errors weaker := by
  induction walk generalizing errors with
  | done result => exact implies _ _ completes
  | broken => exact completes
  | step environment request answered ih =>
    exact fun answer after allows => ih answer (completes answer after allows)

theorem Completes.bind (first : walk.Completes errors middle)
    (rest : ∀ result after, middle result after → (next result).Completes after holds) :
    (walk >>= next).Completes errors holds := by
  induction walk generalizing errors with
  | done result => exact rest result errors first
  | broken => exact first
  | step environment request answered ih =>
    exact fun answer after allows => ih answer (first answer after allows)

/-- The number of errors never falls. -/
theorem Completes.le (completes : walk.Completes errors middle) :
    walk.Completes errors fun result after => errors ≤ after ∧ middle result after := by
  induction walk generalizing errors with
  | done result => exact ⟨Nat.le_refl _, completes⟩
  | broken => exact completes
  | step environment request answered ih =>
    intro answer after allows
    have rest := ih answer (completes answer after allows)
    exact rest.imp fun _ _ later => ⟨Nat.le_trans allows.le later.1, later.2⟩

/-- A walk that comes to an end is carried out to its end, or stopped behind an error. -/
theorem exists_run {host? : Option (Host σ)} (orderly : ∀ host ∈ host?, host.IsOrderly)
    {state : RunState σ} (agrees : walk.Agrees host? state)
    (completes : walk.Completes state.reporter.errorCount middle) :
    ∃ outcome after, walk.erase.run host? state = .ok (outcome, after) ∧
      Run.Ends state.reporter.errorCount middle outcome after := by
  induction walk generalizing state with
  | done result => exact ⟨.ok result, state, rfl, completes⟩
  | broken => exact absurd completes not_false
  | step environment request next ih =>
    obtain ⟨answers, rest⟩ := agrees
    obtain ⟨outcome, between, answered, ends⟩ := Run.exists_answer orderly answers
    rw [erase, Walk.run_step, Run.bind_apply, answered]
    cases outcome with
    | error failure => exact ⟨_, _, rfl, ends⟩
    | ok answer =>
      have ends : request.Allows environment state.reporter.errorCount answer
        between.reporter.errorCount := ends
      obtain ⟨outcome, after, ran, later⟩ :=
        ih answer (rest answer between answered) (completes answer _ ends)
      refine ⟨outcome, after, ran, ?_⟩
      cases outcome with
      | ok result => exact later
      | error failure => exact Nat.lt_of_le_of_lt ends.le later

end LexicalWalk

end YulCheck
