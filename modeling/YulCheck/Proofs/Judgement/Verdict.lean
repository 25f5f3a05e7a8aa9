import YulCheck.Proofs.Lexical.Agreement

/-! # Verdicts

What becomes of a lexical walk without a host, up to its first error: it is accepted with a result
and the types that it notes, or rejected, or broken by a fault. A verdict needs no state, only the
environments. `verdict_of_agrees` tells that a run that agrees with its environments comes to the
verdict: it reports no error if the walk is accepted, and at least one if it is rejected.
-/

namespace YulCheck

variable {σ α β : Type}

/-- What becomes of a walk up to its first error. -/
inductive Verdict (α : Type)
  /-- The walk ends without an error. The types are those that it notes, in their order. -/
  | accepted (result : α) (notes : List (NodeId × List TypeHandle))
  /-- The walk reports an error. -/
  | rejected
  /-- The walk cannot go on. -/
  | broken (fault : Fault)

namespace Verdict

/-- One part of a walk after another. -/
def bind : Verdict α → (α → Verdict β) → Verdict β
  | accepted result notes, next =>
    match next result with
    | accepted last more => accepted last (notes ++ more)
    | rejected => rejected
    | broken fault => broken fault
  | rejected, _ => rejected
  | broken fault, _ => broken fault

@[simp]
theorem accepted_bind (result : α) (next : α → Verdict β) :
    (accepted result []).bind next = next result := by
  rw [bind]
  cases next result <;> rfl

theorem exists_of_bind_accepted {verdict : Verdict α} {next : α → Verdict β} {last : β}
    {notes : List (NodeId × List TypeHandle)} (accepts : verdict.bind next = accepted last notes) :
    ∃ result first more, verdict = accepted result first ∧ next result = accepted last more := by
  cases verdict with
  | rejected | broken => cases accepts
  | accepted result first =>
    rw [bind] at accepts
    cases following : next result with
    | rejected | broken =>
      rw [following] at accepts
      cases accepts
    | accepted value more =>
      rw [following] at accepts
      cases accepts
      exact ⟨result, first, more, rfl, following⟩

theorem bind_assoc {γ : Type} (verdict : Verdict α) (second : α → Verdict β)
    (third : β → Verdict γ) :
    (verdict.bind second).bind third = verdict.bind fun result => (second result).bind third := by
  cases verdict with
  | rejected | broken => rfl
  | accepted result notes =>
    rw [bind, bind]
    cases second result with
    | rejected | broken => rfl
    | accepted last more =>
      simp only [bind]
      cases third last with
      | rejected | broken => rfl
      | accepted => simp only [List.append_assoc]

end Verdict

/-- What becomes of a request in an environment while there is the given number of errors. -/
def Request.verdict (environment : Environment) (errors : Nat) :
    (request : Request) → Verdict request.Answer
  | .lookup _ name => .accepted (environment.lookup? name) []
  | .openScope _ | .resumeScope _ | .leaveScope | .warnOnce _ | .noteEffects _ => .accepted () []
  | .bind .. | .hasScope _ | .activate .. => .accepted true []
  | .errorCount => .accepted errors []
  | .report _ diagnostic => if diagnostic.isError then .rejected else .accepted () []
  | .consult .. => .accepted false []
  | .noteTypes expression types => .accepted () [(expression, types)]

namespace LexicalWalk

/-- What becomes of a lexical walk that starts with the given number of errors. -/
def verdict (errors : Nat) : LexicalWalk α → Verdict α
  | done result => .accepted result []
  | broken fault => .broken fault
  | step environment request next =>
    (request.verdict environment errors).bind fun answer => (next answer).verdict errors

theorem verdict_bind (errors : Nat) (walk : LexicalWalk α) (next : α → LexicalWalk β) :
    (walk >>= next).verdict errors =
      (walk.verdict errors).bind fun result => (next result).verdict errors := by
  induction walk with
  | done result => exact (Verdict.accepted_bind result fun result => _).symm
  | broken fault => rfl
  | step environment request answered ih =>
    have unfolded : (step environment request answered >>= next).verdict errors =
        (request.verdict environment errors).bind fun answer =>
          (answered answer >>= next).verdict errors := rfl
    rw [unfolded, verdict, Verdict.bind_assoc]
    congr 1
    funext answer
    exact ih answer

end LexicalWalk

/-! ### Verdicts and runs -/

/-- Whether a part of a run comes to a verdict. -/
def RunState.ComesTo (state : RunState σ) (run : Run σ α) : Verdict α → Prop
  | .accepted result notes =>
    ∃ after, run state = .ok (.ok result, after) ∧
      after.reporter.errorCount = state.reporter.errorCount ∧
      after.facts.expressionTypes = notes.reverse ++ state.facts.expressionTypes
  | .rejected =>
    ∀ outcome after, run state = .ok (outcome, after) →
      state.reporter.errorCount < after.reporter.errorCount
  | .broken fault => run state = .error fault

/-- A request that is answered the way the environment does comes to its verdict. -/
theorem Request.comesTo_verdict {environment : Environment} {request : Request}
    {state : RunState σ} (answers : environment.Answers state request) :
    state.ComesTo (Run.answer none request)
      (request.verdict environment state.reporter.errorCount) := by
  cases request with
  | openScope | resumeScope | leaveScope | bind => cases answers
  | hasScope owner =>
    have found : (state.facts.scopeOf? owner).isSome = true := answers
    refine ⟨state, ?_, rfl, rfl⟩
    show (Except.ok (Except.ok (state.facts.scopeOf? owner).isSome, state) : Except Fault _) = _
    rw [found]
  | errorCount => exact ⟨state, rfl, rfl, rfl⟩
  | noteTypes | noteEffects => exact ⟨_, rfl, rfl, rfl⟩
  | consult => exact ⟨state, rfl, rfl, rfl⟩
  | lookup block name =>
    obtain ⟨scope, owned, found⟩ := answers
    refine ⟨state, ?_, rfl, rfl⟩
    rw [Run.answer, Run.lookup_apply, owned, ← found]
    rfl
  | activate owner name =>
    obtain ⟨scope, owned, bound⟩ := answers
    refine ⟨{ state with active := (scope, name) :: state.active }, ?_, rfl, rfl⟩
    rw [Run.answer, Run.activate_apply, owned]
    dsimp only
    rw [bound]
  | warnOnce diagnostic =>
    refine ⟨_, rfl, ?_, ?_⟩
    · dsimp only
      split
      · rfl
      · exact Reporter.errorCount_reportWarning _ _
    · dsimp only
      split <;> rfl
  | report place diagnostic =>
    rw [Request.verdict]
    split
    · rename_i isError
      intro outcome after reported
      rw [Run.errorCount_of_report diagnostic isError reported]
      exact Nat.lt_succ_self _
    · rename_i isWarning
      have accepted : state.reporter.report diagnostic =
          (.ok (), state.reporter.reportWarning diagnostic) := if_neg isWarning
      refine ⟨{ state with reporter := state.reporter.reportWarning diagnostic }, ?_, ?_, rfl⟩
      · rw [Run.answer, Run.report_apply, accepted]
      · exact Reporter.errorCount_reportWarning _ _

/-- A run that agrees with the environments of a walk comes to the verdict on it. -/
theorem LexicalWalk.verdict_of_agrees {walk : LexicalWalk α} {state : RunState σ}
    (agrees : walk.Agrees none state) :
    state.ComesTo (walk.erase.run none) (walk.verdict state.reporter.errorCount) := by
  induction walk generalizing state with
  | done result => exact ⟨state, rfl, rfl, rfl⟩
  | broken fault => rfl
  | step environment request next ih =>
    have answered := Request.comesTo_verdict agrees.1
    have unfolded : (step environment request next).erase.run none =
        (Run.answer none request >>= fun answer => (next answer).erase.run none : Run σ α) := rfl
    rw [unfolded, verdict]
    cases result : request.verdict environment state.reporter.errorCount with
    | rejected =>
      rw [result] at answered
      intro outcome after ran
      rw [Run.bind_apply] at ran
      rcases first : Run.answer none request state with fault | ⟨failure | answer, middle⟩
      · rw [first] at ran
        cases ran
      · rw [first] at ran
        cases ran
        exact answered _ _ first
      · rw [first] at ran
        apply Nat.lt_of_lt_of_le (answered _ _ first)
        exact Walk.errorCount_of_run (Walk.only_of_forall (fun _ => .inr rfl) _) ran
    | broken fault =>
      rw [result] at answered
      show (Run.answer none request >>= _) state = _
      rw [Run.bind_apply, answered]
    | accepted answer notes =>
      rw [result] at answered
      obtain ⟨middle, first, count, types⟩ := answered
      have later := ih answer (agrees.2 answer middle first)
      rw [count] at later
      have ran : (Run.answer none request >>= fun answer => (next answer).erase.run none) state =
          (next answer).erase.run none middle := by
        rw [Run.bind_apply, first]
      dsimp only [Verdict.bind]
      cases last : (next answer).verdict state.reporter.errorCount with
      | accepted value more =>
        rw [last] at later
        obtain ⟨after, second, countAfter, typesAfter⟩ := later
        refine ⟨after, ran.trans second, countAfter.trans count, ?_⟩
        rw [typesAfter, types, List.reverse_append, List.append_assoc]
      | rejected =>
        rw [last] at later
        intro outcome after second
        rw [← count]
        exact later outcome after (ran.symm.trans second)
      | broken fault =>
        rw [last] at later
        exact ran.trans later

end YulCheck
