import YulCheck.Host.Rules
import YulCheck.Proofs.Kept.Analysis
import YulCheck.Proofs.Rename.State

/-! # What a host is asked

The questions that are put to a host in the course of a run, whether the run comes to its end, is
stopped, or breaks off.
-/

namespace YulCheck

variable {σ τ α β : Type}

/-- The question that a request puts to the host. -/
def Request.question? (state : RunState σ) : Request → Option Query
  | .consult place identifier use =>
    some ⟨identifier, use,
      (state.facts.scopeOf? (.block place.block)).any state.facts.scopes.isInFunction⟩
  | .openScope _ | .resumeScope _ | .leaveScope | .bind .. | .hasScope _ | .lookup .. | .activate ..
  | .errorCount | .report .. | .warnOnce _ | .noteTypes .. | .noteEffects _ => none

theorem Request.name_mem_of_question (request : Request) {state : RunState σ} {query : Query}
    (isQuestion : query ∈ request.question? state) : query.identifier.name ∈ request.names := by
  cases request with
  | consult =>
    cases isQuestion
    exact List.mem_singleton_self _
  | _ => cases isQuestion

/-- What a host is asked while a walk is carried out, in the order in which it is asked. -/
def Walk.asked (host : Host σ) : Walk α → RunState σ → List Query
  | done _, _ | broken _, _ => []
  | step request next, state =>
    (request.question? state).toList ++
      match Run.answer (some host) request state with
      | .ok (.ok answer, after) => (next answer).asked host after
      | .ok (.error _, _) | .error _ => []

/-! ### Requests without a host -/

/-- The state of a run with another state of its host. -/
def RunState.withHost (state : RunState σ) (hostState : τ) : RunState τ := { state with hostState }

/-- All requests but those to the host are answered without it, whatever its state is. -/
theorem Run.answer_withHost {request : Request} (isOwn : request.IsOwn) (host? : Option (Host σ))
    (other? : Option (Host τ)) (state : RunState σ) (hostState : τ) :
    answer other? request (state.withHost hostState) =
      (answer host? request state).map (Prod.map id fun after => after.withHost hostState) := by
  cases request with
  | consult => cases isOwn
  | openScope | leaveScope | hasScope | errorCount | noteTypes | noteEffects => rfl
  | resumeScope block =>
    simp only [answer, resumeScope_apply]
    dsimp only [RunState.withHost]
    cases state.facts.scopeOf? (.block block) <;> rfl
  | bind name binding =>
    simp only [answer, bind_request_apply]
    dsimp only [RunState.withHost]
    split
    · rfl
    · cases state.facts.scopes.bind? _ name binding <;> rfl
  | lookup block name =>
    simp only [answer, lookup_apply]
    dsimp only [RunState.withHost]
    cases state.facts.scopeOf? (.block block) <;> rfl
  | activate owner name =>
    simp only [answer, activate_apply]
    dsimp only [RunState.withHost]
    cases state.facts.scopeOf? owner <;> rfl
  | report place diagnostic =>
    simp only [answer, report_apply]
    dsimp only [RunState.withHost]
    rcases state.reporter.report diagnostic with ⟨failure | _, reporter⟩ <;> rfl
  | warnOnce diagnostic =>
    show Except.ok (Except.ok (), ite _ _ _) =
      Except.ok (Except.ok (), RunState.withHost (ite _ _ _) hostState)
    rw [apply_ite fun after : RunState σ => after.withHost hostState]
    rfl

theorem Run.hostState_of_answer {request : Request} (isOwn : request.IsOwn)
    {host? : Option (Host σ)} {state after : RunState σ} {outcome : Except Failure request.Answer}
    (answered : answer host? request state = .ok (outcome, after)) :
    after.hostState = state.hostState := by
  have again : answer host? request state = .ok (outcome, after.withHost state.hostState) :=
    (answer_withHost isOwn host? host? state state.hostState).trans (congrArg (Except.map _) answered)
  have same : after = after.withHost state.hostState :=
    (Prod.mk.inj (Except.ok.inj (answered.symm.trans again))).2
  rw [same]
  rfl

theorem Request.question?_of_isOwn {request : Request} (isOwn : request.IsOwn)
    (state : RunState σ) : request.question? state = none := by
  cases request with
  | consult => cases isOwn
  | _ => rfl

/-! ### Walks -/

namespace Walk

variable {host : Host σ} {state : RunState σ}

theorem asked_ask (request : Request) :
    (ask request).asked host state = (request.question? state).toList := by
  rw [ask, asked]
  split <;> exact List.append_nil _

/-- What is asked in one walk after another. -/
theorem asked_bind (walk : Walk α) (next : α → Walk β) :
    (walk >>= next).asked host state = walk.asked host state ++
      match walk.run (some host) state with
      | .ok (.ok result, after) => (next result).asked host after
      | .ok (.error _, _) | .error _ => [] := by
  induction walk generalizing state with
  | done result => rfl
  | broken fault => rfl
  | step request answered ih =>
    show (step request fun answer => answered answer >>= next).asked host state = _
    rw [asked, asked, run_step, Run.bind_apply, List.append_assoc]
    congr 1
    rcases Run.answer (some host) request state with fault | ⟨failure | answer, middle⟩
    · rfl
    · rfl
    · exact ih answer

/-- Nothing is asked in a walk that leaves the host alone. -/
theorem asked_of_own {walk : Walk α} (isOwn : walk.Only (·.IsOwn)) : walk.asked host state = [] := by
  induction walk generalizing state with
  | done | broken => rfl
  | step request next ih =>
    rw [asked, Request.question?_of_isOwn isOwn.1, Option.toList_none, List.nil_append]
    split
    · exact ih _ (isOwn.2 _)
    · rfl
    · rfl

/-- All questions in a run have a property that those of all its requests have. -/
theorem forall_asked {holds : Query → Prop} {walk : Walk α}
    (only : walk.Only fun request => ∀ (state : RunState σ), ∀ query ∈ request.question? state,
      holds query) :
    ∀ query ∈ walk.asked host state, holds query := by
  induction walk generalizing state with
  | done | broken => exact List.forall_mem_nil _
  | step request next ih =>
    rw [asked, List.forall_mem_append]
    refine ⟨fun query member => only.1 state query (Option.mem_toList.mp member), ?_⟩
    split
    · exact ih _ (only.2 _)
    · exact List.forall_mem_nil _
    · exact List.forall_mem_nil _

end Walk

/-! ### Hosts that note what they are asked -/

/-- Whether a host notes every question that it answers, the last one in front. -/
def Host.Notes (host : Host (List Query)) : Prop :=
  ∀ query reporter asked answer after askedAfter,
    host query (reporter, asked) = .ok (answer, after, askedAfter) → askedAfter = query :: asked

theorem Run.asked_of_answer {host : Host (List Query)} (notes : host.Notes) {request : Request}
    {state after : RunState (List Query)} {outcome : Except Failure request.Answer}
    (answered : answer (some host) request state = .ok (outcome, after)) :
    after.hostState = (request.question? state).toList ++ state.hostState := by
  by_cases isOwn : request.IsOwn
  · rw [request.question?_of_isOwn isOwn]
    exact hostState_of_answer isOwn answered
  · cases request with
    | consult place identifier use =>
      simp only [answer, consult_some] at answered
      split at answered
      · cases answered
      · rename_i isNoted
        cases answered
        exact notes _ _ _ _ _ _ isNoted
      · rename_i isNoted
        cases answered
        exact notes _ _ _ _ _ _ isNoted
    | _ => exact absurd trivial isOwn

/-- What a host has noted at the end of a run is what it was asked in it. -/
theorem Walk.noted_of_run {host : Host (List Query)} (notes : host.Notes) {walk : Walk α}
    {state after : RunState (List Query)} {outcome : Except Failure α}
    (ran : walk.run (some host) state = .ok (outcome, after)) :
    after.hostState = (walk.asked host state).reverse ++ state.hostState := by
  induction walk generalizing state with
  | done result =>
    cases ran
    rfl
  | broken fault => cases ran
  | step request next ih =>
    rw [run_step, Run.bind_apply] at ran
    have one : (request.question? state).toList.reverse = (request.question? state).toList := by
      cases request.question? state <;> rfl
    rw [asked, List.reverse_append, one, List.append_assoc]
    rcases answered : Run.answer (some host) request state with fault | ⟨failure | answer, middle⟩
    · rw [answered] at ran
      cases ran
    · rw [answered] at ran
      cases ran
      exact Run.asked_of_answer notes answered
    · rw [answered] at ran
      rw [ih answer ran, Run.asked_of_answer notes answered]

/-- Hosts from rules note what they are asked. -/
theorem Host.notes_ofRules (names : NameTable) (rules : List HostRule) :
    (Host.ofRules names rules).Notes := by
  intro query reporter asked answer after askedAfter answered
  obtain ⟨rule?, _, given⟩ := Except.bind_eq_ok_iff.mp answered
  cases rule? <;> cases given <;> rfl

/-! ### Checks -/

namespace Checker

/-- What a host is asked in a check, in the order in which it is asked. -/
def asked (checker : Checker) (host : Host σ) (reporter : Reporter) (facts : Facts)
    (hostState : σ) (block : Block) : List Query :=
  (checker.setting.checkProgram (checker.place block) block).asked host
    (checker.start reporter facts hostState)

end Checker

end YulCheck
