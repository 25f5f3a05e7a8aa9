import YulCheck.Check.Declarations
import YulCheck.Proofs.Lexical.Checks
import YulCheck.Proofs.Lexical.Progress
import YulCheck.Proofs.Scope.Entered
import YulCheck.Proofs.Scope.Nesting

/-! # Scopes that runs open

A run closes no scope. Where it enters nested declarations to their end, all of their scopes are open
behind them, and the scopes around are those that were around before.
-/

namespace YulCheck

variable {σ α : Type}

/-! ### Scopes of nodes -/

/-- Whether the scopes of nodes are open in a state. -/
def RunState.HasOpened (state : RunState σ) (opened : List ScopeOwner) : Prop :=
  ∀ owner ∈ opened, (state.facts.scopeOf? owner).isSome = true

/-- Whether the nodes that have a scope in a state have one in another state. -/
def RunState.KeepsOpen (state after : RunState σ) : Prop :=
  ∀ owner, (state.facts.scopeOf? owner).isSome = true → (after.facts.scopeOf? owner).isSome = true

namespace RunState

variable {state after : RunState σ} {owners : List ScopeOwner}

theorem KeepsOpen.of_scoping (same : after.facts.scoping = state.facts.scoping) :
    state.KeepsOpen after := by
  intro owner isOpen
  rw [show after.facts.scopeOf? = state.facts.scopeOf? from congrArg Scoping.scopeOf? same]
  exact isOpen

theorem HasOpened.of_keepsOpen (opened : state.HasOpened owners) (keeps : state.KeepsOpen after) :
    after.HasOpened owners := fun owner member => keeps owner (opened owner member)

end RunState

section Kept

variable {host? : Option (Host σ)} {state after : RunState σ}

/-- No request closes a scope. -/
theorem Run.keepsOpen_of_answer {request : Request} {outcome : Except Failure request.Answer}
    (answered : answer host? request state = .ok (outcome, after)) : state.KeepsOpen after := by
  by_cases keeps : request.KeepsScopes
  · exact .of_scoping (scoping_of_answer keeps answered)
  · cases request with
    | openScope owner =>
      cases answered
      intro other isOpen
      show ((state.facts.openScope owner state.around.head?).scopeOf? other).isSome = true
      rw [Facts.scopeOf?_openScope]
      split
      · rfl
      · exact isOpen
    | resumeScope block =>
      simp only [answer, resumeScope_apply] at answered
      split at answered <;> cases answered
      exact fun _ => id
    | leaveScope =>
      cases answered
      exact fun _ => id
    | bind name binding =>
      simp only [answer, bind_request_apply] at answered
      split at answered
      · cases answered
      · split at answered <;> cases answered <;> exact fun _ => id
    | _ => exact absurd trivial keeps

theorem Walk.keepsOpen_of_run {walk : Walk α} {outcome : Except Failure α}
    (ran : walk.run host? state = .ok (outcome, after)) : state.KeepsOpen after := by
  have any : walk.Only fun _ => True := only_of_forall (fun _ => trivial) walk
  exact run_relates RunState.KeepsOpen (fun _ _ => id)
    (fun _ _ _ first second owner isOpen => second owner (first owner isOpen))
    (fun _ _ _ _ _ => Run.keepsOpen_of_answer) any ran

/-! ### Scopes around -/

/-- Whether a request is answered inside of the current scope. -/
def Request.StaysInside : Request → Prop
  | .openScope _ | .resumeScope _ | .leaveScope => False
  | _ => True

theorem Request.StaysIn.staysInside {block : NodeId} {request : Request}
    (stays : request.StaysIn block) : request.StaysInside := by
  cases request <;> trivial

/-- What stays inside of the current scope leaves it there. -/
theorem Run.around_of_answer {request : Request} {outcome : Except Failure request.Answer}
    (staysInside : request.StaysInside)
    (answered : answer host? request state = .ok (outcome, after)) :
    after.around = state.around := by
  cases request with
  | openScope | resumeScope | leaveScope => cases staysInside
  | hasScope | errorCount | noteTypes | noteEffects =>
    cases answered
    rfl
  | bind name binding =>
    simp only [answer, bind_request_apply] at answered
    split at answered
    · cases answered
    · split at answered <;> cases answered <;> rfl
  | warnOnce diagnostic =>
    cases answered
    dsimp only
    split <;> rfl
  | lookup block name =>
    simp only [answer, lookup_apply] at answered
    split at answered <;> cases answered
    rfl
  | activate owner name =>
    simp only [answer, activate_apply] at answered
    split at answered <;> cases answered
    rfl
  | report place diagnostic =>
    simp only [answer, report_apply] at answered
    split at answered <;> cases answered <;> rfl
  | consult place identifier use =>
    cases host? with
    | none =>
      cases answered
      rfl
    | some host =>
      simp only [answer, consult_some] at answered
      split at answered <;> cases answered <;> rfl

end Kept

/-! ### Nested declarations -/

namespace Setting

open Walk

variable {setting : Setting} {place : Place} {host? : Option (Host σ)} {state after : RunState σ}
  {declarations : List Declaration}

theorem staysInside_checks : AllowsChecks place Request.StaysInside where
  report _ _ := trivial
  warnOnce _ := trivial
  errorCount := trivial
  noteTypes _ _ := trivial

theorem staysInside_enterVariables (locals : List Variable) :
    (setting.enterVariables place locals).Only Request.StaysInside := by
  induction locals with
  | nil => exact only_pure _
  | cons declared rest ih =>
    refine only_bind (only_ask.mpr trivial) fun isFree => ?_
    cases isFree with
    | true => exact ih
    | false => exact only_bind (only_lift _) fun _ => only_ask.mpr trivial

theorem staysInside_enter {declaration : Declaration} (isInside : declaration.IsInside) :
    (setting.enter place declaration).Only Request.StaysInside := by
  cases declaration with
  | scope | resume | leave => cases isInside
  | function span name parameters returns =>
    have isBind : Request.StaysInside (.bind name (.function parameters returns)) := trivial
    refine only_bind (only_ask.mpr isBind) fun isFree => ?_
    exact staysInside_checks.expect _ _ (only_bind (only_lift _) fun _ => only_pure _)
  | locals locals => exact staysInside_enterVariables locals

/-! ### Lists of declarations -/

section Lists

variable (setting place)

theorem enterAll_cons (declaration : Declaration) (declarations : List Declaration) :
    (declaration :: declarations).forM (setting.enter place) =
      setting.enter place declaration >>= fun _ => declarations.forM (setting.enter place) := rfl

theorem enterAll_append (declarations others : List Declaration) :
    (declarations ++ others).forM (setting.enter place) =
      declarations.forM (setting.enter place) >>= fun _ => others.forM (setting.enter place) :=
  List.forM_append

/-- A scope that is opened is left behind the declarations in it. -/
theorem enterAll_scope (owner : ScopeOwner) (declarations : List Declaration) :
    (Declaration.scope owner :: declarations ++ [Declaration.leave]).forM (setting.enter place) =
      ask (.openScope owner) >>= fun _ =>
        declarations.forM (setting.enter place) >>= fun _ => ask .leaveScope := by
  rw [List.cons_append, enterAll_cons, enterAll_append]
  rfl

/-- A block that is entered again is left behind the declarations in it. -/
theorem enterAll_resume (block : NodeId) (declarations : List Declaration) :
    (Declaration.resume block :: declarations ++ [Declaration.leave]).forM (setting.enter place) =
      ask (.resumeScope block) >>= fun _ =>
        declarations.forM (setting.enter place) >>= fun _ => ask .leaveScope := by
  rw [List.cons_append, enterAll_cons, enterAll_append]
  rfl

end Lists

/-- What is left behind a scope that was opened and filled. -/
theorem run_enterAll_scope {owner : ScopeOwner}
    (ran : ((Declaration.scope owner :: declarations ++ [Declaration.leave]).forM
      (setting.enter place)).run host? state = .ok (.ok (), after)) :
    ∃ middle : RunState σ, after = { middle with around := middle.around.tail } ∧
      (declarations.forM (setting.enter place)).run host?
        { state with
          facts := state.facts.openScope owner state.around.head?
          around := state.facts.scopes.size :: state.around } = .ok (.ok (), middle) := by
  rw [enterAll_scope] at ran
  obtain ⟨_, within, opened, ran⟩ := run_bind_eq_ok_ok_iff.mp ran
  obtain ⟨_, middle, inside, left⟩ := run_bind_eq_ok_ok_iff.mp ran
  cases opened
  cases left
  exact ⟨middle, rfl, inside⟩

/-- What is left behind a block that was entered again. -/
theorem run_enterAll_resume {block : NodeId}
    (ran : ((Declaration.resume block :: declarations ++ [Declaration.leave]).forM
      (setting.enter place)).run host? state = .ok (.ok (), after)) :
    ∃ (scope : ScopeId) (middle : RunState σ), state.facts.scopeOf? (.block block) = some scope ∧
      after = { middle with around := middle.around.tail } ∧
      (declarations.forM (setting.enter place)).run host?
        { state with around := scope :: state.around } = .ok (.ok (), middle) := by
  rw [enterAll_resume] at ran
  obtain ⟨_, within, resumed, ran⟩ := run_bind_eq_ok_ok_iff.mp ran
  obtain ⟨_, middle, inside, left⟩ := run_bind_eq_ok_ok_iff.mp ran
  rw [run_ask, Run.answer, Run.resumeScope_apply] at resumed
  split at resumed <;> cases resumed
  cases left
  exact ⟨_, middle, by assumption, rfl, inside⟩

/-- Entering the declarations of a block ends with the last of them. -/
theorem run_enterAll_of_enterDeclarations {block : Block} {isEntered : Bool}
    (ran : (setting.enterDeclarations place block).run host? state = .ok (.ok isEntered, after)) :
    (block.declarations.forM (setting.enter place)).run host? state = .ok (.ok (), after) := by
  obtain ⟨errors, _, counted, ran⟩ := run_bind_eq_ok_ok_iff.mp ran
  cases counted
  obtain ⟨_, middle, entered, ended⟩ := run_bind_eq_ok_ok_iff.mp ran
  cases ended
  exact entered

/-- Behind declarations that were entered to their end, their scopes are open, and the scopes around are
those from before. -/
theorem opened_of_enterAll {current? : Option ScopeOwner} {nestings : List Nesting}
    (nested : AreNested current? declarations nestings)
    (ran : (declarations.forM (setting.enter place)).run host? state = .ok (.ok (), after)) :
    after.around = state.around ∧ after.HasOpened (nestings.map (·.1)) := by
  induction nested generalizing state after with
  | nil =>
    cases ran
    exact ⟨rfl, nofun⟩
  | inside isInside =>
    obtain ⟨_, middle, entered, ended⟩ := run_bind_eq_ok_ok_iff.mp ran
    cases ended
    exact ⟨run_keeps (·.around) (fun _ _ _ _ => Run.around_of_answer) (staysInside_enter isInside)
      entered, nofun⟩
  | append _ _ ihFirst ihSecond =>
    rw [enterAll_append] at ran
    obtain ⟨_, middle, first, second⟩ := run_bind_eq_ok_ok_iff.mp ran
    obtain ⟨sameFirst, openFirst⟩ := ihFirst first
    obtain ⟨sameSecond, openSecond⟩ := ihSecond second
    rw [List.map_append]
    exact ⟨sameSecond.trans sameFirst, List.forall_mem_append.mpr
      ⟨openFirst.of_keepsOpen (keepsOpen_of_run second), openSecond⟩⟩
  | scope _ ih =>
    rename_i owner _ _ _
    obtain ⟨middle, rfl, inside⟩ := run_enterAll_scope ran
    obtain ⟨same, areOpen⟩ := ih inside
    refine ⟨congrArg List.tail same, List.forall_mem_cons.mpr ⟨?_, areOpen⟩⟩
    refine keepsOpen_of_run inside owner ?_
    show ((state.facts.openScope owner state.around.head?).scopeOf? owner).isSome = true
    rw [Facts.scopeOf?_openScope, if_pos rfl]
    rfl
  | resume _ _ _ ihFirst ihSecond =>
    rw [enterAll_append] at ran
    obtain ⟨_, middle, first, second⟩ := run_bind_eq_ok_ok_iff.mp ran
    obtain ⟨_, last, _, rfl, inside⟩ := run_enterAll_resume second
    obtain ⟨sameFirst, openFirst⟩ := ihFirst first
    obtain ⟨sameSecond, openSecond⟩ := ihSecond inside
    rw [List.map_append]
    exact ⟨(congrArg List.tail sameSecond).trans sameFirst, List.forall_mem_append.mpr
      ⟨openFirst.of_keepsOpen (keepsOpen_of_run second), openSecond⟩⟩

end Setting

end YulCheck
