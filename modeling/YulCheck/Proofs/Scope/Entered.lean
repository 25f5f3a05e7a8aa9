import YulCheck.Check.Declarations
import YulCheck.Proofs.Lexical.Run
import YulCheck.Proofs.Scope.Entering

/-! # Runs that enter declarations

A run enters the declarations of a block without an error exactly if no frame of the block declares a
name twice. Then it changes nothing but the scopes, and otherwise it reports at least one error.
-/

namespace YulCheck

/-! ### Facts and their scopes -/

theorem List.lookup_cons_eq {κ α : Type} [DecidableEq κ] (key other : κ) (value : α)
    (table : List (κ × α)) :
    ((other, value) :: table).lookup key = if key = other then some value else table.lookup key := by
  rw [List.lookup_cons]
  by_cases same : key = other
  · rw [if_pos same, same, beq_self_eq_true]
  · rw [if_neg same, beq_false_of_ne same]

theorem Scoping.scopeOf?_openScope (scoping : Scoping) (owner other : ScopeOwner)
    (parent? : Option ScopeId) :
    (scoping.openScope owner parent?).scopeOf? other =
      if other = owner then some scoping.forest.size else scoping.scopeOf? other := by
  show (List.lookup other [(owner, scoping.forest.size)]).or (scoping.scopeOf? other) = _
  rw [List.lookup_cons_eq]
  split <;> rfl

theorem Facts.scopeOf?_openScope (facts : Facts) (owner other : ScopeOwner)
    (parent? : Option ScopeId) :
    (facts.openScope owner parent?).scopeOf? other =
      if other = owner then some facts.scopes.size else facts.scopeOf? other := by
  cases owner <;> cases other <;>
    simp only [openScope, scopeOf?, List.lookup_cons_eq, ScopeOwner.block.injEq,
      ScopeOwner.function.injEq, reduceCtorEq, if_false, ScopeForest.add]

theorem Facts.scoping_openScope (facts : Facts) (owner : ScopeOwner)
    (parent? : Option ScopeId) :
    (facts.openScope owner parent?).scoping = facts.scoping.openScope owner parent? := by
  ext1
  · have pushed : (facts.openScope owner parent?).scopes =
        ⟨facts.scopes.scopes.push ⟨parent?, owner.isFunction, []⟩⟩ := by
      cases owner <;> rfl
    apply pushed.trans
    simp [Scoping.openScope, Scoping.append, ScopeForest.append, scoping]
  · funext other
    exact (facts.scopeOf?_openScope owner other parent?).trans
      (facts.scoping.scopeOf?_openScope owner other parent?).symm

/-- What a run enters declarations into. -/
def RunState.filling {σ : Type} (state : RunState σ) : Filling :=
  ⟨state.facts.scoping, state.around⟩

/-! ### Walks that enter declarations -/

/-- Whether a request is one to enter declarations. -/
def Request.IsEntering : Request → Prop
  | .openScope _ | .resumeScope _ | .leaveScope | .bind .. | .report .. | .errorCount => True
  | _ => False

theorem Request.IsEntering.isOwn {request : Request} (entering : request.IsEntering) :
    request.IsOwn := by
  cases request <;> trivial

/-- Whether carrying out a walk enters something: if it can be entered, nothing but the scopes
changes; otherwise an error is reported. -/
structure Walk.CarriesOut (σ : Type) (walk : Walk Unit) (enter? : Filling → Option Filling) :
    Prop where
  entering : walk.Only (·.IsEntering)
  enters (host? : Option (Host σ)) (state : RunState σ) {filling : Filling}
    (entered : enter? state.filling = some filling) :
    ∃ facts : Facts, facts.scoping = filling.scoping ∧
      walk.run host? state = .ok (.ok (), { state with facts, around := filling.around })
  reports (host? : Option (Host σ)) (state : RunState σ) {after : RunState σ}
    {outcome : Except Failure Unit} (taken : enter? state.filling = none)
    (ran : walk.run host? state = .ok (outcome, after)) :
    state.reporter.errorCount < after.reporter.errorCount

theorem Run.notes_of_answer {σ : Type} {host? : Option (Host σ)} {state after : RunState σ}
    {request : Request} {outcome : Except Failure request.Answer} (entering : request.IsEntering)
    (answered : answer host? request state = .ok (outcome, after)) :
    (after.facts.expressionTypes, after.facts.sideEffects) =
      (state.facts.expressionTypes, state.facts.sideEffects) := by
  cases request with
  | hasScope | lookup | activate | warnOnce | consult | noteTypes | noteEffects => cases entering
  | openScope owner =>
    cases answered
    cases owner <;> rfl
  | resumeScope block =>
    simp only [answer, resumeScope_apply] at answered
    split at answered <;> cases answered
    rfl
  | bind name binding =>
    simp only [answer, bind_request_apply] at answered
    split at answered
    · cases answered
    · split at answered <;> cases answered <;> rfl
  | report place diagnostic =>
    simp only [answer, report_apply] at answered
    split at answered <;> cases answered <;> rfl
  | leaveScope | errorCount =>
    cases answered
    rfl

namespace Walk

variable {σ : Type} {host? : Option (Host σ)} {state after : RunState σ}

theorem CarriesOut.done : CarriesOut σ (pure ()) some where
  entering := trivial
  enters _ state _ entered := by
    cases entered
    exact ⟨state.facts, rfl, rfl⟩
  reports _ _ _ _ taken := by cases taken

theorem CarriesOut.bind {first second : Walk Unit} {enter? next? : Filling → Option Filling}
    (carries : CarriesOut σ first enter?) (continues : CarriesOut σ second next?) :
    CarriesOut σ (first >>= fun _ => second) fun filling => (enter? filling).bind next? where
  entering := only_bind carries.entering fun _ => continues.entering
  enters host? state _ entered := by
    obtain ⟨middle, enteredFirst, enteredSecond⟩ := Option.bind_eq_some_iff.mp entered
    obtain ⟨facts, same, ran⟩ := carries.enters host? state enteredFirst
    let between : RunState σ := { state with facts, around := middle.around }
    have reached : between.filling = middle := Filling.ext same rfl
    obtain ⟨later, same, ranLater⟩ := continues.enters host? between (reached ▸ enteredSecond)
    refine ⟨later, same, ?_⟩
    rw [run_bind, Run.bind_apply, ran]
    exact ranLater
  reports host? state after outcome taken ran := by
    rw [run_bind, Run.bind_apply] at ran
    rcases enteredFirst : enter? state.filling with _ | middle
    · rcases ranFirst : first.run host? state with fault | ⟨failure | result, between⟩
      · rw [ranFirst] at ran
        cases ran
      · rw [ranFirst] at ran
        cases ran
        exact carries.reports host? state enteredFirst ranFirst
      · rw [ranFirst] at ran
        exact Nat.lt_of_lt_of_le (carries.reports host? state enteredFirst ranFirst)
          (errorCount_of_run (continues.entering.imp fun _ entering => .inl entering.isOwn) ran)
    · obtain ⟨facts, same, ranFirst⟩ := carries.enters host? state enteredFirst
      let between : RunState σ := { state with facts, around := middle.around }
      have reached : between.filling = middle := Filling.ext same rfl
      rw [ranFirst] at ran
      rw [enteredFirst] at taken
      exact continues.reports host? between (reached ▸ taken) ran

/-- A name is bound, and what follows depends on whether it was free. -/
theorem CarriesOut.ask_bind {name : Handle} {binding : Binding} {next : Bool → Walk Unit}
    {next? : Filling → Option Filling} (free : CarriesOut σ (next true) next?)
    (entering : (next false).Only (·.IsEntering))
    (taken : ∀ {host? : Option (Host σ)} {state after : RunState σ} {outcome},
      (next false).run host? state = .ok (outcome, after) →
        state.reporter.errorCount < after.reporter.errorCount) :
    CarriesOut σ (ask (.bind name binding) >>= next) fun filling =>
      (filling.bind? name binding).bind next? where
  entering := only_bind (only_ask.mpr trivial) fun
    | true => free.entering
    | false => entering
  enters host? state _ entered := by
    obtain ⟨middle, bound, rest⟩ := Option.bind_eq_some_iff.mp entered
    obtain ⟨id, current, enters⟩ := Option.bind_eq_some_iff.mp bound
    obtain ⟨scopes, isFree, same⟩ := Option.bind_eq_some_iff.mp enters
    cases same
    obtain ⟨outer, around⟩ := List.head?_eq_some_iff.mp current
    obtain ⟨later, same, ranLater⟩ :=
      free.enters host? { state with facts := { state.facts with scopes } } rest
    have answered : Run.answer host? (.bind name binding) state =
        .ok (.ok true, { state with facts := { state.facts with scopes } }) := by
      rw [Run.answer, Run.bind_request_apply, show state.around = id :: outer from around]
      dsimp only
      rw [show state.facts.scopes.bind? id name binding = some scopes from isFree]
    refine ⟨later, same, ?_⟩
    rw [run_bind, Run.bind_apply, run_ask, answered]
    exact ranLater
  reports host? state after outcome notEntered ran := by
    rw [run_bind, Run.bind_apply, run_ask, Run.answer, Run.bind_request_apply] at ran
    rcases around : state.around with _ | ⟨id, outer⟩
    · rw [around] at ran
      cases ran
    · rw [around] at ran
      dsimp only at ran
      rcases bound : state.facts.scopes.bind? id name binding with _ | scopes
      · rw [bound] at ran
        exact taken ran
      · rw [bound, ← around] at ran
        let entered : RunState σ := { state with facts := { state.facts with scopes } }
        have current : state.filling.around.head? = some id := by
          rw [RunState.filling, around, List.head?_cons]
        have step : state.filling.bind? name binding = some entered.filling :=
          Option.bind_eq_some_iff.mpr
            ⟨id, current, Option.bind_eq_some_iff.mpr ⟨_, bound, rfl⟩⟩
        have rest : next? entered.filling = none := by rwa [step] at notEntered
        exact free.reports host? entered rest ran

/-- Where a report is made with a label, an error is counted. -/
theorem errorCount_of_labelled {place : Place} {label : Except Fault String}
    (finding : String → Finding) (isError : ∀ label, (finding label).category.isError = true)
    {span : Span} {outcome : Except Failure Unit}
    (ran : ((liftM label : Walk String) >>= fun label =>
      Setting.report place (finding label) span).run host? state = .ok (outcome, after)) :
    state.reporter.errorCount < after.reporter.errorCount := by
  cases label with
  | error fault => cases ran
  | ok label =>
    have reported : Run.report place ((finding label).toDiagnostic span) state =
        .ok (outcome, after) :=
      (congrFun (run_ask host? (.report place ((finding label).toDiagnostic span))) state).symm.trans
        ran
    have counted := Run.errorCount_of_report
      ((finding label).toDiagnostic span) (isError label) reported
    omega

end Walk

namespace Setting

open Walk

variable {σ : Type} (setting : Setting) (place : Place)

theorem carriesOut_enterVariables (locals : List Variable) :
    CarriesOut σ (setting.enterVariables place locals) (·.bindAll? (locals.map (·.binding))) := by
  induction locals with
  | nil => exact CarriesOut.done
  | cons declared rest ih =>
    refine CarriesOut.ask_bind ih ?_ ?_
    · exact only_bind (only_lift _) fun _ => only_ask.mpr trivial
    · exact errorCount_of_labelled .variableTaken fun _ => rfl

theorem carriesOut_enter (declaration : Declaration) :
    CarriesOut σ (setting.enter place declaration) (·.enter? declaration) := by
  cases declaration with
  | scope owner =>
    refine ⟨only_ask.mpr trivial, ?_, fun _ _ _ _ taken => by cases taken⟩
    intro host? state _ entered
    cases entered
    exact ⟨_, state.facts.scoping_openScope owner state.around.head?, rfl⟩
  | resume block =>
    refine ⟨only_ask.mpr trivial, fun host? state _ entered => ?_, fun host? state _ _ taken ran => ?_⟩
    · obtain ⟨id, owned, rfl⟩ := Option.map_eq_some_iff.mp entered
      refine ⟨state.facts, rfl, ?_⟩
      rw [enter, run_ask, Run.answer, Run.resumeScope_apply,
        show state.facts.scopeOf? (.block block) = some id from owned]
      rfl
    · have missing : state.facts.scopeOf? (.block block) = none := Option.map_eq_none_iff.mp taken
      rw [enter, run_ask, Run.answer, Run.resumeScope_apply, missing] at ran
      cases ran
  | leave =>
    refine ⟨only_ask.mpr trivial, ?_, fun _ _ _ _ taken => by cases taken⟩
    intro host? state _ entered
    cases entered
    exact ⟨state.facts, rfl, rfl⟩
  | function span name parameters returns =>
    refine CarriesOut.ask_bind CarriesOut.done ?_ ?_
    · exact only_bind (only_bind (only_lift _) fun _ => only_pure _) fun _ => only_ask.mpr trivial
    · intro host? state after outcome ran
      have reported : ((liftM (setting.names.shownLabel name) : Walk String) >>= fun label =>
          Setting.report place (.functionTaken label) span).run host? state =
            .ok (outcome, after) := by
        rw [← ran]
        cases setting.names.shownLabel name <;> rfl
      exact errorCount_of_labelled .functionTaken (fun _ => rfl) reported
  | locals locals => exact setting.carriesOut_enterVariables place locals

theorem carriesOut_enterAll (declarations : List Declaration) :
    CarriesOut σ (declarations.forM (setting.enter place)) (·.enterAll? declarations) := by
  induction declarations with
  | nil => exact CarriesOut.done
  | cons declaration rest ih => exact (setting.carriesOut_enter place declaration).bind ih

/-! ### Entering the declarations of a block -/

variable {block : Block} {host? : Option (Host σ)} {state after : RunState σ}

/-- If no frame declares a name twice, the scopes of the block are added and nothing else changes. -/
theorem run_enterDeclarations (host? : Option (Host σ)) (state : RunState σ)
    (outermost : state.around = []) (distinct : block.owners.Nodup) (once : block.DeclaresOnce) :
    ∃ facts : Facts,
      facts.scoping = state.facts.scoping.append (block.scopes none state.facts.scopes.size)
        block.owners ∧
      (setting.enterDeclarations place block).run host? state =
        .ok (.ok true, { state with facts }) := by
  obtain ⟨facts, same, ran⟩ := (setting.carriesOut_enterAll place block.declarations).enters
    host? state ((block.opens _ _ _ distinct).mpr ⟨once, rfl⟩)
  have isFirst : state.filling.around.head? = none := congrArg List.head? outermost
  refine ⟨facts, isFirst ▸ same, ?_⟩
  rw [enterDeclarations, run_bind, Run.bind_apply, run_ask]
  show (block.declarations.forM (setting.enter place) >>= fun _ => _).run host? state = _
  rw [run_bind, Run.bind_apply, ran]
  show (Except.ok (Except.ok (decide _), _) : Except Fault _) = _
  rw [decide_eq_true rfl]

/-- If some frame declares a name twice, an error is reported. -/
theorem errorCount_of_enterDeclarations (distinct : block.owners.Nodup)
    (twice : ¬block.DeclaresOnce) {outcome : Except Failure Bool}
    (ran : (setting.enterDeclarations place block).run host? state = .ok (outcome, after)) :
    state.reporter.errorCount < after.reporter.errorCount ∧ outcome ≠ .ok true := by
  have carries : CarriesOut σ _ _ := setting.carriesOut_enterAll place block.declarations
  have taken : state.filling.enterAll? block.declarations = none := by
    rw [Option.eq_none_iff_forall_ne_some]
    intro filling entered
    exact twice ((block.opens _ _ _ distinct).mp entered).1
  rw [enterDeclarations, run_bind, Run.bind_apply, run_ask] at ran
  have entering : (block.declarations.forM (setting.enter place) >>= fun _ =>
      isQuietSince state.reporter.errorCount).run host? state = .ok (outcome, after) := ran
  rw [run_bind, Run.bind_apply] at entering
  rcases entered : (block.declarations.forM (setting.enter place)).run host? state with
    fault | ⟨failure | _, middle⟩
  · rw [entered] at entering
    cases entering
  · rw [entered] at entering
    cases entering
    exact ⟨carries.reports host? state taken entered, nofun⟩
  · have more := carries.reports host? state taken entered
    rw [entered] at entering
    have ended : (Except.ok (Except.ok (decide
        (middle.reporter.errorCount = state.reporter.errorCount)), middle) : Except Fault _) =
        .ok (outcome, after) := entering
    cases ended
    rw [decide_eq_false (Nat.ne_of_gt more)]
    exact ⟨more, nofun⟩

/-- A block whose declarations were entered declares no name twice, and its scopes are there. -/
theorem entered_of_run (outermost : state.around = []) (distinct : block.owners.Nodup)
    (ran : (setting.enterDeclarations place block).run host? state = .ok (.ok true, after)) :
    block.DeclaresOnce ∧ ∃ facts : Facts, after = { state with facts } ∧
      facts.scoping = state.facts.scoping.append (block.scopes none state.facts.scopes.size)
        block.owners := by
  by_cases once : block.DeclaresOnce
  · obtain ⟨facts, same, expected⟩ :=
      setting.run_enterDeclarations place host? state outermost distinct once
    rw [expected] at ran
    cases ran
    exact ⟨once, facts, rfl, same⟩
  · exact absurd rfl (setting.errorCount_of_enterDeclarations place distinct once ran).2

theorem entering_enterDeclarations (block : Block) :
    (setting.enterDeclarations place block).Only (·.IsEntering) := by
  have carries : CarriesOut Unit _ _ := setting.carriesOut_enterAll place block.declarations
  exact only_bind (only_ask.mpr trivial) fun _ => only_bind carries.entering fun _ =>
    only_bind (only_ask.mpr trivial) fun _ => only_pure _

/-- Entering declarations notes neither types nor effects. -/
theorem notes_of_enterDeclarations {outcome : Except Failure Bool}
    (ran : (setting.enterDeclarations place block).run host? state = .ok (outcome, after)) :
    after.facts.expressionTypes = state.facts.expressionTypes ∧
      after.facts.sideEffects = state.facts.sideEffects := by
  have keeps := run_keeps (fun state => (state.facts.expressionTypes, state.facts.sideEffects))
    (fun _ _ _ _ => Run.notes_of_answer) (setting.entering_enterDeclarations place block) ran
  exact Prod.mk.inj keeps

end Setting

end YulCheck
