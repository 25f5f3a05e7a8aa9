import YulCheck.Check.Run
import YulCheck.Proofs.Scope.Growth

/-! # What a run keeps

How one part of a run follows another, what carrying out a single request changes, and what a walk
keeps that makes only requests of some kind. The scopes are entered before anything is checked, so
the checks themselves change neither the scopes nor, apart from declarations, which variables can be
used.
-/

namespace YulCheck

variable {σ α β : Type}

namespace Run

@[simp]
theorem get_apply (state : RunState σ) :
    (get : Run σ (RunState σ)) state = .ok (.ok state, state) := rfl

theorem bind_apply (first : Run σ α) (next : α → Run σ β) (state : RunState σ) :
    (first >>= next) state =
      match first state with
      | .error fault => .error fault
      | .ok (.error failure, after) => .ok (.error failure, after)
      | .ok (.ok result, after) => next result after := by
  simp only [Bind.bind, ExceptT.bind, ExceptT.mk, StateT.bind, Except.bind]
  rcases first state with fault | ⟨failure | result, after⟩ <;> rfl

/-- Two parts of a run end with a result if the first of them does and then the second. -/
theorem bind_eq_ok_ok_iff {first : Run σ α} {next : α → Run σ β} {state after : RunState σ}
    {result : β} :
    (first >>= next) state = .ok (.ok result, after) ↔
      ∃ value middle, first state = .ok (.ok value, middle) ∧
        next value middle = .ok (.ok result, after) := by
  rw [bind_apply]
  rcases first state with fault | ⟨failure | value, middle⟩
  · simp
  · simp
  · constructor
    · exact fun ran => ⟨value, middle, rfl, ran⟩
    · rintro ⟨_, _, same, ran⟩
      cases same
      exact ran

end Run

namespace Walk

variable (host? : Option (Host σ))

theorem run_step (request : Request) (next : request.Answer → Walk α) :
    (step request next).run host? =
      Run.answer host? request >>= fun answer => (next answer).run host? := rfl

variable {host?} in
/-- Two walks end with a result if the first of them does and then the second. -/
theorem run_bind_eq_ok_ok_iff {walk : Walk α} {next : α → Walk β} {state after : RunState σ}
    {result : β} :
    (walk >>= next).run host? state = .ok (.ok result, after) ↔
      ∃ value middle, walk.run host? state = .ok (.ok value, middle) ∧
        (next value).run host? middle = .ok (.ok result, after) := by
  rw [run_bind, Run.bind_eq_ok_ok_iff]

/-! ### Walks that make only some requests -/

/-- Whether a walk makes only requests of some kind, whatever the answers are. -/
def Only (allowed : Request → Prop) : Walk α → Prop
  | done _ | broken _ => True
  | step request next => allowed request ∧ ∀ answer, (next answer).Only allowed

variable {allowed : Request → Prop}

@[simp]
theorem only_pure (result : α) : (pure result : Walk α).Only allowed := trivial

@[simp]
theorem only_ask {request : Request} : (ask request).Only allowed ↔ allowed request :=
  ⟨fun only => only.1, fun holds => ⟨holds, fun _ => trivial⟩⟩

theorem only_bind {walk : Walk α} {next : α → Walk β} (first : walk.Only allowed)
    (rest : ∀ result, (next result).Only allowed) : (walk >>= next).Only allowed := by
  induction walk with
  | done result => exact rest result
  | broken => trivial
  | step request answered ih => exact ⟨first.1, fun answer => ih answer (first.2 answer)⟩

@[simp]
theorem only_lift (value : Except Fault α) : (liftM value : Walk α).Only allowed := by
  cases value <;> trivial

@[simp]
theorem only_require (condition : Bool) (fault : Fault) :
    (require condition fault).Only allowed := by
  unfold require
  split <;> trivial

theorem only_forM {elements : List β} {visit : β → Walk Unit}
    (each : ∀ element ∈ elements, (visit element).Only allowed) :
    (elements.forM visit).Only allowed := by
  induction elements with
  | nil => trivial
  | cons element rest ih =>
    exact only_bind (each element List.mem_cons_self) fun _ =>
      ih fun other member => each other (List.mem_cons_of_mem _ member)

theorem Only.imp {weaker : Request → Prop} {walk : Walk α} (only : walk.Only allowed)
    (implies : ∀ request, allowed request → weaker request) : walk.Only weaker := by
  induction walk with
  | done | broken => trivial
  | step request next ih => exact ⟨implies request only.1, fun answer => ih answer (only.2 answer)⟩

theorem only_of_forall (every : ∀ request, allowed request) (walk : Walk α) :
    walk.Only allowed := by
  induction walk with
  | done | broken => trivial
  | step request next ih => exact ⟨every request, ih⟩

/-- Whether all results of a walk have a property, whatever the answers are. -/
def Yields (property : α → Prop) : Walk α → Prop
  | done result => property result
  | broken _ => True
  | step _ next => ∀ answer, (next answer).Yields property

theorem yields_bind {property : β → Prop} {walk : Walk α} {next : α → Walk β}
    (rest : ∀ result, (next result).Yields property) : (walk >>= next).Yields property := by
  induction walk with
  | done result => exact rest result
  | broken => trivial
  | step request answered ih => exact ih

theorem only_bind_of_yields {property : α → Prop} {walk : Walk α} {next : α → Walk β}
    (yields : walk.Yields property) (first : walk.Only allowed)
    (rest : ∀ result, property result → (next result).Only allowed) :
    (walk >>= next).Only allowed := by
  induction walk with
  | done result => exact rest result yields
  | broken => trivial
  | step request answered ih =>
    exact ⟨first.1, fun answer => ih answer (yields answer) (first.2 answer)⟩

/-- How every allowed request changes the state, a walk changes it that makes only those. -/
theorem run_relates (relation : RunState σ → RunState σ → Prop) {host? : Option (Host σ)}
    (refl : ∀ state, relation state state)
    (trans : ∀ first second third, relation first second → relation second third →
      relation first third)
    (each : ∀ (request : Request) (state after : RunState σ) outcome, allowed request →
      Run.answer host? request state = .ok (outcome, after) → relation state after)
    {walk : Walk α} (only : walk.Only allowed) {state after : RunState σ}
    {outcome : Except Failure α} (ran : walk.run host? state = .ok (outcome, after)) :
    relation state after := by
  induction walk generalizing state with
  | done result =>
    cases ran
    exact refl _
  | broken fault => cases ran
  | step request next ih =>
    rw [run_step, Run.bind_apply] at ran
    rcases answered : Run.answer host? request state with fault | ⟨failure | answer, middle⟩
    · rw [answered] at ran
      cases ran
    · rw [answered] at ran
      cases ran
      exact each request state _ _ only.1 answered
    · rw [answered] at ran
      exact trans _ _ _ (each request state _ _ only.1 answered) (ih answer (only.2 answer) ran)

/-- What every allowed request keeps, a walk keeps that makes only those. -/
theorem run_keeps {τ : Type} (view : RunState σ → τ) {host? : Option (Host σ)}
    (each : ∀ (request : Request) (state after : RunState σ) outcome, allowed request →
      Run.answer host? request state = .ok (outcome, after) → view after = view state)
    {walk : Walk α} (only : walk.Only allowed) {state after : RunState σ}
    {outcome : Except Failure α} (ran : walk.run host? state = .ok (outcome, after)) :
    view after = view state :=
  run_relates (fun state after => view after = view state) (fun _ => rfl)
    (fun _ _ _ first second => second.trans first) each only ran

end Walk

/-! ### What single requests change -/

/-- Whether a request is made while the scopes stay what they are. -/
def Request.KeepsScopes : Request → Prop
  | .openScope _ | .resumeScope _ | .leaveScope | .bind .. => False
  | _ => True

/-- Whether a request concerns the program alone, not its host. -/
def Request.IsOwn : Request → Prop
  | .consult .. => False
  | _ => True

/-- Whether a request concerns the statements of one block and no declaration. -/
def Request.StaysIn (block : NodeId) : Request → Prop
  | .lookup inBlock _ => inBlock = block
  | .consult place .. => place.block = block
  | .openScope _ | .resumeScope _ | .leaveScope | .bind .. | .hasScope _ | .activate .. => False
  | _ => True

/-- The requests of the checks inside of a statement. -/
inductive Request.IsLocal (place : Place) : Request → Prop
  | lookup (name : Handle) : IsLocal place (.lookup place.block name)
  | errorCount : IsLocal place .errorCount
  | report (finding : Finding) (span : Span) :
    IsLocal place (.report place (finding.toDiagnostic span))
  | warnOnce (span : Span) :
    IsLocal place (.warnOnce (Finding.transientStorage.toDiagnostic span))
  | consult (identifier : Identifier) (use : IdentifierUse) :
    IsLocal place (.consult place identifier use)
  | noteTypes (expression : NodeId) (types : List TypeHandle) :
    IsLocal place (.noteTypes expression types)
  | noteEffects (effects : SideEffects) : IsLocal place (.noteEffects effects)

/-- Whether a request tells nobody anything: nothing is reported, and the host is not asked. -/
def Request.TellsNothing : Request → Prop
  | .report .. | .warnOnce _ | .consult .. => False
  | _ => True

/-- Whether a request is not one to note effects. -/
def Request.NotesNoEffects : Request → Prop
  | .noteEffects _ => False
  | _ => True

theorem Request.IsLocal.staysIn {place : Place} {request : Request}
    (isLocal : request.IsLocal place) : request.StaysIn place.block := by
  cases isLocal with
  | lookup | consult => rfl
  | errorCount | report | warnOnce | noteTypes | noteEffects => trivial

theorem Request.StaysIn.keepsScopes {block : NodeId} {request : Request}
    (stays : request.StaysIn block) : request.KeepsScopes := by
  cases request <;> trivial

namespace Run

variable {host? : Option (Host σ)} {state after : RunState σ}

theorem scopeOf_apply (owner : ScopeOwner) (state : RunState σ) :
    scopeOf owner state =
      match state.facts.scopeOf? owner with
      | some scope => .ok (.ok scope, state)
      | none => .error .scopeMissing := by
  show (match (state.facts.scopeOf? owner : Option ScopeId) with
    | some scope => (pure scope : Run σ ScopeId)
    | none => Run.fault .scopeMissing) state = _
  cases state.facts.scopeOf? owner <;> rfl

theorem openScope_apply (owner : ScopeOwner) (state : RunState σ) :
    openScope owner state =
      .ok (.ok (), { state with
        facts := state.facts.openScope owner state.around.head?
        around := state.facts.scopes.size :: state.around }) := rfl

theorem resumeScope_apply (block : NodeId) (state : RunState σ) :
    resumeScope block state =
      match state.facts.scopeOf? (.block block) with
      | some scope => .ok (.ok (), { state with around := scope :: state.around })
      | none => .error .scopeMissing := by
  rw [resumeScope, bind_apply, scopeOf_apply]
  cases state.facts.scopeOf? (.block block) <;> rfl

theorem leaveScope_apply (state : RunState σ) :
    leaveScope state = .ok (.ok (), { state with around := state.around.tail }) := rfl

theorem bind_request_apply (name : Handle) (binding : Binding) (state : RunState σ) :
    bind name binding state =
      match state.around with
      | [] => .error .declaredOutside
      | scope :: _ =>
        match state.facts.scopes.bind? scope name binding with
        | some scopes =>
          .ok (.ok true, { state with facts := { state.facts with scopes } })
        | none => .ok (.ok false, state) := by
  rw [bind, bind_apply, get_apply]
  rcases state with ⟨reporter, facts, hostState, _ | ⟨scope, outer⟩, active, inLoop, inFunction⟩
  · rfl
  · dsimp only
    cases facts.scopes.bind? scope name binding <;> rfl

theorem lookup_apply (block : NodeId) (name : Handle) (state : RunState σ) :
    lookup block name state =
      match state.facts.scopeOf? (.block block) with
      | some scope =>
        .ok (.ok ((state.facts.scopes.lookup? scope name).map fun (found, binding) =>
          ⟨binding, state.active.contains (found, name)⟩), state)
      | none => .error .scopeMissing := by
  rw [lookup, bind_apply, scopeOf_apply]
  cases state.facts.scopeOf? (.block block) <;> rfl

theorem activate_apply (owner : ScopeOwner) (name : Handle) (state : RunState σ) :
    activate owner name state =
      match state.facts.scopeOf? owner with
      | some scope =>
        .ok (.ok (((state.facts.scopes.get? scope).bind (·.get? name)).any (·.isVariable)),
          { state with active := (scope, name) :: state.active })
      | none => .error .scopeMissing := by
  rw [activate, bind_apply, scopeOf_apply]
  cases state.facts.scopeOf? owner <;> rfl

theorem report_apply (place : Place) (diagnostic : Diagnostic) (state : RunState σ) :
    report place diagnostic state =
      match state.reporter.report diagnostic with
      | (.ok _, reporter) => .ok (.ok (), { state with reporter })
      | (.error failure, reporter) =>
        .ok (.error failure,
          { state with reporter, inLoop := place.inLoop, inFunction := place.inFunction }) := by
  rw [report, bind_apply, get_apply]
  dsimp only
  rcases state.reporter.report diagnostic with ⟨outcome, reporter⟩
  cases outcome with
  | ok result => rfl
  | error failure => rfl

theorem consult_none (place : Place) (identifier : Identifier) (use : IdentifierUse)
    (state : RunState σ) :
    consult none place identifier use state = .ok (.ok false, state) := rfl

theorem consult_some (host : Host σ) (place : Place) (identifier : Identifier)
    (use : IdentifierUse) (state : RunState σ) :
    consult (some host) place identifier use state =
      match host ⟨identifier, use, (state.facts.scopeOf? (.block place.block)).any
          state.facts.scopes.isInFunction⟩ (state.reporter, state.hostState) with
      | .error fault => .error fault
      | .ok (.ok isKnown, reporter, hostState) =>
        .ok (.ok isKnown, { state with reporter, hostState })
      | .ok (.error failure, reporter, hostState) =>
        .ok (.error failure,
          { state with
            reporter, hostState, inLoop := place.inLoop, inFunction := place.inFunction }) := by
  rw [consult, bind_apply, get_apply]
  dsimp only
  rcases host _ (state.reporter, state.hostState) with fault | ⟨answer, reporter, hostState⟩
  · rfl
  · cases answer with
    | ok isKnown => rfl
    | error failure => rfl

/-- A request that tells nothing does not stop a run, and changes only what is known about the program. -/
theorem exists_of_answer {request : Request} {outcome : Except Failure request.Answer}
    (tellsNothing : request.TellsNothing)
    (answered : answer host? request state = .ok (outcome, after)) :
    (∃ given, outcome = .ok given) ∧
      ∃ facts around active, after = { state with facts, around, active } := by
  cases request with
  | report | warnOnce | consult => cases tellsNothing
  | openScope | leaveScope | hasScope | errorCount | noteTypes | noteEffects =>
    cases answered
    exact ⟨⟨_, rfl⟩, _, _, _, rfl⟩
  | resumeScope block =>
    simp only [answer, resumeScope_apply] at answered
    split at answered <;> cases answered
    exact ⟨⟨_, rfl⟩, _, _, _, rfl⟩
  | bind name binding =>
    simp only [answer, bind_request_apply] at answered
    split at answered
    · cases answered
    · split at answered <;> cases answered <;> exact ⟨⟨_, rfl⟩, _, _, _, rfl⟩
  | lookup block name =>
    simp only [answer, lookup_apply] at answered
    split at answered <;> cases answered
    exact ⟨⟨_, rfl⟩, _, _, _, rfl⟩
  | activate owner name =>
    simp only [answer, activate_apply] at answered
    split at answered <;> cases answered
    exact ⟨⟨_, rfl⟩, _, _, _, rfl⟩

/-- Only the requests that enter declarations change the scopes. -/
theorem scoping_of_answer {request : Request} {outcome : Except Failure request.Answer}
    (keeps : request.KeepsScopes)
    (answered : answer host? request state = .ok (outcome, after)) :
    after.facts.scoping = state.facts.scoping := by
  cases request with
  | openScope | resumeScope | leaveScope | bind => cases keeps
  | hasScope | errorCount | noteTypes | noteEffects =>
    cases answered
    rfl
  | warnOnce diagnostic =>
    cases answered
    dsimp only
    split <;> rfl
  | lookup block name =>
    simp only [answer, lookup_apply] at answered
    split at answered <;> cases answered
    rfl
  | activate owner name =>
    simp only [answer, activate_apply] at answered
    split at answered <;> cases answered
    rfl
  | report place diagnostic =>
    simp only [answer, report_apply] at answered
    split at answered <;> cases answered <;> rfl
  | consult place identifier use =>
    cases host? with
    | none =>
      cases answered
      rfl
    | some host =>
      simp only [answer, consult_some] at answered
      split at answered <;> cases answered <;> rfl

/-- Only declarations change which variables can be used. -/
theorem active_of_answer {block : NodeId} {request : Request}
    {outcome : Except Failure request.Answer} (stays : request.StaysIn block)
    (answered : answer host? request state = .ok (outcome, after)) :
    after.active = state.active := by
  cases request with
  | openScope | resumeScope | leaveScope | bind | hasScope | activate => cases stays
  | errorCount | noteTypes | noteEffects =>
    cases answered
    rfl
  | warnOnce diagnostic =>
    cases answered
    dsimp only
    split <;> rfl
  | lookup block name =>
    simp only [answer, lookup_apply] at answered
    split at answered <;> cases answered
    rfl
  | report place diagnostic =>
    simp only [answer, report_apply] at answered
    split at answered <;> cases answered <;> rfl
  | consult place identifier use =>
    cases host? with
    | none =>
      cases answered
      rfl
    | some host =>
      simp only [answer, consult_some] at answered
      split at answered <;> cases answered <;> rfl

theorem reporter_of_report {place : Place} {diagnostic : Diagnostic}
    {outcome : Except Failure Unit}
    (reported : report place diagnostic state = .ok (outcome, after)) :
    after.reporter = (state.reporter.report diagnostic).2 := by
  rw [report_apply] at reported
  split at reported <;> rename_i same <;> cases reported <;> rw [same]

/-- The number of errors never falls, apart from what a host does to it. -/
theorem errorCount_of_answer {request : Request} {outcome : Except Failure request.Answer}
    (own : request.IsOwn ∨ host? = none)
    (answered : answer host? request state = .ok (outcome, after)) :
    state.reporter.errorCount ≤ after.reporter.errorCount := by
  cases request with
  | consult =>
    rcases own with own | rfl
    · cases own
    · cases answered
      exact Nat.le_refl _
  | warnOnce diagnostic =>
    cases answered
    dsimp only
    split
    · exact Nat.le_refl _
    · exact Nat.le_of_eq (Reporter.errorCount_reportWarning _ _).symm
  | report place diagnostic =>
    rw [reporter_of_report answered, Reporter.errorCount_report]
    split <;> omega
  | _ =>
    obtain ⟨_, _, _, _, rfl⟩ := exists_of_answer (by trivial) answered
    exact Nat.le_refl _

/-- A reported error is counted. -/
theorem errorCount_of_report {place : Place} (diagnostic : Diagnostic) (isError : diagnostic.isError)
    {outcome : Except Failure Unit} (reported : report place diagnostic state = .ok (outcome, after)) :
    after.reporter.errorCount = state.reporter.errorCount + 1 := by
  rw [reporter_of_report reported, Reporter.errorCount_report, if_pos isError]

end Run

/-- The number of errors never falls while a walk is carried out that asks no host. -/
theorem Walk.errorCount_of_run {host? : Option (Host σ)} {walk : Walk α}
    (own : walk.Only fun request => request.IsOwn ∨ host? = none) {state after : RunState σ}
    {outcome : Except Failure α} (ran : walk.run host? state = .ok (outcome, after)) :
    state.reporter.errorCount ≤ after.reporter.errorCount :=
  run_relates (fun state after => state.reporter.errorCount ≤ after.reporter.errorCount)
    (fun _ => Nat.le_refl _) (fun _ _ _ => Nat.le_trans)
    (fun _ _ _ _ => Run.errorCount_of_answer) own ran

end YulCheck
