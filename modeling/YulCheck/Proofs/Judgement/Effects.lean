import YulCheck.Proofs.Judgement.Evaluated
import YulCheck.Proofs.Judgement.Passing

/-! # The effects of a program

An accepted program has the effects of all functions of the dialect that it calls, anywhere and in any
order. They depend on the names of the called functions alone, not on what the names of the program
refer to.
-/

namespace YulCheck

variable {σ α β : Type}

/-! ### Joined effects -/

namespace SideEffects

@[simp]
theorem join_pure (effects : SideEffects) : effects.join pure = effects := by
  rw [join_comm, pure_join]

/-- The effects of all pieces of code together. -/
def joinAll (effects : List SideEffects) : SideEffects := effects.foldr join pure

theorem joinAll_append (first second : List SideEffects) :
    joinAll (first ++ second) = (joinAll first).join (joinAll second) := by
  induction first with
  | nil => exact (pure_join _).symm
  | cons effects rest ih =>
    rw [List.cons_append, joinAll, List.foldr_cons, joinAll, List.foldr_cons, join_assoc]
    exact congrArg effects.join ih

/-- The order of pieces of code does not matter for their effects. -/
theorem joinAll_of_perm {effects others : List SideEffects} (isPermuted : effects.Perm others) :
    joinAll effects = joinAll others := by
  induction isPermuted with
  | nil => rfl
  | cons first _ ih => exact congrArg first.join ih
  | swap first second rest =>
    show second.join (first.join (joinAll rest)) = first.join (second.join (joinAll rest))
    rw [← join_assoc, ← join_assoc, join_comm second first]
  | trans _ _ first second => exact first.trans second

end SideEffects

namespace Setting

variable (setting : Setting)

/-- The effects of calling a name, as far as it is that of a function of the dialect. -/
def calleeEffects (name : Handle) : SideEffects :=
  match setting.names.builtin? name with
  | .ok (some builtin) => builtin.function.effects
  | _ => .pure

/-- The effects of the outermost node of an expression. -/
def nodeEffects : Expression → SideEffects
  | .literal _ | .identifier _ => .pure
  | .call _ _ callee _ => setting.calleeEffects callee.name

/-- The effects of expressions, at any depth. -/
def effectsOf (expressions : List Expression) : SideEffects :=
  .joinAll ((expressions.flatMap (·.nodes)).map setting.nodeEffects)

theorem effectsOf_append (first second : List Expression) :
    setting.effectsOf (first ++ second) =
      (setting.effectsOf first).join (setting.effectsOf second) := by
  rw [effectsOf, List.flatMap_append, List.map_append, SideEffects.joinAll_append]
  rfl

theorem effectsOf_cons (first : Expression) (rest : List Expression) :
    setting.effectsOf (first :: rest) = (setting.effectsOf [first]).join (setting.effectsOf rest) :=
  setting.effectsOf_append [first] rest

theorem effectsOf_of_perm {expressions others : List Expression}
    (isPermuted : expressions.Perm others) :
    setting.effectsOf expressions = setting.effectsOf others :=
  SideEffects.joinAll_of_perm ((isPermuted.flatMap_right _).map _)

/-- A call has its own effects and those of its arguments. -/
theorem effectsOf_call (id : NodeId) (span : Span) (callee : Identifier)
    (arguments : List Expression) :
    setting.effectsOf [.call id span callee arguments] =
      (setting.calleeEffects callee.name).join (setting.effectsOf arguments) := by
  have inOrder : ((argumentNodes arguments).map setting.nodeEffects).Perm
      ((arguments.flatMap (·.nodes)).map setting.nodeEffects) := by
    apply List.Perm.map
    induction arguments with
    | nil => exact .refl _
    | cons argument rest ih =>
      rw [argumentNodes, List.flatMap_cons]
      exact List.perm_append_comm.trans (ih.append_left _)
  rw [effectsOf, List.flatMap_singleton, Expression.nodes, List.map_append,
    SideEffects.joinAll_append, SideEffects.join_comm, SideEffects.joinAll_of_perm inOrder]
  exact congrArg (SideEffects.join · _) (SideEffects.join_pure _)

end Setting

/-! ### Runs -/

namespace Run

/-- No other request changes the effects than that to note some. -/
theorem sideEffects_of_answer {host? : Option (Host σ)} {state after : RunState σ}
    {request : Request} {outcome : Except Failure request.Answer} (quiet : request.NotesNoEffects)
    (answered : answer host? request state = .ok (outcome, after)) :
    after.facts.sideEffects = state.facts.sideEffects := by
  cases request with
  | noteEffects => cases quiet
  | openScope owner =>
    cases answered
    cases owner <;> rfl
  | leaveScope | hasScope | errorCount | noteTypes =>
    cases answered
    rfl
  | resumeScope block =>
    simp only [answer, resumeScope_apply] at answered
    split at answered <;> cases answered
    rfl
  | bind name binding =>
    simp only [answer, bind_request_apply] at answered
    split at answered
    · cases answered
    · split at answered <;> cases answered <;> rfl
  | warnOnce diagnostic =>
    cases answered
    dsimp only
    split <;> rfl
  | lookup block name =>
    simp only [answer, lookup_apply] at answered
    split at answered <;> cases answered
    rfl
  | activate owner name =>
    simp only [answer, activate_apply] at answered
    split at answered <;> cases answered
    rfl
  | report place diagnostic =>
    simp only [answer, report_apply] at answered
    split at answered <;> cases answered <;> rfl
  | consult place identifier use =>
    cases host? with
    | none =>
      cases answered
      rfl
    | some host =>
      simp only [answer, consult_some] at answered
      split at answered <;> cases answered <;> rfl

end Run

namespace Walk

/-- Whether a walk that ends with a result adds effects to those that were noted before. -/
def AddsEffects (host? : Option (Host σ)) (walk : Walk α) (effects : SideEffects) : Prop :=
  ∀ state result after, walk.run host? state = .ok (.ok result, after) →
    after.facts.sideEffects = state.facts.sideEffects.join effects

namespace AddsEffects

variable {host? : Option (Host σ)} {walk : Walk α} {next : α → Walk β}
  {effects first second : SideEffects}

theorem pure (result : α) : (Pure.pure result : Walk α).AddsEffects host? .pure := by
  rintro state _ _ ⟨rfl⟩
  exact (SideEffects.join_pure _).symm

theorem bind (adds : walk.AddsEffects host? first)
    (rest : ∀ result, (next result).AddsEffects host? second) :
    (walk >>= next).AddsEffects host? (first.join second) := by
  intro state last after ran
  rw [run_bind, Run.bind_eq_ok_ok_iff] at ran
  obtain ⟨value, middle, ranFirst, ranNext⟩ := ran
  rw [rest value _ _ _ ranNext, adds _ _ _ ranFirst, SideEffects.join_assoc]

/-- A walk that makes no request to note effects adds none. -/
theorem of_only (quiet : walk.Only (·.NotesNoEffects)) : walk.AddsEffects host? .pure := by
  intro state result after ran
  rw [SideEffects.join_pure]
  exact run_keeps (·.facts.sideEffects) (fun _ _ _ _ => Run.sideEffects_of_answer) quiet ran

theorem of_plain (place : Place) (plain : Setting.IsPlain place walk) :
    walk.AddsEffects host? .pure :=
  of_only (plain.imp fun _ both => both.2)

/-- The first part adds no effects. -/
theorem only_bind (quiet : walk.Only (·.NotesNoEffects))
    (rest : ∀ result, (next result).AddsEffects host? effects) :
    (walk >>= next).AddsEffects host? effects :=
  SideEffects.pure_join effects ▸ (of_only quiet).bind rest

theorem plain_bind (place : Place) (plain : Setting.IsPlain place walk)
    (rest : ∀ result, (next result).AddsEffects host? effects) :
    (walk >>= next).AddsEffects host? effects :=
  only_bind (plain.imp fun _ both => both.2) rest

/-- The second part adds no effects. -/
theorem bind_only (adds : walk.AddsEffects host? effects)
    (rest : ∀ result, (next result).Only (·.NotesNoEffects)) :
    (walk >>= next).AddsEffects host? effects :=
  SideEffects.join_pure effects ▸ adds.bind fun result => of_only (rest result)

theorem bind_plain (adds : walk.AddsEffects host? effects) (place : Place)
    (rest : ∀ result, Setting.IsPlain place (next result)) :
    (walk >>= next).AddsEffects host? effects :=
  adds.bind_only fun result => (rest result).imp fun _ both => both.2

theorem bind_pure (adds : walk.AddsEffects host? effects) {result : α → β} :
    (walk >>= fun value => Pure.pure (result value)).AddsEffects host? effects :=
  SideEffects.join_pure effects ▸ adds.bind fun _ => pure _

/-- What is refused adds nothing. -/
theorem lift_bind {value : Except Fault α}
    (rest : ∀ result, value = .ok result → (next result).AddsEffects host? effects) :
    ((liftM value : Walk α) >>= next).AddsEffects host? effects := by
  cases value with
  | error fault =>
    intro state result after ran
    cases ran
  | ok result => exact rest result rfl

end AddsEffects

end Walk

/-! ### Expressions -/

namespace Setting

open Walk

variable {setting : Setting} {place : Place} {host? : Option (Host σ)}

theorem effectless_checks : AllowsChecks place (·.NotesNoEffects) where
  report _ _ := trivial
  warnOnce _ := trivial
  errorCount := trivial
  noteTypes _ _ := trivial

theorem addsEffects_resolveCallee (errors : Nat) (callee : Identifier) :
    (setting.resolveCallee place errors callee).AddsEffects host?
      (setting.calleeEffects callee.name) := by
  rcases answered : setting.names.builtin? callee.name with fault | _ | builtin
  · rw [resolveCallee, answered]
    intro _ _ _ ran
    cases ran
  · rw [calleeEffects, answered]
    exact .of_plain place (setting.plain_resolveCallee answered errors)
  · rw [calleeEffects, answered, resolveCallee, answered]
    refine .lift_bind fun _ same => ?_
    cases same
    refine .plain_bind place (plain_checks.warnOfUse callee) fun _ => ?_
    refine .plain_bind place (plain_checks.checkTarget callee) fun _ => AddsEffects.bind_pure ?_
    rintro state _ _ ⟨rfl⟩
    rfl

mutual

theorem addsEffects_checkExpression (expression : Expression) :
    (setting.checkExpression place expression).AddsEffects host?
      (setting.effectsOf [expression]) := by
  cases expression with
  | literal constant =>
    rw [checkExpression]
    exact .plain_bind place (plain_checks.checkLiteral constant) fun _ =>
      .of_plain place (only_bind (only_ask.mpr (plain_checks.noteTypes _ _)) fun _ => only_pure _)
  | identifier use =>
    rw [checkExpression]
    exact .plain_bind place (setting.plain_checkIdentifier use) fun _ =>
      .of_plain place (only_bind (only_ask.mpr (plain_checks.noteTypes _ _)) fun _ => only_pure _)
  | call id span callee arguments =>
    rw [checkExpression, effectsOf_call]
    refine .only_bind (only_require _ _) fun _ => .only_bind (only_ask.mpr trivial) fun errors => ?_
    refine (addsEffects_resolveCallee errors callee).bind fun resolved => ?_
    refine .plain_bind place (plain_checks.checkArgumentCount resolved callee _) fun _ => ?_
    exact (addsEffects_checkArguments callee resolved.literals arguments).bind_plain place fun given =>
      plain_checks.finishCall id errors resolved arguments given

theorem addsEffects_checkArguments (callee : Identifier) (required : List (Option LiteralKind))
    (arguments : List Expression) :
    (setting.checkArguments place callee required arguments).AddsEffects host?
      (setting.effectsOf arguments) := by
  cases arguments with
  | nil =>
    rw [checkArguments]
    exact .pure _
  | cons argument rest =>
    -- Arguments are checked from right to left.
    rw [checkArguments, effectsOf_cons, SideEffects.join_comm]
    refine (addsEffects_checkArguments callee required.tail rest).bind fun types => ?_
    dsimp only
    split
    · rename_i literal content
      obtain ⟨rfl, _, _⟩ := contentArgument?_eq_some content
      exact .of_plain place (only_bind (plain_checks.checkStringArgument _ _) fun _ => only_pure _)
    · refine .plain_bind place (plain_checks.checkArgumentKind _ _ _) fun _ => ?_
      exact (addsEffects_checkExpression argument).bind_plain place fun _ =>
        only_bind (plain_checks.singleType _ _) fun _ => only_pure _

end

theorem addsEffects_checkSingle (expression : Expression) :
    (setting.checkSingle place expression).AddsEffects host? (setting.effectsOf [expression]) :=
  (addsEffects_checkExpression expression).bind_plain place fun _ => plain_checks.singleType _ _

theorem addsEffects_checkCondition (condition : Expression) :
    (setting.checkCondition place condition).AddsEffects host? (setting.effectsOf [condition]) :=
  (addsEffects_checkSingle condition).bind_plain place fun type =>
    plain_checks.finishCondition condition type

/-! ### Statements -/

theorem addsEffects_checkEffect (span : Span) (expression : Expression) :
    (setting.checkEffect place span expression).AddsEffects host?
      (setting.effectsOf [expression]) := by
  refine .only_bind (only_ask.mpr trivial) fun errors => ?_
  exact (addsEffects_checkExpression expression).bind_plain place fun types =>
    plain_checks.finishEffect span errors types

theorem addsEffects_checkInitialValue (span : Span) (locals : List Variable) (value : Expression) :
    (setting.checkInitialValue place span locals value).AddsEffects host?
      (setting.effectsOf [value]) :=
  (addsEffects_checkExpression value).bind_plain place fun types =>
    plain_checks.finishDeclaration span locals types

theorem addsEffects_checkDeclaration (span : Span) (locals : List Variable)
    (value? : Option Expression) :
    (setting.checkDeclaration place span locals value?).AddsEffects host?
      (setting.effectsOf value?.toList) := by
  have asked : IsPlain place (locals.forM fun declared =>
      discard (consult place declared.toIdentifier .declare)) :=
    only_forM fun _ _ => only_bind (plain_consult _ _) fun _ => only_pure _
  have activated : (locals.forM (activateVariable place)).Only (·.NotesNoEffects) :=
    only_activateVariables fun _ _ => trivial
  refine .plain_bind place asked fun _ => .plain_bind place (only_forM fun declared _ =>
    plain_checks.checkVariable declared) fun _ => ?_
  cases value? with
  | none => exact .of_only activated
  | some value => exact (addsEffects_checkInitialValue span locals value).bind_only fun _ => activated

theorem addsEffects_checkAssignment (span : Span) (targets : List Identifier) (value : Expression) :
    (setting.checkAssignment place span targets value).AddsEffects host?
      (setting.effectsOf [value]) := by
  refine .only_bind (only_require _ _) fun _ =>
    .plain_bind place (plain_checks.checkRepeatedTargets _ _ _) fun _ => ?_
  exact (addsEffects_checkExpression value).bind_plain place fun _ =>
    only_bind (plain_checks.assignmentCount _ _ _) fun _ =>
      plain_checks.checkTargetTypes (fun _ => ⟨.lookup _, trivial⟩)
        (fun _ _ => ⟨.consult _ _, trivial⟩) targets _

/-! ### Blocks -/

mutual

theorem addsEffects_checkBlock (place : Place) (block : Block) :
    (setting.checkBlock place block).AddsEffects host? (setting.effectsOf block.evaluated) := by
  cases block with
  | mk id span statements =>
    rw [checkBlock, Block.evaluated]
    exact .only_bind (only_enterBlock trivial) fun inside => addsEffects_checkStatements inside statements

theorem addsEffects_checkStatements (place : Place) (statements : List Statement) :
    (setting.checkStatements place statements).AddsEffects host?
      (setting.effectsOf (statementsEvaluated statements)) := by
  cases statements with
  | nil =>
    rw [checkStatements]
    exact .pure _
  | cons statement rest =>
    rw [checkStatements, statementsEvaluated, effectsOf_append]
    exact (addsEffects_checkStatement place statement).bind fun _ =>
      addsEffects_checkStatements place rest

theorem addsEffects_checkStatement (place : Place) (statement : Statement) :
    (setting.checkStatement place statement).AddsEffects host?
      (setting.effectsOf statement.evaluated) := by
  cases statement with
  | expression span expression =>
    rw [checkStatement]
    exact addsEffects_checkEffect span expression
  | assignment span targets value =>
    rw [checkStatement]
    exact addsEffects_checkAssignment span targets value
  | declaration span locals value? =>
    rw [checkStatement]
    exact addsEffects_checkDeclaration span locals value?
  | function id span name parameters returns body =>
    rw [checkStatement]
    refine .only_bind ?_ fun _ => addsEffects_checkBlock _ body
    exact effectless_checks.checkHeader trivial span name fun _ _ => trivial
  | conditional span condition body =>
    rw [checkStatement, Statement.evaluated, effectsOf_cons]
    exact (addsEffects_checkCondition condition).bind fun _ => addsEffects_checkBlock place body
  | «switch» span scrutinee cases =>
    rw [checkStatement, Statement.evaluated, effectsOf_cons]
    refine .plain_bind place (plain_checks.expect _ _ (only_pure _)) fun _ => ?_
    exact (addsEffects_checkSingle scrutinee).bind fun type => addsEffects_checkCases place type [] cases
  | loop id span pre condition post body =>
    rw [checkStatement, Statement.evaluated, effectsOf_append, effectsOf_append, effectsOf_cons,
      SideEffects.join_assoc, SideEffects.join_assoc]
    refine (addsEffects_checkBlock _ pre).bind fun _ => .only_bind (only_enterBlock trivial) fun inside => ?_
    refine (addsEffects_checkCondition condition).bind fun _ => ?_
    exact (addsEffects_checkBlock _ body).bind fun _ => addsEffects_checkBlock inside post
  | «break» | «continue» | leave =>
    rw [checkStatement]
    exact .of_plain place (plain_checks.expect _ _ (only_pure _))
  | block block =>
    rw [checkStatement, Statement.evaluated]
    exact addsEffects_checkBlock place block

theorem addsEffects_checkCases (place : Place) (type : TypeHandle) (before : List Word)
    (cases : List Case) :
    (setting.checkCases place type before cases).AddsEffects host?
      (setting.effectsOf (casesEvaluated cases)) := by
  rcases cases with _ | ⟨⟨span, _ | literal, body⟩, rest⟩
  · rw [checkCases]
    exact .pure _
  · rw [checkCases, casesEvaluated, effectsOf_append]
    exact (addsEffects_checkBlock place body).bind fun _ =>
      addsEffects_checkCases place type before rest
  · rw [checkCases, casesEvaluated, effectsOf_append]
    refine .plain_bind place (plain_checks.checkCaseValue type before span literal) fun values => ?_
    exact (addsEffects_checkBlock place body).bind fun _ =>
      addsEffects_checkCases place type values rest

end

/-- A run over a program without an error adds the effects of all that the program evaluates. -/
theorem sideEffects_of_checkProgram {block : Block} {state after : RunState Unit}
    (passes : (setting.checkProgram place block).Passes state () after) :
    after.facts.sideEffects = state.facts.sideEffects.join (setting.effectsOf block.evaluated) := by
  obtain ⟨isEntered, middle, entering, checking⟩ := passes_bind_iff.mp passes
  have isOnce : isEntered = true := by
    obtain ⟨errors, first, counted, entered⟩ := passes_bind_iff.mp entering
    obtain ⟨_, last, enters, ended⟩ := passes_bind_iff.mp entered
    obtain ⟨rfl, rfl⟩ := passes_errorCount_iff.mp counted
    obtain ⟨rfl, _⟩ := passes_isQuietSince_iff.mp ended
    exact decide_eq_true enters.quiet
  subst isOnce
  rw [← (setting.notes_of_enterDeclarations place entering.ran).2]
  exact addsEffects_checkBlock place block _ _ _ checking.ran

end Setting

end YulCheck
