import YulCheck.Proofs.Kept.Analysis
import YulCheck.Proofs.Told.Callees

/-! # What is told about a program

The notable errors of a program can be read off its text: at every point there are those about the calls
in its expression, and the one about its keyword. A check without a host and without a limit of errors
reports them in the order of the points, each of them once.
-/

theorem List.filter_filter_of_imp {α : Type} {first second : α → Bool}
    (implies : ∀ element, second element = true → first element = true) (elements : List α) :
    (elements.filter first).filter second = elements.filter second := by
  rw [List.filter_filter]
  refine List.filter_congr fun element _ => ?_
  cases passes : second element with
  | false => rfl
  | true => rw [implies element passes, Bool.true_and]

namespace YulCheck

variable {σ : Type}

/-- The called names in the expression that a statement evaluates itself. -/
def Statement.callees (statement : Statement) : List Identifier :=
  (statement.expression?.map (·.callees)).getD []

/-- The calls of a program at any depth, with their environments, in the order in which they are
resolved. -/
def Block.calls (block : Block) : List (Environment × Identifier) :=
  (block.points [] false false).flatMap fun point =>
    point.statement.callees.map (point.environment, ·)

/-- The calls are those among the expressions. -/
theorem Block.exists_mem_expressions_iff {block : Block} {environment : Environment}
    {callee : Identifier} :
    (environment, callee) ∈ block.calls ↔
      ∃ id span arguments, (environment, .call id span callee arguments) ∈ block.expressions := by
  have isOwn (node : Expression) : node.ownCallee? = some callee ↔
      ∃ id span arguments, node = .call id span callee arguments := by
    cases node with
    | literal | identifier => exact iff_of_false nofun nofun
    | call id span other arguments =>
      refine ⟨fun same => ?_, ?_⟩
      · cases same
        exact ⟨id, span, arguments, rfl⟩
      · rintro ⟨_, _, _, same⟩
        cases same
        rfl
  have inExpression (expression : Expression) : callee ∈ expression.callees ↔
      ∃ id span arguments, .call id span callee arguments ∈ expression.nodes := by
    rw [← expression.perm_callees.mem_iff, List.mem_filterMap]
    constructor
    · rintro ⟨node, member, owned⟩
      obtain ⟨id, span, arguments, rfl⟩ := (isOwn node).mp owned
      exact ⟨id, span, arguments, member⟩
    · rintro ⟨id, span, arguments, member⟩
      exact ⟨_, member, rfl⟩
  simp only [calls, List.mem_flatMap, List.mem_map, Prod.mk.injEq, mem_expressions_iff]
  constructor
  · rintro ⟨point, isPoint, other, member, rfl, rfl⟩
    rw [Statement.callees] at member
    cases evaluates : point.statement.expression? with
    | none =>
      rw [evaluates] at member
      cases member
    | some value =>
      rw [evaluates] at member
      obtain ⟨id, span, arguments, isNode⟩ := (inExpression value).mp member
      exact ⟨id, span, arguments, point, isPoint, value, evaluates, isNode, rfl⟩
  · rintro ⟨id, span, arguments, point, isPoint, value, evaluates, isNode, rfl⟩
    refine ⟨point, isPoint, callee, ?_, rfl, rfl⟩
    rw [Statement.callees, evaluates]
    exact (inExpression value).mpr ⟨id, span, arguments, isNode⟩

/-- The error about the keyword at a point, if it is in a wrong place. -/
def Point.keywordErrors (point : Point) : List Diagnostic :=
  match point.statement with
  | .break span => if point.inLoop then [] else [(Finding.outsideLoop "break").toDiagnostic span]
  | .continue span =>
    if point.inLoop then [] else [(Finding.outsideLoop "continue").toDiagnostic span]
  | .leave span => if point.inFunction then [] else [Finding.outsideFunction.toDiagnostic span]
  | _ => []

namespace Setting

open Walk

variable {setting : Setting} {place : Place} {environment : Environment}

/-! ### Statements -/

theorem tells_checkSingle (expression : Expression) :
    (setting.checkSingle place expression).Tells environment
      (setting.callErrors environment expression.callees) fun _ => True :=
  .bind_quiet (tells_checkExpression expression) fun _ => quiet_checks.singleType _ _

theorem tells_checkCondition (condition : Expression) :
    (setting.checkCondition place condition).Tells environment
      (setting.callErrors environment condition.callees) fun _ => True :=
  .bind_quiet (tells_checkSingle condition) fun _ => quiet_checks.finishCondition _ _

theorem tells_checkEffect (span : Span) (expression : Expression) :
    (setting.checkEffect place span expression).Tells environment
      (setting.callErrors environment expression.callees) fun _ => True :=
  .quiet_bind (only_ask.mpr (List.forall_mem_nil _)) fun _ =>
    .bind_quiet (tells_checkExpression expression) fun _ => quiet_checks.finishEffect _ _ _

theorem tells_checkDeclaration (span : Span) (locals : List Variable) (value? : Option Expression) :
    (setting.checkDeclaration place span locals value?).Tells environment
      (setting.callErrors environment ((value?.map (·.callees)).getD [])) fun _ => True := by
  have activated : (locals.forM (activateVariable place)).Only (·.IsQuiet) :=
    only_activateVariables fun _ _ => List.forall_mem_nil _
  refine .quiet_bind (only_forM fun _ _ => ?_) fun _ => ?_
  · exact only_bind (only_ask.mpr (List.forall_mem_nil _)) fun _ => only_pure _
  · refine .quiet_bind (only_forM fun _ _ => quiet_checks.checkVariable _) fun _ => ?_
    cases value? with
    | none => exact tells_of_quiet activated
    | some value =>
      have initial : (setting.checkInitialValue place span locals value).Tells environment
          (setting.callErrors environment value.callees) fun _ => True :=
        .bind_quiet (tells_checkExpression value) fun types =>
          quiet_checks.finishDeclaration span locals types
      exact .bind_quiet initial fun _ => activated

theorem tells_checkAssignment (span : Span) (targets : List Identifier) (value : Expression) :
    (setting.checkAssignment place span targets value).Tells environment
      (setting.callErrors environment value.callees) fun _ => True := by
  refine .quiet_bind (only_require _ _) fun _ =>
    .quiet_bind (quiet_checks.checkRepeatedTargets _ _ _) fun _ => ?_
  refine .bind_quiet (tells_checkExpression value) fun types => ?_
  refine only_bind (quiet_checks.assignmentCount _ _ _) fun _ => ?_
  exact quiet_checks.checkTargetTypes (fun _ => List.forall_mem_nil _)
    (fun _ _ => List.forall_mem_nil _) targets types

/-- A keyword is told if it is in a wrong place. -/
theorem tells_keyword {isRight : Bool} {span : Span} {finding : Finding}
    (isError : finding.category.isError = true)
    (isNotable : (finding.toDiagnostic span).isNotable = true) :
    (expect place isRight span (pure finding)).Tells environment
      (if isRight then [] else [finding.toDiagnostic span]) fun _ => True := by
  cases isRight with
  | true => exact .pure trivial
  | false => exact tells_report isError isNotable

/-! ### Blocks -/

/-- The notable errors at a point. -/
def toldAt (setting : Setting) (point : Point) : List Diagnostic :=
  setting.callErrors point.environment point.statement.callees ++ point.keywordErrors

/-- The notable errors of statements at their points. -/
abbrev toldAll (setting : Setting) (points : List Point) : List Diagnostic :=
  points.flatMap setting.toldAt

theorem toldAt_of_keywordless {inLoop inFunction : Bool} {statement : Statement}
    (keywordless : (Point.mk environment inLoop inFunction statement).keywordErrors = []) :
    setting.toldAt ⟨environment, inLoop, inFunction, statement⟩ =
      setting.callErrors environment statement.callees := by
  rw [toldAt, keywordless, List.append_nil]

theorem tells_enterBlock (block : Block) :
    (enterBlock place block).Tells environment [] (· = { place with block := block.id }) := by
  intro errors reported inside ends
  obtain ⟨_, _, _, rfl, asked, ends⟩ := ends_bind_iff.mp ends
  obtain ⟨rfl, _⟩ := ends_ask_iff.mp asked
  obtain ⟨_, _, _, rfl, required, rfl, rfl⟩ := ends_bind_iff.mp ends
  obtain ⟨rfl, _⟩ := ends_require_iff.mp required
  exact ⟨rfl, rfl⟩

mutual

/-- Of a block it is told what is wrong at its points. -/
theorem tells_lexicalBlock (outer : Environment) (place : Place) (block : Block) :
    (setting.lexicalBlock outer place block).Tells
      (setting.toldAll (block.points outer place.inLoop place.inFunction)) fun _ => True := by
  cases block with
  | mk id span statements =>
    rw [lexicalBlock, Block.points]
    refine LexicalWalk.Tells.nil_bind (tells_enterBlock _) fun inside isInside => ?_
    rw [isInside]
    exact tells_lexicalStatements outer statements [] { place with block := id } statements

theorem tells_lexicalStatements (outer : Environment) (all before : List Statement) (place : Place)
    (statements : List Statement) :
    (setting.lexicalStatements outer all before place statements).Tells
      (setting.toldAll
        (statementPoints outer place.inLoop place.inFunction all before statements))
      fun _ => True := by
  cases statements with
  | nil =>
    rw [lexicalStatements, statementPoints]
    exact .pure trivial
  | cons statement rest =>
    rw [lexicalStatements, statementPoints, toldAll, List.flatMap_append]
    exact (tells_lexicalStatement _ place statement).bind fun _ _ =>
      tells_lexicalStatements outer all (statement :: before) place rest

theorem tells_lexicalStatement (environment : Environment) (place : Place) (statement : Statement) :
    (setting.lexicalStatement environment place statement).Tells
      (setting.toldAll (statement.points environment place.inLoop place.inFunction))
      fun _ => True := by
  cases statement with
  | expression span expression =>
    rw [Statement.points, toldAll, List.flatMap_singleton, toldAt_of_keywordless rfl]
    exact tells_checkEffect span expression
  | assignment span targets value =>
    rw [Statement.points, toldAll, List.flatMap_singleton, toldAt_of_keywordless rfl]
    exact tells_checkAssignment span targets value
  | declaration span locals value? =>
    rw [Statement.points, toldAll, List.flatMap_singleton, toldAt_of_keywordless rfl]
    exact tells_checkDeclaration span locals value?
  | function id span name parameters returns body =>
    have header : (setting.checkHeader place id span name parameters returns).Tells environment []
        fun _ => True := tells_of_quiet (quiet_checks.checkHeader (List.forall_mem_nil _) span name
          fun _ _ => List.forall_mem_nil _)
    rw [lexicalStatement, Statement.points, toldAll, List.flatMap_cons, toldAt_of_keywordless rfl]
    exact LexicalWalk.Tells.nil_bind header fun _ _ =>
      tells_lexicalBlock _ { place with inLoop := false, inFunction := true } body
  | conditional span condition body =>
    rw [lexicalStatement, Statement.points, toldAll, List.flatMap_cons, toldAt_of_keywordless rfl]
    exact LexicalWalk.Tells.bind (tells_checkCondition condition) fun _ _ =>
      tells_lexicalBlock environment place body
  | «switch» span scrutinee cases =>
    have onlyDefault : (expect place (!(cases.length = 1 && cases.all (·.value?.isNone))) span
        (pure .onlyDefaultCase)).Tells environment [] fun _ => True :=
      tells_of_quiet (quiet_checks.expect _ _ (only_pure _) rfl)
    rw [lexicalStatement, Statement.points, toldAll, List.flatMap_cons, toldAt_of_keywordless rfl]
    refine LexicalWalk.Tells.nil_bind onlyDefault fun _ _ => ?_
    exact LexicalWalk.Tells.bind (tells_checkSingle scrutinee) fun type _ =>
      tells_lexicalCases environment place type [] cases
  | loop id span pre condition post body =>
    rw [lexicalStatement, Statement.points, toldAll, List.flatMap_append, List.flatMap_append,
      List.flatMap_cons, toldAt_of_keywordless rfl, List.append_assoc, List.append_assoc]
    refine (tells_lexicalBlock environment { place with inLoop := false } pre).bind fun _ _ => ?_
    refine LexicalWalk.Tells.nil_bind (tells_enterBlock pre) fun inside isInside => ?_
    rw [isInside]
    refine LexicalWalk.Tells.bind (tells_checkCondition condition) fun _ _ => ?_
    exact (tells_lexicalBlock _ ⟨pre.id, true, place.inFunction⟩ body).bind fun _ _ =>
      tells_lexicalBlock _ ⟨pre.id, false, place.inFunction⟩ post
  | «break» span | «continue» span | leave span =>
    rw [Statement.points, toldAll, List.flatMap_singleton]
    exact tells_keyword rfl rfl
  | block block =>
    rw [lexicalStatement, Statement.points]
    exact tells_lexicalBlock environment place block

theorem tells_lexicalCases (environment : Environment) (place : Place) (type : TypeHandle)
    (before : List Word) (cases : List Case) :
    (setting.lexicalCases environment place type before cases).Tells
      (setting.toldAll (casePoints environment place.inLoop place.inFunction cases))
      fun _ => True := by
  rcases cases with _ | ⟨⟨span, value?, body⟩, rest⟩
  · rw [lexicalCases, casePoints]
    exact .pure trivial
  · have checked : Walk.Tells (match value? with
        | some literal => setting.checkCaseValue place type before span literal
        | none => pure before : Walk (List Word)) environment [] fun _ => True := by
      cases value? with
      | none => exact .pure trivial
      | some literal => exact tells_of_quiet (quiet_checks.checkCaseValue _ _ _ _)
    rw [lexicalCases.eq_def, casePoints, toldAll, List.flatMap_append]
    dsimp only
    refine LexicalWalk.Tells.nil_bind checked fun values _ => ?_
    exact (tells_lexicalBlock environment place body).bind fun _ _ =>
      tells_lexicalCases environment place type values rest

end

end Setting

/-! ### Classes of errors -/

theorem Diagnostic.not_concernsKeyword {diagnostic : Diagnostic}
    (isOther : diagnostic.concernsCallee = true) : diagnostic.concernsKeyword = false := by
  have distinct : ∀ code ∈ calleeCodes, keywordCodes.contains code = false := by decide
  exact distinct _ (List.contains_iff_mem.mp isOther)

theorem Diagnostic.not_concernsCallee {diagnostic : Diagnostic}
    (isOther : diagnostic.concernsKeyword = true) : diagnostic.concernsCallee = false := by
  have distinct : ∀ code ∈ keywordCodes, calleeCodes.contains code = false := by decide
  exact distinct _ (List.contains_iff_mem.mp isOther)

theorem filter_concernsCallee_filter_isNotable (diagnostics : List Diagnostic) :
    (diagnostics.filter (·.isNotable)).filter (·.concernsCallee) =
      diagnostics.filter (·.concernsCallee) :=
  List.filter_filter_of_imp (fun _ concerns => Bool.or_eq_true_iff.mpr (.inl concerns)) _

theorem filter_concernsKeyword_filter_isNotable (diagnostics : List Diagnostic) :
    (diagnostics.filter (·.isNotable)).filter (·.concernsKeyword) =
      diagnostics.filter (·.concernsKeyword) :=
  List.filter_filter_of_imp (fun _ concerns => Bool.or_eq_true_iff.mpr (.inr concerns)) _

theorem Point.concernsKeyword_of_mem {point : Point} {error : Diagnostic}
    (member : error ∈ point.keywordErrors) : error.concernsKeyword = true := by
  rw [keywordErrors] at member
  split at member
  case h_4 => cases member
  all_goals
    split at member
    · cases member
    · obtain rfl := List.mem_singleton.mp member
      rfl

namespace Setting

variable {setting : Setting}

theorem concernsCallee_of_mem_callErrors {environment : Environment} {callees : List Identifier}
    {error : Diagnostic} (member : error ∈ setting.callErrors environment callees) :
    error.concernsCallee = true := by
  obtain ⟨callee, _, isError⟩ := List.mem_flatMap.mp member
  exact concernsCallee_of_mem_calleeErrors isError

/-- The errors about called functions are those for the calls, one after another. -/
theorem filter_concernsCallee_toldAll (block : Block) :
    (setting.toldAll (block.points [] false false)).filter (·.concernsCallee) =
      block.calls.flatMap fun (environment, callee) => setting.calleeErrors environment callee := by
  rw [toldAll, Block.calls, List.filter_flatMap, List.flatMap_assoc]
  refine List.flatMap_congr fun point _ => ?_
  rw [toldAt, List.filter_append, List.filter_eq_self.mpr fun _ => concernsCallee_of_mem_callErrors,
    List.filter_eq_nil_iff.mpr fun error member => Bool.eq_false_iff.mp
      (error.not_concernsCallee (Point.concernsKeyword_of_mem member)), List.append_nil,
    List.flatMap_map]

/-- The errors about keywords are those of the points, one after another. -/
theorem filter_concernsKeyword_toldAll (points : List Point) :
    (setting.toldAll points).filter (·.concernsKeyword) = points.flatMap (·.keywordErrors) := by
  rw [toldAll, List.filter_flatMap]
  refine List.flatMap_congr fun point _ => ?_
  rw [toldAt, List.filter_append, List.filter_eq_self.mpr fun _ => Point.concernsKeyword_of_mem,
    List.filter_eq_nil_iff.mpr fun error member => Bool.eq_false_iff.mp
      (error.not_concernsKeyword (concernsCallee_of_mem_callErrors member)), List.nil_append]

end Setting

/-! ### Programs -/

theorem not_isNotable_of_mem_warningCodes {diagnostic : Diagnostic}
    (isWarning : diagnostic.code ∈ warningCodes) : diagnostic.isNotable = false := by
  have none : ∀ code ∈ warningCodes,
      (calleeCodes.contains code || keywordCodes.contains code) = false := by decide
  exact none _ isWarning

/-- Warnings are not notable. -/
theorem ConsistsOf.filter_isNotable {errors appended : List Diagnostic}
    (consists : ConsistsOf errors appended) :
    appended.filter (·.isNotable) = errors.filter (·.isNotable) := by
  rw [← consists.errors, List.filter_filter]
  refine List.filter_congr fun diagnostic member => ?_
  cases isError : diagnostic.isError with
  | true => exact (Bool.and_true _).symm
  | false =>
    rw [not_isNotable_of_mem_warningCodes (consists.warnings _ member isError), Bool.false_and]

namespace Checker

variable {checker : Checker} {reporter : Reporter} {facts : Facts} {hostState : σ} {block : Block}
  {analysis : Analysis σ}

/-- A check of a program whose declarations can be entered is a run over its statements, once they were
entered. -/
theorem exists_run_checkBlock {host? : Option (Host σ)} (distinct : block.owners.Nodup)
    (once : block.DeclaresOnce)
    (analyzed : checker.analyze host? reporter facts hostState block = .ok analysis) :
    let state := checker.start reporter facts hostState
    ∃ (entered : Facts) (outcome : Except Failure Unit) (after : RunState σ),
      entered.scoping = facts.scoping.append (block.scopes none facts.scopes.size) block.owners ∧
      (checker.setting.enterDeclarations (checker.place block) block).run host? state =
        .ok (.ok true, { state with facts := entered }) ∧
      (checker.setting.checkBlock (checker.place block) block).run host?
          { state with facts := entered } = .ok (outcome, after) ∧
      analysis.reporter = after.reporter := by
  intro state
  obtain ⟨entered, scoping, entering⟩ :=
    checker.setting.run_enterDeclarations (checker.place block) host? state rfl distinct once
  rw [analyze_eq] at analyzed
  obtain ⟨⟨outcome, after⟩, ran, handedBack⟩ := Except.bind_eq_ok_iff.mp analyzed
  rw [runOver, Setting.checkProgram, Walk.run_bind, Run.bind_apply, entering] at ran
  exact ⟨entered, outcome, after, scoping, entering, ran, (handBack_eq_ok handedBack).1⟩

/-- What a check without a host and without a limit of errors tells about a program whose declarations
can be entered: the notable errors at its points, one after another. -/
theorem exists_told_of_analyze (distinct : block.owners.Nodup) (once : block.DeclaresOnce)
    (earlier : ∀ entry ∈ checker.active, entry.1 < facts.scopes.size)
    (noLimit : reporter.errorLimit? = none)
    (analyzed : checker.analyze none reporter facts hostState block = .ok analysis) :
    ∃ appended,
      analysis.reporter.diagnostics.toList = reporter.diagnostics.toList ++ appended ∧
      appended.filter (·.isNotable) =
        checker.setting.toldAll (block.points [] checker.inLoop checker.inFunction) := by
  obtain ⟨entered, outcome, after, scoping, _, ran, same⟩ :=
    exists_run_checkBlock distinct once analyzed
  let place := checker.place block
  have earlier : ∀ entry ∈ (checker.start reporter facts hostState).active,
      entry.1 < (checker.start reporter facts hostState).facts.scopes.size := earlier
  have agrees := checker.setting.agrees_lexicalBlock none place block distinct once earlier scoping
  have finds : (checker.setting.checkBlock place block).Only Request.ReportsFindings :=
    Setting.findings_blocks.checkBlock place block
  rw [← Setting.erase_lexicalBlock checker.setting []] at ran finds
  obtain ⟨_, reported, appended, _, ends, appends, consists⟩ :=
    LexicalWalk.exists_ends_of_run agrees finds noLimit ran
  obtain ⟨isTold, _⟩ := Setting.tells_lexicalBlock [] place block _ _ _ ends
  exact ⟨appended, same ▸ appends.diagnostics, consists.filter_isNotable.trans isTold⟩

end Checker

end YulCheck
