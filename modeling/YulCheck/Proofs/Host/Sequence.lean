import YulCheck.Proofs.Hoist.Acceptance
import YulCheck.Proofs.Host.Questions
import YulCheck.Proofs.Host.Unstopped
import YulCheck.Proofs.Occurrence.Parts

/-! # What a host is asked does not depend on what it answers

Every check puts the questions to the host that can be read off the program. Answers and reports of the
host change types and errors, but neither the number of the values of an expression nor the way through
the program. So two hosts that answer all questions are asked the same.
-/

namespace YulCheck

variable {σ τ : Type}

namespace Setting

open Walk

variable {setting : Setting} {place : Place} {environment : Environment} {errors : Nat}
  {queries : List Query}

/-! ### Expressions -/

theorem asks_checkIdentifier (identifier : Identifier) :
    (setting.checkIdentifier place identifier).Asks environment
      [environment.query identifier .read] fun types => types.length = 1 := by
  refine .own_bind (only_require _ _) fun _ => .own_bind (only_ask.mpr trivial) fun errors => ?_
  refine .lookup_bind ?_
  rw [Environment.query]
  rcases environment.lookup? identifier.name with _ | ⟨type | ⟨parameters, returns⟩, isActive⟩
  · refine .consult_bind fun isKnown => .own_bind (only_isQuietSince trivial _) fun _ => ?_
    refine .own_bind (own_checks.expect _ _ ?_) fun _ => .pure rfl
    exact only_bind (only_lift _) fun _ => only_pure _
  · refine .own_bind (own_checks.expect _ _ ?_) fun _ => .consult_bind fun _ => .pure rfl
    exact only_bind (only_lift _) fun _ => only_pure _
  · exact .lift_bind fun label _ => .own_bind (only_ask.mpr trivial) fun _ =>
      .consult_bind fun _ => .pure rfl

theorem asks_checkInstruction (instruction : Instruction) (span : Span) :
    (setting.checkInstruction place instruction span).Asks environment []
      (· = setting.isBarred instruction) := by
  rw [checkInstruction]
  cases gated : Gate.barring? setting.version instruction with
  | some gate =>
    refine .own_bind (only_ask.mpr trivial) fun _ => .pure ?_
    rw [isBarred, gated]
    rfl
  | none =>
    have isBarred : setting.isBarred instruction = decide (instruction = .pc) := by
      rw [isBarred, gated]
      rfl
    dsimp only
    split
    · rename_i isPc
      exact .own_bind (only_ask.mpr trivial) fun _ => .pure (isBarred.trans (decide_eq_true isPc)).symm
    · rename_i notPc
      exact .pure (isBarred.trans (decide_eq_false notPc)).symm

theorem asks_checkTarget (callee : Identifier) :
    (setting.checkTarget place callee).Asks environment []
      (· = setting.isRefused callee.name) := by
  refine .lift_bind fun isAlias aliased => .lift_bind fun isVerbatim verbatim => ?_
  rw [isRefused]
  by_cases isHidden : (isAlias && !isVerbatim) = true
  · -- An alias has no label until one is generated.
    rw [if_pos isHidden]
    rw [Bool.and_eq_true, Bool.not_eq_true'] at isHidden
    rw [isHidden.1] at aliased
    rw [isHidden.2] at verbatim
    refine .pure ?_
    cases labelled : setting.names.label callee.name with
    | error fault => rfl
    | ok label => exact absurd labelled (NameTable.label_ne_ok_of_alias aliased verbatim label)
  · rw [if_neg isHidden]
    refine .lift_bind fun label labelled => ?_
    rw [labelled]
    dsimp only
    cases (Instruction.ofName? label).filter (·.isCallable .default) with
    | none => exact .pure rfl
    | some instruction => exact asks_checkInstruction instruction callee.span

theorem asks_resolveCallee (callee : Identifier) :
    (setting.resolveCallee place errors callee).Asks environment
      (setting.calleeQueries environment callee)
      (·.signature? = setting.signature? environment callee.name) := by
  refine .lift_bind fun builtin? found => ?_
  rw [calleeQueries, signature?, found]
  cases builtin? with
  | some builtin =>
    refine .own_bind (own_checks.warnOfUse callee) fun _ => ?_
    refine .own_bind (own_checks.checkTarget callee) fun _ => ?_
    exact .own_bind (only_ask.mpr trivial) fun _ => .pure rfl
  | none =>
    refine .lookup_bind ?_
    rw [Environment.query]
    rcases environment.lookup? callee.name with _ | ⟨type | ⟨parameters, returns⟩, isActive⟩
    · refine .nil_bind (asks_checkTarget callee) fun isRefused same => ?_
      rw [← same]
      cases isRefused with
      | true => exact .pure rfl
      | false =>
        refine .consult_bind fun isExternal => .own_bind (only_isQuietSince trivial _) fun _ => ?_
        refine .own_bind (own_checks.expect _ _ ?_) fun _ => ?_
        · exact only_bind (only_lift _) fun _ => only_pure _
        · exact .own_bind (only_isQuietSince trivial _) fun _ =>
            .own_bind (only_require _ _) fun _ => .pure rfl
    · exact .own_bind (only_ask.mpr trivial) fun _ => .consult_bind fun _ => .pure rfl
    · exact .consult_bind fun _ => .pure rfl

/-- After a mistake a call has as many values as without one. -/
theorem asks_callTypes (callee : Callee) (given : Nat) :
    (setting.callTypes errors callee given).Asks environment []
      fun types => types.length = (callee.signature?.map (·.2.length)).getD 0 := by
  refine .own_bind (only_isQuietSince trivial _) fun isQuiet => ?_
  cases isQuiet with
  | true =>
    refine .own_bind (only_require _ _) fun _ => .pure ?_
    cases callee.signature? <;> rfl
  | false =>
    refine .pure ?_
    rcases callee.signature? with _ | ⟨parameters, returns⟩
    · rfl
    · exact List.length_map _

theorem asks_checkLiteral (literal : Literal) :
    (setting.checkLiteral place literal).Asks environment [] fun types => types.length = 1 := by
  refine .own_bind (own_checks.checkType _ _) fun _ => ?_
  refine .own_bind (own_checks.checkValue _) fun _ => ?_
  refine .own_bind (own_checks.expect _ _ ?_) fun _ =>
    .own_bind (only_require _ _) fun _ => .pure rfl
  exact only_bind (only_lift _) fun _ => only_pure _

/-- Types are noted without a question. -/
theorem asks_noted {walk : Walk (List TypeHandle)} {count : Nat}
    (asks : walk.Asks environment queries (·.length = count)) (id : NodeId) :
    (walk >>= fun types => ask (.noteTypes id types) >>= fun _ => pure types).Asks environment queries
      (·.length = count) :=
  .bind_nil asks fun _ isCount => .own_bind (only_ask.mpr trivial) fun _ => .pure isCount

mutual

/-- An expression is checked with the questions about it, and taken to have as many values as it has,
whatever is answered. -/
theorem asks_checkExpression (expression : Expression) :
    (setting.checkExpression place expression).Asks environment
      (setting.expressionQueries environment expression)
      (·.length = setting.valueCount environment expression) := by
  cases expression with
  | literal constant =>
    rw [checkExpression, expressionQueries, valueCount]
    exact asks_noted (asks_checkLiteral constant) constant.id
  | identifier use =>
    rw [checkExpression, expressionQueries, valueCount]
    exact asks_noted (asks_checkIdentifier use) use.id
  | call id span callee arguments =>
    rw [checkExpression, expressionQueries, valueCount]
    refine .own_bind (only_require _ _) fun _ => .own_bind (only_ask.mpr trivial) fun errors => ?_
    refine .bind (asks_resolveCallee callee) fun resolved isResolved => ?_
    refine .own_bind (own_checks.checkArgumentCount _ _ _) fun _ => ?_
    refine .bind_nil (asks_checkArguments callee resolved.literals arguments) fun given _ => ?_
    have counted := @asks_callTypes setting environment errors resolved given.length
    rw [isResolved] at counted
    have rest : ∀ _ : Unit, Walk.Asks _ environment [] _ := fun _ => asks_noted counted id
    dsimp only
    split
    · exact .own_bind (own_checks.checkArgumentTypes _ _ _) rest
    · exact rest ()

theorem asks_checkArguments (callee : Identifier) (required : List (Option LiteralKind))
    (arguments : List Expression) :
    (setting.checkArguments place callee required arguments).Asks environment
      (setting.argumentQueries environment arguments) fun _ => True := by
  cases arguments with
  | nil =>
    rw [checkArguments, argumentQueries]
    exact .pure trivial
  | cons argument rest =>
    rw [checkArguments, argumentQueries]
    refine .bind (asks_checkArguments callee required.tail rest) fun types _ => ?_
    dsimp only
    split
    · rename_i literal content
      obtain ⟨rfl, _⟩ := contentArgument?_eq_some content
      rw [expressionQueries]
      exact .of_own (only_bind (own_checks.checkStringArgument _ _) fun _ => only_pure _)
    · refine .own_bind (own_checks.checkArgumentKind _ _ _) fun _ => ?_
      exact .bind_own (asks_checkExpression argument) fun _ =>
        only_bind (own_checks.singleType _ _) fun _ => only_pure _

end

theorem asks_checkSingle (expression : Expression) :
    (setting.checkSingle place expression).Asks environment
      (setting.expressionQueries environment expression) fun _ => True :=
  .bind_own (asks_checkExpression expression) fun _ => own_checks.singleType _ _

theorem asks_checkCondition (condition : Expression) :
    (setting.checkCondition place condition).Asks environment
      (setting.expressionQueries environment condition) fun _ => True :=
  .bind_own (asks_checkSingle condition) fun _ => own_checks.finishCondition _ _

/-! ### Statements -/

theorem asks_checkEffect (span : Span) (expression : Expression) :
    (setting.checkEffect place span expression).Asks environment
      (setting.expressionQueries environment expression) fun _ => True :=
  .own_bind (only_ask.mpr trivial) fun _ =>
    .bind_own (asks_checkExpression expression) fun _ => own_checks.finishEffect _ _ _

theorem asks_checkDeclaration (span : Span) (locals : List Variable) (value? : Option Expression) :
    (setting.checkDeclaration place span locals value?).Asks environment
      (locals.map environment.declareQuery ++
        (value?.map (setting.expressionQueries environment)).getD []) fun _ => True := by
  have activated : (locals.forM (activateVariable place)).Only (·.IsOwn) :=
    only_activateVariables fun _ _ => trivial
  refine .bind (.forM fun declared _ => .consult_bind fun _ => .pure trivial) fun _ _ => ?_
  refine .own_bind (only_forM fun _ _ => own_checks.checkVariable _) fun _ => ?_
  cases value? with
  | none => exact .of_own activated
  | some value =>
    have initial : (setting.checkInitialValue place span locals value).Asks environment
        (setting.expressionQueries environment value) fun _ => True :=
      .bind_own (asks_checkExpression value) fun types =>
        own_checks.finishDeclaration span locals types
    exact .bind_own initial fun _ => activated

theorem asks_targetType (target : Identifier) :
    (setting.targetType place target).Asks environment [environment.query target .write]
      fun _ => True := by
  refine .own_bind (only_ask.mpr trivial) fun errors => .lookup_bind ?_
  rw [Environment.query]
  rcases environment.lookup? target.name with _ | ⟨type | ⟨parameters, returns⟩, isActive⟩
  · refine .consult_bind fun isKnown => .own_bind (only_isQuietSince trivial _) fun _ => ?_
    exact .of_own (only_bind (own_checks.expect _ _ (only_pure _)) fun _ => only_pure _)
  · refine .consult_bind fun _ => .of_own (only_bind (own_checks.expect _ _ ?_) fun _ => only_pure _)
    exact only_bind (only_lift _) fun _ => only_pure _
  · exact .consult_bind fun _ => .own_bind (only_ask.mpr trivial) fun _ => .pure trivial

/-- There is a question about every target for which there is a value. -/
theorem asks_checkTargetTypes (targets : List Identifier) (types : List TypeHandle) :
    (setting.checkTargetTypes place targets types).Asks environment
      ((targets.take types.length).map (environment.query · .write)) fun _ => True := by
  induction targets generalizing types with
  | nil =>
    rw [List.take_nil]
    exact .pure trivial
  | cons target targets ih =>
    cases types with
    | nil => exact .pure trivial
    | cons type types =>
      have first : (setting.checkTargetType place target type).Asks environment
          [environment.query target .write] fun _ => True := by
        refine .own_bind (only_require _ _) fun _ => ?_
        refine .own_bind (only_ask.mpr trivial) fun errors => ?_
        exact .bind_own (asks_targetType target) fun type? =>
          own_checks.finishTarget target type errors type?
      exact .bind first fun _ _ => ih types

theorem asks_checkAssignment (span : Span) (targets : List Identifier) (value : Expression) :
    (setting.checkAssignment place span targets value).Asks environment
      (setting.expressionQueries environment value ++
        (targets.take (setting.valueCount environment value)).map (environment.query · .write))
      fun _ => True := by
  refine .own_bind (only_require _ _) fun _ =>
    .own_bind (own_checks.checkRepeatedTargets _ _ _) fun _ => ?_
  refine .bind (asks_checkExpression value) fun types isCount => ?_
  rw [← isCount]
  exact .own_bind (own_checks.assignmentCount _ _ _) fun _ => asks_checkTargetTypes targets types

/-! ### Blocks -/

/-- The questions of statements at their points. -/
abbrev queriesOf (setting : Setting) (points : List Point) : List Query :=
  points.flatMap setting.queriesAt

theorem queriesOf_append (first second : List Point) :
    setting.queriesOf (first ++ second) = setting.queriesOf first ++ setting.queriesOf second :=
  List.flatMap_append

theorem queriesOf_cons (point : Point) (rest : List Point) :
    setting.queriesOf (point :: rest) = setting.queriesAt point ++ setting.queriesOf rest :=
  List.flatMap_cons

theorem queriesOf_singleton (point : Point) : setting.queriesOf [point] = setting.queriesAt point :=
  List.flatMap_singleton _ _

/-- At most points there are only the questions about the expression. -/
theorem queriesAt_of_plain {inLoop inFunction : Bool} {statement : Statement}
    (noLocals : statement.locals = []) (noTargets : setting.checkedTargets environment statement = []) :
    setting.queriesAt ⟨environment, inLoop, inFunction, statement⟩ =
      (statement.expression?.map (setting.expressionQueries environment)).getD [] := by
  rw [queriesAt, noLocals, noTargets, List.map_nil, List.map_nil, List.nil_append, List.append_nil]

theorem asks_enterBlock (block : Block) :
    (enterBlock place block).Asks environment [] fun _ => True :=
  .of_own (only_enterBlock trivial)

mutual

/-- A block is checked with the questions at its points. -/
theorem asks_lexicalBlock (outer : Environment) (place : Place) (inLoop inFunction : Bool)
    (block : Block) :
    (setting.lexicalBlock outer place block).Asks
      (setting.queriesOf (block.points outer inLoop inFunction)) fun _ => True := by
  cases block with
  | mk id span statements =>
    rw [lexicalBlock, Block.points]
    exact LexicalWalk.Asks.nil_bind (asks_enterBlock _) fun inside _ =>
      asks_lexicalStatements outer statements [] inside inLoop inFunction statements

theorem asks_lexicalStatements (outer : Environment) (all before : List Statement) (place : Place)
    (inLoop inFunction : Bool) (statements : List Statement) :
    (setting.lexicalStatements outer all before place statements).Asks
      (setting.queriesOf (statementPoints outer inLoop inFunction all before statements))
      fun _ => True := by
  cases statements with
  | nil =>
    rw [lexicalStatements, statementPoints]
    exact .pure trivial
  | cons statement rest =>
    rw [lexicalStatements, statementPoints, queriesOf_append]
    exact (asks_lexicalStatement _ place inLoop inFunction statement).bind fun _ _ =>
      asks_lexicalStatements outer all (statement :: before) place inLoop inFunction rest

theorem asks_lexicalStatement (environment : Environment) (place : Place) (inLoop inFunction : Bool)
    (statement : Statement) :
    (setting.lexicalStatement environment place statement).Asks
      (setting.queriesOf (statement.points environment inLoop inFunction)) fun _ => True := by
  cases statement with
  | expression span expression =>
    rw [Statement.points, queriesOf_singleton, queriesAt_of_plain rfl rfl]
    exact asks_checkEffect span expression
  | assignment span targets value =>
    rw [Statement.points, queriesOf_singleton]
    exact asks_checkAssignment span targets value
  | declaration span locals value? =>
    have noTargets : setting.checkedTargets environment (.declaration span locals value?) = [] := rfl
    rw [Statement.points, queriesOf_singleton, queriesAt, noTargets, List.map_nil, List.append_nil]
    exact asks_checkDeclaration span locals value?
  | function id span name parameters returns body =>
    have header : (setting.checkHeader place id span name parameters returns).Asks environment []
        fun _ => True := .of_own (own_checks.checkHeader trivial span name fun _ _ => trivial)
    rw [lexicalStatement, Statement.points, queriesOf_cons, queriesAt_of_plain rfl rfl]
    exact LexicalWalk.Asks.nil_bind header fun _ _ => asks_lexicalBlock _ _ false true body
  | conditional span condition body =>
    rw [lexicalStatement, Statement.points, queriesOf_cons, queriesAt_of_plain rfl rfl]
    exact LexicalWalk.Asks.bind (asks_checkCondition condition) fun _ _ =>
      asks_lexicalBlock environment place inLoop inFunction body
  | «switch» span scrutinee cases =>
    have onlyDefault : (expect place (!(cases.length = 1 && cases.all (·.value?.isNone))) span
        (pure .onlyDefaultCase)).Asks environment [] fun _ => True :=
      .of_own (own_checks.expect _ _ (only_pure _))
    rw [lexicalStatement, Statement.points, queriesOf_cons, queriesAt_of_plain rfl rfl]
    refine LexicalWalk.Asks.nil_bind onlyDefault fun _ _ => ?_
    exact LexicalWalk.Asks.bind (asks_checkSingle scrutinee) fun type _ =>
      asks_lexicalCases environment place type [] inLoop inFunction cases
  | loop id span pre condition post body =>
    rw [lexicalStatement, Statement.points, queriesOf_append, queriesOf_append, queriesOf_cons,
      queriesAt_of_plain rfl rfl, List.append_assoc, List.append_assoc]
    refine (asks_lexicalBlock environment _ false inFunction pre).bind fun _ _ => ?_
    refine LexicalWalk.Asks.nil_bind (asks_enterBlock pre) fun inside _ => ?_
    refine LexicalWalk.Asks.bind (asks_checkCondition condition) fun _ _ => ?_
    exact (asks_lexicalBlock _ _ true inFunction body).bind fun _ _ =>
      asks_lexicalBlock _ inside false inFunction post
  | «break» span | «continue» span | leave span =>
    rw [Statement.points, queriesOf_singleton, queriesAt_of_plain rfl rfl]
    exact Walk.Asks.of_own (own_checks.expect _ _ (only_pure _))
  | block block =>
    rw [lexicalStatement, Statement.points]
    exact asks_lexicalBlock environment place inLoop inFunction block

theorem asks_lexicalCases (environment : Environment) (place : Place) (type : TypeHandle)
    (before : List Word) (inLoop inFunction : Bool) (cases : List Case) :
    (setting.lexicalCases environment place type before cases).Asks
      (setting.queriesOf (casePoints environment inLoop inFunction cases)) fun _ => True := by
  rcases cases with _ | ⟨⟨span, value?, body⟩, rest⟩
  · rw [lexicalCases, casePoints]
    exact .pure trivial
  · have checked : Walk.Asks (match value? with
        | some literal => setting.checkCaseValue place type before span literal
        | none => pure before : Walk (List Word)) environment [] fun _ => True := by
      cases value? with
      | none => exact .pure trivial
      | some literal => exact .of_own (own_checks.checkCaseValue _ _ _ _)
    rw [lexicalCases.eq_def, casePoints, queriesOf_append]
    dsimp only
    refine LexicalWalk.Asks.nil_bind checked fun values _ => ?_
    exact (asks_lexicalBlock environment place inLoop inFunction body).bind fun _ _ =>
      asks_lexicalCases environment place type values inLoop inFunction rest

end

end Setting

/-! ### Checks -/

variable {checker : Checker} {reporter : Reporter} {facts : Facts} {block : Block}

theorem NameTable.declaresOnce_of_enterDeclarations {names : NameTable} {run : DeclarationRun}
    (distinct : block.owners.Nodup)
    (enters : names.enterDeclarations reporter facts block = .ok run)
    (isEntered : run.outcome = .ok true) : block.DeclaresOnce := by
  obtain ⟨⟨outcome, entered⟩, ran, handedBack⟩ := Except.bind_eq_ok_iff.mp enters
  cases handedBack
  cases isEntered
  exact (Setting.entered_of_run _ _ rfl distinct ran).1

namespace Checker

/-- A check puts the questions of the program to a host that answers them all, unless it breaks off. -/
theorem asked_of_declaresOnce (distinct : block.owners.Nodup) (once : block.DeclaresOnce)
    (earlier : ∀ entry ∈ checker.active, entry.1 < facts.scopes.size)
    (noLimit : reporter.errorLimit? = none) {host : Host σ} (neverFails : host.NeverFails)
    (hostState : σ) :
    checker.asked host reporter facts hostState block <+: checker.setting.queries block ∧
      ∀ analysis, checker.analyze (some host) reporter facts hostState block = .ok analysis →
        checker.asked host reporter facts hostState block = checker.setting.queries block := by
  let state := checker.start reporter facts hostState
  let place := checker.place block
  obtain ⟨entered, scoping, entering⟩ :=
    checker.setting.run_enterDeclarations place (some host) state rfl distinct once
  have earlier : ∀ entry ∈ state.active, entry.1 < state.facts.scopes.size := earlier
  have agrees := checker.setting.agrees_lexicalBlock (some host) place block distinct once earlier
    scoping
  obtain ⟨isPrefix, isAll⟩ := LexicalWalk.asked_of_asks agrees
    (Setting.asks_lexicalBlock [] place false false block)
  rw [Setting.erase_lexicalBlock] at isPrefix isAll
  have noQuestions : (checker.setting.enterDeclarations place block).asked host state = [] :=
    Walk.asked_of_own ((checker.setting.entering_enterDeclarations place block).imp
      fun _ => Request.IsEntering.isOwn)
  have inBlock : checker.asked host reporter facts hostState block =
      (checker.setting.checkBlock place block).asked host { state with facts := entered } := by
    show (checker.setting.checkProgram place block).asked host state = _
    rw [Setting.checkProgram, Walk.asked_bind, noQuestions, entering]
    rfl
  rw [inBlock]
  refine ⟨isPrefix, fun analysis analyzed => ?_⟩
  rw [analyze_eq] at analyzed
  obtain ⟨⟨outcome, after⟩, ran, _⟩ := Except.bind_eq_ok_iff.mp analyzed
  have isHost : ∀ one ∈ some host, one.NeverFails := by
    rintro _ ⟨rfl⟩
    exact neverFails
  obtain ⟨_, rfl⟩ := Walk.not_stopped_of_run isHost noLimit ran
  refine isAll () after ?_
  rw [runOver, Setting.checkProgram, Walk.run_bind, Run.bind_apply, entering] at ran
  exact ran

/-- What a host is asked does not depend on what it answers. Without a limit of errors, two hosts that
answer all questions are asked the same about a program whose declarations can be entered: the questions
that can be read off its text. If the check breaks off, then the first of these were put. It does not if
a builder made the program. The questions tell whether they are put inside of a function. -/
theorem asked_regardless_of_answers (distinct : block.owners.Nodup) {fillReporter : Reporter}
    {fillFacts : Facts} {fill : DeclarationRun}
    (enters : checker.setting.names.enterDeclarations fillReporter fillFacts block = .ok fill)
    (isEntered : fill.outcome = .ok true)
    (earlier : ∀ entry ∈ checker.active, entry.1 < facts.scopes.size)
    (noLimit : reporter.errorLimit? = none) {host : Host σ} (neverFails : host.NeverFails)
    {other : Host τ} (otherNeverFails : other.NeverFails) (hostState : σ) (otherState : τ) :
    let asked := checker.asked host reporter facts hostState block
    let otherAsked := checker.asked other reporter facts otherState block
    let returns := ∃ analysis, checker.analyze (some host) reporter facts hostState block = .ok analysis
    let otherReturns :=
      ∃ analysis, checker.analyze (some other) reporter facts otherState block = .ok analysis
    let queries := checker.setting.queries block
    (asked <+: queries ∧ otherAsked <+: queries) ∧
      (returns → otherReturns → asked = otherAsked ∧ asked = queries) ∧
      (∀ (kind : BundledDialect) version,
        checker.setting.names.HasMade (kind.build version) block → returns ∧ otherReturns) ∧
      ∀ point ∈ block.points [] false false, ∀ query ∈ checker.setting.queriesAt point,
        query.inFunction = point.inFunction := by
  have once := NameTable.declaresOnce_of_enterDeclarations distinct enters isEntered
  obtain ⟨isPrefix, isAll⟩ := asked_of_declaresOnce distinct once earlier noLimit neverFails hostState
  obtain ⟨isOtherPrefix, isOtherAll⟩ :=
    asked_of_declaresOnce distinct once earlier noLimit otherNeverFails otherState
  refine ⟨⟨isPrefix, isOtherPrefix⟩, ?_, fun kind version hasMade => ?_,
    Setting.inFunction_of_mem_queriesAt⟩
  · rintro ⟨analysis, analyzed⟩ ⟨otherAnalysis, otherAnalyzed⟩
    have same := isAll analysis analyzed
    exact ⟨same.trans (isOtherAll otherAnalysis otherAnalyzed).symm, same⟩
  · have canCheck : checker.setting.CanCheck (kind.build version) block := .of_hasMade hasMade
    have orderly : ∀ one ∈ some host, one.IsOrderly := by
      rintro _ ⟨rfl⟩
      exact neverFails.isOrderly
    have otherOrderly : ∀ one ∈ some other, one.IsOrderly := by
      rintro _ ⟨rfl⟩
      exact otherNeverFails.isOrderly
    exact ⟨checker.exists_analysis canCheck.ready orderly canCheck.built distinct reporter hostState
        earlier,
      checker.exists_analysis canCheck.ready otherOrderly canCheck.built distinct reporter otherState
        earlier⟩

/-- The program `let x := y`, `z := 2`, `function f() { x := y }`, `x, z := f()`, whose function does not
see the variable and returns nothing for the targets of the last statement, with a host that knows
everything and with one that knows nothing and reports an error about every name. -/
theorem asked_regardless_of_answers_outside :
    let names := ["f", "x", "y", "z"].foldl (fun table label => (table.define label).2)
      (NameTable.ofDialect .generic)
    let checker : Checker := { setting := .ofNames names [] }
    let use (id : NodeId) (index : Nat) : Identifier := ⟨id, .none, ⟨index⟩⟩
    let block : Block := .mk 1 .none
      [.declaration .none [⟨2, .none, ⟨25⟩, ⟨8⟩⟩] (some (.identifier (use 3 26))),
        .assignment .none [use 4 27] (.literal ⟨5, .none, .number, .ofNumeral "2", ⟨8⟩⟩),
        .function 6 .none ⟨24⟩ [] []
          (.mk 7 .none [.assignment .none [use 8 25] (.identifier (use 9 26))]),
        .assignment .none [use 10 25, use 11 27] (.call 12 .none (use 13 24) [])]
    let knowing : Host Unit := fun _ (reporter, _) => .ok (.ok true, reporter, ())
    let reporting : Host Nat := fun query (reporter, count) =>
      .ok (.ok false,
        (reporter.report ⟨.declaration, 1, query.identifier.span, "hidden"⟩).2, count + 1)
    checker.asked knowing .unlimited {} () block = checker.asked reporting .unlimited {} 0 block ∧
      (checker.asked knowing .unlimited {} () block).map (fun query =>
          (query.identifier.id, query.use, query.inFunction)) =
        [(2, .declare, false), (3, .read, false), (4, .write, false), (9, .read, true),
          (8, .write, true), (13, .bound, false)] := by
  intro names checker use block knowing reporting
  have knows : knowing.NeverFails := fun query reporter _ => ⟨true, reporter, (), [], rfl, .none⟩
  have reports : reporting.NeverFails := by
    intro query reporter count
    rcases reported : reporter.report ⟨.declaration, 1, query.identifier.span, "hidden"⟩ with
      ⟨failure | _, after⟩
    · refine ⟨false, after, count + 1, [failure], ?_, Reporter.Reports.none.refused reported⟩
      show Except.ok (Except.ok false, (reporter.report _).2, count + 1) = _
      rw [reported]
    · refine ⟨false, after, count + 1, [], ?_, Reporter.Reports.none.accepted reported⟩
      show Except.ok (Except.ok false, (reporter.report _).2, count + 1) = _
      rw [reported]
  obtain ⟨fills, returns, otherReturns, uses⟩ :
      (names.enterDeclarations default {} block).map (·.outcome) = .ok (.ok true) ∧
        (checker.analyze (some knowing) .unlimited {} () block).map (·.isCorrect) = .ok false ∧
        (checker.analyze (some reporting) .unlimited {} 0 block).map (·.isCorrect) = .ok false ∧
        (checker.asked knowing .unlimited {} () block).map (fun query =>
            (query.identifier.id, query.use, query.inFunction)) =
          [(2, .declare, false), (3, .read, false), (4, .write, false), (9, .read, true),
            (8, .write, true), (13, .bound, false)] := by
    decide +kernel
  obtain ⟨fill, enters, isEntered⟩ := Except.map_eq_ok_iff.mp fills
  obtain ⟨analysis, analyzed, _⟩ := Except.map_eq_ok_iff.mp returns
  obtain ⟨otherAnalysis, otherAnalyzed, _⟩ := Except.map_eq_ok_iff.mp otherReturns
  have distinct : block.owners.Nodup := by decide
  have told := @asked_regardless_of_answers Unit Nat checker .unlimited {} block distinct default {} fill
    enters isEntered nofun rfl knowing knows reporting reports () 0
  exact ⟨(told.2.1 ⟨analysis, analyzed⟩ ⟨otherAnalysis, otherAnalyzed⟩).1, uses⟩

end Checker

end YulCheck
