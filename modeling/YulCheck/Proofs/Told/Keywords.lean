import YulCheck.Proofs.Host.Sequence
import YulCheck.Proofs.Lexical.Visits
import YulCheck.Proofs.Told.Points

/-! # Keywords in wrong places

Whether a keyword is allowed is decided by the innermost part of a loop or function that encloses it,
and by the bodies of functions around it. What is told about keywords are the errors about those that
are not allowed, in the order in which they are visited.
-/

namespace YulCheck

variable {σ : Type}

/-! ### Errors about visited statements -/

namespace Visit

/-- The error about a `break` or `continue` that the body of a loop does not enclose directly. -/
def loopError? (visit : Visit) : Option Diagnostic :=
  match visit.statement with
  | .break span =>
    if isInLoopBody visit.around then none else some ((Finding.outsideLoop "break").toDiagnostic span)
  | .continue span =>
    if isInLoopBody visit.around then none
    else some ((Finding.outsideLoop "continue").toDiagnostic span)
  | _ => none

/-- The error about a `leave` that no body of a function encloses. -/
def leaveError? (visit : Visit) : Option Diagnostic :=
  match visit.statement with
  | .leave span =>
    if isInFunctionBody visit.around then none else some (Finding.outsideFunction.toDiagnostic span)
  | _ => none

/-- The error about the keyword of a statement, if it is in a wrong place. -/
def keywordErrors (visit : Visit) : List Diagnostic :=
  visit.loopError?.toList ++ visit.leaveError?.toList

variable {visit : Visit} {error : Diagnostic}

theorem code_of_loopError? (isError : visit.loopError? = some error) : error.code = 2592 := by
  rw [loopError?] at isError
  split at isError
  case h_3 => cases isError
  all_goals
    split at isError <;> cases isError
    rfl

theorem code_of_leaveError? (isError : visit.leaveError? = some error) : error.code = 8149 := by
  rw [leaveError?] at isError
  split at isError
  · split at isError <;> cases isError
    rfl
  · cases isError

/-- What is told about a statement at a point is told about the visit of it. -/
theorem keywordErrors_eq {environment : Environment} {block : NodeId} {around : List Enclosure}
    (statement : Statement) :
    (Point.mk environment (isInLoopBody around) (isInFunctionBody around) statement).keywordErrors =
      (Visit.mk block around statement).keywordErrors := by
  cases statement with
  | «break» | «continue» =>
    rw [Point.keywordErrors, keywordErrors, loopError?, leaveError?]
    dsimp only
    split <;> rfl
  | leave =>
    rw [Point.keywordErrors, keywordErrors, loopError?, leaveError?]
    dsimp only
    split <;> rfl
  | _ => rfl

end Visit

mutual

/-- What is told about keywords can be read off the visits. -/
theorem Block.keywordErrors_points (block : Block) (environment : Environment)
    (around : List Enclosure) :
    (block.points environment (isInLoopBody around) (isInFunctionBody around)).flatMap
      (·.keywordErrors) = (block.visits around).flatMap (·.keywordErrors) := by
  obtain ⟨id, span, statements⟩ := block
  rw [Block.points, Block.visits]
  exact keywordErrors_statementPoints statements id environment around statements []

theorem keywordErrors_statementPoints (statements : List Statement) (block : NodeId)
    (outer : Environment) (around : List Enclosure) (all before : List Statement) :
    (statementPoints outer (isInLoopBody around) (isInFunctionBody around) all before
      statements).flatMap (·.keywordErrors) =
        (statementVisits block around statements).flatMap (·.keywordErrors) := by
  cases statements with
  | nil => rw [statementPoints, statementVisits, List.flatMap_nil, List.flatMap_nil]
  | cons statement rest =>
    rw [statementPoints, statementVisits, List.flatMap_append, List.flatMap_append,
      statement.keywordErrors_points block _ around,
      keywordErrors_statementPoints rest block outer around all (statement :: before)]

theorem Statement.keywordErrors_points (statement : Statement) (block : NodeId)
    (environment : Environment) (around : List Enclosure) :
    (statement.points environment (isInLoopBody around) (isInFunctionBody around)).flatMap
      (·.keywordErrors) = (statement.visits block around).flatMap (·.keywordErrors) := by
  cases statement with
  | expression | assignment | declaration | «break» | «continue» | leave =>
    rw [Statement.points, Statement.visits, List.flatMap_singleton, List.flatMap_singleton]
    exact Visit.keywordErrors_eq _
  | function id span name parameters returns body =>
    rw [Statement.points, Statement.visits, List.flatMap_cons, List.flatMap_cons]
    exact congrArg _ (body.keywordErrors_points _ (.functionBody :: around))
  | conditional span condition body =>
    rw [Statement.points, Statement.visits, List.flatMap_cons, List.flatMap_cons]
    exact congrArg _ (body.keywordErrors_points environment around)
  | «switch» span scrutinee cases =>
    rw [Statement.points, Statement.visits, List.flatMap_cons, List.flatMap_cons]
    exact congrArg _ (keywordErrors_casePoints cases environment around)
  | loop id span pre condition post body =>
    have ofPre : (pre.points environment false (isInFunctionBody around)).flatMap (·.keywordErrors) =
        (pre.visits (.loopPre :: around)).flatMap (·.keywordErrors) :=
      pre.keywordErrors_points environment (.loopPre :: around)
    let inside : Environment := .block pre.statements pre.statements.reverse :: environment
    have ofBody := body.keywordErrors_points inside (.loopBody :: around)
    have ofPost := post.keywordErrors_points inside (.loopPost :: around)
    rw [Statement.points, Statement.visits, List.flatMap_append, List.flatMap_append,
      List.flatMap_cons, List.flatMap_cons, List.flatMap_append, List.flatMap_append, ofPre,
      ← ofBody, ← ofPost]
    rfl
  | block inner =>
    rw [Statement.points, Statement.visits, List.flatMap_cons]
    exact inner.keywordErrors_points environment around

theorem keywordErrors_casePoints (cases : List Case) (environment : Environment)
    (around : List Enclosure) :
    (casePoints environment (isInLoopBody around) (isInFunctionBody around) cases).flatMap
      (·.keywordErrors) = (caseVisits around cases).flatMap (·.keywordErrors) := by
  rcases cases with _ | ⟨⟨span, value?, body⟩, rest⟩
  · rw [casePoints, caseVisits, List.flatMap_nil, List.flatMap_nil]
  · rw [casePoints, caseVisits, List.flatMap_append, List.flatMap_append,
      body.keywordErrors_points environment around, keywordErrors_casePoints rest environment around]

end

theorem filter_code_filter_concernsKeyword {code : Nat} (isKeyword : code ∈ keywordCodes)
    (diagnostics : List Diagnostic) :
    (diagnostics.filter (·.concernsKeyword)).filter (·.code = code) =
      diagnostics.filter (·.code = code) :=
  List.filter_filter_of_imp (fun _ same => by
    rw [Diagnostic.concernsKeyword, of_decide_eq_true same]
    exact List.contains_iff_mem.mpr isKeyword) _

namespace Visit

variable (visit : Visit)

theorem filter_loopErrors :
    visit.keywordErrors.filter (·.code = 2592) = visit.loopError?.toList := by
  rw [keywordErrors, List.filter_append, List.filter_eq_self.mpr fun error member =>
      decide_eq_true (code_of_loopError? (Option.mem_toList.mp member)),
    List.filter_eq_nil_iff.mpr fun error member => ?_, List.append_nil]
  rw [code_of_leaveError? (Option.mem_toList.mp member)]
  decide

theorem filter_leaveErrors :
    visit.keywordErrors.filter (·.code = 8149) = visit.leaveError?.toList := by
  rw [keywordErrors, List.filter_append, List.filter_eq_self.mpr fun error member =>
      decide_eq_true (code_of_leaveError? (Option.mem_toList.mp member)),
    List.filter_eq_nil_iff.mpr fun error member => ?_, List.nil_append]
  rw [code_of_loopError? (Option.mem_toList.mp member)]
  decide

end Visit

namespace Checker

variable {checker : Checker} {reporter : Reporter} {facts : Facts} {hostState : σ} {block : Block}

/-- A check without a host and without a limit of errors comes to every statement of a program whose
declarations can be entered. There the scope is inside of a function if the place is. -/
theorem exists_comesTo_of_analyze {analysis : Analysis σ} (distinct : block.owners.Nodup)
    (once : block.DeclaresOnce) (noLimit : reporter.errorLimit? = none)
    (notInLoop : checker.inLoop = false) (notInFunction : checker.inFunction = false)
    (analyzed : checker.analyze none reporter facts hostState block = .ok analysis) :
    ∀ visit ∈ block.visits [], ∃ there : RunState σ,
      Walk.ComesTo none (checker.setting.checkStatement visit.place visit.statement) there
        (checker.setting.checkProgram (checker.place block) block)
        (checker.start reporter facts hostState) ∧
      there.facts.scoping.Encloses visit := by
  obtain ⟨entered, outcome, after, scoping, entering, ran, _⟩ :=
    exists_run_checkBlock distinct once analyzed
  have noHost : ∀ host ∈ (none : Option (Host σ)), host.NeverFails := nofun
  obtain ⟨_, rfl⟩ := Walk.not_stopped_of_run noHost noLimit ran
  have within : (checker.place block).IsWithin [] := ⟨notInLoop, notInFunction⟩
  have numbers : entered.scoping.Numbers facts.scopes.size (block.scopes none facts.scopes.size)
      block.owners := by
    rw [scoping]
    exact Scoping.Numbers.of_append _ _ distinct
  intro visit member
  obtain ⟨there, comes⟩ := Setting.comesToAll_checkBlock within block ran visit member
  have scopes : there.facts.scoping = entered.scoping :=
    comes.reaches.keeps (·.facts.scoping) (fun _ _ _ _ keeps => Run.scoping_of_answer keeps)
      (Setting.scopes_blocks.checkBlock _ block)
  refine ⟨there, .next entering comes, ?_⟩
  rw [scopes]
  exact numbers.encloses_block block nofun .outermost visit member

/-- Keywords are judged by what encloses them. Without a host and without a limit of errors, the errors
about `break` and `continue` in a program whose declarations can be entered are, in the order of the
visits and each once, those about the statements that the body of a loop does not enclose directly, and
the errors about `leave` are those about the statements that no body of a function encloses. The check
comes to every statement at its place, in a state where the scope of its block is inside of a function
if and only if the flag of the place tells so. If a builder made the program, then it can be
checked. -/
theorem keywords_judged_by_enclosures (distinct : block.owners.Nodup) {fillReporter : Reporter}
    {fillFacts : Facts} {fill : DeclarationRun}
    (enters : checker.setting.names.enterDeclarations fillReporter fillFacts block = .ok fill)
    (isEntered : fill.outcome = .ok true)
    (earlier : ∀ entry ∈ checker.active, entry.1 < facts.scopes.size)
    (noLimit : reporter.errorLimit? = none) (notInLoop : checker.inLoop = false)
    (notInFunction : checker.inFunction = false) (hostState : σ) :
    (∀ analysis, checker.analyze none reporter facts hostState block = .ok analysis →
      (∃ appended,
        analysis.reporter.diagnostics.toList = reporter.diagnostics.toList ++ appended ∧
        appended.filter (·.code = 2592) = (block.visits []).filterMap (·.loopError?) ∧
        appended.filter (·.code = 8149) = (block.visits []).filterMap (·.leaveError?)) ∧
      ∀ visit ∈ block.visits [], ∃ there : RunState σ,
        Walk.ComesTo none (checker.setting.checkStatement visit.place visit.statement) there
          (checker.setting.checkProgram (checker.place block) block)
          (checker.start reporter facts hostState) ∧
        there.facts.scoping.Encloses visit) ∧
    ∀ (kind : BundledDialect) version, checker.setting.names.HasMade (kind.build version) block →
      ∃ analysis, checker.analyze none reporter facts hostState block = .ok analysis := by
  have once := NameTable.declaresOnce_of_enterDeclarations distinct enters isEntered
  refine ⟨fun analysis analyzed => ⟨?_, ?_⟩, fun kind version hasMade => ?_⟩
  · obtain ⟨appended, appends, told⟩ :=
      exists_told_of_analyze distinct once earlier noLimit analyzed
    rw [notInLoop, notInFunction] at told
    have ofKeywords : appended.filter (·.concernsKeyword) =
        (block.visits []).flatMap (·.keywordErrors) := by
      rw [← filter_concernsKeyword_filter_isNotable, told, Setting.filter_concernsKeyword_toldAll]
      exact block.keywordErrors_points [] []
    refine ⟨appended, appends, ?_, ?_⟩
    · rw [← filter_code_filter_concernsKeyword (by decide), ofKeywords, List.filter_flatMap,
        List.filterMap_eq_flatMap_toList]
      exact List.flatMap_congr fun visit _ => visit.filter_loopErrors
    · rw [← filter_code_filter_concernsKeyword (by decide), ofKeywords, List.filter_flatMap,
        List.filterMap_eq_flatMap_toList]
      exact List.flatMap_congr fun visit _ => visit.filter_leaveErrors
  · exact exists_comesTo_of_analyze distinct once noLimit notInLoop notInFunction analyzed
  · have canCheck : checker.setting.CanCheck (kind.build version) block := .of_hasMade hasMade
    exact checker.exists_analysis canCheck.ready nofun canCheck.built distinct reporter hostState
      earlier

/-- In the program `for { break } 1 { leave } { function f() { continue for {} 1 {} { leave } } break }`
the first `break`, the first `leave` and the `continue` are in wrong places. -/
theorem keywords_judged_by_enclosures_nested :
    let names := ((NameTable.ofDialect .generic).define "f").2
    let checker : Checker := { setting := .ofNames names [] }
    let one (id : NodeId) : Expression := .literal ⟨id, .none, .number, .ofNumeral "1", ⟨8⟩⟩
    let inner : Statement := .loop 5 .none (.mk 6 .none []) (one 7) (.mk 8 .none [])
      (.mk 9 .none [.leave ⟨71, 76⟩])
    let loop : Statement := .loop 2 .none (.mk 3 .none [.break ⟨6, 11⟩]) (one 4)
      (.mk 10 .none [.leave ⟨18, 23⟩])
      (.mk 11 .none [.function 12 .none ⟨24⟩ [] [] (.mk 13 .none [.continue ⟨44, 52⟩, inner]),
        .break ⟨82, 87⟩])
    let block : Block := .mk 1 .none [loop]
    ∃ analysis, checker.analyze none .unlimited {} () block = .ok analysis ∧
      analysis.reporter.diagnostics.toList.filter (·.code = 2592) =
        [(Finding.outsideLoop "break").toDiagnostic ⟨6, 11⟩,
          (Finding.outsideLoop "continue").toDiagnostic ⟨44, 52⟩] ∧
      analysis.reporter.diagnostics.toList.filter (·.code = 8149) =
        [Finding.outsideFunction.toDiagnostic ⟨18, 23⟩] := by
  intro names checker one inner loop block
  have computed :
      (names.enterDeclarations default {} block).map (·.outcome) = .ok (.ok true) ∧
        (checker.analyze none .unlimited {} () block).map (·.isCorrect) = .ok false := by
    decide +kernel
  obtain ⟨fill, enters, isEntered⟩ := Except.map_eq_ok_iff.mp computed.1
  obtain ⟨analysis, analyzed, _⟩ := Except.map_eq_ok_iff.mp computed.2
  have judged := @keywords_judged_by_enclosures Unit checker .unlimited {} block (by decide) default {}
    fill enters isEntered nofun rfl rfl rfl ()
  obtain ⟨⟨appended, appends, ofLoops, ofFunctions⟩, _⟩ := judged.1 analysis analyzed
  have isAll : analysis.reporter.diagnostics.toList = appended := appends
  refine ⟨analysis, analyzed, ?_, ?_⟩
  · rw [isAll, ofLoops]
    rfl
  · rw [isAll, ofFunctions]
    rfl

end Checker

end YulCheck
