import YulCheck.Proofs.Mistake.Statements
import YulCheck.Proofs.Mistake.Visited

/-! # The mistakes in a block

All errors in the statements of a block at any depth, one after another, read off the program and the
environment around it. A run that comes to a point of a program appends the errors of the statement
there.
-/

namespace YulCheck

variable {σ α β : Type}

/-! ### Checks one after another -/

namespace LexicalWalk.Reports

variable {walk : LexicalWalk α} {next : α → LexicalWalk β} {errors : Nat}
  {mistakes more : List Diagnostic} {result : α} {last : β}

/-- The first part reports nothing. -/
theorem nil_bind (first : walk.Reports errors [] result)
    (rest : (next result).Reports errors more last) : (walk >>= next).Reports errors more last :=
  first.bind rest

end LexicalWalk.Reports

namespace LexicalWalk.Agrees

variable {host? : Option (Host σ)} {walk : LexicalWalk α} {rest : α → LexicalWalk β}
  {state middle : RunState σ}

/-- What agrees as a whole agrees at its start. -/
theorem first (agrees : (walk >>= rest).Agrees host? state) : walk.Agrees host? state := by
  induction walk generalizing state with
  | done | broken => trivial
  | step environment request answered ih =>
    exact ⟨agrees.1, fun answer after ran => ih answer (agrees.2 answer after ran)⟩

/-- What agrees as a whole agrees further on. -/
theorem next {result : α} (agrees : (walk >>= rest).Agrees host? state)
    (ran : walk.erase.run host? state = .ok (.ok result, middle)) :
    (rest result).Agrees host? middle := by
  induction walk generalizing state with
  | done value =>
    cases ran
    exact agrees
  | broken => cases ran
  | step environment request answered ih =>
    obtain ⟨answer, after, answeredTo, ran⟩ := Run.bind_eq_ok_ok_iff.mp ran
    exact ih answer (agrees.2 answer after answeredTo) ran

variable {environment : Environment} {check : Walk α} {others : α → Walk β} {result : α}

/-- What agrees as a whole agrees behind a part in one environment. -/
theorem behind (agrees : (check.within environment >>= rest).Agrees host? state)
    (ran : check.run host? state = .ok (.ok result, middle)) :
    (rest result).Agrees host? middle := by
  rw [← erase_within environment check] at ran
  exact agrees.next ran

theorem within_first (agrees : ((check >>= others).within environment).Agrees host? state) :
    (check.within environment).Agrees host? state := by
  rw [within_bind] at agrees
  exact agrees.first

theorem within_next (agrees : ((check >>= others).within environment).Agrees host? state)
    (ran : check.run host? state = .ok (.ok result, middle)) :
    ((others result).within environment).Agrees host? middle := by
  rw [within_bind] at agrees
  exact agrees.behind ran

end LexicalWalk.Agrees

namespace Setting

variable (setting : Setting)

/-! ### Mistakes -/

mutual

/-- The errors in a block inside an environment. -/
def blockMistakes (outer : Environment) (inLoop inFunction : Bool) : Block → List Diagnostic
  | .mk _ _ statements => statementsMistakes outer inLoop inFunction statements [] statements

/-- The errors in statements of a block, given all of its statements and those before. -/
def statementsMistakes (outer : Environment) (inLoop inFunction : Bool)
    (all before : List Statement) : List Statement → List Diagnostic
  | [] => []
  | statement :: rest =>
    statementMistakes (.block all before :: outer) inLoop inFunction statement ++
      statementsMistakes outer inLoop inFunction all (statement :: before) rest

/-- The errors in a statement in an environment. -/
def statementMistakes (environment : Environment) (inLoop inFunction : Bool) :
    Statement → List Diagnostic
  | .expression span expression => setting.effectMistakes environment span expression
  | .assignment span targets value => setting.assignmentMistakes environment span targets value
  | .declaration span locals value? => setting.declarationMistakes environment span locals value?
  | .function _ span name parameters returns body =>
    setting.headerMistakes span name parameters returns ++
      blockMistakes (.function parameters returns :: environment) false true body
  | .conditional _ condition body =>
    setting.conditionMistakes environment condition ++
      blockMistakes environment inLoop inFunction body
  | .switch _ scrutinee cases =>
    setting.singleMistakes environment scrutinee ++
      casesMistakes environment inLoop inFunction (setting.singleTypeOf environment scrutinee) []
        cases
  | .loop _ _ pre condition post body =>
    let behind := .block pre.statements pre.statements.reverse :: environment
    blockMistakes environment false inFunction pre ++
      (setting.conditionMistakes behind condition ++
        (blockMistakes behind true inFunction body ++ blockMistakes behind false inFunction post))
  | .break span => mistakeUnless inLoop span (.outsideLoop "break")
  | .continue span => mistakeUnless inLoop span (.outsideLoop "continue")
  | .leave span => mistakeUnless inFunction span .outsideFunction
  | .block block => blockMistakes environment inLoop inFunction block

/-- The errors in the cases of a switch on a value of a type, given the words of the cases before. -/
def casesMistakes (environment : Environment) (inLoop inFunction : Bool) (type : TypeHandle)
    (before : List Word) : List Case → List Diagnostic
  | [] => []
  | .mk span value? body :: rest =>
    setting.caseMistakes type before span value? ++
      (blockMistakes environment inLoop inFunction body ++
        casesMistakes environment inLoop inFunction type
          ((setting.caseWord? type value?).toList ++ before) rest)

end

/-! ### Checks of blocks -/

open Walk

variable {setting : Setting} {environment : Environment} {place : Place} {errors : Nat}

theorem reports_enterBlock (block : Block) :
    (enterBlock place block).Reports environment errors [] { place with block := block.id } :=
  .ask_bind rfl (.require_bind fun _ => .pure _)

mutual

/-- Checking a block reports the errors in it. -/
theorem reports_lexicalBlock (block : Block) (outer : Environment) (place : Place) (errors : Nat) :
    (setting.lexicalBlock outer place block).Reports errors
      (setting.blockMistakes outer place.inLoop place.inFunction block) () := by
  obtain ⟨id, span, statements⟩ := block
  rw [lexicalBlock, blockMistakes]
  exact .nil_bind (reports_enterBlock _)
    (reports_lexicalStatements statements outer statements [] { place with block := id } errors)

theorem reports_lexicalStatements (statements : List Statement) (outer : Environment)
    (all before : List Statement) (place : Place) (errors : Nat) :
    (setting.lexicalStatements outer all before place statements).Reports errors
      (setting.statementsMistakes outer place.inLoop place.inFunction all before statements) () := by
  cases statements with
  | nil =>
    rw [lexicalStatements, statementsMistakes]
    exact .pure ()
  | cons statement rest =>
    rw [lexicalStatements, statementsMistakes]
    exact (reports_lexicalStatement statement _ place errors).bind
      (reports_lexicalStatements rest outer all _ place _)

theorem reports_lexicalStatement (statement : Statement) (environment : Environment) (place : Place)
    (errors : Nat) :
    (setting.lexicalStatement environment place statement).Reports errors
      (setting.statementMistakes environment place.inLoop place.inFunction statement) () := by
  rw [statementMistakes.eq_def]
  cases statement with
  | expression span expression => exact reports_checkEffect span expression
  | assignment span targets value => exact reports_checkAssignment span targets value
  | declaration span locals value? => exact reports_checkDeclaration span locals value?
  | function id span name parameters returns body =>
    rw [lexicalStatement]
    exact .bind (reports_checkHeader id span name parameters returns)
      (reports_lexicalBlock body _ { place with inLoop := false, inFunction := true } _)
  | conditional span condition body =>
    rw [lexicalStatement]
    exact .bind (reports_checkCondition condition) (reports_lexicalBlock body _ place _)
  | «switch» span scrutinee cases =>
    rw [lexicalStatement]
    refine .nil_bind (Reports.expect_warning rfl span) (.bind (reports_checkSingle scrutinee) ?_)
    exact reports_lexicalCases cases environment place _ [] _
  | loop id span pre condition post body =>
    rw [lexicalStatement]
    refine .bind (reports_lexicalBlock pre _ { place with inLoop := false } _) ?_
    refine .nil_bind (reports_enterBlock pre) (.bind (reports_checkCondition condition) ?_)
    exact .bind (reports_lexicalBlock body _ ⟨pre.id, true, place.inFunction⟩ _)
      (reports_lexicalBlock post _ ⟨pre.id, false, place.inFunction⟩ _)
  | «break» span | «continue» span | leave span => exact Reports.expect rfl span (.pure _)
  | block block =>
    rw [lexicalStatement]
    exact reports_lexicalBlock block environment place errors

theorem reports_lexicalCases (cases : List Case) (environment : Environment) (place : Place)
    (type : TypeHandle) (before : List Word) (errors : Nat) :
    (setting.lexicalCases environment place type before cases).Reports errors
      (setting.casesMistakes environment place.inLoop place.inFunction type before cases) () := by
  rcases cases with _ | ⟨⟨span, value?, body⟩, rest⟩
  · rw [lexicalCases, casesMistakes]
    exact .pure ()
  · rw [lexicalCases.eq_def, casesMistakes]
    exact .bind (reports_caseValue type before span value?) (.bind
      (reports_lexicalBlock body environment place _)
      (reports_lexicalCases rest environment place type _ _))

end

/-! ### Points -/

/-- The errors at a point: those in a statement or, behind the pre block of a loop, in the condition of
the loop. -/
def pointMistakes (setting : Setting) (environment : Environment) (inLoop inFunction : Bool) :
    Statement → List Diagnostic
  | .loop _ _ _ condition _ _ => setting.conditionMistakes environment condition
  | statement => setting.statementMistakes environment inLoop inFunction statement

theorem reports_lexicalPoint (statement : Statement) :
    (setting.lexicalPoint environment place statement).Reports errors
      (setting.pointMistakes environment place.inLoop place.inFunction statement) () := by
  cases statement with
  | loop id span pre condition post body => exact reports_checkCondition condition
  | _ => exact reports_lexicalStatement _ environment place errors

theorem finds_checkPoint (statement : Statement) :
    (setting.checkPoint place statement).Only Request.ReportsFindings := by
  cases statement with
  | loop id span pre condition post body =>
    exact findings_blocks.ofStays (setting.stays_checkCondition condition)
  | _ => exact findings_blocks.checkStatement place _

/-- A run that comes to a point of a program appends the errors at the point. -/
theorem ArrivesAt.runsTo {walk : Walk α} {result : α} {state there after : RunState σ} {point : Point}
    {scope : ScopeId} (arrival : setting.ArrivesAt none point walk state place scope there)
    (ran : walk.run none state = .ok (.ok result, after)) :
    ∃ behind, (setting.checkPoint place point.statement).RunsTo there behind
      (setting.pointMistakes point.environment place.inLoop place.inFunction point.statement) () := by
  obtain ⟨⟨⟩, behind, ranPoint⟩ := arrival.reaches.exists_run ran
  have finds := @finds_checkPoint setting place point.statement
  have agrees := arrival.agrees
  rw [← setting.erase_lexicalPoint point.environment] at ranPoint finds ⊢
  exact ⟨behind, LexicalWalk.runsTo_of_reports agrees finds (reports_lexicalPoint _) ranPoint⟩

end Setting

end YulCheck
