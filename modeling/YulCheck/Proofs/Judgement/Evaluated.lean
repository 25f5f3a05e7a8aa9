import YulCheck.Proofs.Judgement.Acceptance

/-! # What a program evaluates

The expressions that the statements of a program evaluate, read off the tree without environments, and
the numbers of all expressions in them. These are the nodes about which a run notes types.
-/

namespace YulCheck

mutual

/-- The expressions that the statements of a block evaluate, at any depth, in the order in which they
are checked. -/
def Block.evaluated : Block → List Expression
  | .mk _ _ statements => statementsEvaluated statements

/-- The expressions that statements evaluate. -/
def statementsEvaluated : List Statement → List Expression
  | [] => []
  | statement :: rest => statement.evaluated ++ statementsEvaluated rest

/-- The expressions that a statement and the statements in it evaluate. -/
def Statement.evaluated : Statement → List Expression
  | .function _ _ _ _ _ body => body.evaluated
  | .conditional _ condition body => condition :: body.evaluated
  | .switch _ scrutinee cases => scrutinee :: casesEvaluated cases
  | .loop _ _ pre condition post body =>
    pre.evaluated ++ condition :: body.evaluated ++ post.evaluated
  | .block block => block.evaluated
  | .expression _ value | .assignment _ _ value => [value]
  | .declaration _ _ value? => value?.toList
  | .break _ | .continue _ | .leave _ => []

/-- The expressions that the statements in the cases of a switch evaluate. -/
def casesEvaluated : List Case → List Expression
  | [] => []
  | .mk _ _ body :: rest => body.evaluated ++ casesEvaluated rest

end

/-- The numbers of expressions and of the expressions in them. -/
def expressionNumbers (expressions : List Expression) : List NodeId :=
  (expressions.flatMap (·.nodes)).map (·.id)

/-- The numbers of all expressions in a block. -/
def Block.numbers (block : Block) : List NodeId := expressionNumbers block.evaluated

/-! ### Points -/

mutual

/-- What a block evaluates is what the statements at its points evaluate. -/
theorem Block.filterMap_points (environment : Environment) (inLoop inFunction : Bool)
    (block : Block) :
    (block.points environment inLoop inFunction).filterMap (·.statement.expression?) =
      block.evaluated := by
  cases block with
  | mk id span statements =>
    rw [Block.points, Block.evaluated]
    exact filterMap_statementPoints environment inLoop inFunction statements [] statements

theorem filterMap_statementPoints (outer : Environment) (inLoop inFunction : Bool)
    (all before statements : List Statement) :
    (statementPoints outer inLoop inFunction all before statements).filterMap
      (·.statement.expression?) = statementsEvaluated statements := by
  cases statements with
  | nil => rfl
  | cons statement rest =>
    rw [statementPoints, statementsEvaluated, List.filterMap_append, statement.filterMap_points,
      filterMap_statementPoints]

theorem Statement.filterMap_points (environment : Environment) (inLoop inFunction : Bool)
    (statement : Statement) :
    (statement.points environment inLoop inFunction).filterMap (·.statement.expression?) =
      statement.evaluated := by
  cases statement with
  | function id span name parameters returns body =>
    rw [Statement.points, Statement.evaluated, List.filterMap_cons_none rfl, body.filterMap_points]
  | conditional span condition body =>
    rw [Statement.points, Statement.evaluated, ← body.filterMap_points environment inLoop inFunction]
    rfl
  | «switch» span scrutinee cases =>
    rw [Statement.points, Statement.evaluated, ← filterMap_casePoints environment inLoop inFunction]
    rfl
  | loop id span pre condition post body =>
    have behind := body.filterMap_points
      (.block pre.statements pre.statements.reverse :: environment) true inFunction
    rw [Statement.points, Statement.evaluated, List.filterMap_append, List.filterMap_append,
      pre.filterMap_points, post.filterMap_points, ← behind]
    rfl
  | block block =>
    rw [Statement.points, Statement.evaluated, block.filterMap_points]
  | declaration span locals value? => cases value? <;> rfl
  | expression | assignment | «break» | «continue» | leave => rfl

theorem filterMap_casePoints (environment : Environment) (inLoop inFunction : Bool)
    (cases : List Case) :
    (casePoints environment inLoop inFunction cases).filterMap (·.statement.expression?) =
      casesEvaluated cases := by
  cases cases with
  | nil => rfl
  | cons first rest =>
    obtain ⟨span, value?, body⟩ := first
    rw [casePoints, casesEvaluated, List.filterMap_append, body.filterMap_points,
      filterMap_casePoints]

end

/-- The types that a run notes are those of all expressions of the program. -/
theorem Setting.map_fst_notes (setting : Setting) (block : Block) :
    (setting.notes block).map (·.1) = block.numbers := by
  rw [← setting.flatMap_notesAt, Block.numbers, ← block.filterMap_points [] false false,
    expressionNumbers, List.filterMap_eq_flatMap_toList, List.flatMap_assoc, List.map_flatMap,
    List.map_flatMap]
  congr 1
  funext point
  rw [notesAt, List.map_map]
  cases point.statement.expression? with
  | none => rfl
  | some value =>
    rw [Option.toList, List.flatMap_singleton]
    rfl

end YulCheck
