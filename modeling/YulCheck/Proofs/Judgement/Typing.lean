import YulCheck.Check.Statement
import YulCheck.Proofs.Scope.Layout

/-! # The rules of a correct program

What has to hold of a program for it to be correct, as conditions on its nodes one by one: on every
expression, and on every statement, in the environment of its point. Nothing here walks through a
program or counts errors.
-/

namespace YulCheck

/-! ### The nodes of a program -/

mutual

/-- The nodes of an expression in the order in which they are evaluated: arguments from right to
left, and before their call. -/
def Expression.nodes : Expression → List Expression
  | .literal constant => [.literal constant]
  | .identifier use => [.identifier use]
  | .call id span callee arguments => argumentNodes arguments ++ [.call id span callee arguments]

/-- The nodes of the arguments of a call, in the order in which they are evaluated. -/
def argumentNodes : List Expression → List Expression
  | [] => []
  | argument :: rest => argumentNodes rest ++ argument.nodes

end

/-- A statement at its point in a program. -/
structure Point where
  /-- The environment in which the expression of the statement is evaluated. -/
  environment : Environment
  /-- Whether the point is in the body of a loop of its function. -/
  inLoop : Bool
  inFunction : Bool
  statement : Statement

mutual

/-- The statements of a block at any depth, with their points, in the order in which they are
checked. -/
def Block.points (environment : Environment) (inLoop inFunction : Bool) : Block → List Point
  | .mk _ _ statements => statementPoints environment inLoop inFunction statements [] statements

/-- The statements of a block at any depth, from one of them on, given all of them and those
before. -/
def statementPoints (outer : Environment) (inLoop inFunction : Bool)
    (all before : List Statement) : List Statement → List Point
  | [] => []
  | statement :: rest =>
    statement.points (.block all before :: outer) inLoop inFunction
      ++ statementPoints outer inLoop inFunction all (statement :: before) rest

/-- A statement and the statements in it. The condition of a loop is behind its pre block. -/
def Statement.points (environment : Environment) (inLoop inFunction : Bool) :
    Statement → List Point
  | .function id span name parameters returns body =>
    ⟨environment, inLoop, inFunction, .function id span name parameters returns body⟩
      :: body.points (.function parameters returns :: environment) false true
  | .conditional span condition body =>
    ⟨environment, inLoop, inFunction, .conditional span condition body⟩
      :: body.points environment inLoop inFunction
  | .switch span scrutinee cases =>
    ⟨environment, inLoop, inFunction, .switch span scrutinee cases⟩
      :: casePoints environment inLoop inFunction cases
  | .loop id span pre condition post body =>
    let behind := .block pre.statements pre.statements.reverse :: environment
    pre.points environment false inFunction
      ++ ⟨behind, inLoop, inFunction, .loop id span pre condition post body⟩
      :: body.points behind true inFunction ++ post.points behind false inFunction
  | .block block => block.points environment inLoop inFunction
  | .expression span value => [⟨environment, inLoop, inFunction, .expression span value⟩]
  | .assignment span targets value =>
    [⟨environment, inLoop, inFunction, .assignment span targets value⟩]
  | .declaration span locals value? =>
    [⟨environment, inLoop, inFunction, .declaration span locals value?⟩]
  | .break span => [⟨environment, inLoop, inFunction, .break span⟩]
  | .continue span => [⟨environment, inLoop, inFunction, .continue span⟩]
  | .leave span => [⟨environment, inLoop, inFunction, .leave span⟩]

/-- The statements in the cases of a switch. -/
def casePoints (environment : Environment) (inLoop inFunction : Bool) : List Case → List Point
  | [] => []
  | .mk _ _ body :: rest =>
    body.points environment inLoop inFunction ++ casePoints environment inLoop inFunction rest

end

/-- The expression that a statement evaluates itself. -/
def Statement.expression? : Statement → Option Expression
  | .expression _ value | .assignment _ _ value | .conditional _ value _ | .switch _ value _
  | .loop _ _ _ value _ _ => some value
  | .declaration _ _ value? => value?
  | .function .. | .break _ | .continue _ | .leave _ | .block _ => none

/-- The expressions of a program at any depth, with their environments, in the order in which they
are evaluated. -/
def Block.expressions (block : Block) : List (Environment × Expression) :=
  (block.points [] false false).flatMap fun point =>
    (point.statement.expression?.map (·.nodes)).getD [] |>.map (point.environment, ·)

/-- The expressions of a program are the nodes of those that its statements evaluate. -/
theorem Block.mem_expressions_iff {block : Block} {environment : Environment}
    {expression : Expression} :
    (environment, expression) ∈ block.expressions ↔
      ∃ point ∈ block.points [] false false, ∃ value, point.statement.expression? = some value ∧
        expression ∈ value.nodes ∧ environment = point.environment := by
  simp only [expressions, List.mem_flatMap, List.mem_map, Prod.mk.injEq]
  constructor
  · rintro ⟨point, member, node, isNode, rfl, rfl⟩
    cases evaluates : point.statement.expression? with
    | none =>
      rw [evaluates] at isNode
      cases isNode
    | some value =>
      rw [evaluates] at isNode
      exact ⟨point, member, value, evaluates, isNode, rfl⟩
  · rintro ⟨point, member, value, evaluates, isNode, rfl⟩
    refine ⟨point, member, expression, ?_, rfl, rfl⟩
    rw [evaluates]
    exact isNode

namespace Setting

variable (setting : Setting) (environment : Environment)

/-! ### Types -/

/-- The types of the parameters and of the returned values of what a name calls: a function of the
dialect, or else one that the program binds. -/
def signature? (name : Handle) : Option (List TypeHandle × List TypeHandle) :=
  match setting.names.builtin? name with
  | .ok (some builtin) => some (builtin.parameters, builtin.returns)
  | .ok none =>
    match environment.lookup? name with
    | some { binding := .function parameters returns, .. } => some (parameters, returns)
    | _ => none
  | .error _ => none

/-- The kinds of literals that the arguments of a function of the dialect have to be. -/
def literalsOf (name : Handle) : List (Option LiteralKind) :=
  match setting.names.builtin? name with
  | .ok (some builtin) => builtin.function.literalArguments
  | _ => []

/-- The type of the variable that a name refers to, if its declaration is complete. -/
def variableType? (name : Handle) : Option TypeHandle :=
  match environment.lookup? name with
  | some { binding := .variable type, isActive := true } => some type
  | _ => none

/-- The types of the values of an expression: that of a literal, of the variable that an identifier
refers to, and of the values that a called function returns. -/
def typesOf : Expression → List TypeHandle
  | .literal constant => [constant.type]
  | .identifier use => (variableType? environment use.name).toList
  | .call _ _ callee _ => ((setting.signature? environment callee.name).map (·.2)).getD []

/-! ### Rules for expressions -/

/-- What has to hold of a literal. -/
structure LiteralIsSound (literal : Literal) : Prop where
  isType : setting.names.isType literal.type = true
  admitted : setting.names.admitsLiteral literal.kind literal.type = true
  isValid : literal.isValid = true

/-- Whether the instruction of a name can be used: it is not `pc`, and the target has it. -/
def IsAvailable (name : Handle) : Prop :=
  ∀ label instruction, setting.names.label name = .ok label →
    Instruction.ofName? label = some instruction → instruction.isCallable .default = true →
      instruction ≠ .pc ∧ ∀ capability, instruction.capability? = some capability →
        setting.version.supports capability = true

/-- What has to hold of a string that a function takes as it is: data objects are known, and bytecode
is not empty. -/
def ContentIsSound (function : Handle) (literal : Literal) : Prop :=
  let predefined := setting.names.predefined
  if function = predefined.datasize ∨ function = predefined.dataoffset then
    literal.format ∈ setting.dataNames
  else
    setting.names.isVerbatim function = .ok true →
      match literal.value with
      | .unlimited content => content.isEmpty = false
      | .word value _ => value.isZero = false

/-- What has to hold of an argument for which a function needs a literal. -/
def ArgumentIsSound (function : Handle) : Option LiteralKind → Expression → Prop
  | none, _ => True
  | some kind, argument =>
    ∃ literal, argument = .literal literal ∧ literal.kind = kind ∧
      (kind = .string → setting.ContentIsSound function literal)

/-- What has to hold of the arguments for which a function needs literals. -/
def ArgumentsAreSound (function : Handle) : List (Option LiteralKind) → List Expression → Prop
  | _, [] => True
  | required, argument :: rest =>
    setting.ArgumentIsSound function required.head?.join argument ∧
      ArgumentsAreSound function required.tail rest

/-- What has to hold of a call: it is of a function that can be used, with one value of the right
type for every parameter, and with literals where they are needed. -/
structure CallIsSound (function : Handle) (arguments : List Expression) : Prop where
  available : ∀ builtin, setting.names.builtin? function = .ok (some builtin) →
    setting.IsAvailable function
  signature : ∃ parameters returns,
    setting.signature? environment function = some (parameters, returns) ∧
      arguments.map (setting.typesOf environment) = parameters.map fun type => [type]
  literals : setting.ArgumentsAreSound function (setting.literalsOf function) arguments

/-- What has to hold of the outermost node of an expression. -/
def NodeIsSound : Expression → Prop
  | .literal constant => setting.LiteralIsSound constant
  | .identifier use => (variableType? environment use.name).isSome = true
  | .call _ _ callee arguments => setting.CallIsSound environment callee.name arguments

/-- What has to hold of an expression, at any depth. -/
def ExpressionIsSound (expression : Expression) : Prop :=
  ∀ node ∈ expression.nodes, setting.NodeIsSound environment node

/-! ### Rules for statements -/

/-- What has to hold of a declared name: its label neither ends with a dot nor has two dots in a row,
and is not reserved. -/
def NameIsFree (name : Handle) : Prop :=
  ∃ label, setting.names.shownLabel name = .ok label ∧ label.toList.getLast? ≠ some '.' ∧
    hasConsecutiveDots label.toList = false ∧ setting.names.dialect.isReserved label = false

/-- What has to hold of a declared variable. -/
structure VariableIsSound (declared : Variable) : Prop where
  name : setting.NameIsFree declared.name
  type : setting.names.isType declared.type = true

/-- The values of the cases of a switch. -/
def caseLiterals (cases : List Case) : List Literal := cases.filterMap (·.value?)

/-- What has to hold of the cases of a switch on a value of a type. -/
structure CasesAreSound (type : TypeHandle) (cases : List Case) : Prop where
  literals : ∀ literal ∈ caseLiterals cases, setting.LiteralIsSound literal ∧ literal.type = type
  distinct : (caseLiterals cases).Pairwise fun earlier later =>
    ∀ value, earlier.value.value = .ok value → later.value.value ≠ .ok value

/-- What has to hold of a statement at its point, apart from the statements in it and from the rules
for its expression. -/
def StatementIsSound (point : Point) : Prop :=
  let types := setting.typesOf point.environment
  match point.statement with
  | .expression _ value => types value = []
  | .assignment _ targets value =>
    (targets.map (·.name)).Nodup ∧
      targets.map (fun target => variableType? point.environment target.name) =
        (types value).map some
  | .declaration _ locals value? =>
    (∀ declared ∈ locals, setting.VariableIsSound declared) ∧
      ∀ value, value? = some value → types value = locals.map (·.type)
  | .function _ _ name parameters returns _ =>
    setting.NameIsFree name ∧ ∀ declared ∈ parameters ++ returns, setting.VariableIsSound declared
  | .conditional _ condition _ | .loop _ _ _ condition _ _ =>
    types condition = [setting.names.predefined.boolType]
  | .switch _ scrutinee cases =>
    ∃ type, types scrutinee = [type] ∧ setting.CasesAreSound type cases
  | .break _ | .continue _ => point.inLoop = true
  | .leave _ => point.inFunction = true
  | .block _ => True

/-- What has to hold of a program. -/
structure IsSound (block : Block) : Prop where
  declaresOnce : block.DeclaresOnce
  statements : ∀ point ∈ block.points [] false false, setting.StatementIsSound point
  expressions : ∀ entry ∈ block.expressions, setting.NodeIsSound entry.1 entry.2

end Setting

end YulCheck
