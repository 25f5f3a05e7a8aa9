import YulCheck.Check.Declarations
import YulCheck.Check.Expression

/-! # Checking statements

Statements are checked in their order, after all declarations were entered. A variable can be used
from the statement after its declaration on.
-/

namespace YulCheck.Setting

variable (setting : Setting) (place : Place)

/-! ### Declarations and assignments -/

/-- Check the values of a declaration against its variables. A variable without a value is taken to
have one of the default type. -/
def checkDeclaredTypes : List Variable → List TypeHandle → Walk Unit
  | [], _ => return
  | declared :: rest, types => do
    let given := types.head?.getD setting.defaultType
    expect place (declared.type = given) declared.span do
      return .declaredType (← setting.names.label given) (← setting.names.label declared.type)
    checkDeclaredTypes rest types.tail

/-- Check the value of a declaration. -/
def checkInitialValue (span : Span) (locals : List Variable) (value : Expression) :
    Walk Unit := do
  let types ← setting.checkExpression place value
  expect place (types.length = locals.length) span do
    return .declarationCount (← setting.shownLabels (locals.map (·.name))) locals.length
      types.length
  setting.checkDeclaredTypes place locals types

/-- From here on a variable of a block can be used. -/
def activateVariable (declared : Variable) : Walk Unit := do
  let isBound ← Walk.ask (.activate (.block place.block) declared.name)
  Walk.require isBound (.variableUnbound declared.name)

/-- Check a declaration of variables. None of them can be used in their own value. -/
def checkDeclaration (span : Span) (locals : List Variable) (value? : Option Expression) :
    Walk Unit := do
  locals.forM fun declared => discard (consult place declared.toIdentifier .declare)
  locals.forM (setting.checkVariable place)
  if let some value := value? then setting.checkInitialValue place span locals value
  locals.forM (activateVariable place)

/-- Check that no name occurs twice among the targets of an assignment, given the names of those
before. -/
def checkRepeatedTargets (span : Span) : (before : List Handle) → List Identifier → Walk Unit
  | _, [] => return
  | before, target :: rest => do
    expect place (!before.contains target.name) span do
      return .repeatedTarget (← setting.names.shownLabel target.name)
    checkRepeatedTargets span (target.name :: before) rest

/-- The type of the values that a target takes, if it is a variable that can be assigned to. -/
def targetType (target : Identifier) : Walk (Option TypeHandle) := do
  let errors ← Walk.ask .errorCount
  match ← lookup place target.name with
  | some { binding := .function .., .. } =>
    let _ ← consult place target .bound
    report place .functionAsTarget target.span
    return none
  | some { binding := .variable type, isActive } =>
    let _ ← consult place target .bound
    expect place isActive target.span do
      return .assignedBeforeDeclaration (← setting.names.shownLabel target.name)
    return if isActive then some type else none
  | none =>
    let isKnown ← consult place target .write
    expect place (isKnown || !(← Walk.isQuietSince errors)) target.span (pure .targetNotFound)
    return if isKnown then some setting.defaultType else none

/-- Check the assignment of a value to a target. -/
def checkTargetType (target : Identifier) (given : TypeHandle) : Walk Unit := do
  Walk.require (!target.name.isEmpty) .targetUnnamed
  let errors ← Walk.ask .errorCount
  let type? ← setting.targetType place target
  if let some type := type? then
    expect place (type = given) target.span do
      return .assignedType (← setting.names.label given) (← setting.names.label type)
  Walk.require (!(← Walk.isQuietSince errors) || type?.isSome) .targetUntyped

/-- Check values against the targets that they are assigned to. -/
def checkTargetTypes : List Identifier → List TypeHandle → Walk Unit
  | target :: targets, type :: types => do
    setting.checkTargetType place target type
    checkTargetTypes targets types
  | _, _ => return

/-- Check an assignment. -/
def checkAssignment (span : Span) (targets : List Identifier) (value : Expression) :
    Walk Unit := do
  Walk.require (!targets.isEmpty) .assignmentWithoutTargets
  setting.checkRepeatedTargets place span [] targets
  let types ← setting.checkExpression place value
  expect place (types.length = targets.length) span do
    return .assignmentCount (← setting.shownLabels (targets.map (·.name))) targets.length
      types.length
  setting.checkTargetTypes place targets types

/-! ### Other statements -/

/-- Check an expression that is used as a statement. After a mistake in it, its values do not
matter. -/
def checkEffect (span : Span) (expression : Expression) : Walk Unit := do
  let errors ← Walk.ask .errorCount
  let types ← setting.checkExpression place expression
  expect place (!(← Walk.isQuietSince errors) || types.isEmpty) span
    (pure (.unusedValues types.length))

/-- Check an expression that is used as a single value. The result is its type. -/
def checkSingle (expression : Expression) : Walk TypeHandle := do
  setting.singleType place expression (← setting.checkExpression place expression)

/-- Check a condition. -/
def checkCondition (condition : Expression) : Walk Unit := do
  let type ← setting.checkSingle place condition
  let boolType := setting.names.predefined.boolType
  expect place (type = boolType) condition.span do
    return .conditionType (← setting.names.label boolType) (← setting.names.label type)

/-- Check the value of a case against the type of its switch and the values before. The result is the
list of the values so far; values with mistakes are not among them. -/
def checkCaseValue (type : TypeHandle) (before : List Word) (span : Span) (literal : Literal) :
    Walk (List Word) := do
  let errors ← Walk.ask .errorCount
  setting.checkSameType place type literal.type literal.span
  let _ ← setting.checkLiteral place literal
  if ← Walk.isQuietSince errors then
    let value ← literal.value.value
    expect place (!before.contains value) span (pure (.repeatedCase literal.format))
    return value :: before
  else return before

/-- Check the name, the parameters and the return variables of a function, which can be used in its
body. -/
def checkHeader (id : NodeId) (span : Span) (name : Handle)
    (parameters returns : List Variable) : Walk Unit := do
  Walk.require (!name.isEmpty) .functionUnnamed
  setting.checkName place name span
  Walk.require (← Walk.ask (.hasScope (.function id))) (.functionWithoutScope name)
  (parameters ++ returns).forM fun declared => do
    setting.checkVariable place declared
    discard (Walk.ask (.activate (.function id) declared.name))

/-- Enter a block at a place. -/
def enterBlock (block : Block) : Walk Place := do
  Walk.require (← Walk.ask (.hasScope (.block block.id))) (.blockWithoutScope block.id)
  return { place with block := block.id }

/-! ### Blocks -/

mutual

/-- Check the statements of a block. -/
def checkBlock (place : Place) : Block → Walk Unit
  | .mk id span statements => do
    checkStatements (← enterBlock place (.mk id span statements)) statements

/-- Check statements in their order. -/
def checkStatements (place : Place) : List Statement → Walk Unit
  | [] => return
  | statement :: rest => do
    checkStatement place statement
    checkStatements place rest

/-- Check a statement. -/
def checkStatement (place : Place) : Statement → Walk Unit
  | .expression span expression => setting.checkEffect place span expression
  | .assignment span targets value => setting.checkAssignment place span targets value
  | .declaration span locals value? => setting.checkDeclaration place span locals value?
  | .function id span name parameters returns body => do
    setting.checkHeader place id span name parameters returns
    checkBlock { place with inLoop := false, inFunction := true } body
  | .conditional _ condition body => do
    setting.checkCondition place condition
    checkBlock place body
  | .switch span scrutinee cases => do
    let isOnlyDefault := cases.length = 1 && cases.all (·.value?.isNone)
    expect place (!isOnlyDefault) span (pure .onlyDefaultCase)
    let type ← setting.checkSingle place scrutinee
    checkCases place type [] cases
  | .loop _ _ pre condition post body => do
    let outside := { place with inLoop := false }
    checkBlock outside pre
    let inside ← enterBlock outside pre
    setting.checkCondition inside condition
    checkBlock { inside with inLoop := true } body
    checkBlock inside post
  | .break span => expect place place.inLoop span (pure (.outsideLoop "break"))
  | .continue span => expect place place.inLoop span (pure (.outsideLoop "continue"))
  | .leave span => expect place place.inFunction span (pure .outsideFunction)
  | .block block => checkBlock place block

/-- Check the cases of a switch on a value of a type, given the values of the cases before. -/
def checkCases (place : Place) (type : TypeHandle) (before : List Word) : List Case → Walk Unit
  | [] => return
  | .mk span value? body :: rest => do
    let values ← match value? with
      | some literal => setting.checkCaseValue place type before span literal
      | none => pure before
    checkBlock place body
    checkCases place type values rest

end

/-- Check a program: enter its declarations and, if no name is declared twice, check its
statements. -/
def checkProgram (block : Block) : Walk Unit := do
  if ← setting.enterDeclarations place block then setting.checkBlock place block

end YulCheck.Setting
