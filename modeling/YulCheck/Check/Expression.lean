import YulCheck.Check.Setting

/-! # Checking expressions

An expression has the types of the values that it yields. A mistake is reported where it is found,
and checking goes on with the types that the expression most likely has.
-/

namespace YulCheck.Setting

variable (setting : Setting) (place : Place)

/-! ### Literals -/

/-- Check that the value of a literal respects the limits of its kind. The result tells whether it
does. -/
def checkValue (literal : Literal) : Walk Bool := do
  match literal.kind with
  | .string =>
    let isRight := literal.value.isUnlimited || literal.value.fitsWord
    expect place isRight literal.span (pure (.stringTooLong literal.format.utf8ByteSize))
    return isRight
  | .number =>
    let isRight := literal.value.isNumeral
    expect place isRight literal.span (pure .numberTooLarge)
    return isRight
  | .boolean =>
    let value ← literal.value.value
    Walk.require (value = Word.zero || value = Word.one) .booleanOutOfRange
    Walk.require (literal.value.spelling?.all fun text => text = "true" || text = "false")
      .booleanMisspelled
    return true

/-- Check a literal. It has one value of its type. -/
def checkLiteral (literal : Literal) : Walk (List TypeHandle) := do
  let names := setting.names
  setting.checkType place literal.type literal.span
  let hasRightValue ← checkValue place literal
  let hasRightType := names.admitsLiteral literal.kind literal.type
  expect place hasRightType literal.span do
    return .literalType (← names.label literal.type) literal.format
  Walk.require (!(hasRightValue && hasRightType) || literal.isValid) .literalInvalid
  return [literal.type]

/-! ### Identifiers -/

/-- Ask the host about a name. -/
def consult (identifier : Identifier) (use : IdentifierUse) : Walk Bool :=
  .ask (.consult place identifier use)

/-- Look up a name. -/
def lookup (name : Handle) : Walk (Option Found) :=
  .ask (.lookup place.block name)

/-- Check the use of a name as a value. It has one value of the declared type, or of the default type
if the program does not bind it. -/
def checkIdentifier (identifier : Identifier) : Walk (List TypeHandle) := do
  let { name, span, .. } := identifier
  let label := setting.names.shownLabel name
  Walk.require (!name.isEmpty) .identifierUnnamed
  let errors ← Walk.ask .errorCount
  match ← lookup place name with
  | some { binding := .variable type, isActive } =>
    expect place isActive span do return .readBeforeDeclaration (← label)
    let _ ← consult place identifier .bound
    return [type]
  | some { binding := .function .., .. } =>
    report place (.functionAsValue (← label)) span
    let _ ← consult place identifier .bound
    return [setting.defaultType]
  | none =>
    let isKnown ← consult place identifier .read
    expect place (isKnown || !(← Walk.isQuietSince errors)) span do
      return .identifierNotFound (← label)
    return [setting.defaultType]

/-! ### Calls -/

/-- Check that an instruction can be called. The result tells whether it cannot. -/
def checkInstruction (instruction : Instruction) (span : Span) : Walk Bool := do
  match Gate.barring? setting.version instruction with
  | some gate =>
    report place (.unavailable gate setting.version) span
    return true
  | none =>
    if instruction = .pc then
      report place .programCounter span
      return true
    else return false

/-- Check that a called name is not an instruction of the default version which cannot be called. The
result tells whether it is one. -/
def checkTarget (callee : Identifier) : Walk Bool := do
  let names := setting.names
  if (← names.isAlias callee.name) && !(← names.isVerbatim callee.name) then return false
  let label ← names.label callee.name
  match (Instruction.ofName? label).filter (·.isCallable .default) with
  | some instruction => setting.checkInstruction place instruction callee.span
  | none => return false

/-- What is known about a called function. -/
structure Callee where
  /-- The types of the parameters and of the returned values. -/
  signature? : Option (List TypeHandle × List TypeHandle)
  /-- The kinds of literals that arguments have to be. -/
  literals : List (Option LiteralKind)
  /-- Whether the function is known to the host only. -/
  isExternal : Bool

/-- Warn of functions that should not be used. -/
def warnOfUse (callee : Identifier) : Walk Unit := do
  let predefined := setting.names.predefined
  if callee.name = predefined.selfdestruct then
    report place .selfdestructDeprecated callee.span
  else if setting.version.supports .transientStorage && callee.name = predefined.tstore then
    Walk.ask (.warnOnce (Finding.transientStorage.toDiagnostic callee.span))

/-- Find the function that a name refers to: one of the dialect, or else one that the program binds,
or else one that the host knows. The number of errors is that at the start of the call. -/
def resolveCallee (errors : Nat) (callee : Identifier) : Walk Callee := do
  let { name, span, .. } := callee
  match ← (setting.names.builtin? name : Walk (Option BuiltinSignature)) with
  | some builtin =>
    setting.warnOfUse place callee
    let _ ← setting.checkTarget place callee
    Walk.ask (.noteEffects builtin.function.effects)
    return ⟨some (builtin.parameters, builtin.returns), builtin.function.literalArguments, false⟩
  | none =>
    match ← lookup place name with
    | some { binding := .variable _, .. } =>
      report place .variableCalled span
      let _ ← consult place callee .bound
      return ⟨none, [], false⟩
    | some { binding := .function parameters returns, .. } =>
      let _ ← consult place callee .bound
      return ⟨some (parameters, returns), [], false⟩
    | none =>
      if ← setting.checkTarget place callee then return ⟨none, [], false⟩
      let isExternal ← consult place callee .read
      expect place (isExternal || !(← Walk.isQuietSince errors)) span do
        return .functionNotFound (← setting.names.shownLabel name)
      Walk.require (isExternal || !(← Walk.isQuietSince errors)) .rejectionUnreported
      return ⟨none, [], isExternal⟩

/-- Check that a call has as many arguments as its function has parameters. -/
def checkArgumentCount (callee : Callee) (name : Identifier) (given : Nat) : Walk Unit := do
  if let some (parameters, _) := callee.signature? then
    expect place (given = parameters.length) name.span do
      return .argumentCount (← setting.names.shownLabel name.name) parameters.length given

/-- Check the text of a literal that a function takes as it is: data objects have to be known, and
bytecode must not be empty. -/
def checkContent (function : Handle) (literal : Literal) : Walk Unit := do
  let predefined := setting.names.predefined
  if function = predefined.datasize || function = predefined.dataoffset then
    expect place (setting.dataNames.contains literal.format) literal.span
      (pure (.unknownObject literal.format))
  else if ← setting.names.isVerbatim function then
    let isEmpty ← match literal.value with
      | .unlimited content => pure content.isEmpty
      | .word value _ => pure value.isZero
    expect place (!isEmpty) literal.span (pure .emptyBytecode)

/-- Check a string literal where a function takes one as it is. -/
def checkStringArgument (function : Handle) (literal : Literal) : Walk TypeHandle := do
  setting.checkContent place function literal
  let isText := literal.kind = .string && setting.names.admitsLiteral .string literal.type
  Walk.require isText .argumentNotText
  Walk.require literal.value.isUnlimited .argumentNotUnlimited
  Walk.ask (.noteTypes literal.id [literal.type])
  return literal.type

/-- The literal that a function takes as it is, if an argument is one where one is needed. -/
def contentArgument? (required? : Option LiteralKind) : Expression → Option Literal
  | .literal literal =>
    if required? = some .string ∧ literal.kind = .string then some literal else none
  | _ => none

theorem contentArgument?_eq_some {required? : Option LiteralKind} {argument : Expression}
    {literal : Literal} (content : contentArgument? required? argument = some literal) :
    argument = .literal literal ∧ required? = some .string ∧ literal.kind = .string := by
  cases argument with
  | identifier | call => cases content
  | literal constant =>
    rw [contentArgument?] at content
    split at content
    · cases content
      rename_i both
      exact ⟨rfl, both⟩
    · cases content

/-- Check that an argument is a literal of the kind that is needed, if one is. -/
def checkArgumentKind (callee : Identifier) : Option LiteralKind → Expression → Walk Unit
  | some required, .literal literal =>
    expect place (literal.kind = required) literal.span (pure (.literalKind required))
  | some _, _ => report place .literalExpected callee.span
  | none, _ => return

/-- The one type of an expression that is used as a single value. -/
def singleType (expression : Expression) (types : List TypeHandle) : Walk TypeHandle := do
  expect place (types.length = 1) expression.span (pure (.valueCount types.length))
  return types.head?.getD setting.defaultType

/-- Check the types of arguments against those of the parameters, from left to right. -/
def checkArgumentTypes : List TypeHandle → List TypeHandle → List Expression → Walk Unit
  | expected :: parameters, given :: types, argument :: arguments => do
    setting.checkSameType place expected given argument.span
    checkArgumentTypes parameters types arguments
  | _, _, _ => return

/-- The types of the values of a call. After a mistake all of them are the default type. -/
def callTypes (errors : Nat) (callee : Callee) (given : Nat) : Walk (List TypeHandle) := do
  if ← Walk.isQuietSince errors then
    let fits := callee.signature?.any fun (parameters, _) => parameters.length = given
    Walk.require (callee.isExternal || fits) .signatureMissing
    return (callee.signature?.map (·.2)).getD []
  else
    return (callee.signature?.map fun (_, returns) => returns.map fun _ => setting.defaultType).getD []

mutual

/-- Check an expression. The result is the list of the types of its values. -/
def checkExpression : Expression → Walk (List TypeHandle)
  | .literal literal => do
    let types ← setting.checkLiteral place literal
    Walk.ask (.noteTypes literal.id types)
    return types
  | .identifier identifier => do
    let types ← setting.checkIdentifier place identifier
    Walk.ask (.noteTypes identifier.id types)
    return types
  | .call id _ name arguments => do
    Walk.require (!name.name.isEmpty) .callUnnamed
    let errors ← Walk.ask .errorCount
    let callee ← setting.resolveCallee place errors name
    setting.checkArgumentCount place callee name arguments.length
    let given ← checkArguments name callee.literals arguments
    if let some (parameters, _) := callee.signature? then
      setting.checkArgumentTypes place parameters given arguments
    let types ← setting.callTypes errors callee given.length
    Walk.ask (.noteTypes id types)
    return types

/-- Check the arguments of a call from right to left, given the kinds of literals that they have to
be. The result is the list of their types from left to right. -/
def checkArguments (callee : Identifier) (required : List (Option LiteralKind)) :
    List Expression → Walk (List TypeHandle)
  | [] => return []
  | argument :: rest => do
    let types ← checkArguments callee required.tail rest
    let required? := required.head?.join
    match contentArgument? required? argument with
    | some literal => return (← setting.checkStringArgument place callee.name literal) :: types
    | none =>
      checkArgumentKind place callee required? argument
      return (← setting.singleType place argument (← checkExpression argument)) :: types

end

end YulCheck.Setting
