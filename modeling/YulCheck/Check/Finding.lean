import YulCheck.Check.Gate
import YulCheck.Diagnostic.Basic
import YulCheck.Literal

/-! # What can be wrong with a program

Every problem that checking reports, with the names it is about, and its category, number and
message.
-/

namespace YulCheck

/-- A problem of a program, apart from its position. Names are given by the labels in messages. -/
inductive Finding
  /-- A variable of a name that is taken in its scope. -/
  | variableTaken (label : String)
  /-- A function of a name that is taken in its scope. -/
  | functionTaken (label : String)
  /-- A declared name ends with a dot. -/
  | endsWithDot (label : String)
  /-- A declared name has two dots in a row. -/
  | consecutiveDots (label : String)
  /-- A declared name is reserved by the dialect. -/
  | reservedName (label : String)
  /-- A type that the dialect does not have. -/
  | unknownType (label : String)
  /-- A string literal with more bytes than a word. -/
  | stringTooLong (bytes : Nat)
  /-- A number literal that is no word. -/
  | numberTooLarge
  /-- A literal with a type that literals of its kind cannot have. -/
  | literalType (type literal : String)
  /-- A variable is read before its declaration. -/
  | readBeforeDeclaration (label : String)
  /-- A function is read like a variable. -/
  | functionAsValue (label : String)
  /-- A name that is read is not bound. -/
  | identifierNotFound (label : String)
  /-- A name occurs twice among the targets of an assignment. -/
  | repeatedTarget (label : String)
  /-- An assignment of a number of values that differs from that of its targets. -/
  | assignmentCount (labels : String) (targets values : Nat)
  /-- A function is assigned to. -/
  | functionAsTarget
  /-- A variable is assigned to before its declaration. -/
  | assignedBeforeDeclaration (label : String)
  /-- A name that is assigned to is not bound. -/
  | targetNotFound
  /-- A value is assigned to a variable of another type. -/
  | assignedType (value target : String)
  /-- A declaration with a number of values that differs from that of its variables. -/
  | declarationCount (labels : String) (locals values : Nat)
  /-- A variable is declared with a value of another type. -/
  | declaredType (value declared : String)
  /-- An expression with values is used as a statement. -/
  | unusedValues (count : Nat)
  /-- An expression with no or several values is used as one value. -/
  | valueCount (count : Nat)
  /-- A value of another type than the one that is needed. -/
  | unexpectedType (expected given : String)
  /-- A condition that is no truth value. -/
  | conditionType (expected given : String)
  /-- The instruction `selfdestruct` is deprecated. -/
  | selfdestructDeprecated
  /-- Transient storage is hard to use safely. -/
  | transientStorage
  /-- An instruction that the target does not have. -/
  | unavailable (gate : Gate) (target : EvmVersion)
  /-- The position in the program is not accessible. -/
  | programCounter
  /-- A variable is called. -/
  | variableCalled
  /-- A called name is not bound. -/
  | functionNotFound (label : String)
  /-- A call with a number of arguments that differs from that of the parameters. -/
  | argumentCount (label : String) (expected given : Nat)
  /-- An argument is a literal of another kind than the one that is needed. -/
  | literalKind (expected : LiteralKind)
  /-- An argument is no literal where one is needed. -/
  | literalExpected
  /-- A data object that the program does not know of. -/
  | unknownObject (label : String)
  /-- The bytecode of a `verbatim` function is empty. -/
  | emptyBytecode
  /-- A switch without values. -/
  | onlyDefaultCase
  /-- Two cases of a switch with one value. -/
  | repeatedCase (literal : String)
  /-- A keyword that is only allowed in the body of a loop. -/
  | outsideLoop (keyword : String)
  /-- The keyword `leave` outside of functions. -/
  | outsideFunction
deriving DecidableEq, Repr

namespace Finding

/-- The category and the number of a problem. -/
def heading : Finding → Category × Nat
  | variableTaken _ => (.declaration, 1395)
  | functionTaken _ => (.declaration, 6052)
  | endsWithDot _ => (.grammar, 3384)
  | consecutiveDots _ => (.grammar, 7771)
  | reservedName _ => (.declaration, 5017)
  | unknownType _ => (.typing, 5473)
  | stringTooLong _ => (.typing, 3069)
  | numberTooLarge => (.typing, 6708)
  | literalType .. => (.typing, 5170)
  | readBeforeDeclaration _ => (.declaration, 4990)
  | functionAsValue _ => (.typing, 6041)
  | identifierNotFound _ => (.declaration, 8198)
  | repeatedTarget _ => (.declaration, 9005)
  | assignmentCount .. => (.declaration, 8678)
  | functionAsTarget => (.typing, 2657)
  | assignedBeforeDeclaration _ => (.declaration, 1133)
  | targetNotFound => (.declaration, 4634)
  | assignedType .. => (.typing, 9547)
  | declarationCount .. => (.declaration, 3812)
  | declaredType .. => (.typing, 3947)
  | unusedValues _ => (.typing, 3083)
  | valueCount _ => (.typing, 3950)
  | unexpectedType .. => (.typing, 3781)
  | conditionType .. => (.typing, 1733)
  | selfdestructDeprecated => (.warning, 1699)
  | transientStorage => (.warning, 2394)
  | unavailable gate _ => (.typing, gate.code)
  | programCounter => (.grammar, 2450)
  | variableCalled => (.typing, 4202)
  | functionNotFound _ => (.declaration, 4619)
  | argumentCount .. => (.typing, 7000)
  | literalKind _ => (.typing, 5859)
  | literalExpected => (.typing, 9114)
  | unknownObject _ => (.typing, 3517)
  | emptyBytecode => (.typing, 1844)
  | onlyDefaultCase => (.warning, 9592)
  | repeatedCase _ => (.declaration, 6792)
  | outsideLoop _ => (.grammar, 2592)
  | outsideFunction => (.grammar, 8149)

/-- The category of a problem. -/
def category (finding : Finding) : Category := finding.heading.1

/-- The number of a problem. -/
def code (finding : Finding) : Nat := finding.heading.2

/-- The text on the deprecation of `selfdestruct`. -/
def selfdestructText : String :=
  "\"selfdestruct\" has been deprecated. Note that, starting from the Cancun hard fork, the "
    ++ "underlying opcode no longer deletes the code and data associated with an account and only "
    ++ "transfers its Ether to the beneficiary, unless executed in the same transaction in which the "
    ++ "contract was created (see EIP-6780). Any use in newly deployed contracts is strongly "
    ++ "discouraged even if the new behavior is taken into account. Future changes to the EVM might "
    ++ "further reduce the functionality of the opcode."

/-- The text on the use of transient storage. -/
def transientStorageText : String :=
  "Transient storage as defined by EIP-1153 can break the composability of smart contracts: Since "
    ++ "transient storage is cleared only at the end of the transaction and not at the end of the "
    ++ "outermost call frame to the contract within a transaction, your contract may unintentionally "
    ++ "misbehave when invoked multiple times in a complex transaction. To avoid this, be sure to "
    ++ "clear all transient storage at the end of any call to your contract. The use of transient "
    ++ "storage for reentrancy guards that are cleared at the end of the call is safe."

/-- The ending of a noun for a number of things. -/
def pluralEnding (count : Nat) : String := if count = 1 then "" else "s"

/-- The message of a problem. -/
def message : Finding → String
  | variableTaken label => s!"Variable name {label} already taken in this scope."
  | functionTaken label => s!"Function name {label} already taken in this scope."
  | endsWithDot label => s!"\"{label}\" is not a valid identifier (ends with a dot)."
  | consecutiveDots label =>
    s!"\"{label}\" is not a valid identifier (contains consecutive dots)."
  | reservedName label => s!"The identifier \"{label}\" is reserved and can not be used."
  | unknownType label =>
    s!"\"{label}\" is not a valid type (user defined types are not yet supported)."
  | stringTooLong bytes => s!"String literal too long ({bytes} > 32)"
  | numberTooLarge => "Number literal too large (> 256 bits)"
  | literalType type literal => s!"Invalid type \"{type}\" for literal \"{literal}\"."
  | readBeforeDeclaration label | assignedBeforeDeclaration label =>
    s!"Variable {label} used before it was declared."
  | functionAsValue label => s!"Function {label} used without being called."
  | identifierNotFound label => s!"Identifier \"{label}\" not found."
  | repeatedTarget label =>
    s!"Variable {label} occurs multiple times on the left-hand side of the assignment."
  | assignmentCount labels targets values =>
    s!"Variable count for assignment to \"{labels}\" does not match number of values "
      ++ s!"({targets} vs. {values})"
  | functionAsTarget => "Assignment requires variable."
  | targetNotFound => "Variable not found or variable not lvalue."
  | assignedType value target =>
    s!"Assigning a value of type \"{value}\" to a variable of type \"{target}\"."
  | declarationCount labels locals values =>
    s!"Variable count mismatch for declaration of \"{labels}\": {locals} variables and "
      ++ s!"{values} values."
  | declaredType value declared =>
    s!"Assigning value of type \"{value}\" to variable of type \"{declared}\"."
  | unusedValues count =>
    "Top-level expressions are not supposed to return values (this expression returns "
      ++ s!"{count} value{pluralEnding count}). Use ``pop()`` or assign them."
  | valueCount count =>
    s!"Expected expression to evaluate to one value, but got {count} values instead."
  | unexpectedType expected given =>
    s!"Expected a value of type \"{expected}\" but got \"{given}\"."
  | conditionType expected given =>
    s!"Expected a value of boolean type \"{expected}\" but got \"{given}\""
  | selfdestructDeprecated => selfdestructText
  | transientStorage => transientStorageText
  | unavailable gate target =>
    s!"The \"{gate.instruction.name}\" instruction is only available for {gate.fork}-compatible VMs "
      ++ s!"(you are currently compiling for \"{target.name}\")."
  | programCounter =>
    "PC instruction is a low-level EVM feature. Because of that PC is disallowed in strict "
      ++ "assembly."
  | variableCalled => "Attempt to call variable instead of function."
  | functionNotFound label => s!"Function \"{label}\" not found."
  | argumentCount label expected given =>
    s!"Function \"{label}\" expects {expected} arguments but got {given}."
  | literalKind expected => s!"Function expects {expected.name} literal."
  | literalExpected => "Function expects direct literals as arguments."
  | unknownObject label => s!"Unknown data object \"{label}\"."
  | emptyBytecode => "The \"verbatim_*\" builtins cannot be used with empty bytecode."
  | onlyDefaultCase => "\"switch\" statement with only a default case."
  | repeatedCase literal => s!"Duplicate case \"{literal}\" defined."
  | outsideLoop keyword => s!"Keyword \"{keyword}\" needs to be inside a for-loop body."
  | outsideFunction => "Keyword \"leave\" can only be used inside a function."

/-- The diagnostic of a problem at a position. -/
def toDiagnostic (finding : Finding) (span : Span) : Diagnostic :=
  ⟨finding.category, finding.code, span, finding.message⟩

end Finding

end YulCheck
