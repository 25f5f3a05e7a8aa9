import YulCheck.Handle

/-! # Faults and failures

A fault is a request that the library refuses as a mistake of its caller: a handle of another table,
a tree that no source text spells. A failure is what a correct caller has to expect: a setting that
does not exist, or a run that reported more errors than it accepts. Mistakes in the checked program
are neither; they are diagnostics.
-/

namespace YulCheck

/-- What is wrong with a refused request. -/
inductive Fault
  /-- The handle is not of this table. -/
  | outOfTable (name : Handle)
  /-- The name is an alias that has no label yet. -/
  | unlabelled (name : Handle)
  /-- The name is an alias in the `verbatim` family without a function. -/
  | verbatimUndescribed (name : Handle)
  /-- The name is not a type of the dialect. -/
  | notAType (name : Handle)
  /-- The literal holds text of any length, which has no value. -/
  | literalWithoutValue
  /-- The literal is not of the kind that holds text of any length. -/
  | literalWithoutText
  /-- A boolean literal has a value other than 0 and 1. -/
  | booleanOutOfRange
  /-- A boolean literal is spelled neither `true` nor `false`. -/
  | booleanMisspelled
  /-- A literal that was reported as correct breaks a rule of its kind. -/
  | literalInvalid
  /-- The text argument of a builtin function is no text, or cannot have its type. -/
  | argumentNotText
  /-- The text argument of a builtin function was bound to the size of a word. -/
  | argumentNotUnlimited
  /-- An assignment has no target. -/
  | assignmentWithoutTargets
  /-- An identifier is the empty name. -/
  | identifierUnnamed
  /-- A called function is the empty name. -/
  | callUnnamed
  /-- A defined function is the empty name. -/
  | functionUnnamed
  /-- An assignment target is the empty name. -/
  | targetUnnamed
  /-- An assignment target was accepted although it has no type. -/
  | targetUntyped
  /-- A call was rejected without a report. -/
  | rejectionUnreported
  /-- A call was accepted although its signature does not fit. -/
  | signatureMissing
  /-- A block has no scope. -/
  | blockWithoutScope (block : NodeId)
  /-- A function definition has no scope. -/
  | functionWithoutScope (name : Handle)
  /-- A declared variable is not bound in the scope of its block. -/
  | variableUnbound (name : Handle)
  /-- A walk asks about a scope before it entered a block. -/
  | scopeMissing
  /-- A name is declared where no scope is open. -/
  | declaredOutside
  /-- A run was stopped although no error was reported in it. -/
  | stoppedWithoutError
  /-- Code that was announced as correct is not; the text is its first error. -/
  | codeIncorrect (firstError : String)
deriving DecidableEq, Repr

namespace Fault

/-- The text of a fault. -/
def message : Fault → String
  | outOfTable name =>
    s!"name {name} exceeds repository size, probably stems from another instance"
  | unlabelled name => s!"derived name {name} was not yet labeled"
  | verbatimUndescribed name => s!"verbatim name {name} has no builtin descriptor"
  | notAType name => s!"{name} is not a type of this dialect"
  | literalWithoutValue => "unlimited literal has no word value"
  | literalWithoutText => "literal is not an unlimited string literal"
  | booleanOutOfRange => "boolean literal out of range"
  | booleanMisspelled => "boolean literal with non-boolean spelling"
  | literalInvalid => "invalid literal passed validation"
  | argumentNotText => "builtin string argument is not a string literal"
  | argumentNotUnlimited => "builtin string argument is not unlimited"
  | assignmentWithoutTargets => "assignment without targets"
  | identifierUnnamed => "identifier without a name"
  | callUnnamed => "call without a function name"
  | functionUnnamed => "function without a name"
  | targetUnnamed => "assignment target without a name"
  | targetUntyped => "assignment target without a type"
  | rejectionUnreported => "expected a reported error"
  | signatureMissing => "successful call without matching signature"
  | blockWithoutScope block => s!"scope requested for block NodeId({block}) but not present"
  | functionWithoutScope name => s!"no scope for function {name}"
  | variableUnbound name => s!"declared variable {name} missing from its scope"
  | scopeMissing => "no current scope"
  | declaredOutside => "declaration outside of any block"
  | stoppedWithoutError => "fatal error detected, but no error is reported"
  | codeIncorrect firstError => s!"invalid assembly/yul code: {firstError}"

end Fault

/-- Why a setting was refused or a run was stopped. -/
inductive Failure
  /-- More errors were reported than the run accepts. -/
  | errorLimit (limit : Nat)
  /-- There is no EVM version of this name. -/
  | unknownVersion (name : String)
  /-- There is no dialect of this name. -/
  | unknownDialect (name : String)
deriving DecidableEq, Repr

namespace Failure

/-- The text of a failure. -/
def message : Failure → String
  | errorLimit limit => s!"more than {limit} errors reported, analysis aborted"
  | unknownVersion name => s!"unknown EVM version '{name}'"
  | unknownDialect name => s!"unknown dialect '{name}'"

end Failure

end YulCheck
