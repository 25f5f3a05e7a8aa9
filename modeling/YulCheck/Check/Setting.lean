import YulCheck.Check.Walk
import YulCheck.Name.Table

/-! # What a program is checked against

The setting of a check is the name table of the program, the target version and the data objects that
the program knows of. This module has the parts of checking that concern a single name or type.
-/

namespace YulCheck

/-- What a program is checked against. -/
structure Setting where
  names : NameTable
  version : EvmVersion
  /-- The names of the data objects that `datasize` and `dataoffset` may refer to. -/
  dataNames : List String

namespace Setting

/-- The setting for the target of the dialect, or for the default version if it has none. -/
def ofNames (names : NameTable) (dataNames : List String) : Setting :=
  ⟨names, names.dialect.version?.getD .default, dataNames⟩

/-- The type of declarations that name none. -/
def defaultType (setting : Setting) : TypeHandle := setting.names.predefined.defaultType

variable (setting : Setting) (place : Place)

/-- Report a problem. -/
def report (finding : Finding) (span : Span) : Walk Unit :=
  .ask (.report place (finding.toDiagnostic span))

/-- Report a problem unless a condition holds. -/
def expect (condition : Bool) (span : Span) (finding : Walk Finding) : Walk Unit := do
  unless condition do report place (← finding) span

/-- The labels of names as messages show them. -/
def shownLabels (names : List Handle) : Walk String := do
  return ", ".intercalate (← names.mapM fun name => setting.names.shownLabel name)

/-- Whether two dots follow each other. -/
def hasConsecutiveDots : List Char → Bool
  | '.' :: '.' :: _ => true
  | _ :: rest => hasConsecutiveDots rest
  | [] => false

/-- Check a declared name. -/
def checkName (name : Handle) (span : Span) : Walk Unit := do
  let label ← setting.names.shownLabel name
  expect place (label.toList.getLast? != some '.') span (pure (.endsWithDot label))
  expect place (!hasConsecutiveDots label.toList) span (pure (.consecutiveDots label))
  expect place (!setting.names.dialect.isReserved label) span (pure (.reservedName label))

/-- Check that a type is one of the dialect. -/
def checkType (type : TypeHandle) (span : Span) : Walk Unit :=
  expect place (setting.names.isType type) span do
    return .unknownType (← setting.names.shownLabel type)

/-- Check a declared variable. -/
def checkVariable (declared : Variable) : Walk Unit := do
  setting.checkName place declared.name declared.span
  setting.checkType place declared.type declared.span

/-- Check that a value has the type that is needed. -/
def checkSameType (expected given : TypeHandle) (span : Span) : Walk Unit :=
  expect place (expected = given) span do
    return .unexpectedType (← setting.names.label expected) (← setting.names.label given)

end Setting

end YulCheck
