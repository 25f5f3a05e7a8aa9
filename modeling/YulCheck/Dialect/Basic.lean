import YulCheck.Evm.Instruction
import YulCheck.Literal

/-! # Dialects

A dialect decides which types exist, which functions are built in and which identifiers are
reserved. Everything that is checked is checked against a dialect.
-/

namespace YulCheck

/-- A function that a dialect provides. Types are given by their labels. -/
structure Builtin where
  name : String
  parameters : List String
  returns : List String
  effects : SideEffects := .pure
  flow : ControlFlow := .continuing
  /-- Whether the function observes the size of the memory. -/
  isMsize : Bool := false
  /-- Empty, or one entry per argument: the kind of literal that the argument has to be. -/
  literalArguments : List (Option LiteralKind) := []
  /-- The instruction that the function stands for, if there is one. -/
  instruction? : Option Instruction := none
deriving DecidableEq, Repr

namespace Builtin

/-- A function with the given numbers of parameters and returned values, all of the type whose label
is empty. -/
def untyped (name : String) (parameters returns : Nat) : Builtin where
  name := name
  parameters := List.replicate parameters ""
  returns := List.replicate returns ""

/-- The kind of literal that an argument has to be, if it has to be one. -/
def literalArgument? (function : Builtin) (index : Nat) : Option LiteralKind :=
  function.literalArguments[index]?.join

/-- The function under another name. -/
def renamed (function : Builtin) (name : String) : Builtin :=
  { function with name := name }

end Builtin

/-- The operations that a dialect may provide for every type. -/
inductive TypeOperation
  | discard
  | equality
  | memoryStore
  | memoryLoad
  | storageStore
  | storageLoad
deriving DecidableEq, Repr

namespace TypeOperation

/-- All operations. -/
def all : List TypeOperation :=
  [discard, equality, memoryStore, memoryLoad, storageStore, storageLoad]

end TypeOperation

/-- What a dialect provides. -/
structure Dialect where
  name : String
  /-- The type of declarations that name none. -/
  defaultType : String
  /-- The type of the literals `true` and `false`. -/
  boolType : String
  /-- The labels of the types, distinct and in ascending order; only the empty one in dialects
  without types. -/
  types : List String
  /-- The function of a name. -/
  builtin? : String → Option Builtin := fun _ => none
  /-- Whether programs may not declare a name. -/
  isReserved : String → Bool := fun name => (builtin? name).isSome
  /-- The names of the functions that every program can refer to, in ascending order. -/
  builtinNames : List String := []
  /-- The function for an operation on a type. -/
  operation? : TypeOperation → String → Option Builtin := fun _ _ => none
  /-- The function that negates a truth value. -/
  negation? : Option Builtin := none
  /-- The name of the function that hashes values of a type, empty if there is none. -/
  hashName : String → String := fun _ => ""
  /-- The target of dialects for the EVM. -/
  version? : Option EvmVersion := none

end YulCheck
