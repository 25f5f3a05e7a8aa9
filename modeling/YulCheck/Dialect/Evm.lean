import YulCheck.AscendingList
import YulCheck.Dialect.Verbatim

/-! # Dialects for the EVM

Every callable instruction of a version is a function. Programs that are compiled as objects also
have functions for data, libraries and immutables and the `verbatim` family. The typed flavour tells
truth values and integers apart.
-/

namespace YulCheck.Dialect

/-- The three flavours of the dialect. -/
inductive EvmFlavour
  /-- Only instructions. -/
  | plain
  /-- Instructions and objects. -/
  | objects
  /-- Instructions and objects, with the types `bool` and `u256`. -/
  | typed
deriving DecidableEq, Repr

namespace EvmFlavour

/-- The name of the dialect in a flavour. -/
def name : EvmFlavour → String
  | plain => "evm"
  | objects => "evm-objects"
  | typed => "evm-typed"

/-- Whether programs can refer to objects. -/
def hasObjects : EvmFlavour → Bool
  | plain => false
  | objects | typed => true

/-- Whether truth values and integers are told apart. -/
def isTyped : EvmFlavour → Bool
  | typed => true
  | plain | objects => false

/-- The type of integers. -/
def integerType : EvmFlavour → String
  | typed => "u256"
  | plain | objects => ""

/-- The type of truth values. -/
def truthType : EvmFlavour → String
  | typed => "bool"
  | plain | objects => ""

/-- The types. -/
def types : EvmFlavour → List String
  | typed => ["bool", "u256"]
  | plain | objects => [""]

end EvmFlavour

/-- The function that an instruction is called by. -/
def instructionBuiltin (instruction : Instruction) : Builtin :=
  let signature := instruction.signature
  { Builtin.untyped signature.name signature.inputs signature.outputs with
    effects := instruction.sideEffects
    flow := instruction.controlFlow
    isMsize := instruction = .msize
    instruction? := some instruction }

/-- The functions of the instructions that can be called in a version. -/
def instructionBuiltins (version : EvmVersion) : List Builtin :=
  (Instruction.all.filter (·.isCallable version)).map instructionBuiltin

/-- A function of one argument that has to be a literal, and of one returned value. -/
def literalBuiltin (name : String) (kind : LiteralKind) : Builtin :=
  { Builtin.untyped name 1 1 with literalArguments := [some kind] }

/-- What a function that writes data into the memory does. -/
def copyEffects : SideEffects := { SideEffects.changing with memory := .write }

/-- The functions for objects. -/
def objectBuiltins : List Builtin :=
  [literalBuiltin "linkersymbol" .string,
    literalBuiltin "memoryguard" .number,
    literalBuiltin "datasize" .string,
    literalBuiltin "dataoffset" .string,
    { Builtin.untyped "datacopy" 3 0 with effects := copyEffects },
    { Builtin.untyped "setimmutable" 3 0 with
      effects := { copyEffects with movableApartFromEffects := false }
      literalArguments := [none, some .string, none] },
    literalBuiltin "loadimmutable" .string]

/-- The names that are reserved for objects in every flavour. -/
def objectNames : List String :=
  ["linkersymbol", "datasize", "dataoffset", "datacopy", "setimmutable", "loadimmutable"]

/-- The functions that stand for one untyped function where truth values and integers are told
apart: comparisons return truth values, logic is on truth values and has bitwise variants, and
truth values are discarded by a function of their own. -/
def typedVariants (function : Builtin) : List Builtin :=
  let function :=
    { function with
      parameters := function.parameters.map fun _ => "u256"
      returns := function.returns.map fun _ => "u256" }
  match function.name with
  | "lt" | "gt" | "slt" | "sgt" | "eq" => [{ function with returns := ["bool"] }]
  | "not" => [function.renamed "bitnot"]
  | "iszero" => [{ function.renamed "not" with parameters := ["bool"], returns := ["bool"] }]
  | "and" | "or" | "xor" =>
    [function.renamed ("bit" ++ function.name),
      { function with parameters := ["bool", "bool"], returns := ["bool"] }]
  | "pop" => [function, { function.renamed "popbool" with parameters := ["bool"] }]
  | _ => [function]

/-- The functions between truth values and integers. -/
def conversionBuiltins : List Builtin :=
  [⟨"bool_to_u256", ["bool"], ["u256"], .pure, .continuing, false, [], none⟩,
    ⟨"u256_to_bool", ["u256"], ["bool"], .pure, .continuing, false, [], none⟩]

/-- The functions of a flavour, without the `verbatim` family. -/
def evmBuiltins (flavour : EvmFlavour) (version : EvmVersion) : List Builtin :=
  match flavour with
  | .plain => instructionBuiltins version
  | .objects => instructionBuiltins version ++ objectBuiltins
  | .typed =>
    (instructionBuiltins version ++ objectBuiltins).flatMap typedVariants ++ conversionBuiltins

/-- The function of a name in a list of functions. -/
def builtinNamed? (functions : List Builtin) (name : String) : Option Builtin :=
  functions.find? (·.name = name)

/-- The function of a name of the `verbatim` family, where a flavour has the family. -/
def verbatimBuiltin? (flavour : EvmFlavour) (name : String) : Option Builtin :=
  if flavour.hasObjects then
    (Verbatim.parse? name).map fun (arguments, returns) =>
      Verbatim.function flavour.integerType arguments returns
  else none

/-- The names that a flavour reserves: those of the instructions that the version knows of, those
for objects, and all that could belong to the `verbatim` family. -/
def isReservedInEvm (flavour : EvmFlavour) (version : EvmVersion) (name : String) : Bool :=
  (flavour.hasObjects && Verbatim.startsWith Verbatim.stem name)
    || (Instruction.ofName? name).any (·.isReservedIn version)
    || objectNames.contains name

/-- The function for an operation on a type, among the functions of a flavour. -/
def evmOperation? (flavour : EvmFlavour) (functions : List Builtin)
    (operation : TypeOperation) (type : String) : Option Builtin :=
  let onTruth := flavour.isTyped && type = flavour.truthType
  match operation with
  | .discard => builtinNamed? functions (if onTruth then "popbool" else "pop")
  | .equality => if onTruth then none else builtinNamed? functions "eq"
  | .memoryStore => builtinNamed? functions "mstore"
  | .memoryLoad => builtinNamed? functions "mload"
  | .storageStore => builtinNamed? functions "sstore"
  | .storageLoad => builtinNamed? functions "sload"

/-- The dialect for a version of the EVM. -/
def evm (flavour : EvmFlavour) (version : EvmVersion) : Dialect :=
  let functions := evmBuiltins flavour version
  { name := flavour.name
    defaultType := flavour.integerType
    boolType := flavour.truthType
    types := flavour.types
    builtin? := fun name =>
      (verbatimBuiltin? flavour name).or (builtinNamed? functions name)
    isReserved := isReservedInEvm flavour version
    builtinNames := AscendingList.ofList (Verbatim.stem :: functions.map (·.name))
    operation? := evmOperation? flavour functions
    negation? := builtinNamed? functions (if flavour.isTyped then "not" else "iszero")
    hashName := fun _ => "keccak256"
    version? := some version }

end YulCheck.Dialect
