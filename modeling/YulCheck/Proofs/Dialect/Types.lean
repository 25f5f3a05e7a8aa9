import YulCheck.Dialect.Bundled

/-! # The types of the bundled dialects

The functions of a bundled dialect have only types of the dialect. No type has the name of a function,
and a dialect with the empty type has no other one.
-/

namespace YulCheck

namespace Builtin

/-- Whether a function has only parameters and returned values of the given types. -/
def HasTypes (types : List String) (function : Builtin) : Prop :=
  ∀ type ∈ function.parameters ++ function.returns, type ∈ types

theorem hasTypes_untyped {types : List String} (hasEmpty : "" ∈ types) (name : String)
    (parameters returns : Nat) : (untyped name parameters returns).HasTypes types := by
  intro type member
  rw [untyped, List.mem_append, List.mem_replicate, List.mem_replicate] at member
  rcases member with ⟨_, rfl⟩ | ⟨_, rfl⟩ <;> exact hasEmpty

end Builtin

/-- The label that the base of the `verbatim` family has in name tables. -/
def Dialect.verbatimBase : String := "@ verbatim"

/-- What is known about the types of a dialect. -/
structure Dialect.IsRegular (dialect : Dialect) : Prop where
  functions : ∀ label function, dialect.builtin? label = some function →
    function.HasTypes dialect.types
  /-- The empty type is the only one, if there is one. -/
  untyped : "" ∈ dialect.types → dialect.types = [""]
  defaultType : dialect.defaultType ∈ dialect.types
  boolType : dialect.boolType ∈ dialect.types
  /-- No function has the name of a type or of the base of the `verbatim` family. -/
  free : ∀ label ∈ verbatimBase :: dialect.types, dialect.builtin? label = none
  base : verbatimBase ∉ dialect.types

namespace Dialect

/-! ### Types of functions -/

theorem hasTypes_verbatim (flavour : EvmFlavour) (arguments returns : Nat) :
    (Verbatim.function flavour.integerType arguments returns).HasTypes flavour.types := by
  have isType : flavour.integerType ∈ flavour.types := by cases flavour <;> decide
  intro type member
  rw [Verbatim.function, List.mem_append, List.mem_replicate, List.mem_replicate] at member
  rcases member with ⟨_, rfl⟩ | ⟨_, rfl⟩ <;> exact isType

/-- The functions of a version are those of some instructions. -/
theorem exists_of_mem_instructionBuiltins {version : EvmVersion} {function : Builtin}
    (member : function ∈ instructionBuiltins version) :
    ∃ instruction ∈ Instruction.all, function = instructionBuiltin instruction := by
  obtain ⟨instruction, callable, rfl⟩ := List.mem_map.mp member
  exact ⟨instruction, (List.mem_filter.mp callable).1, rfl⟩

theorem hasTypes_of_mem_instructionBuiltins {version : EvmVersion} {function : Builtin}
    (member : function ∈ instructionBuiltins version) : function.HasTypes [""] := by
  obtain ⟨instruction, _, rfl⟩ := exists_of_mem_instructionBuiltins member
  exact Builtin.hasTypes_untyped List.mem_cons_self instruction.signature.name _ _

theorem hasTypes_of_mem_objectBuiltins {function : Builtin} (member : function ∈ objectBuiltins) :
    function.HasTypes [""] := by
  have every : ∀ function ∈ objectBuiltins, ∀ type ∈ function.parameters ++ function.returns,
      type ∈ [""] := by decide
  exact every function member

/-- A variant of a function takes and returns integers, except where it stands for a comparison or
for logic. -/
theorem types_of_mem_typedVariants {function variant : Builtin}
    (member : variant ∈ typedVariants function) :
    (variant.parameters = function.parameters.map (fun _ => "u256") ∨
      variant.parameters = ["bool"] ∨ variant.parameters = ["bool", "bool"]) ∧
    (variant.returns = function.returns.map (fun _ => "u256") ∨ variant.returns = ["bool"]) := by
  rw [typedVariants] at member
  dsimp only at member
  split at member
  all_goals simp only [List.mem_cons, List.not_mem_nil, or_false, Builtin.renamed] at member
  all_goals grind

/-- The variants of a function have only the types that are told apart, whatever the function is. -/
theorem hasTypes_of_mem_typedVariants {function variant : Builtin}
    (member : variant ∈ typedVariants function) : variant.HasTypes ["bool", "u256"] := by
  have integers (types : List String) : types.map (fun _ => "u256") ⊆ ["bool", "u256"] := by
    intro type member
    obtain ⟨_, _, rfl⟩ := List.mem_map.mp member
    decide
  obtain ⟨parameters, returns⟩ := types_of_mem_typedVariants member
  intro type isType
  rcases List.mem_append.mp isType with isParameter | isReturned
  · rcases parameters with same | same | same
    · exact integers _ (same ▸ isParameter)
    · exact (by decide : ["bool"] ⊆ ["bool", "u256"]) (same ▸ isParameter)
    · exact (by decide : ["bool", "bool"] ⊆ ["bool", "u256"]) (same ▸ isParameter)
  · rcases returns with same | same
    · exact integers _ (same ▸ isReturned)
    · exact (by decide : ["bool"] ⊆ ["bool", "u256"]) (same ▸ isReturned)

theorem hasTypes_of_mem_evmBuiltins {flavour : EvmFlavour} {version : EvmVersion}
    {function : Builtin} (member : function ∈ evmBuiltins flavour version) :
    function.HasTypes flavour.types := by
  cases flavour with
  | plain => exact hasTypes_of_mem_instructionBuiltins member
  | objects =>
    rcases List.mem_append.mp member with isInstruction | isObject
    · exact hasTypes_of_mem_instructionBuiltins isInstruction
    · exact hasTypes_of_mem_objectBuiltins isObject
  | typed =>
    rcases List.mem_append.mp member with isVariant | isConversion
    · obtain ⟨_, _, isVariant⟩ := List.mem_flatMap.mp isVariant
      exact hasTypes_of_mem_typedVariants isVariant
    · have every : ∀ function ∈ conversionBuiltins, ∀ type ∈ function.parameters ++ function.returns,
          type ∈ EvmFlavour.types .typed := by decide
      exact every function isConversion

/-! ### Names of functions -/

/-- The names of the functions that exist where truth values and integers are not told apart. -/
def untypedNames : List String :=
  Instruction.all.map (·.name) ++ objectBuiltins.map (·.name)

/-- The names of the functions that exist only where truth values and integers are told apart. -/
def typedNames : List String :=
  ["bitnot", "bitand", "bitor", "bitxor", "popbool", "bool_to_u256", "u256_to_bool"]

theorem name_mem_untypedNames {version : EvmVersion} {function : Builtin}
    (member : function ∈ instructionBuiltins version ++ objectBuiltins) :
    function.name ∈ untypedNames := by
  rcases List.mem_append.mp member with isInstruction | isObject
  · obtain ⟨instruction, known, rfl⟩ := exists_of_mem_instructionBuiltins isInstruction
    exact List.mem_append_left _ (List.mem_map_of_mem known)
  · exact List.mem_append_right _ (List.mem_map_of_mem isObject)

/-- A variant of a function has the name of the function, or another one that says what it does. -/
theorem name_of_mem_typedVariants {function variant : Builtin}
    (member : variant ∈ typedVariants function) :
    variant.name = function.name ∨ variant.name ∈ "not" :: typedNames := by
  have bitwise : ∀ name ∈ ["and", "or", "xor"], "bit" ++ name ∈ "not" :: typedNames := by decide
  rw [typedVariants] at member
  dsimp only at member
  split at member
  all_goals simp only [List.mem_cons, List.not_mem_nil, or_false, Builtin.renamed] at member
  all_goals grind [typedNames]

theorem name_mem_of_mem_evmBuiltins {flavour : EvmFlavour} {version : EvmVersion}
    {function : Builtin} (member : function ∈ evmBuiltins flavour version) :
    function.name ∈ untypedNames ++ typedNames := by
  cases flavour with
  | plain =>
    exact List.mem_append_left _ (name_mem_untypedNames (List.mem_append_left _ member))
  | objects => exact List.mem_append_left _ (name_mem_untypedNames member)
  | typed =>
    rcases List.mem_append.mp member with isVariant | isConversion
    · obtain ⟨original, known, isVariant⟩ := List.mem_flatMap.mp isVariant
      rcases name_of_mem_typedVariants isVariant with same | isOther
      · exact List.mem_append_left _ (same ▸ name_mem_untypedNames known)
      · rcases List.mem_cons.mp isOther with isNot | isTyped
        · exact isNot ▸ List.mem_append_left _ (by decide +kernel)
        · exact List.mem_append_right _ isTyped
    · have every : ∀ function ∈ conversionBuiltins, function.name ∈ typedNames := by decide
      exact List.mem_append_right _ (every function isConversion)

/-- The names that no function has: those of types and of the base of the `verbatim` family. -/
def freeNames : List String := [verbatimBase, "", "bool", "u256"]

theorem name_not_mem_freeNames {flavour : EvmFlavour} {version : EvmVersion} {function : Builtin}
    (member : function ∈ evmBuiltins flavour version) : function.name ∉ freeNames := by
  have every : ∀ name ∈ untypedNames ++ typedNames, name ∉ freeNames := by decide +kernel
  exact every _ (name_mem_of_mem_evmBuiltins member)

theorem builtin?_evm_eq_none (flavour : EvmFlavour) (version : EvmVersion) {label : String}
    (isFree : label ∈ freeNames) : (evm flavour version).builtin? label = none := by
  have notVerbatim : ∀ label ∈ freeNames, Verbatim.parse? label = none := by decide
  have named : builtinNamed? (evmBuiltins flavour version) label = none := by
    rw [builtinNamed?, List.find?_eq_none]
    intro function member isNamed
    have same : function.name = label := of_decide_eq_true isNamed
    exact name_not_mem_freeNames member (same ▸ isFree)
  have verbatim : verbatimBuiltin? flavour label = none := by
    rw [verbatimBuiltin?, notVerbatim label isFree]
    cases flavour.hasObjects <;> rfl
  show (verbatimBuiltin? flavour label).or _ = none
  rw [verbatim, named]
  rfl

/-! ### Bundled dialects -/

theorem isRegular_evm (flavour : EvmFlavour) (version : EvmVersion) :
    (evm flavour version).IsRegular where
  functions label function found := by
    rcases Option.or_eq_some_iff.mp found with verbatim | ⟨_, named⟩
    · rw [verbatimBuiltin?] at verbatim
      split at verbatim
      · obtain ⟨⟨arguments, returns⟩, _, rfl⟩ := Option.map_eq_some_iff.mp verbatim
        exact hasTypes_verbatim flavour arguments returns
      · cases verbatim
    · exact hasTypes_of_mem_evmBuiltins (List.mem_of_find?_eq_some named)
  untyped hasEmpty := by
    cases flavour with
    | plain | objects => rfl
    | typed => exact absurd hasEmpty (by decide : "" ∉ EvmFlavour.types .typed)
  defaultType := show flavour.integerType ∈ flavour.types by cases flavour <;> decide
  boolType := show flavour.truthType ∈ flavour.types by cases flavour <;> decide
  free label isType := by
    have areFree : ∀ label ∈ verbatimBase :: flavour.types, label ∈ freeNames := by
      cases flavour <;> decide
    exact builtin?_evm_eq_none flavour version (areFree label isType)
  base := show verbatimBase ∉ flavour.types by cases flavour <;> decide

theorem isRegular_generic : generic.IsRegular where
  functions label function found := by cases found
  untyped hasEmpty := absurd hasEmpty (by decide)
  defaultType := by decide
  boolType := by decide
  free _ _ := rfl
  base := by decide

end Dialect

/-- The functions of the bundled dialects have only types of their dialect. -/
theorem BundledDialect.isRegular_build (dialect : BundledDialect) (version : EvmVersion) :
    (dialect.build version).IsRegular := by
  cases dialect with
  | generic => exact Dialect.isRegular_generic
  | evm flavour => exact Dialect.isRegular_evm flavour version

end YulCheck
