import YulCheck.Proofs.Dialect.Names

/-! # Functions whose names are not reserved

The names that a dialect reserves are listed apart from its functions. Those of most functions are among
them, so programs cannot declare them; the exceptions are known for every flavour.
-/

namespace YulCheck

/-! ### Instructions -/

namespace Instruction

/-- The names that are free in early versions belong to one instruction each. -/
theorem eq_of_name : ∀ instruction ∈ all, instruction.reservedSince?.isSome = true →
    ∀ other ∈ all, other.name = instruction.name → other = instruction := by
  decide +kernel

/-- The name of an instruction that can be called is reserved. -/
theorem isReservedIn_of_isCallable {instruction : Instruction} {version : EvmVersion}
    (callable : instruction.isCallable version = true) : instruction.isReservedIn version = true := by
  simp only [isCallable, Bool.and_eq_true] at callable
  obtain ⟨⟨_, isIn⟩, special⟩ := callable
  cases instruction with
  | basefee | blobhash | blobbasefee | mcopy | tstore | tload => exact isIn
  | prevrandao => exact special
  | _ => rfl

theorem isReserved_name {instruction : Instruction} {version : EvmVersion}
    (known : instruction ∈ all) (callable : instruction.isCallable version = true) :
    (ofName? instruction.name).any (·.isReservedIn version) = true := by
  cases found : ofName? instruction.name with
  | none =>
    have isOther := List.find?_eq_none.mp found instruction known
    exact absurd (decide_eq_true rfl) isOther
  | some other =>
    rw [Option.any_some]
    cases since : other.reservedSince? with
    | none =>
      rw [isReservedIn, since]
      rfl
    | some capability =>
      rw [ofName?] at found
      have named := List.find?_some found
      rw [decide_eq_true_iff] at named
      have isOne := eq_of_name other (List.mem_of_find?_eq_some found) (since ▸ rfl) instruction
        known named.symm
      rw [← isOne]
      exact isReservedIn_of_isCallable callable

end Instruction

namespace Dialect

/-! ### Flavours -/

/-- The names of functions that a flavour does not reserve. -/
def EvmFlavour.unreservedNames : EvmFlavour → List String
  | plain => []
  | objects => ["memoryguard"]
  | typed => "memoryguard" :: typedNames

variable {flavour : EvmFlavour} {version : EvmVersion} {label : String} {function : Builtin}

theorem isReserved_of_mem_instructionBuiltins (member : function ∈ instructionBuiltins version) :
    isReservedInEvm flavour version function.name = true := by
  obtain ⟨instruction, listed, rfl⟩ := List.mem_map.mp member
  obtain ⟨known, callable⟩ := List.mem_filter.mp listed
  have reserved : (Instruction.ofName? (instructionBuiltin instruction).name).any
      (·.isReservedIn version) = true := Instruction.isReserved_name known callable
  rw [isReservedInEvm, reserved, Bool.or_true, Bool.true_or]

theorem isReserved_or_eq_of_mem_objectBuiltins (member : function ∈ objectBuiltins) :
    isReservedInEvm flavour version function.name = true ∨ function.name = "memoryguard" := by
  have every : ∀ function ∈ objectBuiltins,
      objectNames.contains function.name = true ∨ function.name = "memoryguard" := by decide
  refine (every function member).imp_left fun isObject => ?_
  rw [isReservedInEvm, isObject, Bool.or_true]

theorem isReserved_or_mem_of_mem_evmBuiltins (member : function ∈ evmBuiltins flavour version) :
    isReservedInEvm flavour version function.name = true ∨
      function.name ∈ flavour.unreservedNames := by
  have untyped {function : Builtin} (member : function ∈ instructionBuiltins version ++ objectBuiltins) :
      isReservedInEvm flavour version function.name = true ∨ function.name = "memoryguard" := by
    rcases List.mem_append.mp member with isInstruction | isObject
    · exact .inl (isReserved_of_mem_instructionBuiltins isInstruction)
    · exact isReserved_or_eq_of_mem_objectBuiltins isObject
  cases flavour with
  | plain => exact .inl (isReserved_of_mem_instructionBuiltins member)
  | objects => exact (untyped member).imp_right List.mem_singleton.mpr
  | typed =>
    rcases List.mem_append.mp member with isVariant | isConversion
    · obtain ⟨original, known, isVariant⟩ := List.mem_flatMap.mp isVariant
      rcases name_of_mem_typedVariants isVariant with same | isOther
      · rw [same]
        exact (untyped known).imp_right fun isGuard => by rw [isGuard]; exact List.mem_cons_self
      · rcases List.mem_cons.mp isOther with isNot | isTyped
        · rw [isNot]
          have known : Instruction.not ∈ Instruction.all := by decide
          have listed : instructionBuiltin .not ∈ instructionBuiltins version :=
            List.mem_map_of_mem (List.mem_filter.mpr ⟨known, rfl⟩)
          exact .inl (isReserved_of_mem_instructionBuiltins listed)
        · exact .inr (List.mem_cons_of_mem _ isTyped)
    · have every : ∀ function ∈ conversionBuiltins, function.name ∈ typedNames := by decide
      exact .inr (List.mem_cons_of_mem _ (every function isConversion))

/-- The name of a function for the EVM is reserved, or it is one of those that are not. -/
theorem isReserved_or_mem_unreservedNames
    (known : (evm flavour version).builtin? label = some function) :
    isReservedInEvm flavour version label = true ∨ label ∈ flavour.unreservedNames := by
  obtain ⟨rfl, ⟨_, hasObjects, isVerbatim⟩ | ⟨member, _⟩⟩ := evm_builtin?_cases known
  · rw [Builtin.isVerbatim] at isVerbatim
    rw [isReservedInEvm, hasObjects, isVerbatim]
    exact .inl rfl
  · exact isReserved_or_mem_of_mem_evmBuiltins member

/-! ### Names that are not reserved -/

/-- A function of a flavour is found by its name. -/
theorem isSome_builtin?_of_mem (member : function ∈ evmBuiltins flavour version) :
    ((evm flavour version).builtin? function.name).isSome = true := by
  have isNamed : (builtinNamed? (evmBuiltins flavour version) function.name).isSome = true := by
    rw [builtinNamed?, List.find?_isSome]
    exact ⟨function, member, decide_eq_true rfl⟩
  show ((verbatimBuiltin? flavour function.name).or _).isSome = true
  rw [Option.isSome_or, isNamed, Bool.or_true]

/-- A variant of an instruction that every version has is a function where types are told apart. -/
theorem exists_mem_of_variant {instruction : Instruction} (known : instruction ∈ Instruction.all)
    (callable : instruction.isCallable version = true) (index : Nat)
    (isVariant : ((typedVariants (instructionBuiltin instruction))[index]?.map (·.name)) = some label) :
    ∃ function ∈ evmBuiltins .typed version, function.name = label := by
  obtain ⟨function, isVariant, named⟩ := Option.map_eq_some_iff.mp isVariant
  have listed : instructionBuiltin instruction ∈ instructionBuiltins version :=
    List.mem_map_of_mem (List.mem_filter.mpr ⟨known, callable⟩)
  refine ⟨function, List.mem_append_left _ (List.mem_flatMap.mpr ?_), named⟩
  exact ⟨_, List.mem_append_left _ listed, List.mem_of_getElem? isVariant⟩

theorem exists_mem_evmBuiltins (version : EvmVersion) (member : label ∈ flavour.unreservedNames) :
    ∃ function ∈ evmBuiltins flavour version, function.name = label := by
  have guard : literalBuiltin "memoryguard" .number ∈ objectBuiltins := by decide
  cases flavour with
  | plain => cases member
  | objects =>
    obtain rfl := List.mem_singleton.mp member
    exact ⟨_, List.mem_append_right _ guard, rfl⟩
  | typed =>
    simp only [EvmFlavour.unreservedNames, typedNames, List.mem_cons, List.not_mem_nil,
      or_false] at member
    rcases member with rfl | rfl | rfl | rfl | rfl | rfl | rfl | rfl
    · refine ⟨_, List.mem_append_left _ (List.mem_flatMap.mpr
        ⟨_, List.mem_append_right _ guard, List.mem_cons_self⟩), rfl⟩
    · exact exists_mem_of_variant (by decide : Instruction.not ∈ _) rfl 0 rfl
    · exact exists_mem_of_variant (by decide : Instruction.and ∈ _) rfl 0 rfl
    · exact exists_mem_of_variant (by decide : Instruction.or ∈ _) rfl 0 rfl
    · exact exists_mem_of_variant (by decide : Instruction.xor ∈ _) rfl 0 rfl
    · exact exists_mem_of_variant (by decide : Instruction.pop ∈ _) rfl 1 rfl
    · exact ⟨_, List.mem_append_right _ List.mem_cons_self, rfl⟩
    · exact ⟨_, List.mem_append_right _ (List.mem_cons_of_mem _ List.mem_cons_self), rfl⟩

/-- The functions of these names are no functions of the `verbatim` family. -/
theorem exists_builtin?_of_mem_unreservedNames (version : EvmVersion)
    (member : label ∈ flavour.unreservedNames) :
    ∃ function, (evm flavour version).builtin? label = some function ∧
      function.isVerbatim = false := by
  obtain ⟨function, listed, rfl⟩ := exists_mem_evmBuiltins version member
  obtain ⟨found, known⟩ := Option.isSome_iff_exists.mp (isSome_builtin?_of_mem listed)
  refine ⟨found, known, ?_⟩
  rw [Builtin.isVerbatim, (evm_builtin?_cases known).1]
  exact isVerbatim_of_mem_evmBuiltins listed

theorem mem_of_mem_unreservedNames (member : label ∈ flavour.unreservedNames) :
    label ∈ "memoryguard" :: typedNames := by
  cases flavour with
  | plain => cases member
  | objects => exact List.mem_singleton.mp member ▸ List.mem_cons_self
  | typed => exact member

theorem isReserved_of_mem_unreservedNames (member : label ∈ flavour.unreservedNames) :
    isReservedInEvm flavour version label = false := by
  have every : ∀ label ∈ "memoryguard" :: typedNames,
      Verbatim.startsWith Verbatim.stem label = false ∧ Instruction.ofName? label = none ∧
        objectNames.contains label = false := by
    decide +kernel
  obtain ⟨isOther, noInstruction, noObject⟩ := every label (mem_of_mem_unreservedNames member)
  rw [isReservedInEvm, isOther, noInstruction, noObject, Bool.and_false]
  rfl

/-- The names of functions that a flavour does not reserve are known. -/
theorem mem_unreservedNames_iff :
    label ∈ flavour.unreservedNames ↔
      ((evm flavour version).builtin? label).isSome = true ∧
        (evm flavour version).isReserved label = false := by
  constructor
  · intro member
    obtain ⟨function, listed, rfl⟩ := exists_mem_evmBuiltins version member
    exact ⟨isSome_builtin?_of_mem listed, isReserved_of_mem_unreservedNames member⟩
  · rintro ⟨isFunction, isFree⟩
    obtain ⟨function, known⟩ := Option.isSome_iff_exists.mp isFunction
    refine (isReserved_or_mem_unreservedNames known).resolve_left fun isReserved => ?_
    exact Bool.false_ne_true (isFree.symm.trans isReserved)

end Dialect

end YulCheck
