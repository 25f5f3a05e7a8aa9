import YulCheck.Check.Gate
import YulCheck.Proofs.Dialect.Reserved

/-! # Newer versions

A version of the EVM has everything that older versions have. What the default version lacks in an older
one are functions of instructions: each of them needs a capability, apart from `prevrandao`, which
shares its operation code with an older instruction.
-/

namespace YulCheck

variable {older newer version : EvmVersion}

theorem EvmVersion.supports_of_le (le : older ≤ newer) {capability : Capability}
    (supports : older.supports capability = true) : newer.supports capability = true :=
  decide_eq_true (Nat.le_trans (of_decide_eq_true supports) le)

theorem EvmVersion.supports_default (capability : Capability) :
    EvmVersion.default.supports capability = true := by
  cases capability <;> decide

/-- No gate keeps a newer version from an instruction that an older one has. -/
theorem Gate.barring?_eq_none_of_le (le : older ≤ newer) {instruction : Instruction}
    (isOpen : barring? older instruction = none) : barring? newer instruction = none := by
  rw [barring?, List.find?_eq_none] at isOpen ⊢
  intro gate isGate isBarring
  rw [Bool.and_eq_true, Bool.not_eq_true'] at isBarring
  refine isOpen gate isGate (Bool.and_eq_true_iff.mpr ⟨isBarring.1, ?_⟩)
  rw [Bool.not_eq_true', Bool.eq_false_iff]
  exact fun supports => Bool.eq_false_iff.mp isBarring.2 (EvmVersion.supports_of_le le supports)

namespace Instruction

variable {instruction : Instruction}

/-- The instructions that not every version has as functions have names of their own. -/
theorem ofName?_name_of_gated : ∀ instruction ∈ all,
    (instruction = .prevrandao ∨ instruction.capability?.isSome = true) →
      ofName? instruction.name = some instruction := by
  decide +kernel

/-- An instruction that can be called in the default version can also be called in another one, unless
it needs a capability that this one lacks or is `prevrandao`. -/
theorem gated_of_not_isCallable (isCallable : instruction.isCallable .default = true)
    (isMissing : instruction.isCallable version = false) :
    instruction = .prevrandao ∧ version.supports .prevRandao = false ∨
      ∃ capability, instruction.capability? = some capability ∧
        version.supports capability = false := by
  by_cases isIn : instruction.isIn version = true
  · left
    unfold Instruction.isCallable at isCallable isMissing
    rw [Bool.and_eq_true, Bool.and_eq_true] at isCallable
    obtain ⟨⟨isFunction, _⟩, isNamed⟩ := isCallable
    rw [isFunction, isIn, Bool.true_and, Bool.true_and] at isMissing
    cases instruction with
    | prevrandao => exact ⟨rfl, isMissing⟩
    | difficulty =>
      rw [EvmVersion.supports_default] at isNamed
      cases isNamed
    | _ => cases isMissing
  · right
    rw [Instruction.isIn, Option.all_eq_true] at isIn
    simp only [not_forall, Bool.not_eq_true] at isIn
    obtain ⟨capability, needed, isLacking⟩ := isIn
    exact ⟨capability, needed, isLacking⟩

end Instruction

/-! ### Functions of newer versions -/

/-- The function of a name in the default version that another version lacks is that of an
instruction. -/
theorem Dialect.exists_instruction_of_lacking {flavour : EvmFlavour} (untyped : flavour.isTyped = false)
    {label : String} (known : ((evm flavour .default).builtin? label).isSome = true)
    (isLacking : (evm flavour version).builtin? label = none) :
    ∃ instruction, Instruction.ofName? label = some instruction ∧
      instruction.isCallable .default = true ∧ instruction.isCallable version = false := by
  obtain ⟨function, found⟩ := Option.isSome_iff_exists.mp known
  have isMissing {other : Builtin} (named : other.name = label) :
      other ∉ evmBuiltins flavour version := by
    rintro member
    have listed := isSome_builtin?_of_mem member
    rw [named, isLacking] at listed
    cases listed
  have isListed : function ∈ evmBuiltins flavour .default ∧ function.name = label := by
    rcases Option.or_eq_some_iff.mp found with verbatim | ⟨_, named⟩
    · -- The `verbatim` family is the same in all versions.
      have stillKnown : (evm flavour version).builtin? label = some function :=
        Option.or_eq_some_iff.mpr (.inl verbatim)
      rw [isLacking] at stillKnown
      cases stillKnown
    · rw [builtinNamed?] at named
      have isNamed := List.find?_some named
      exact ⟨List.mem_of_find?_eq_some named, of_decide_eq_true isNamed⟩
  obtain ⟨member, named⟩ := isListed
  have isInstruction : function ∈ instructionBuiltins .default ∧
      ∀ other ∈ instructionBuiltins version, other.name ≠ label := by
    cases flavour with
    | plain => exact ⟨member, fun other listed named => isMissing named listed⟩
    | objects =>
      refine ⟨(List.mem_append.mp member).resolve_right fun isObject => ?_, fun other listed named =>
        isMissing named (List.mem_append_left _ listed)⟩
      exact isMissing named (List.mem_append_right _ isObject)
    | typed => cases untyped
  obtain ⟨isListed, isUnlisted⟩ := isInstruction
  obtain ⟨instruction, isIn, rfl⟩ := List.mem_map.mp isListed
  obtain ⟨isOne, isCallable⟩ := List.mem_filter.mp isIn
  have notCallable : instruction.isCallable version = false := by
    rw [← Bool.not_eq_true]
    exact fun isThere =>
      isUnlisted _ (List.mem_map_of_mem (List.mem_filter.mpr ⟨isOne, isThere⟩)) named
  have isGated : instruction = .prevrandao ∨ instruction.capability?.isSome = true := by
    rcases Instruction.gated_of_not_isCallable isCallable notCallable with
      ⟨isThis, _⟩ | ⟨capability, needed, _⟩
    · exact .inl isThis
    · exact .inr (Option.isSome_of_eq_some needed)
  refine ⟨instruction, ?_, isCallable, notCallable⟩
  rw [← named]
  exact Instruction.ofName?_name_of_gated instruction isOne isGated

end YulCheck
