import YulCheck.Proofs.Dialect.Types
import YulCheck.Proofs.Name.Candidates

/-! # The names of the functions of the bundled dialects

Every function of a bundled dialect is either listed by its name or of the `verbatim` family. Names of
the family are written in one way only. Numbers behind a label lead neither to the family nor to a
reserved name.
-/

namespace YulCheck

/-! ### Names of the `verbatim` family -/

namespace Verbatim

theorem eq_append_of_after? {start text rest : List Char} (found : after? start text = some rest) :
    text = start ++ rest := by
  induction start generalizing text with
  | nil => exact Option.some.inj found
  | cons c start ih =>
    cases text with
    | nil => cases found
    | cons d text =>
      rw [after?] at found
      split at found
      · rename_i same
        rw [same, ih found, List.cons_append]
      · cases found

theorem isDigit_of_le {c : Char} (least : '1' ≤ c) (greatest : c ≤ '9') : c.isDigit = true := by
  rw [Char.isDigit, Bool.and_eq_true, decide_eq_true_iff, decide_eq_true_iff]
  exact ⟨Char.le_trans (by decide : '0' ≤ '1') least, greatest⟩

/-- Digits are those of the numbers below ten. -/
theorem exists_digitChar_of_isDigit {c : Char} (isDigit : c.isDigit = true) :
    ∃ number < 10, c = Nat.digitChar number := by
  have isOne : ∀ value : Fin 58, 48 ≤ value.val →
      ∃ number < 10, Char.ofNat value.val = Nat.digitChar number := by decide
  rw [Char.isDigit, Bool.and_eq_true, decide_eq_true_iff, decide_eq_true_iff] at isDigit
  have lower : 48 ≤ c.toNat := UInt32.le_iff_toNat_le.mp isDigit.1
  have upper : c.toNat ≤ 57 := UInt32.le_iff_toNat_le.mp isDigit.2
  have found := isOne ⟨c.toNat, by omega⟩ lower
  rwa [Char.ofNat_toNat] at found

theorem toDigits_digit {c : Char} (isDigit : c.isDigit = true) :
    Nat.toDigits 10 (digit c) = [c] := by
  have every : ∀ number < 10, Nat.toDigits 10 (digit (Nat.digitChar number)) =
      [Nat.digitChar number] := by decide
  obtain ⟨number, bound, rfl⟩ := exists_digitChar_of_isDigit isDigit
  exact every number bound

theorem toDigits_digits {c d : Char} (isDigit : c.isDigit = true) (isNext : d.isDigit = true)
    (notZero : c ≠ '0') : Nat.toDigits 10 (digit c * 10 + digit d) = [c, d] := by
  have every : ∀ first < 10, ∀ second < 10, Nat.digitChar first ≠ '0' →
      Nat.toDigits 10 (digit (Nat.digitChar first) * 10 + digit (Nat.digitChar second)) =
        [Nat.digitChar first, Nat.digitChar second] := by decide
  obtain ⟨first, firstBound, rfl⟩ := exists_digitChar_of_isDigit isDigit
  obtain ⟨second, secondBound, rfl⟩ := exists_digitChar_of_isDigit isNext
  exact every first firstBound second secondBound notZero

/-- Numbers are written in one way only. -/
theorem eq_toDigits_of_count? {text : List Char} {number : Nat} (found : count? text = some number) :
    text = Nat.toDigits 10 number := by
  rw [count?.eq_def] at found
  split at found
  · split at found
    · rename_i isDigit
      cases found
      exact (toDigits_digit isDigit).symm
    · cases found
  · split at found
    · rename_i areDigits
      obtain ⟨⟨least, greatest⟩, isNext⟩ := areDigits
      cases found
      refine (toDigits_digits (isDigit_of_le least greatest) isNext ?_).symm
      rintro rfl
      exact absurd least (by decide)
    · cases found
  · cases found

theorem eq_append_of_splitAt? {mark text before rest : List Char}
    (found : splitAt? mark text = some (before, rest)) : text = before ++ (mark ++ rest) := by
  induction text generalizing before with
  | nil => cases found
  | cons c text ih =>
    rw [splitAt?] at found
    split at found
    · rename_i marked
      cases found
      rw [List.nil_append]
      exact eq_append_of_after? marked
    · obtain ⟨⟨before, rest⟩, found, split⟩ := Option.map_eq_some_iff.mp found
      cases split
      rw [ih found, List.cons_append]

theorem eq_append_of_before? {last : Char} {text before : List Char}
    (found : before? last text = some before) : text = before ++ [last] := by
  rw [before?] at found
  split at found
  · rename_i isLast
    cases found
    obtain ⟨before, rfl⟩ := List.getLast?_eq_some_iff.mp isLast
    rw [List.dropLast_concat]
  · cases found

theorem toList_name (arguments returns : Nat) :
    (name arguments returns).toList =
      "verbatim_".toList ++
        (Nat.toDigits 10 arguments ++ ("i_".toList ++ (Nat.toDigits 10 returns ++ ['o']))) := by
  simp [name, toString]

/-- The numbers in a name of the family determine the name. -/
theorem name_of_parse? {label : String} {arguments returns : Nat}
    (found : parse? label = some (arguments, returns)) : name arguments returns = label := by
  simp only [parse?, Option.bind_eq_bind, Option.bind_eq_some_iff] at found
  obtain ⟨behindStem, stem, ⟨first, behindMark⟩, split, second, last, _, isFirst, _, isSecond,
    ⟨⟩⟩ := found
  dsimp only at last isFirst
  apply String.toList_injective
  rw [toList_name, eq_append_of_after? stem, eq_append_of_splitAt? split,
    eq_append_of_before? last, ← eq_toDigits_of_count? isFirst, ← eq_toDigits_of_count? isSecond]

/-- Names of the family end with a letter. -/
theorem getLast?_of_parse? {label : String} {arity : Nat × Nat}
    (found : parse? label = some arity) : label.toList.getLast? = some 'o' := by
  rw [← name_of_parse? found, toList_name, ← List.append_assoc, ← List.append_assoc,
    ← List.append_assoc, List.getLast?_concat]

theorem startsWith_name (arguments returns : Nat) :
    startsWith stem (name arguments returns) = true := by
  rw [startsWith, List.isPrefixOf_iff_prefix, toList_name]
  have starts : stem.toList <+: "verbatim_".toList := by decide
  exact starts.trans (List.prefix_append _ _)

end Verbatim

/-! ### Dialects -/

/-- Whether a function is of the `verbatim` family. -/
def Builtin.isVerbatim (function : Builtin) : Bool :=
  Verbatim.startsWith Verbatim.stem function.name

/-- What is known about the names of the functions of a dialect. -/
structure Dialect.IsCatalogued (dialect : Dialect) : Prop where
  named : ∀ label function, dialect.builtin? label = some function → function.name = label
  listed : ∀ label function, dialect.builtin? label = some function →
    function.isVerbatim = false → label ∈ dialect.builtinNames
  members : ∀ label ∈ dialect.builtinNames, ∀ function, dialect.builtin? label = some function →
    function.isVerbatim = false
  distinct : dialect.builtinNames.Nodup
  unnamed : dialect.builtin? "" = none
  /-- The `verbatim` family has no numbered names. -/
  numbered : ∀ base number function,
    dialect.builtin? (NameTable.candidate base (number + 1)) = some function →
      function.isVerbatim = false
  /-- Numbers do not make a label reserved. -/
  reserved : ∀ base number, dialect.isReserved (NameTable.candidate base (number + 1)) = true →
    dialect.isReserved base = true

namespace Dialect

/-! ### The names of functions for the EVM -/

/-- No function for the EVM has a name that starts like those of the `verbatim` family. -/
theorem plain_of_mem_untypedNames : ∀ name ∈ untypedNames,
    '_' ∉ name.toList ∧ Verbatim.startsWith Verbatim.stem name = false := by
  decide +kernel

theorem isVerbatim_of_mem_evmBuiltins {flavour : EvmFlavour} {version : EvmVersion}
    {function : Builtin} (member : function ∈ evmBuiltins flavour version) :
    function.isVerbatim = false := by
  have typed : ∀ name ∈ typedNames, Verbatim.startsWith Verbatim.stem name = false := by
    decide +kernel
  rcases List.mem_append.mp (name_mem_of_mem_evmBuiltins member) with isUntyped | isTyped
  · exact (plain_of_mem_untypedNames _ isUntyped).2
  · exact typed _ isTyped

/-- A function for the EVM is one of the family or one of the list of functions. -/
theorem evm_builtin?_cases {flavour : EvmFlavour} {version : EvmVersion} {label : String}
    {function : Builtin} (found : (evm flavour version).builtin? label = some function) :
    function.name = label ∧
      ((∃ arity, Verbatim.parse? label = some arity) ∧ flavour.hasObjects = true ∧
          function.isVerbatim = true ∨
        function ∈ evmBuiltins flavour version ∧ function.isVerbatim = false) := by
  rcases Option.or_eq_some_iff.mp found with verbatim | ⟨_, named⟩
  · rw [verbatimBuiltin?] at verbatim
    split at verbatim
    · rename_i hasObjects
      obtain ⟨⟨arguments, returns⟩, parsed, rfl⟩ := Option.map_eq_some_iff.mp verbatim
      exact ⟨Verbatim.name_of_parse? parsed,
        .inl ⟨⟨_, parsed⟩, hasObjects, Verbatim.startsWith_name _ _⟩⟩
    · cases verbatim
  · have member := List.mem_of_find?_eq_some named
    rw [builtinNamed?] at named
    have isNamed := List.find?_some named
    exact ⟨of_decide_eq_true isNamed, .inr ⟨member, isVerbatim_of_mem_evmBuiltins member⟩⟩

/-- A text without underscores that a numbered label starts with is at the start of its base. -/
theorem isPrefix_of_candidate {start : List Char} (plain : '_' ∉ start) {base : String} {number : Nat}
    (starts : start <+: (NameTable.candidate base (number + 1)).toList) : start <+: base.toList := by
  rw [NameTable.toList_candidate_succ] at starts
  rcases List.prefix_or_prefix_of_prefix starts (List.prefix_append base.toList _) with
    inBase | ⟨rest, rfl⟩
  · exact inBase
  · rw [List.prefix_append_right_inj] at starts
    cases rest with
    | nil => exact ⟨[], by rw [List.append_nil, List.append_nil]⟩
    | cons c rest =>
      obtain rfl := (List.cons_prefix_cons.mp starts).1
      exact absurd (List.mem_append_right _ List.mem_cons_self) plain

theorem candidate_not_mem_untypedNames (base : String) (number : Nat) :
    NameTable.candidate base (number + 1) ∉ untypedNames := by
  intro member
  apply (plain_of_mem_untypedNames _ member).1
  rw [NameTable.toList_candidate_succ]
  exact List.mem_append_right _ List.mem_cons_self

theorem isReservedInEvm_of_candidate {flavour : EvmFlavour} {version : EvmVersion} {base : String}
    {number : Nat}
    (reserved : isReservedInEvm flavour version (NameTable.candidate base (number + 1)) = true) :
    isReservedInEvm flavour version base = true := by
  have isNew := candidate_not_mem_untypedNames base number
  rw [isReservedInEvm, Bool.or_eq_true, Bool.or_eq_true] at reserved
  rcases reserved with (family | isInstruction) | isObject
  · rw [Bool.and_eq_true, Verbatim.startsWith, List.isPrefixOf_iff_prefix] at family
    have plain : '_' ∉ Verbatim.stem.toList := by decide
    have starts := isPrefix_of_candidate plain family.2
    rw [isReservedInEvm, family.1, Verbatim.startsWith, List.isPrefixOf_iff_prefix.mpr starts]
    rfl
  · obtain ⟨instruction, found, _⟩ := (Option.any_eq_true _ _).mp isInstruction
    rw [Instruction.ofName?] at found
    have named := List.find?_some found
    rw [decide_eq_true_iff] at named
    refine absurd (List.mem_append_left _ ?_) isNew
    exact List.mem_map.mpr ⟨instruction, List.mem_of_find?_eq_some found, named⟩
  · have known : objectNames ⊆ untypedNames := by decide +kernel
    exact absurd (known (List.contains_iff_mem.mp isObject)) isNew

/-! ### Bundled dialects -/

theorem nodup_ofList (names : List String) : (AscendingList.ofList names).Nodup := by
  refine (AscendingList.pairwise_ofList names).imp fun less => ?_
  rintro rfl
  exact String.lt_irrefl _ less

theorem isCatalogued_evm (flavour : EvmFlavour) (version : EvmVersion) :
    (evm flavour version).IsCatalogued where
  named _ _ found := (evm_builtin?_cases found).1
  listed label function found isOther := by
    obtain ⟨rfl, ⟨_, _, isVerbatim⟩ | ⟨member, _⟩⟩ := evm_builtin?_cases found
    · rw [isVerbatim] at isOther
      cases isOther
    · exact AscendingList.mem_ofList.mpr (List.mem_cons_of_mem _ (List.mem_map_of_mem member))
  members label isListed function found := by
    obtain ⟨rfl, ⟨⟨arity, parsed⟩, _⟩ | ⟨_, isOther⟩⟩ := evm_builtin?_cases found
    · rcases List.mem_cons.mp (AscendingList.mem_ofList.mp isListed) with isStem | isName
      · have noName : Verbatim.parse? Verbatim.stem = none := by decide
        rw [isStem, noName] at parsed
        cases parsed
      · obtain ⟨other, member, same⟩ := List.mem_map.mp isName
        have isOther := isVerbatim_of_mem_evmBuiltins member
        rwa [Builtin.isVerbatim, same] at isOther
    · exact isOther
  distinct := nodup_ofList _
  unnamed := builtin?_evm_eq_none flavour version (by decide)
  numbered base number function found := by
    obtain ⟨_, ⟨⟨arity, parsed⟩, _⟩ | ⟨_, isOther⟩⟩ := evm_builtin?_cases found
    · obtain ⟨digit, last, isDigit⟩ := NameTable.getLast?_candidate_succ base number
      rw [Verbatim.getLast?_of_parse? parsed] at last
      cases last
      exact absurd isDigit (by decide)
    · exact isOther
  reserved _ _ := isReservedInEvm_of_candidate

theorem isCatalogued_generic : generic.IsCatalogued where
  named _ _ found := by cases found
  listed _ _ found := by cases found
  members _ _ _ found := by cases found
  distinct := List.nodup_nil
  unnamed := rfl
  numbered _ _ _ found := by cases found
  reserved _ _ reserved := by cases reserved

/-- The numbers of parameters and returned values of a function of the `verbatim` family for the EVM
determine its name; the first parameter is the bytecode. -/
theorem evm_verbatim_name {flavour : EvmFlavour} {version : EvmVersion} {label : String}
    {function : Builtin} (found : (evm flavour version).builtin? label = some function)
    (isVerbatim : function.isVerbatim = true) :
    Verbatim.name (function.parameters.length - 1) function.returns.length = label := by
  rcases Option.or_eq_some_iff.mp found with verbatim | ⟨_, named⟩
  · rw [verbatimBuiltin?] at verbatim
    split at verbatim
    · obtain ⟨⟨arguments, returns⟩, parsed, rfl⟩ := Option.map_eq_some_iff.mp verbatim
      show Verbatim.name ((List.replicate (1 + arguments) _).length - 1)
        (List.replicate returns _).length = label
      rw [List.length_replicate, List.length_replicate, Nat.add_sub_cancel_left]
      exact Verbatim.name_of_parse? parsed
    · cases verbatim
  · rw [isVerbatim_of_mem_evmBuiltins (List.mem_of_find?_eq_some named)] at isVerbatim
    cases isVerbatim

end Dialect

/-- Functions of the `verbatim` family with the same numbers of parameters and returned values are the
same. -/
theorem BundledDialect.eq_of_verbatim {kind : BundledDialect} {version : EvmVersion}
    {left right : String} {first second : Builtin}
    (leftFound : (kind.build version).builtin? left = some first) (isFirst : first.isVerbatim = true)
    (rightFound : (kind.build version).builtin? right = some second)
    (isSecond : second.isVerbatim = true)
    (parameters : first.parameters.length = second.parameters.length)
    (returns : first.returns.length = second.returns.length) : left = right := by
  cases kind with
  | generic => cases leftFound
  | evm flavour =>
    rw [← Dialect.evm_verbatim_name leftFound isFirst, parameters, returns]
    exact Dialect.evm_verbatim_name rightFound isSecond

/-- The functions of the bundled dialects are listed by their names or of the `verbatim` family. -/
theorem BundledDialect.isCatalogued_build (dialect : BundledDialect) (version : EvmVersion) :
    (dialect.build version).IsCatalogued := by
  cases dialect with
  | generic => exact Dialect.isCatalogued_generic
  | evm flavour => exact Dialect.isCatalogued_evm flavour version

end YulCheck
