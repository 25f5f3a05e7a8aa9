import YulCheck.Proofs.Dialect.Names

/-! # The grammar of the `verbatim` family

A name belongs to the family if and only if it is written with two decimal numbers below 100. What is
read from such a name are these numbers, since each part of the name ends where the next one starts, so
the name determines the function and the numbers of its parameters and returned values determine the
name.
-/

namespace YulCheck

namespace Verbatim

variable {label : String} {text rest : List Char} {number arguments returns : Nat}

/-! ### Parts of a name -/

theorem after?_append (start rest : List Char) : after? start (start ++ rest) = some rest := by
  induction start with
  | nil => rfl
  | cons c start ih => rw [List.cons_append, after?, if_pos rfl, ih]

/-- A text is split at the first mark behind characters that start no mark. -/
theorem splitAt?_append {c : Char} {mark before : List Char} (isFree : c ∉ before) :
    splitAt? (c :: mark) (before ++ (c :: mark ++ rest)) = some (before, rest) := by
  induction before with
  | nil => rw [List.nil_append, List.cons_append, splitAt?, ← List.cons_append, after?_append]
  | cons d before ih =>
    have noMark : c ≠ d := fun same => isFree (same ▸ List.mem_cons_self)
    rw [List.cons_append, splitAt?, after?, if_neg noMark,
      ih fun member => isFree (List.mem_cons_of_mem d member)]
    rfl

theorem before?_concat (last : Char) (text : List Char) : before? last (text ++ [last]) = some text := by
  rw [before?, List.getLast?_concat, if_pos rfl, List.dropLast_concat]

theorem digit_lt {c : Char} (isDigit : c.isDigit = true) : digit c < 10 := by
  have every : ∀ number < 10, digit (Nat.digitChar number) < 10 := by decide
  obtain ⟨number, bound, rfl⟩ := exists_digitChar_of_isDigit isDigit
  exact every number bound

theorem count?_toDigits (bound : number < 100) : count? (Nat.toDigits 10 number) = some number := by
  have every : ∀ number < 100, count? (Nat.toDigits 10 number) = some number := by decide
  exact every number bound

/-- Two digits spell no number above 99. -/
theorem lt_of_count? (found : count? text = some number) : number < 100 := by
  rw [count?.eq_def] at found
  split at found
  · split at found
    · rename_i isDigit
      cases found
      exact Nat.lt_trans (digit_lt isDigit) (by decide)
    · cases found
  · split at found
    · rename_i areDigits
      obtain ⟨⟨least, greatest⟩, isNext⟩ := areDigits
      cases found
      have first := digit_lt (isDigit_of_le least greatest)
      have second := digit_lt isNext
      omega
    · cases found
  · cases found

/-! ### Names -/

/-- Whether a text is the name with two decimal numbers from 0 to 99, without superfluous zeros. -/
def IsName (label : String) (arguments returns : Nat) : Prop :=
  arguments < 100 ∧ returns < 100 ∧
    label = "verbatim_" ++ toString arguments ++ "i_" ++ toString returns ++ "o"

theorem parse?_name (isFirst : arguments < 100) (isSecond : returns < 100) :
    parse? (name arguments returns) = some (arguments, returns) := by
  have free : ∀ number < 100, 'i' ∉ Nat.toDigits 10 number := by decide
  rw [parse?, toList_name, after?_append]
  simp only [Option.bind_eq_bind, Option.bind_some]
  rw [show "i_".toList = ['i', '_'] from rfl, splitAt?_append (free arguments isFirst)]
  simp only [Option.bind_some, before?_concat, count?_toDigits isFirst, count?_toDigits isSecond]
  rfl

/-- The names that are read are those of the grammar. -/
theorem parse?_eq_some_iff :
    parse? label = some (arguments, returns) ↔ IsName label arguments returns := by
  constructor
  · intro found
    have named := name_of_parse? found
    simp only [parse?, Option.bind_eq_bind, Option.bind_eq_some_iff] at found
    obtain ⟨_, _, _, _, _, _, _, isFirst, _, isSecond, ⟨⟩⟩ := found
    exact ⟨lt_of_count? isFirst, lt_of_count? isSecond, named.symm⟩
  · rintro ⟨isFirst, isSecond, rfl⟩
    exact parse?_name isFirst isSecond

end Verbatim

namespace Dialect

variable {flavour : EvmFlavour} {version : EvmVersion} {label : String} {function : Builtin}
  {arguments returns : Nat}

theorem builtin?_of_isName (hasObjects : flavour.hasObjects = true)
    (isName : Verbatim.IsName label arguments returns) :
    (evm flavour version).builtin? label =
      some (Verbatim.function flavour.integerType arguments returns) := by
  show (verbatimBuiltin? flavour label).or _ = _
  rw [verbatimBuiltin?, if_pos hasObjects, Verbatim.parse?_eq_some_iff.mpr isName]
  rfl

/-- The functions of the family are found by the names of the grammar only, and only where programs can
refer to objects. -/
theorem exists_isName_of_isVerbatim (known : (evm flavour version).builtin? label = some function)
    (isVerbatim : function.isVerbatim = true) :
    flavour.hasObjects = true ∧ ∃ arguments returns, Verbatim.IsName label arguments returns := by
  obtain ⟨_, ⟨⟨⟨arguments, returns⟩, parsed⟩, hasObjects, _⟩ | ⟨_, isOther⟩⟩ := evm_builtin?_cases known
  · exact ⟨hasObjects, arguments, returns, Verbatim.parse?_eq_some_iff.mp parsed⟩
  · cases isVerbatim.symm.trans isOther

/-- Whether the `verbatim` family of a dialect is that of the grammar. -/
structure HasVerbatimFamily (dialect : Dialect) : Prop where
  /-- The names of the grammar, and no others, have a function of the family. -/
  accepted : ∀ label, (∃ function, dialect.builtin? label = some function ∧
    function.isVerbatim = true) ↔ ∃ arguments returns, Verbatim.IsName label arguments returns
  named : ∀ label function, dialect.builtin? label = some function → function.isVerbatim = true →
    function.name = label
  /-- The bytecode comes first and is a literal string, and all values have the default type. -/
  shaped : ∀ label function, dialect.builtin? label = some function →
    ∀ arguments returns, Verbatim.IsName label arguments returns →
      function.parameters = List.replicate (arguments + 1) dialect.defaultType ∧
      function.returns = List.replicate returns dialect.defaultType ∧
      ∀ position, function.literalArgument? position =
        if position = 0 then some LiteralKind.string else none
  distinct : ∀ left right first second, dialect.builtin? left = some first →
    dialect.builtin? right = some second → first.isVerbatim = true → second.isVerbatim = true →
    first.parameters.length = second.parameters.length →
    first.returns.length = second.returns.length → left = right
  reserved : ∀ label function, dialect.builtin? label = some function → function.isVerbatim = true →
    dialect.isReserved label = true

theorem literalArgument?_function (type : String) (arguments returns position : Nat) :
    (Verbatim.function type arguments returns).literalArgument? position =
      if position = 0 then some .string else none := by
  cases position with
  | zero => rfl
  | succ position =>
    show (List.replicate arguments (none : Option LiteralKind))[position]?.join = none
    rw [List.getElem?_replicate]
    split
    · rfl
    · rfl

theorem hasVerbatimFamily_evm (version : EvmVersion) (hasObjects : flavour.hasObjects = true) :
    (evm flavour version).HasVerbatimFamily where
  accepted label := by
    constructor
    · rintro ⟨function, known, isVerbatim⟩
      exact (exists_isName_of_isVerbatim known isVerbatim).2
    · rintro ⟨arguments, returns, isName⟩
      exact ⟨_, builtin?_of_isName hasObjects isName, Verbatim.startsWith_name _ _⟩
  named _ _ known _ := (evm_builtin?_cases known).1
  shaped label function known arguments returns isName := by
    obtain rfl := Option.some.inj (known.symm.trans (builtin?_of_isName hasObjects isName))
    exact ⟨congrArg (List.replicate · _) (Nat.add_comm 1 arguments), rfl,
      literalArgument?_function _ _ _⟩
  distinct left right first second leftKnown rightKnown isFirst isSecond parameters returns := by
    rw [← evm_verbatim_name leftKnown isFirst, parameters, returns]
    exact evm_verbatim_name rightKnown isSecond
  reserved label function known isVerbatim := by
    rw [Builtin.isVerbatim, (evm_builtin?_cases known).1] at isVerbatim
    show isReservedInEvm flavour version label = true
    rw [isReservedInEvm, hasObjects, isVerbatim]
    rfl

/-- Where programs can refer to objects, the functions of the `verbatim` family are those of the names of
its grammar; elsewhere there are none. -/
theorem verbatim_family_exact (flavour : EvmFlavour) (version : EvmVersion) :
    (flavour.hasObjects = true → (evm flavour version).HasVerbatimFamily) ∧
    (flavour.hasObjects = false → ∀ label function,
      (evm flavour version).builtin? label = some function → function.isVerbatim = false) := by
  refine ⟨hasVerbatimFamily_evm version, fun noObjects label function known => ?_⟩
  rw [Bool.eq_false_iff]
  intro isVerbatim
  have hasObjects := (exists_isName_of_isVerbatim known isVerbatim).1
  exact Bool.false_ne_true (noObjects.symm.trans hasObjects)

/-- Where types are told apart, a name with two digits has a function on integers and is reserved. -/
theorem verbatim_family_typed :
    (∃ function, (evm .typed .london).builtin? "verbatim_10i_99o" = some function ∧
      function.parameters = List.replicate 11 "u256" ∧ function.returns = List.replicate 99 "u256") ∧
    (evm .typed .london).isReserved "verbatim_10i_99o" = true := by
  have family := (verbatim_family_exact .typed .london).1 rfl
  have isName : Verbatim.IsName "verbatim_10i_99o" 10 99 := ⟨by decide, by decide, by decide⟩
  obtain ⟨function, known, isVerbatim⟩ := (family.accepted "verbatim_10i_99o").mpr ⟨10, 99, isName⟩
  obtain ⟨parameters, returns, _⟩ := family.shaped _ function known 10 99 isName
  exact ⟨⟨function, known, parameters, returns⟩, family.reserved _ function known isVerbatim⟩

end Dialect

end YulCheck
