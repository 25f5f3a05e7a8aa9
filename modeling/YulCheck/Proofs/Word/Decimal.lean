import YulCheck.Literal
import YulCheck.Proofs.Word.Numerals

/-! # Decimal output

A word is written by dividing it by ten until nothing is left. The remainders are the decimal digits of
its value, and the numeral has no superfluous zeros. Reading a decimal numeral and writing what was read
therefore gives the numeral back, without the zeros that it starts with.
-/

namespace YulCheck.Word

variable {word : Word} {c : Char} {digit number : Nat} {characters : List Char} {digits : List Nat}

/-! ### Division by ten -/

theorem toNat_divMod_ten (word : Word) :
    (word.divMod 10).1.toNat = word.toNat / 10 ∧ (word.divMod 10).2 = word.toNat % 10 := by
  have divided : word.toNat = 10 * (word.divMod 10).1.toNat + (word.divMod 10).2 ∧
      (word.divMod 10).2 < 10 := word.toNat_divMod (by decide : 0 < (10 : UInt64).toNat)
  omega

theorem isZero_iff : word.isZero = true ↔ word.toNat = 0 := by
  rw [isZero, decide_eq_true_iff, ← toNat_inj]
  rfl

/-- What is left of a word after a number of divisions by ten. -/
def remaining (word : Word) : Nat → Word
  | 0 => word
  | rounds + 1 => ((word.remaining rounds).divMod 10).1

theorem toNat_remaining (word : Word) (rounds : Nat) :
    (word.remaining rounds).toNat = word.toNat / 10 ^ rounds := by
  induction rounds with
  | zero => exact (Nat.div_one _).symm
  | succ rounds ih =>
    rw [remaining, (toNat_divMod_ten _).1, ih, Nat.div_div_eq_div_mul, Nat.pow_succ]

/-- Nothing is left of any word after 78 divisions. -/
theorem isZero_remaining (word : Word) : (word.remaining 78).isZero = true := by
  rw [isZero_iff, toNat_remaining]
  exact Nat.div_eq_of_lt (Nat.lt_trans word.toNat_lt (by decide))

/-! ### Digits of a word -/

theorem digitChar_eq (isDigit : digit < 10) : Char.ofNat ('0'.toNat + digit) = Nat.digitChar digit := by
  have every : ∀ digit < 10, Char.ofNat ('0'.toNat + digit) = Nat.digitChar digit := by decide
  exact every digit isDigit

/-- The digits of a word are those of its value; there are none for zero. -/
theorem reverse_decimalDigits (word : Word) :
    word.decimalDigits.reverse = if word.toNat = 0 then [] else Nat.toDigits 10 word.toNat := by
  induction word using decimalDigits.induct with
  | case1 word isZero =>
    rw [decimalDigits, if_pos isZero, if_pos (isZero_iff.mp isZero), List.reverse_nil]
  | case2 word isRest ih =>
    have positive : word.toNat ≠ 0 := mt isZero_iff.mpr isRest
    obtain ⟨quotient, remainder⟩ := word.toNat_divMod_ten
    rw [decimalDigits, if_neg isRest, if_neg positive, List.reverse_cons, ih, quotient, remainder,
      digitChar_eq (Nat.mod_lt _ (by decide))]
    -- A single digit leaves a quotient without digits, not one that is written as a zero.
    by_cases isLast : word.toNat < 10
    · rw [Nat.div_eq_of_lt isLast, Nat.mod_eq_of_lt isLast, Nat.toDigits_of_lt_base isLast]
      rfl
    · rw [if_neg (by omega)]
      exact (Nat.toDigits_of_base_le (by decide) (Nat.le_of_not_lt isLast)).symm

/-- A word is written as its value is. -/
theorem toDecimal_eq (word : Word) : word.toDecimal = Nat.repr word.toNat := by
  rw [toDecimal, reverse_decimalDigits]
  by_cases isZero : word.toNat = 0
  · rw [if_pos (isZero_iff.mpr isZero), isZero]
    rfl
  · rw [if_neg (mt isZero_iff.mp isZero), if_neg isZero]
    rfl

/-! ### Decimal numerals -/

theorem isDigit_digitChar (isDigit : digit < 10) : IsDigit 10 (Nat.digitChar digit) digit := by
  have every : ∀ digit < 10,
      "0123456789abcdef".toList[digit]? = some (Nat.digitChar digit).toLower := by decide
  exact ⟨isDigit, every digit isDigit⟩

theorem eq_digitChar_of_isDigit (isDigit : IsDigit 10 c digit) : c = Nat.digitChar digit := by
  have ascii : ∀ code : Fin 128, ∀ digit : Fin 10,
      digit? 10 (Char.ofNat code) = some digit.val → Char.ofNat code = Nat.digitChar digit.val := by
    decide +kernel
  have found := (digit?_eq_some_iff (by decide)).mpr isDigit
  have isOne := ascii ⟨c.toNat, toNat_lt_of_digit? found⟩ ⟨digit, isDigit.1⟩
  rw [Char.ofNat_toNat] at isOne
  exact isOne found

theorem toDigits_of_isDigit (isDigit : IsDigit 10 c digit) : Nat.toDigits 10 digit = [c] := by
  rw [Nat.toDigits_of_lt_base isDigit.1, eq_digitChar_of_isDigit isDigit]

/-- Digits behind the numeral of a number spell the number that they extend it to. -/
theorem toDigits_extend (areDigits : List.Forall₂ (IsDigit 10) characters digits)
    (positive : 0 < number) :
    Nat.toDigits 10 (extend 10 number digits) = Nat.toDigits 10 number ++ characters := by
  induction areDigits generalizing number with
  | nil => exact (List.append_nil _).symm
  | @cons c digit characters digits isDigit areDigits ih =>
    calc
      _ = Nat.toDigits 10 (digit + 10 * number) ++ characters := ih (by omega)
      _ = Nat.toDigits 10 number ++ Nat.toDigits 10 digit ++ characters := by
        rw [Nat.toDigits_append_toDigits (by decide) positive isDigit.1, Nat.add_comm]
      _ = _ := by rw [toDigits_of_isDigit isDigit, List.append_assoc]; rfl

/-- A decimal numeral without the zeros that it starts with. One zero is left if nothing else is. -/
def withoutLeadingZeros (text : String) : String :=
  match text.toList.dropWhile (· = '0') with
  | [] => "0"
  | characters => String.ofList characters

theorem toDigits_extend_zero (areDigits : List.Forall₂ (IsDigit 10) characters digits) :
    Nat.toDigits 10 (extend 10 0 digits) =
      match characters.dropWhile (· = '0') with
      | [] => ['0']
      | characters => characters := by
  induction areDigits with
  | nil => rfl
  | @cons c digit characters digits isDigit areDigits ih =>
    obtain rfl | positive := Nat.eq_zero_or_pos digit
    · rw [eq_digitChar_of_isDigit isDigit]
      exact ih
    · have noZero : ¬decide (c = '0') = true := by
        rw [decide_eq_true_iff]
        rintro rfl
        have isZero : digit? 10 '0' = some 0 := rfl
        have found := (digit?_eq_some_iff (by decide)).mpr isDigit
        exact Nat.ne_of_gt positive (Option.some.inj (found.symm.trans isZero))
      rw [List.dropWhile_cons, if_neg noZero]
      exact (toDigits_extend areDigits positive).trans (by rw [toDigits_of_isDigit isDigit]; rfl)

theorem repr_ofDigits {text : String} (areDigits : List.Forall₂ (IsDigit 10) text.toList digits) :
    Nat.repr (Nat.ofDigits 10 digits.reverse) = withoutLeadingZeros text := by
  rw [← extend_zero, withoutLeadingZeros, Nat.repr, toDigits_extend_zero areDigits]
  split
  · rfl
  · rfl

/-- The numeral of a number consists of digits that spell it. -/
theorem exists_digits (number : Nat) :
    ∃ digits, List.Forall₂ (IsDigit 10) (Nat.toDigits 10 number) digits ∧ digits ≠ [] ∧
      Nat.ofDigits 10 digits.reverse = number := by
  induction number using Nat.strongRecOn with
  | ind number ih =>
    by_cases isDigit : number < 10
    · rw [Nat.toDigits_of_lt_base isDigit]
      exact ⟨[number], .cons (isDigit_digitChar isDigit) .nil, nofun, Nat.ofDigits_singleton⟩
    · obtain ⟨digits, areDigits, _, spelled⟩ := ih (number / 10) (by omega)
      rw [Nat.toDigits_of_base_le (by decide) (Nat.le_of_not_lt isDigit)]
      have isLast := isDigit_digitChar (Nat.mod_lt number (by decide : 0 < 10))
      refine ⟨digits ++ [number % 10], List.rel_append areDigits (.cons isLast .nil), ?_, ?_⟩
      · exact List.append_ne_nil_of_right_ne_nil _ nofun
      · rw [List.reverse_concat, Nat.ofDigits_cons, spelled]
        exact Nat.mod_add_div number 10

/-- Only the numeral of zero starts with a zero. -/
theorem eq_zero_of_head? (starts : (Nat.toDigits 10 number).head? = some '0') : number = 0 := by
  induction number using Nat.strongRecOn with
  | ind number ih =>
    by_cases isDigit : number < 10
    · have every : ∀ digit < 10, some (Nat.digitChar digit) = some '0' → digit = 0 := by decide
      rw [Nat.toDigits_of_lt_base isDigit] at starts
      exact every number isDigit starts
    · rw [Nat.toDigits_of_base_le (by decide) (Nat.le_of_not_lt isDigit),
        List.head?_append_of_ne_nil _ Nat.toDigits_ne_nil] at starts
      have noQuotient := ih (number / 10) (by omega) starts
      omega

/-- The numeral of a number spells that number. -/
theorem spells_repr (number : Nat) : Spells (Nat.repr number) number := by
  obtain ⟨digits, areDigits, isNumeral, spelled⟩ := exists_digits number
  have written : (Nat.repr number).toList = Nat.toDigits 10 number := String.toList_ofList
  rw [← written] at areDigits
  have spells : Spells (Nat.repr number) (Nat.ofDigits 10 digits.reverse) :=
    .decimal areDigits isNumeral
  rwa [spelled] at spells

/-! ### Writing and reading -/

/-- Whether words are written as decimal numerals, which reading turns back into the words. -/
structure WritesDecimals (write : Word → String) : Prop where
  digits : ∀ word, write word = Nat.repr word.toNat
  /-- No zero stands before other digits. -/
  unpadded : ∀ word, (write word).toList.head? = some '0' → word = zero
  read : ∀ word, ofNumeral? (write word) = some word
  /-- What was read from a decimal numeral is written without the zeros that the numeral starts with. -/
  restored : ∀ text word, text.toList.all Char.isDigit = true → ofNumeral? text = some word →
    write word = withoutLeadingZeros text

theorem writesDecimals_toDecimal : WritesDecimals toDecimal where
  digits := toDecimal_eq
  unpadded word starts := by
    rw [toDecimal_eq, Nat.repr, String.toList_ofList] at starts
    exact toNat_inj.mp (eq_zero_of_head? starts)
  read word := by
    have isRead := toNat_ofNumeral?.mpr ⟨spells_repr word.toNat, word.toNat_lt⟩
    rw [← toDecimal_eq] at isRead
    obtain ⟨other, isRead, same⟩ := Option.map_eq_some_iff.mp isRead
    rw [isRead, toNat_inj.mp same]
  restored text word areDecimal isRead := by
    have spells := (toNat_ofNumeral?.mp (Option.map_eq_some_iff.mpr ⟨word, isRead, rfl⟩)).1
    rw [toDecimal_eq]
    generalize word.toNat = number at spells
    cases spells with
    | decimal areDigits _ => exact repr_ofDigits areDigits
    | hexadecimal isMarked =>
      -- The second character of the mark is no decimal digit.
      rw [isMarked] at areDecimal
      cases areDecimal

/-- Decimal output and the reading of decimal numerals are inverse, for words and for number literals
without a spelling. Output comes to an end, since nothing is left of a word after 78 divisions. -/
theorem decimals_inverse :
    (∀ word : Word, (word.remaining 78).isZero = true) ∧ WritesDecimals toDecimal ∧
      WritesDecimals fun word => LiteralValue.format .number (.word word none) :=
  ⟨isZero_remaining, writesDecimals_toDecimal, writesDecimals_toDecimal⟩

/-- The word with value 2^128 is written without the zeros of the numeral that it is read from. -/
theorem decimals_inverse_padded :
    ofNumeral? "000340282366920938463463374607431768211456" = some ⟨0, 1, 0, 0⟩ ∧
      toDecimal ⟨0, 1, 0, 0⟩ = "340282366920938463463374607431768211456" :=
  have isRead : ofNumeral? "000340282366920938463463374607431768211456" = some ⟨0, 1, 0, 0⟩ := by
    decide +kernel
  ⟨isRead, decimals_inverse.2.1.restored _ _ (by decide) isRead⟩

end YulCheck.Word
