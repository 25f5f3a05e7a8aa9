import Mathlib.Data.List.Forall2
import Mathlib.Data.Nat.Digits.Defs
import Mathlib.Tactic.Ring
import YulCheck.Word

/-! # The values of number literals

A number literal is read digit by digit: a word is multiplied by the radix and the digit is added, until
the value exceeds all words. The limbs of a product carry everything into the next one, and a number that
is too large stays so whatever digits follow. What is read is therefore the value of the numeral, for
numerals of any length.
-/

namespace YulCheck.Word

variable {radix value : Nat} {c : Char} {characters : List Char} {text : String}

/-! ### Multiplication by one limb -/

/-- The products that a multiplication forms, from the least significant limb on. Each of them takes
over what the one before leaves above its lowest 64 bits. -/
def products (word : Word) (factor addend : UInt64) : List Nat :=
  let product3 := word.limb3.toNat * factor.toNat + addend.toNat
  let product2 := word.limb2.toNat * factor.toNat + product3 / UInt64.size
  let product1 := word.limb1.toNat * factor.toNat + product2 / UInt64.size
  let product0 := word.limb0.toNat * factor.toNat + product1 / UInt64.size
  [product3, product2, product1, product0]

/-- The limbs of the result are the lowest 64 bits of the products. -/
theorem exists_products (word : Word) (factor addend : UInt64) :
    ∃ product3 product2 product1 product0,
      word.products factor addend = [product3, product2, product1, product0] ∧
      product3 = word.limb3.toNat * factor.toNat + addend.toNat ∧
      product2 = word.limb2.toNat * factor.toNat + product3 / UInt64.size ∧
      product1 = word.limb1.toNat * factor.toNat + product2 / UInt64.size ∧
      product0 = word.limb0.toNat * factor.toNat + product1 / UInt64.size ∧
      word.mulAdd? factor addend =
        if product0 / UInt64.size = 0 then
          some ⟨.ofNat product0, .ofNat product1, .ofNat product2, .ofNat product3⟩
        else none :=
  ⟨_, _, _, _, rfl, rfl, rfl, rfl, rfl, rfl⟩

/-- A product of two limbs with a carry of 64 bits has at most 128 bits, and carries at most 64. -/
theorem product_lt (limb factor : UInt64) {carry : Nat} (bound : carry < UInt64.size) :
    limb.toNat * factor.toNat + carry < 2 ^ 128 ∧
      (limb.toNat * factor.toNat + carry) / UInt64.size < UInt64.size := by
  have isLimb := limb.toNat_lt
  have isFactor := factor.toNat_lt
  have largest : limb.toNat * factor.toNat ≤ (2 ^ 64 - 1) * (2 ^ 64 - 1) :=
    Nat.mul_le_mul (by omega) (by omega)
  simp only [UInt64.size] at bound ⊢
  omega

/-- No product exceeds 128 bits. -/
theorem products_lt (word : Word) (factor addend : UInt64) :
    ∀ product ∈ word.products factor addend, product < 2 ^ 128 := by
  obtain ⟨bound3, carry3⟩ := product_lt word.limb3 factor addend.toNat_lt
  obtain ⟨bound2, carry2⟩ := product_lt word.limb2 factor carry3
  obtain ⟨bound1, carry1⟩ := product_lt word.limb1 factor carry2
  obtain ⟨bound0, _⟩ := product_lt word.limb0 factor carry1
  simp only [products, List.forall_mem_cons]
  exact ⟨bound3, bound2, bound1, bound0, List.forall_mem_nil _⟩

theorem toNat_lt (word : Word) : word.toNat < 2 ^ 256 :=
  Nat.lt_of_le_of_lt word.toNat_le_toNat_max (by decide)

/-- What the limbs keep and what the last of them carries make up the whole product. -/
theorem carried_eq {size factor addend limb0 limb1 limb2 limb3 low0 low1 low2 low3 carry0 carry1
    carry2 carry3 : Nat} (step3 : limb3 * factor + addend = low3 + size * carry3)
    (step2 : limb2 * factor + carry3 = low2 + size * carry2)
    (step1 : limb1 * factor + carry2 = low1 + size * carry1)
    (step0 : limb0 * factor + carry1 = low0 + size * carry0) :
    (((limb0 * size + limb1) * size + limb2) * size + limb3) * factor + addend =
      ((low0 * size + low1) * size + low2) * size + low3 + size ^ 4 * carry0 :=
  calc
    _ = ((limb0 * factor * size + limb1 * factor) * size + limb2 * factor) * size
        + (limb3 * factor + addend) := by ring
    _ = ((limb0 * factor * size + limb1 * factor) * size + (limb2 * factor + carry3)) * size
        + low3 := by rw [step3]; ring
    _ = ((limb0 * factor * size + (limb1 * factor + carry2)) * size + low2) * size + low3 := by
      rw [step2]; ring
    _ = (((limb0 * factor + carry1) * size + low1) * size + low2) * size + low3 := by
      rw [step1]; ring
    _ = _ := by rw [step0]; ring

/-- No carry is lost: the result is the product and the addend, unless no word is that large. -/
theorem toNat_mulAdd? (word : Word) (factor addend : UInt64) :
    (word.mulAdd? factor addend).map toNat =
      if word.toNat * factor.toNat + addend.toNat < 2 ^ 256 then
        some (word.toNat * factor.toNat + addend.toNat)
      else none := by
  obtain ⟨product3, product2, product1, product0, _, is3, is2, is1, is0, result⟩ :=
    word.exists_products factor addend
  have split (product : Nat) :
      product = (UInt64.ofNat product).toNat + UInt64.size * (product / UInt64.size) :=
    (Nat.mod_add_div product UInt64.size).symm
  let low : Word := ⟨.ofNat product0, .ofNat product1, .ofNat product2, .ofNat product3⟩
  have whole : word.toNat * factor.toNat + addend.toNat =
      low.toNat + UInt64.size ^ 4 * (product0 / UInt64.size) :=
    carried_eq (is3.symm.trans (split product3)) (is2.symm.trans (split product2))
      (is1.symm.trans (split product1)) (is0.symm.trans (split product0))
  have size : UInt64.size ^ 4 = 2 ^ 256 := by decide
  have bound := low.toNat_lt
  rw [result, whole, size]
  by_cases fits : product0 / UInt64.size = 0
  · rw [if_pos fits, fits, Nat.mul_zero, Nat.add_zero, if_pos bound]
    rfl
  · rw [if_neg fits, if_neg (by omega)]
    rfl

/-! ### Digits -/

/-- Whether a character is the digit with a value in a radix. Letters may be capitals. -/
def IsDigit (radix : Nat) (c : Char) (value : Nat) : Prop :=
  value < radix ∧ "0123456789abcdef".toList[value]? = some c.toLower

/-- There are no digits behind the small letters. -/
theorem toNat_lt_of_digit? (found : digit? radix c = some value) : c.toNat < 128 := by
  rw [digit?, Option.filter_eq_some_iff] at found
  obtain ⟨found, _⟩ := found
  have bound : c ≤ 'f' := by
    split at found
    · rename_i isDecimal
      exact Char.le_trans isDecimal.2 (by decide)
    · split at found
      · rename_i isSmall
        exact isSmall.2
      · split at found
        · rename_i isCapital
          exact Char.le_trans isCapital.2 (by decide)
        · cases found
  exact Nat.lt_of_le_of_lt (UInt32.le_iff_toNat_le.mp bound) (by decide : 'f'.toNat < 128)

theorem toNat_lt_of_toLower (isDigit : c.toLower ∈ "0123456789abcdef".toList) : c.toNat < 128 := by
  by_contra beyond
  have isNoCapital : ¬c.val ≤ 'Z'.val := fun bound =>
    beyond (Nat.lt_of_le_of_lt (UInt32.le_iff_toNat_le.mp bound) (by decide : 'Z'.toNat < 128))
  have isSame : c.toLower = c := dif_neg fun between => isNoCapital between.2
  rw [isSame] at isDigit
  have small : "0123456789abcdef".toList.all (fun digit => digit.toNat < 128) = true := by decide
  exact beyond (of_decide_eq_true (List.all_eq_true.mp small c isDigit))

theorem digit?_eq_some_iff (small : radix ≤ 16) :
    digit? radix c = some value ↔ IsDigit radix c value := by
  have ascii : ∀ code : Fin 128, ∀ value : Fin 16,
      digit? 16 (Char.ofNat code) = some value.val ↔
        "0123456789abcdef".toList[value.val]? = some (Char.ofNat code).toLower := by
    decide +kernel
  have restricted : digit? radix c = some value ↔ digit? 16 c = some value ∧ value < radix := by
    simp only [digit?, Option.filter_eq_some_iff, decide_eq_true_iff]
    constructor
    · rintro ⟨found, bound⟩
      exact ⟨⟨found, by omega⟩, bound⟩
    · rintro ⟨⟨found, _⟩, bound⟩
      exact ⟨found, bound⟩
  rw [restricted, IsDigit, and_comm]
  refine and_congr_right fun bound => ?_
  by_cases isAscii : c.toNat < 128
  · have isOne := ascii ⟨c.toNat, isAscii⟩ ⟨value, by omega⟩
    rwa [Char.ofNat_toNat] at isOne
  · exact iff_of_false (fun found => isAscii (toNat_lt_of_digit? found))
      fun found => isAscii (toNat_lt_of_toLower (List.mem_of_getElem? found))

/-! ### Numerals -/

/-- Whether a text is a numeral, and which number it spells: decimal digits, or hexadecimal digits
behind `0x`. -/
inductive Spells (text : String) : Nat → Prop
  | decimal {digits : List Nat} (areDigits : List.Forall₂ (IsDigit 10) text.toList digits)
    (isNumeral : digits ≠ []) : Spells text (Nat.ofDigits 10 digits.reverse)
  | hexadecimal {characters : List Char} {digits : List Nat}
    (isMarked : text.toList = '0' :: 'x' :: characters)
    (areDigits : List.Forall₂ (IsDigit 16) characters digits) (isNumeral : digits ≠ []) :
    Spells text (Nat.ofDigits 16 digits.reverse)

/-- The number after further digits. -/
def extend (radix number : Nat) (digits : List Nat) : Nat :=
  digits.foldl (fun number digit => digit + radix * number) number

theorem extend_zero (radix : Nat) (digits : List Nat) :
    extend radix 0 digits = Nat.ofDigits radix digits.reverse := by
  rw [Nat.ofDigits_eq_foldr, List.foldr_reverse]
  rfl

/-- Further digits do not make a number smaller, so none of them undoes an overflow. -/
theorem le_extend (positive : 0 < radix) (number : Nat) (digits : List Nat) :
    number ≤ extend radix number digits := by
  induction digits generalizing number with
  | nil => exact Nat.le_refl number
  | cons digit digits ih =>
    calc
      number ≤ radix * number := Nat.le_mul_of_pos_left number positive
      _ ≤ digit + radix * number := Nat.le_add_left _ _
      _ ≤ _ := ih _

/-- Reading digits from a word on. -/
def read? (radix : Nat) (word : Word) (characters : List Char) : Option Word :=
  characters.foldlM (fun word c => do
    let digit ← digit? radix c
    word.mulAdd? (UInt64.ofNat radix) (UInt64.ofNat digit)) word

/-- One digit is added to the product of the word and the radix. -/
theorem toNat_mulAdd?_digit (word : Word) {digit : Nat} (small : radix ≤ 16) (bound : digit < radix) :
    (word.mulAdd? (UInt64.ofNat radix) (UInt64.ofNat digit)).map toNat =
      if digit + radix * word.toNat < 2 ^ 256 then some (digit + radix * word.toNat) else none := by
  have isRadix : (UInt64.ofNat radix).toNat = radix :=
    UInt64.toNat_ofNat_of_lt (Nat.lt_of_le_of_lt small (by decide))
  have isDigit : (UInt64.ofNat digit).toNat = digit :=
    UInt64.toNat_ofNat_of_lt (Nat.lt_of_lt_of_le bound (Nat.le_trans small (by decide)))
  rw [toNat_mulAdd?, isRadix, isDigit, Nat.mul_comm, Nat.add_comm]

theorem read?_cons (radix : Nat) (word : Word) (c : Char) (characters : List Char) :
    read? radix word (c :: characters) = (digit? radix c).bind fun digit =>
      (word.mulAdd? (UInt64.ofNat radix) (UInt64.ofNat digit)).bind fun next =>
        read? radix next characters := by
  rw [read?, List.foldlM_cons]
  exact Option.bind_assoc _ _ _

/-- What is read is the number that the digits extend the word to, unless it is too large. -/
theorem toNat_read? (positive : 0 < radix) (small : radix ≤ 16) (word : Word) :
    (read? radix word characters).map toNat = some value ↔
      ∃ digits, List.Forall₂ (IsDigit radix) characters digits ∧
        extend radix word.toNat digits = value ∧ value < 2 ^ 256 := by
  induction characters generalizing word with
  | nil =>
    simp only [List.forall₂_nil_left_iff, exists_eq_left]
    constructor
    · rintro ⟨⟩
      exact ⟨rfl, word.toNat_lt⟩
    · rintro ⟨rfl, _⟩
      rfl
  | cons c characters ih =>
    rw [read?_cons]
    constructor
    · intro isRead
      obtain ⟨last, isRead, isValue⟩ := Option.map_eq_some_iff.mp isRead
      obtain ⟨digit, isDigit, isRead⟩ := Option.bind_eq_some_iff.mp isRead
      obtain ⟨next, isNext, isRead⟩ := Option.bind_eq_some_iff.mp isRead
      have isDigit := (digit?_eq_some_iff small).mp isDigit
      have added := word.toNat_mulAdd?_digit small isDigit.1
      rw [isNext] at added
      obtain ⟨digits, areDigits, extended, bound⟩ :=
        (ih next).mp (Option.map_eq_some_iff.mpr ⟨last, isRead, isValue⟩)
      refine ⟨digit :: digits, .cons isDigit areDigits, ?_, bound⟩
      split at added
      · rw [Option.map_some, Option.some_inj] at added
        rw [added] at extended
        exact extended
      · cases added
    · rintro ⟨digits, areDigits, rfl, bound⟩
      cases areDigits with
      | @cons _ digit _ digits isDigit areDigits =>
        -- The number is not too large after this digit, since it is not after the last one.
        have fits : digit + radix * word.toNat < 2 ^ 256 :=
          Nat.lt_of_le_of_lt (le_extend positive _ digits) bound
        have added := word.toNat_mulAdd?_digit small isDigit.1
        rw [if_pos fits] at added
        obtain ⟨next, isNext, isValue⟩ := Option.map_eq_some_iff.mp added
        rw [(digit?_eq_some_iff small).mpr isDigit, Option.bind_some, isNext, Option.bind_some]
        exact (ih next).mpr ⟨digits, areDigits, by rw [isValue]; rfl, bound⟩

/-- A non-empty sequence of digits is read as the number that it spells, unless that is too large. -/
theorem toNat_ofDigits? (positive : 0 < radix) (small : radix ≤ 16) :
    (ofDigits? radix characters).map toNat = some value ↔
      ∃ digits, List.Forall₂ (IsDigit radix) characters digits ∧ digits ≠ [] ∧
        Nat.ofDigits radix digits.reverse = value ∧ value < 2 ^ 256 := by
  cases characters with
  | nil =>
    refine iff_of_false nofun ?_
    rintro ⟨digits, areDigits, isNumeral, _⟩
    exact isNumeral (List.forall₂_nil_left_iff.mp areDigits)
  | cons c characters =>
    show (read? radix zero (c :: characters)).map toNat = some value ↔ _
    rw [toNat_read? positive small]
    constructor
    · rintro ⟨digits, areDigits, extended, bound⟩
      refine ⟨digits, areDigits, ?_, (extend_zero radix digits).symm.trans extended, bound⟩
      rintro rfl
      cases areDigits
    · rintro ⟨digits, areDigits, _, spelled, bound⟩
      exact ⟨digits, areDigits, (extend_zero radix digits).trans spelled, bound⟩

theorem not_isDigit_ten_x : ¬IsDigit 10 'x' value := by
  rintro ⟨bound, isDigit⟩
  have noDigit : 'x'.toLower ∉ "0123456789abcdef".toList := by decide
  exact noDigit (List.mem_of_getElem? isDigit)

/-- A number literal is read as the number that it spells, unless that is too large. -/
theorem toNat_ofNumeral? :
    (ofNumeral? text).map toNat = some value ↔ Spells text value ∧ value < 2 ^ 256 := by
  rw [ofNumeral?]
  split
  · rename_i characters isMarked
    rw [toNat_ofDigits? (by decide) (by decide)]
    constructor
    · rintro ⟨digits, areDigits, isNumeral, rfl, bound⟩
      exact ⟨.hexadecimal isMarked areDigits isNumeral, bound⟩
    · rintro ⟨spells, bound⟩
      cases spells with
      | decimal areDigits isNumeral =>
        -- The second character of the mark is no decimal digit.
        rw [isMarked] at areDigits
        rcases areDigits with _ | ⟨_, _ | ⟨isDigit, _⟩⟩
        exact absurd isDigit not_isDigit_ten_x
      | hexadecimal isOther areDigits isNumeral =>
        rw [isMarked] at isOther
        cases isOther
        exact ⟨_, areDigits, isNumeral, rfl, bound⟩
  · rename_i isPlain
    rw [toNat_ofDigits? (by decide) (by decide)]
    constructor
    · rintro ⟨digits, areDigits, isNumeral, rfl, bound⟩
      exact ⟨.decimal areDigits isNumeral, bound⟩
    · rintro ⟨spells, bound⟩
      cases spells with
      | decimal areDigits isNumeral => exact ⟨_, areDigits, isNumeral, rfl, bound⟩
      | hexadecimal isMarked => exact absurd isMarked (isPlain _)

/-- Number literals are read exactly: the numerals below 2^256 are read as what they spell, and nothing
else is read. No product on the way has more than 128 bits, and no carry is lost. -/
theorem numerals_read_exactly :
    (∀ (text : String) (value : Nat),
      (ofNumeral? text).map toNat = some value ↔ Spells text value ∧ value < 2 ^ 256) ∧
    ∀ (word : Word) (factor addend : UInt64),
      (∀ product ∈ word.products factor addend, product < 2 ^ 128) ∧
        (word.mulAdd? factor addend).map toNat =
          if word.toNat * factor.toNat + addend.toNat < 2 ^ 256 then
            some (word.toNat * factor.toNat + addend.toNat)
          else none :=
  ⟨fun _ _ => toNat_ofNumeral?,
    fun word factor addend => ⟨word.products_lt factor addend, word.toNat_mulAdd? factor addend⟩⟩

end YulCheck.Word
