/-! # 256-bit words

A word is four 64-bit limbs, the most significant first. This module holds the constants, the value
of a word as a natural number, multiplication and division by one limb, the conversion to and from
32 big-endian bytes, decimal output and the reading of number literals.
-/

namespace YulCheck

/-- A 256-bit word as four 64-bit limbs, the most significant first. -/
structure Word where
  limb0 : UInt64
  limb1 : UInt64
  limb2 : UInt64
  limb3 : UInt64
deriving DecidableEq, Repr, Inhabited

namespace Word

/-- The word with value 0. -/
def zero : Word := ⟨0, 0, 0, 0⟩

/-- The word with value 1. -/
def one : Word := ⟨0, 0, 0, 1⟩

/-- The word with the greatest value, 2^256 - 1. -/
def max : Word :=
  ⟨0xffffffffffffffff, 0xffffffffffffffff, 0xffffffffffffffff, 0xffffffffffffffff⟩

/-- The word whose value is a single limb. -/
def ofUInt64 (value : UInt64) : Word := ⟨0, 0, 0, value⟩

/-- The value of a word. -/
def toNat (word : Word) : Nat :=
  ((word.limb0.toNat * UInt64.size + word.limb1.toNat) * UInt64.size + word.limb2.toNat)
    * UInt64.size + word.limb3.toNat

theorem toNat_le_toNat_max (word : Word) : word.toNat ≤ max.toNat := by
  have bound0 := word.limb0.toNat_lt
  have bound1 := word.limb1.toNat_lt
  have bound2 := word.limb2.toNat_lt
  have bound3 := word.limb3.toNat_lt
  have greatest : max.toNat = UInt64.size ^ 4 - 1 := by decide
  simp only [toNat, UInt64.size] at greatest ⊢
  omega

/-- A word is determined by its value. -/
theorem toNat_inj {left right : Word} : left.toNat = right.toNat ↔ left = right := by
  refine ⟨fun same => ?_, fun same => by rw [same]⟩
  rcases left with ⟨a, b, c, d⟩
  rcases right with ⟨a', b', c', d'⟩
  have := a.toNat_lt
  have := b.toNat_lt
  have := c.toNat_lt
  have := d.toNat_lt
  have := a'.toNat_lt
  have := b'.toNat_lt
  have := c'.toNat_lt
  have := d'.toNat_lt
  simp only [toNat, UInt64.size] at same
  rw [Word.mk.injEq, ← UInt64.toNat_inj, ← UInt64.toNat_inj, ← UInt64.toNat_inj, ← UInt64.toNat_inj]
  omega

/-- Whether the value is 0. -/
def isZero (word : Word) : Bool := word = zero

/-- Words are ordered limb by limb, the most significant first. -/
instance : Ord Word where
  compare left right :=
    (compare left.limb0 right.limb0).then <| (compare left.limb1 right.limb1).then <|
      (compare left.limb2 right.limb2).then (compare left.limb3 right.limb3)

/-! ### Arithmetic with one limb -/

/-- One step of a multiplication: the low limb of `limb * factor + carry` and the next carry. -/
def mulAddLimb (limb factor : UInt64) (carry : Nat) : UInt64 × Nat :=
  let product := limb.toNat * factor.toNat + carry
  (UInt64.ofNat product, product / UInt64.size)

/-- The word `word * factor + addend`, unless it is 2^256 or more. -/
def mulAdd? (word : Word) (factor addend : UInt64) : Option Word :=
  let (limb3, carry) := mulAddLimb word.limb3 factor addend.toNat
  let (limb2, carry) := mulAddLimb word.limb2 factor carry
  let (limb1, carry) := mulAddLimb word.limb1 factor carry
  let (limb0, carry) := mulAddLimb word.limb0 factor carry
  if carry = 0 then some ⟨limb0, limb1, limb2, limb3⟩ else none

/-- One step of a long division: the quotient limb and the next remainder. -/
def divLimb (limb divisor : UInt64) (remainder : Nat) : UInt64 × Nat :=
  let current := remainder * UInt64.size + limb.toNat
  (UInt64.ofNat (current / divisor.toNat), current % divisor.toNat)

/-- Quotient and remainder of the division by one limb. -/
def divMod (word : Word) (divisor : UInt64) : Word × Nat :=
  let (limb0, remainder) := divLimb word.limb0 divisor 0
  let (limb1, remainder) := divLimb word.limb1 divisor remainder
  let (limb2, remainder) := divLimb word.limb2 divisor remainder
  let (limb3, remainder) := divLimb word.limb3 divisor remainder
  (⟨limb0, limb1, limb2, limb3⟩, remainder)

/-- A remainder that is smaller than the divisor leaves a quotient of one limb, so nothing is lost. -/
theorem divLimb_eq (limb : UInt64) {divisor : UInt64} {remainder : Nat}
    (bound : remainder < divisor.toNat) :
    remainder * UInt64.size + limb.toNat =
        divisor.toNat * (divLimb limb divisor remainder).1.toNat
          + (divLimb limb divisor remainder).2 ∧
      (divLimb limb divisor remainder).2 < divisor.toNat := by
  have positive : 0 < divisor.toNat := Nat.zero_lt_of_lt bound
  have whole : (remainder + 1) * UInt64.size ≤ divisor.toNat * UInt64.size :=
    Nat.mul_le_mul_right _ bound
  have isLimb := limb.toNat_lt
  have fits : (remainder * UInt64.size + limb.toNat) / divisor.toNat < UInt64.size := by
    apply Nat.div_lt_of_lt_mul
    simp only [UInt64.size] at whole ⊢
    omega
  refine ⟨?_, Nat.mod_lt _ positive⟩
  rw [divLimb, UInt64.toNat_ofNat_of_lt' fits]
  exact (Nat.div_add_mod _ _).symm

/-- A division goes on with the next limb behind the remainder so far. -/
theorem divided_eq {size value divisor quotient remainder limb digit rest : Nat}
    (divided : value = divisor * quotient + remainder)
    (step : remainder * size + limb = divisor * digit + rest) :
    value * size + limb = divisor * (quotient * size + digit) + rest := by
  rw [divided, Nat.add_mul, Nat.add_assoc, step, Nat.mul_add, Nat.mul_assoc, Nat.add_assoc]

/-- Quotient and remainder are those of the values. -/
theorem toNat_divMod (word : Word) {divisor : UInt64} (positive : 0 < divisor.toNat) :
    word.toNat = divisor.toNat * (word.divMod divisor).1.toNat + (word.divMod divisor).2 ∧
      (word.divMod divisor).2 < divisor.toNat := by
  obtain ⟨step0, bound0⟩ := divLimb_eq word.limb0 positive
  obtain ⟨step1, bound1⟩ := divLimb_eq word.limb1 bound0
  obtain ⟨step2, bound2⟩ := divLimb_eq word.limb2 bound1
  obtain ⟨step3, bound3⟩ := divLimb_eq word.limb3 bound2
  rw [Nat.zero_mul, Nat.zero_add] at step0
  exact ⟨divided_eq (divided_eq (divided_eq step0 step1) step2) step3, bound3⟩

/-- A division by ten leaves less of every word but zero. -/
theorem toNat_divMod_ten_lt {word : Word} (isRest : word.isZero = false) :
    (word.divMod 10).1.toNat < word.toNat := by
  have positive : word.toNat ≠ 0 := fun isNone =>
    of_decide_eq_false isRest (toNat_inj.mp (isNone.trans (by decide : 0 = zero.toNat)))
  have divided : word.toNat = 10 * (word.divMod 10).1.toNat + (word.divMod 10).2 :=
    (word.toNat_divMod (by decide : 0 < (10 : UInt64).toNat)).1
  omega

/-! ### Bytes -/

/-- The big-endian number that at most eight bytes spell. -/
def limbOfBytes (bytes : List UInt8) : UInt64 :=
  bytes.foldl (fun limb byte => limb * 256 + byte.toUInt64) 0

/-- The eight bytes of a limb, the most significant first. -/
def limbToBytes (limb : UInt64) : List UInt8 :=
  [(limb >>> 56).toUInt8, (limb >>> 48).toUInt8, (limb >>> 40).toUInt8, (limb >>> 32).toUInt8,
    (limb >>> 24).toUInt8, (limb >>> 16).toUInt8, (limb >>> 8).toUInt8, limb.toUInt8]

/-- The word that 32 big-endian bytes spell. -/
def ofBytes (bytes : Vector UInt8 32) : Word :=
  let bytes := bytes.toList
  ⟨limbOfBytes (bytes.take 8), limbOfBytes ((bytes.drop 8).take 8),
    limbOfBytes ((bytes.drop 16).take 8), limbOfBytes (bytes.drop 24)⟩

/-- The 32 bytes of a word, the most significant first. -/
def toBytes (word : Word) : Vector UInt8 32 :=
  ⟨(limbToBytes word.limb0 ++ limbToBytes word.limb1 ++ limbToBytes word.limb2
    ++ limbToBytes word.limb3).toArray, rfl⟩

/-- The first 32 of the given bytes, left-aligned and padded with zero bytes on the right. -/
def ofLeadingBytes (bytes : List UInt8) : Word :=
  ofBytes (Vector.ofFn fun i => bytes.getD i.val 0)

/-- The bytes of a word without its trailing zero bytes. -/
def trimmedBytes (word : Word) : List UInt8 :=
  (word.toBytes.toList.reverse.dropWhile (· = 0)).reverse

/-! ### Numerals -/

/-- The value of a digit: decimal, or a letter of either case where the radix admits it. -/
def digit? (radix : Nat) (c : Char) : Option Nat :=
  let value :=
    if '0' ≤ c ∧ c ≤ '9' then some (c.toNat - '0'.toNat)
    else if 'a' ≤ c ∧ c ≤ 'f' then some (c.toNat - 'a'.toNat + 10)
    else if 'A' ≤ c ∧ c ≤ 'F' then some (c.toNat - 'A'.toNat + 10)
    else none
  value.filter (· < radix)

/-- The word that a non-empty sequence of digits spells, unless its value is 2^256 or more. -/
def ofDigits? (radix : Nat) : List Char → Option Word
  | [] => none
  | digits => digits.foldlM (fun word c => do
      let digit ← digit? radix c
      word.mulAdd? (UInt64.ofNat radix) (UInt64.ofNat digit)) zero

/-- The word of a number literal: decimal digits, or hexadecimal digits after `0x`. -/
def ofNumeral? (text : String) : Option Word :=
  match text.toList with
  | '0' :: 'x' :: digits => ofDigits? 16 digits
  | digits => ofDigits? 10 digits

/-- The decimal digits of a word, the least significant first; none for zero. -/
def decimalDigits (word : Word) : List Char :=
  if word.isZero then []
  else
    Char.ofNat ('0'.toNat + (word.divMod 10).2) :: decimalDigits (word.divMod 10).1
termination_by word.toNat
decreasing_by exact toNat_divMod_ten_lt (Bool.eq_false_iff.mpr ‹_›)

/-- The decimal numeral of a word. -/
def toDecimal (word : Word) : String :=
  if word.isZero then "0" else String.ofList word.decimalDigits.reverse

end Word

end YulCheck
