import Mathlib.Data.Nat.Digits.Lemmas
import YulCheck.Word

/-! # Words and their bytes

The bytes of a word are the digits of its value in base 256, the most significant first, so words and
sequences of 32 bytes determine each other. Limbs and bytes are both compared from the most significant
one on, and both comparisons are that of the values.
-/

namespace YulCheck.Word

/-! ### Numbers in base 256 -/

/-- The number that bytes spell, the most significant first. -/
def bigEndian (bytes : List UInt8) : Nat :=
  Nat.ofDigits 256 (bytes.map UInt8.toNat).reverse

theorem bigEndian_cons (byte : UInt8) (bytes : List UInt8) :
    bigEndian (byte :: bytes) = byte.toNat * 256 ^ bytes.length + bigEndian bytes := by
  rw [bigEndian, List.map_cons, Nat.ofDigits_reverse_cons, List.length_map, Nat.add_comm,
    Nat.mul_comm]
  rfl

theorem bigEndian_append (left right : List UInt8) :
    bigEndian (left ++ right) = bigEndian left * 256 ^ right.length + bigEndian right := by
  rw [bigEndian, List.map_append, List.reverse_append, Nat.ofDigits_append, List.length_reverse,
    List.length_map, Nat.add_comm, Nat.mul_comm]
  rfl

theorem bigEndian_singleton (byte : UInt8) : bigEndian [byte] = byte.toNat :=
  Nat.ofDigits_singleton

theorem toNat_lt_of_mem_digits (bytes : List UInt8) :
    ∀ digit ∈ (bytes.map UInt8.toNat).reverse, digit < 256 := by
  intro digit member
  obtain ⟨byte, _, rfl⟩ := List.mem_map.mp (List.mem_reverse.mp member)
  exact byte.toNat_lt

theorem bigEndian_lt (bytes : List UInt8) : bigEndian bytes < 256 ^ bytes.length := by
  have bound := Nat.ofDigits_lt_base_pow_length (by decide : 1 < 256) (toNat_lt_of_mem_digits bytes)
  rwa [List.length_reverse, List.length_map] at bound

/-- As many bytes spell another number if they are others. -/
theorem bigEndian_inj {left right : List UInt8} (sameLength : left.length = right.length)
    (same : bigEndian left = bigEndian right) : left = right := by
  have sameDigits := Nat.ofDigits_inj_of_len_eq (by decide : 1 < 256)
    (by rw [List.length_reverse, List.length_reverse, List.length_map, List.length_map, sameLength])
    (toNat_lt_of_mem_digits left) (toNat_lt_of_mem_digits right) same
  exact List.map_injective_iff.mpr (fun _ _ => UInt8.toNat_inj.mp) (List.reverse_injective sameDigits)

/-! ### Bytes of a limb -/

theorem toNat_limbOfBytes {bytes : List UInt8} (short : bytes.length ≤ 8) :
    (limbOfBytes bytes).toNat = bigEndian bytes := by
  induction bytes using List.reverseRecOn with
  | nil => rfl
  | append_singleton bytes byte ih =>
    have bound := bigEndian_lt (bytes ++ [byte])
    have fits : 256 ^ (bytes ++ [byte]).length ≤ 256 ^ 8 := Nat.pow_le_pow_right (by decide) short
    rw [List.length_append] at short
    have read : limbOfBytes (bytes ++ [byte]) = limbOfBytes bytes * 256 + byte.toUInt64 :=
      List.foldl_concat _ _ _ _
    rw [bigEndian_append, bigEndian_singleton, List.length_singleton, Nat.pow_one] at bound ⊢
    rw [read, UInt64.toNat_add, UInt64.toNat_mul, ih (by omega), UInt8.toNat_toUInt64,
      show (256 : UInt64).toNat = 256 from rfl]
    omega

theorem bigEndian_limbToBytes (limb : UInt64) : bigEndian (limbToBytes limb) = limb.toNat := by
  have bound := limb.toNat_lt
  simp only [limbToBytes, bigEndian_cons, UInt64.toNat_toUInt8, UInt64.toNat_shiftRight,
    UInt64.reduceToNat, Nat.shiftRight_eq_div_pow, Nat.reduceMod, Nat.reducePow, List.length_cons,
    List.length_nil, Nat.reduceAdd, show bigEndian [] = 0 from rfl]
  omega

theorem length_limbToBytes (limb : UInt64) : (limbToBytes limb).length = 8 := rfl

/-! ### Bytes of a word -/

/-- The limbs are the eight-byte digits of the number that the bytes spell. -/
theorem toNat_ofBytes (bytes : Vector UInt8 32) : (ofBytes bytes).toNat = bigEndian bytes.toList := by
  have length : bytes.toList.length = 32 := Vector.length_toList
  rw [ofBytes]
  generalize bytes.toList = bytes at length
  have parts : bytes = bytes.take 8 ++ (bytes.drop 8).take 8 ++ (bytes.drop 16).take 8
      ++ bytes.drop 24 := by
    rw [← List.take_add, ← List.take_add, List.take_append_drop]
  have length0 : (bytes.take 8).length = 8 := by rw [List.length_take, length]; rfl
  have length1 : ((bytes.drop 8).take 8).length = 8 := by
    rw [List.length_take, List.length_drop, length]; rfl
  have length2 : ((bytes.drop 16).take 8).length = 8 := by
    rw [List.length_take, List.length_drop, length]; rfl
  have length3 : (bytes.drop 24).length = 8 := by rw [List.length_drop, length]
  have value : bigEndian bytes = _ := congrArg bigEndian parts
  rw [value, bigEndian_append, bigEndian_append, bigEndian_append, length1, length2, length3,
    ← toNat_limbOfBytes (Nat.le_of_eq length0), ← toNat_limbOfBytes (Nat.le_of_eq length1),
    ← toNat_limbOfBytes (Nat.le_of_eq length2), ← toNat_limbOfBytes (Nat.le_of_eq length3)]
  rfl

theorem bigEndian_toBytes (word : Word) : bigEndian word.toBytes.toList = word.toNat := by
  show bigEndian (limbToBytes word.limb0 ++ limbToBytes word.limb1 ++ limbToBytes word.limb2
    ++ limbToBytes word.limb3) = _
  simp only [bigEndian_append, bigEndian_limbToBytes, length_limbToBytes]
  rfl

theorem ofBytes_toBytes (word : Word) : ofBytes word.toBytes = word :=
  toNat_inj.mp ((toNat_ofBytes _).trans (bigEndian_toBytes word))

theorem toBytes_ofBytes (bytes : Vector UInt8 32) : (ofBytes bytes).toBytes = bytes := by
  apply Vector.toList_inj.mp
  apply bigEndian_inj
  · rw [Vector.length_toList, Vector.length_toList]
  · rw [bigEndian_toBytes, toNat_ofBytes]

theorem toBytes_inj {left right : Word} : left.toBytes = right.toBytes ↔ left = right := by
  refine ⟨fun same => ?_, congrArg toBytes⟩
  rw [← ofBytes_toBytes left, same, ofBytes_toBytes]

/-! ### Order -/

/-- Numbers are compared by their leading parts first. -/
theorem compare_mul_add {size high high' low low' : Nat} (isLow : low < size) (isLow' : low' < size) :
    compare (high * size + low) (high' * size + low') =
      (compare high high').then (compare low low') := by
  have lt_of_lt {high high' low low' : Nat} (less : high < high') (isLow : low < size) :
      high * size + low < high' * size + low' :=
    calc
      high * size + low < (high + 1) * size := by rw [Nat.succ_mul]; omega
      _ ≤ high' * size := Nat.mul_le_mul_right size less
      _ ≤ _ := Nat.le_add_right _ _
  rcases Nat.lt_trichotomy high high' with less | rfl | greater
  · rw [Nat.compare_eq_lt.mpr less, Nat.compare_eq_lt.mpr (lt_of_lt less isLow)]
    rfl
  · rw [Nat.compare_eq_eq.mpr rfl, Nat.compare_eq_ite_lt, Nat.compare_eq_ite_lt low low']
    simp only [Nat.add_lt_add_iff_left]
    rfl
  · rw [Nat.compare_eq_gt.mpr greater, Nat.compare_eq_gt.mpr (lt_of_lt greater isLow')]
    rfl

/-- As many bytes are compared as the numbers that they spell. -/
theorem compare_bigEndian {left right : List UInt8} (sameLength : left.length = right.length) :
    compare left right = compare (bigEndian left) (bigEndian right) := by
  induction left generalizing right with
  | nil =>
    obtain rfl := List.length_eq_zero_iff.mp sameLength.symm
    rfl
  | cons byte left ih =>
    cases right with
    | nil => cases sameLength
    | cons other right =>
      have sameLength : left.length = right.length := Nat.succ.inj sameLength
      have bound := bigEndian_lt left
      rw [sameLength] at bound
      calc
        compare (byte :: left) (other :: right) = (compare byte other).then (compare left right) :=
          List.compareLex_cons_cons
        _ = (compare byte.toNat other.toNat).then (compare (bigEndian left) (bigEndian right)) := by
          rw [UInt8.compare_eq_toNat_compare_toNat, ih sameLength]
        _ = _ := by
          rw [bigEndian_cons, bigEndian_cons, sameLength, compare_mul_add bound (bigEndian_lt right)]

/-- Limbs are compared as the values of the words are. -/
theorem compare_eq_compare_toNat (left right : Word) :
    compare left right = compare left.toNat right.toNat := by
  rw [toNat, toNat, compare_mul_add left.limb3.toNat_lt right.limb3.toNat_lt,
    compare_mul_add left.limb2.toNat_lt right.limb2.toNat_lt,
    compare_mul_add left.limb1.toNat_lt right.limb1.toNat_lt, Ordering.then_assoc,
    Ordering.then_assoc, ← UInt64.compare_eq_toNat_compare_toNat,
    ← UInt64.compare_eq_toNat_compare_toNat, ← UInt64.compare_eq_toNat_compare_toNat,
    ← UInt64.compare_eq_toNat_compare_toNat]
  rfl

/-- Words, bytes and the order agree: words and their 32 bytes determine each other, the value of a word
is the number that its bytes spell, and words are ordered by their values, which is the lexicographic
order of their bytes. -/
theorem bytes_and_order_exact :
    (∀ bytes : Vector UInt8 32,
      (ofBytes bytes).toBytes = bytes ∧ (ofBytes bytes).toNat = bigEndian bytes.toList) ∧
    (∀ word : Word, ofBytes word.toBytes = word) ∧
    ∀ left right : Word,
      compare left right = compare left.toNat right.toNat ∧
      compare left right = compare left.toBytes right.toBytes ∧
      (compare left right = .eq ↔ left.toNat = right.toNat) := by
  refine ⟨fun bytes => ⟨toBytes_ofBytes bytes, toNat_ofBytes bytes⟩, ofBytes_toBytes,
    fun left right => ⟨compare_eq_compare_toNat left right, ?_, ?_⟩⟩
  · calc
      compare left right = compare left.toNat right.toNat := compare_eq_compare_toNat left right
      _ = compare left.toBytes.toList right.toBytes.toList := by
        rw [compare_bigEndian (by rw [Vector.length_toList, Vector.length_toList]),
          bigEndian_toBytes, bigEndian_toBytes]
      _ = _ := Vector.compareLex_eq_compareLex_toList.symm
  · rw [compare_eq_compare_toNat, Nat.compare_eq_eq]

end YulCheck.Word
