import YulCheck.Literal
import YulCheck.Proofs.Text.Utf8
import YulCheck.Proofs.Word.Bytes

/-! # Text in words

A string literal is kept as a word that holds its first 32 bytes, with zero bytes behind them. What a
word holds is read back without the zero bytes at its end, so text that fits and does not end in a zero
byte is not changed.
-/

namespace YulCheck

/-! ### Leading bytes -/

namespace Word

variable {bytes left right : List UInt8}

/-- The 32 bytes of a word that is filled from the left. -/
theorem toBytes_ofLeadingBytes (bytes : List UInt8) :
    (ofLeadingBytes bytes).toBytes.toList = (bytes.take 32).rightpad 32 0 := by
  rw [ofLeadingBytes, toBytes_ofBytes, Vector.toList_ofFn]
  apply List.ext_getElem
  · rw [List.length_ofFn, List.rightpad, List.length_append, List.length_replicate, List.length_take]
    omega
  · intro index bound _
    rw [List.length_ofFn] at bound
    rw [List.getElem_ofFn, List.getD_eq_getElem?_getD]
    simp only [List.rightpad, List.getElem_append, List.getElem_replicate, List.getElem_take]
    split
    · rename_i isInside
      rw [List.length_take] at isInside
      rw [List.getElem?_eq_getElem (by omega), Option.getD_some]
    · rename_i isOutside
      rw [List.length_take] at isOutside
      rw [List.getElem?_eq_none (by omega), Option.getD_none]

theorem ofLeadingBytes_inj :
    ofLeadingBytes left = ofLeadingBytes right ↔
      (left.take 32).rightpad 32 0 = (right.take 32).rightpad 32 0 := by
  rw [← toBytes_ofLeadingBytes, ← toBytes_ofLeadingBytes, Vector.toList_inj, toBytes_inj]

/-- Bytes that fit into a word are those that are left without the zero bytes at its end. -/
theorem trimmedBytes_ofLeadingBytes (short : bytes.length ≤ 32)
    (isTrimmed : bytes.getLast? ≠ some 0) : (ofLeadingBytes bytes).trimmedBytes = bytes := by
  have areZeros : ∀ byte ∈ List.replicate (32 - bytes.length) (0 : UInt8),
      decide (byte = 0) = true :=
    fun byte member => decide_eq_true (List.eq_of_mem_replicate member)
  have isEnd : bytes.reverse.dropWhile (· = 0) = bytes.reverse := by
    cases reversed : bytes.reverse with
    | nil => rfl
    | cons last others =>
      have isLast : bytes.getLast? = some last := by
        rw [← List.head?_reverse, reversed, List.head?_cons]
      rw [List.dropWhile_cons, if_neg]
      rw [decide_eq_true_iff]
      rintro rfl
      exact isTrimmed isLast
  rw [trimmedBytes, toBytes_ofLeadingBytes, List.take_of_length_le short, List.rightpad,
    List.reverse_append, List.reverse_replicate, List.dropWhile_append_of_pos areZeros, isEnd,
    List.reverse_reverse]

end Word

namespace LiteralValue

/-! ### Packed text -/

theorem unpacked_packed {text : String} (short : text.utf8ByteSize ≤ 32)
    (isTrimmed : (Utf8.encode text).getLast? ≠ some 0) : unpacked (packed text) = text := by
  rw [← Utf8.length_encode] at short
  rw [unpacked, packed, Word.trimmedBytes_ofLeadingBytes short isTrimmed, Utf8.decodeLossy_encode]

theorem toUnlimited_eq (value : LiteralValue) :
    value.toUnlimited = .unlimited (value.format .string) := by
  cases value with
  | unlimited content => rfl
  | word word spelling =>
    cases spelling with
    | none => rfl
    | some spelling => rfl

/-- Words keep the text that is packed into them. Text of at most 32 bytes that does not end in a zero
byte is read back, also as text of any length, and two texts share a word if and only if their first 32
bytes do not differ but for zero bytes at the end. A literal of any length carries the text that the
string literal has, and stays as it is. -/
theorem packing_keeps_text :
    (∀ text : String, text.utf8ByteSize ≤ 32 → (Utf8.encode text).getLast? ≠ some 0 →
      (word (packed text) none).toUnlimited = .unlimited text ∧
        (word (packed text) none).format .string = text) ∧
    (∀ left right : String, packed left = packed right ↔
      ((Utf8.encode left).take 32).rightpad 32 0 = ((Utf8.encode right).take 32).rightpad 32 0) ∧
    ∀ value : LiteralValue, value.toUnlimited = .unlimited (value.format .string) ∧
      value.toUnlimited.toUnlimited = value.toUnlimited := by
  refine ⟨fun text short isTrimmed => ?_, fun left right => Word.ofLeadingBytes_inj, fun value => ?_⟩
  · have isText := unpacked_packed short isTrimmed
    exact ⟨congrArg unlimited isText, isText⟩
  · refine ⟨value.toUnlimited_eq, ?_⟩
    rw [toUnlimited_eq value]
    rfl

/-- A zero byte inside of a text and characters of several bytes are kept. -/
theorem packing_keeps_text_inner_zero :
    (word (packed "h\x00\u00e9\u20ac") none).toUnlimited = .unlimited "h\x00\u00e9\u20ac" ∧
      (word (packed "h\x00\u00e9\u20ac") none).format .string = "h\x00\u00e9\u20ac" :=
  packing_keeps_text.1 "h\x00\u00e9\u20ac" (by decide) (by decide)

end LiteralValue

end YulCheck
