import Mathlib.Tactic.IntervalCases
import YulCheck.Text.Utf8

/-! # Decoding what was encoded

The leading byte of a character announces as many continuation bytes as follow, and no character is
encoded outside of the bounds of its second byte. Lossy decoding therefore loses nothing of bytes that a
text was encoded to.
-/

namespace YulCheck.Utf8

variable {byte : UInt8} {pending : Pending} {number : Nat} {rest : List UInt8}

theorem decodeFrom_cons (open? : Option Pending) (byte : UInt8) (rest : List UInt8) :
    decodeFrom open? (byte :: rest) = (step byte open?).1 ++ decodeFrom (step byte open?).2 rest := by
  cases open? with
  | none => rfl
  | some pending => rfl

/-! ### Leading bytes -/

theorem decodeFrom_ascii (isAscii : number < 0x80) :
    decodeFrom none (UInt8.ofNat number :: rest) = Char.ofNat number :: decodeFrom none rest := by
  have isByte : (UInt8.ofNat number).toNat = number :=
    UInt8.toNat_ofNat_of_lt' (Nat.lt_trans isAscii (by decide))
  have isFirst : UInt8.ofNat number < 0x80 := by
    rw [UInt8.lt_iff_toNat_lt, isByte]
    exact isAscii
  rw [decodeFrom_cons, step, first, if_pos isFirst, isByte]
  rfl

theorem decodeFrom_lead (isLead : ¬byte < 0x80) (started : Pending.start? byte = some pending) :
    decodeFrom none (byte :: rest) = decodeFrom (some pending) rest := by
  rw [decodeFrom_cons, step, first, if_neg isLead, started]
  rfl

theorem decodeFrom_leadOfTwo (least : 2 ≤ number) (bound : number < 32) :
    decodeFrom none (UInt8.ofNat (number + 192) :: rest) =
      decodeFrom (some ⟨number, 1, 0x80, 0xBF⟩) rest := by
  interval_cases number <;> exact decodeFrom_lead (by decide) rfl

/-- The second of three bytes has further bounds after two of the leading bytes, which exclude
overlong spellings and surrogates. -/
theorem decodeFrom_leadOfThree (bound : number < 16) :
    decodeFrom none (UInt8.ofNat (number + 224) :: rest) =
      decodeFrom (some ⟨number, 2, if number = 0 then 0xA0 else 0x80,
        if number = 13 then 0x9F else 0xBF⟩) rest := by
  interval_cases number <;> exact decodeFrom_lead (by decide) rfl

/-- The second of four bytes has further bounds after two of the leading bytes, which exclude overlong
spellings and values above U+10FFFF. -/
theorem decodeFrom_leadOfFour (bound : number < 5) :
    decodeFrom none (UInt8.ofNat (number + 240) :: rest) =
      decodeFrom (some ⟨number, 3, if number = 0 then 0x90 else 0x80,
        if number = 4 then 0x8F else 0xBF⟩) rest := by
  interval_cases number <;> exact decodeFrom_lead (by decide) rfl

/-! ### Continuation bytes -/

/-- The byte that continues a sequence by the lowest six bits of a number. -/
def continuation (number : Nat) : UInt8 := UInt8.ofNat (number % 64 + 128)

theorem toNat_continuation (number : Nat) : (continuation number).toNat = number % 64 + 128 := by
  have bound := Nat.add_lt_add_right (Nat.mod_lt number (by decide : 0 < 64)) 128
  exact UInt8.toNat_ofNat_of_lt' (Nat.lt_trans bound (by decide))

theorem step_continuation (least : pending.least.toNat ≤ number % 64 + 128)
    (greatest : number % 64 + 128 ≤ pending.greatest.toNat) :
    step (continuation number) (some pending) =
      if pending.missing ≤ 1 then ([Char.ofNat (pending.bits * 64 + number % 64)], none)
      else ([], some ⟨pending.bits * 64 + number % 64, pending.missing - 1, 0x80, 0xBF⟩) := by
  have inside : pending.least ≤ continuation number ∧ continuation number ≤ pending.greatest := by
    rw [UInt8.le_iff_toNat_le, UInt8.le_iff_toNat_le, toNat_continuation]
    exact ⟨least, greatest⟩
  have bits : (continuation number).toNat % 64 = number % 64 := by
    rw [toNat_continuation]
    omega
  rw [step, if_pos inside, bits]

/-- A continuation byte completes a sequence of which no other byte is missing. -/
theorem decodeFrom_last (isLast : pending.missing ≤ 1)
    (least : pending.least.toNat ≤ number % 64 + 128)
    (greatest : number % 64 + 128 ≤ pending.greatest.toNat) :
    decodeFrom (some pending) (continuation number :: rest) =
      Char.ofNat (pending.bits * 64 + number % 64) :: decodeFrom none rest := by
  rw [decodeFrom_cons, step_continuation least greatest, if_pos isLast]
  rfl

/-- A continuation byte extends a sequence of which others are missing. -/
theorem decodeFrom_more (isOpen : 1 < pending.missing)
    (least : pending.least.toNat ≤ number % 64 + 128)
    (greatest : number % 64 + 128 ≤ pending.greatest.toNat) :
    decodeFrom (some pending) (continuation number :: rest) =
      decodeFrom (some ⟨pending.bits * 64 + number % 64, pending.missing - 1, 0x80, 0xBF⟩) rest := by
  rw [decodeFrom_cons, step_continuation least greatest, if_neg (Nat.not_le_of_lt isOpen)]
  rfl

/-! ### Characters -/

theorem decodeFrom_two (least : 0x80 ≤ number) (bound : number < 0x800) :
    decodeFrom none (UInt8.ofNat (number / 64 % 32 + 192) :: continuation number :: rest) =
      Char.ofNat number :: decodeFrom none rest := by
  have bits : number / 64 % 32 * 64 + number % 64 = number := by omega
  rw [decodeFrom_leadOfTwo (by omega) (by omega), decodeFrom_last (Nat.le_refl 1), bits]
  · exact Nat.le_add_left 128 _
  · show number % 64 + 128 ≤ 191
    omega

theorem decodeFrom_three (least : 0x800 ≤ number) (bound : number < 0x10000)
    (isScalar : number < 0xD800 ∨ 0xDFFF < number) :
    decodeFrom none (UInt8.ofNat (number / 4096 % 16 + 224) :: continuation (number / 64) ::
      continuation number :: rest) = Char.ofNat number :: decodeFrom none rest := by
  have bits : (number / 4096 % 16 * 64 + number / 64 % 64) * 64 + number % 64 = number := by omega
  rw [decodeFrom_leadOfThree (by omega), decodeFrom_more (by decide : 1 < 2),
    decodeFrom_last (Nat.le_refl 1), bits]
  · exact Nat.le_add_left 128 _
  · show number % 64 + 128 ≤ 191
    omega
  · -- Smaller characters have two bytes.
    show (if number / 4096 % 16 = 0 then 0xA0 else 0x80 : UInt8).toNat ≤ _
    split
    · show 160 ≤ _
      omega
    · exact Nat.le_add_left 128 _
  · -- Characters with this leading byte are below the surrogates.
    show _ ≤ (if number / 4096 % 16 = 13 then 0x9F else 0xBF : UInt8).toNat
    split
    · show _ ≤ 159
      omega
    · show _ ≤ 191
      omega

theorem decodeFrom_four (least : 0x10000 ≤ number) (bound : number < 0x110000) :
    decodeFrom none (UInt8.ofNat (number / 262144 % 8 + 240) :: continuation (number / 4096) ::
      continuation (number / 64) :: continuation number :: rest) =
        Char.ofNat number :: decodeFrom none rest := by
  have bits : ((number / 262144 % 8 * 64 + number / 4096 % 64) * 64 + number / 64 % 64) * 64
      + number % 64 = number := by omega
  rw [decodeFrom_leadOfFour (by omega), decodeFrom_more (by decide : 1 < 3),
    decodeFrom_more (by decide : 1 < 2), decodeFrom_last (Nat.le_refl 1), bits]
  · exact Nat.le_add_left 128 _
  · show number % 64 + 128 ≤ 191
    omega
  · exact Nat.le_add_left 128 _
  · show number / 64 % 64 + 128 ≤ 191
    omega
  · -- Smaller characters have three bytes.
    show (if number / 262144 % 8 = 0 then 0x90 else 0x80 : UInt8).toNat ≤ _
    split
    · show 144 ≤ _
      omega
    · exact Nat.le_add_left 128 _
  · -- There are no characters above U+10FFFF.
    show _ ≤ (if number / 262144 % 8 = 4 then 0x8F else 0xBF : UInt8).toNat
    split
    · show _ ≤ 143
      omega
    · show _ ≤ 191
      omega

/-- Decoding takes one character from its bytes and goes on behind them. -/
theorem decodeFrom_encodeChar (c : Char) (rest : List UInt8) :
    decodeFrom none (String.utf8EncodeChar c ++ rest) = c :: decodeFrom none rest := by
  have isChar : Char.ofNat c.val.toNat = c := c.ofNat_toNat
  have isScalar : c.val.toNat < 0xD800 ∨ 0xDFFF < c.val.toNat ∧ c.val.toNat < 0x110000 := c.valid
  conv => rhs; rw [← isChar]
  simp only [String.utf8EncodeChar]
  split
  · exact decodeFrom_ascii (by omega)
  split
  · exact decodeFrom_two (by omega) (by omega)
  split
  · exact decodeFrom_three (by omega) (by omega) (isScalar.imp_right And.left)
  · exact decodeFrom_four (by omega) (by omega)

/-! ### Texts -/

theorem decodeFrom_flatMap (characters : List Char) :
    decodeFrom none (characters.flatMap String.utf8EncodeChar) = characters := by
  induction characters with
  | nil => rfl
  | cons c characters ih => rw [List.flatMap_cons, decodeFrom_encodeChar, ih]

/-- Decoding gives back the text that was encoded. -/
theorem decodeLossy_encode (text : String) : decodeLossy (encode text) = text := by
  rw [decodeLossy, encode, decodeFrom_flatMap, String.ofList_toList]

/-- The size of a text is the number of its bytes. -/
theorem length_encode (text : String) : (encode text).length = text.utf8ByteSize := by
  rw [String.utf8ByteSize, ← String.utf8Encode_toList, List.utf8Encode, List.size_toByteArray]
  rfl

end YulCheck.Utf8
