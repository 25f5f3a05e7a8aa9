/-! # UTF-8

Encoding of text and lossy decoding of bytes. Decoding reads the bytes from left to right and keeps
the sequence that has been started; every maximal piece of a sequence that cannot be completed
becomes one replacement character.
-/

namespace YulCheck.Utf8

/-- The bytes of a text. -/
def encode (text : String) : List UInt8 :=
  text.toList.flatMap String.utf8EncodeChar

/-- U+FFFD, which stands for bytes that spell no character. -/
def replacement : Char := '\uFFFD'

/-- A sequence that has been started: the bits read so far, the number of bytes that are missing,
and the bounds of the next byte. -/
structure Pending where
  bits : Nat
  missing : Nat
  least : UInt8
  greatest : UInt8

/-- The sequence that a leading byte starts. The bounds exclude overlong spellings, surrogates and
values above U+10FFFF. -/
def Pending.start? (byte : UInt8) : Option Pending :=
  let bits := byte.toNat
  if 0xC2 ≤ byte ∧ byte ≤ 0xDF then some ⟨bits % 0x20, 1, 0x80, 0xBF⟩
  else if byte = 0xE0 then some ⟨bits % 0x10, 2, 0xA0, 0xBF⟩
  else if byte = 0xED then some ⟨bits % 0x10, 2, 0x80, 0x9F⟩
  else if 0xE1 ≤ byte ∧ byte ≤ 0xEF then some ⟨bits % 0x10, 2, 0x80, 0xBF⟩
  else if byte = 0xF0 then some ⟨bits % 0x08, 3, 0x90, 0xBF⟩
  else if 0xF1 ≤ byte ∧ byte ≤ 0xF3 then some ⟨bits % 0x08, 3, 0x80, 0xBF⟩
  else if byte = 0xF4 then some ⟨bits % 0x08, 3, 0x80, 0x8F⟩
  else none

/-- What one byte completes, and the sequence that is open after it, where none was open before. -/
def first (byte : UInt8) : List Char × Option Pending :=
  if byte < 0x80 then ([Char.ofNat byte.toNat], none)
  else
    match Pending.start? byte with
    | some pending => ([], some pending)
    | none => ([replacement], none)

/-- What one byte completes, and the sequence that is open after it. -/
def step (byte : UInt8) : Option Pending → List Char × Option Pending
  | none => first byte
  | some pending =>
    if pending.least ≤ byte ∧ byte ≤ pending.greatest then
      let bits := pending.bits * 0x40 + byte.toNat % 0x40
      if pending.missing ≤ 1 then ([Char.ofNat bits], none)
      else ([], some ⟨bits, pending.missing - 1, 0x80, 0xBF⟩)
    else
      let (chars, open?) := first byte
      (replacement :: chars, open?)

/-- The characters of a byte sequence, read after the sequence that is open. -/
def decodeFrom : Option Pending → List UInt8 → List Char
  | none, [] => []
  | some _, [] => [replacement]
  | pending, byte :: rest =>
    let (chars, pending) := step byte pending
    chars ++ decodeFrom pending rest

/-- The text of a byte sequence, with one replacement character per maximal invalid piece. -/
def decodeLossy (bytes : List UInt8) : String :=
  String.ofList (decodeFrom none bytes)

end YulCheck.Utf8
