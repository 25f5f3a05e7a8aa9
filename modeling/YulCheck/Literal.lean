import YulCheck.Fault
import YulCheck.Text.Utf8
import YulCheck.Word

/-! # Values of literals

The value of a literal is a word, possibly with the text that spelled it, or text of any length that
a builtin function takes as it is.
-/

namespace YulCheck

/-- The three spellings of literals. -/
inductive LiteralKind
  | number
  | boolean
  | string
deriving DecidableEq, Repr

namespace LiteralKind

/-- The name of a kind. -/
def name : LiteralKind → String
  | number => "number"
  | boolean => "boolean"
  | string => "string"

/-- All kinds. -/
def all : List LiteralKind := [number, boolean, string]

end LiteralKind

/-- What a literal stands for. -/
inductive LiteralValue
  /-- A word, with the text that spelled it where that is known. -/
  | word (value : Word) (spelling : Option String)
  /-- Text of any length. -/
  | unlimited (content : String)
deriving DecidableEq, Repr

namespace LiteralValue

/-- The value of a number literal. Text that spells no word keeps the greatest one, and its spelling
tells that it is wrong. -/
def ofNumeral (text : String) : LiteralValue :=
  .word ((Word.ofNumeral? text).getD Word.max) (some text)

/-- The value of `true` or `false`. -/
def ofBool (flag : Bool) : LiteralValue :=
  if flag then .word Word.one (some "true") else .word Word.zero (some "false")

/-- The word that holds the first 32 bytes of a text, left-aligned. -/
def packed (text : String) : Word :=
  Word.ofLeadingBytes (Utf8.encode text)

/-- The value of a string literal. -/
def ofText (text : String) : LiteralValue :=
  .word (packed text) (some text)

/-- The text in the bytes of a word, without its trailing zero bytes. -/
def unpacked (value : Word) : String :=
  Utf8.decodeLossy value.trimmedBytes

/-- Whether the value is text of any length. -/
def isUnlimited : LiteralValue → Bool
  | .word .. => false
  | .unlimited _ => true

/-- The word of a value; text of any length has none. -/
def value : LiteralValue → Except Fault Word
  | .word value _ => .ok value
  | .unlimited _ => .error .literalWithoutValue

/-- The text of a value that is text of any length. -/
def content : LiteralValue → Except Fault String
  | .word .. => .error .literalWithoutText
  | .unlimited content => .ok content

/-- The text that spelled a word, where it is known. -/
def spelling? : LiteralValue → Option String
  | .word _ spelling => spelling
  | .unlimited _ => none

/-- The value that carries the same text at any length: the spelling, or else the bytes. -/
def toUnlimited : LiteralValue → LiteralValue
  | .unlimited content => .unlimited content
  | .word _ (some spelling) => .unlimited spelling
  | .word value none => .unlimited (unpacked value)

/-- The source form of a literal of the given kind, without quotes. -/
def format (kind : LiteralKind) : LiteralValue → String
  | .word _ (some spelling) => spelling
  | .unlimited content => content
  | .word value none =>
    match kind with
    | .boolean => if value.isZero then "false" else "true"
    | .number => value.toDecimal
    | .string => unpacked value

/-- Whether a spelled number fits into a word; numbers without a spelling do. -/
def isNumeral (value : LiteralValue) : Bool :=
  value.spelling?.all fun text => (Word.ofNumeral? text).isSome

/-- Whether a spelled string fits into a word; strings without a spelling do. -/
def fitsWord (value : LiteralValue) : Bool :=
  value.spelling?.all fun text => text.utf8ByteSize ≤ 32

/-- Whether the value respects the limits of its kind. -/
def isValid (kind : LiteralKind) (value : LiteralValue) : Bool :=
  match kind, value with
  | .number, value => value.isNumeral
  | .boolean, .word value _ => value = Word.zero || value = Word.one
  | .boolean, .unlimited _ => false
  | .string, value => value.isUnlimited || value.fitsWord

end LiteralValue

end YulCheck
