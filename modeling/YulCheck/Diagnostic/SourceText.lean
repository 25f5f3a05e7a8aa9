/-! # Source texts

The lines of a text and the columns in which a reader sees them. Positions count bytes from the start
of the text. Tabs reach to the next multiple of four columns, control characters take no column, and
every other character takes one.
-/

namespace YulCheck

/-- A source text and the name of its file. -/
structure SourceText where
  file : String
  content : String

/-- A line of a text, without the line break that ends it. -/
structure SourceLine where
  /-- The number of the line, counted from 1. -/
  number : Nat
  /-- The position of the first byte. -/
  start : Nat
  text : List Char
deriving DecidableEq, Repr

/-- A character as it is shown: its bytes from `first` up to, but not including, `stop`, counted from
the start of its line, and the number of its columns. -/
structure Cell where
  char : Char
  first : Nat
  stop : Nat
  width : Nat
deriving DecidableEq, Repr

namespace Cell

/-- The number of columns between two tab stops. -/
def tabWidth : Nat := 4

/-- The number of columns that a character takes which starts in a column. -/
def widthAt (column : Nat) (c : Char) : Nat :=
  if c = '\t' then tabWidth - column % tabWidth
  else if c.toNat < 0x20 ∨ 0x7F ≤ c.toNat ∧ c.toNat < 0xA0 then 0
  else 1

/-- The characters of a text as they are shown, from an offset and a column on. -/
def listFrom (offset column : Nat) : List Char → List Cell
  | [] => []
  | c :: rest =>
    let width := widthAt column c
    let stop := offset + c.utf8Size
    ⟨c, offset, stop, width⟩ :: listFrom stop (column + width) rest

/-- What a character is shown as. -/
def shown (cell : Cell) : String :=
  if cell.char = '\t' then "".pushn ' ' cell.width else String.singleton cell.char

/-- Whether a character has bytes from `first` up to, but not including, `stop`. -/
def overlaps (cell : Cell) (first stop : Nat) : Bool :=
  max cell.first first < min cell.stop stop

end Cell

namespace SourceLine

/-- The lines of a text from a line on, given the number and the start of that line and its first
characters, the last one first. -/
def listFrom (number start : Nat) (before : List Char) : List Char → List SourceLine
  | [] => [⟨number, start, before.reverse⟩]
  | c :: rest =>
    if c = '\n' then
      let next := start + (before.map Char.utf8Size).sum + 1
      ⟨number, start, before.reverse⟩ :: listFrom (number + 1) next [] rest
    else listFrom number start (c :: before) rest

/-- The column of a position, counted from 1. Positions behind the line have the one after it. -/
def columnAt (line : SourceLine) (position : Nat) : Nat :=
  (Cell.listFrom 0 0 line.text).countP (fun cell => line.start + cell.stop ≤ position) + 1

/-- The characters of a line as they are shown, without carriage returns and null characters at its
end. -/
def cells (line : SourceLine) : List Cell :=
  let isDropped (c : Char) : Bool := c = '\r' || c = '\x00'
  Cell.listFrom 0 0 (line.text.reverse.dropWhile isDropped).reverse

/-- The number of bytes of the blanks at the start of a line as it is shown. -/
def indentation (line : SourceLine) : Nat :=
  let isBlank (c : Char) : Bool := c = ' ' || ('\t' ≤ c && c ≤ '\r')
  (line.cells.takeWhile (isBlank ·.char)).length

end SourceLine

namespace SourceText

/-- The lines of a text. The last one has no line break and may be empty. -/
def lines (source : SourceText) : List SourceLine :=
  SourceLine.listFrom 1 0 [] source.content.toList

/-- The line of a position. Positions behind the text are in its last line. -/
def lineAt (source : SourceText) (position : Nat) : SourceLine :=
  ((source.lines.filter (·.start ≤ position)).getLast?).getD ⟨1, 0, []⟩

end SourceText

end YulCheck
