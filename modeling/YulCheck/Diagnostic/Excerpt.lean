import YulCheck.Diagnostic.Basic
import YulCheck.Diagnostic.SourceText

/-! # Diagnostics beside the source text

The text of a diagnostic for a reader: a heading, the position, and the lines of the source that it
is about. A range within one line is underlined. A range over several lines has a frame on the left
from its first to its last character; of long ranges only the first lines and the last ones are shown.
The message, if there is one, stands after the last mark.
-/

namespace YulCheck

/-- The marks of a range in one line. Offsets count bytes from the start of the line. -/
inductive LineMark
  /-- The range is within the line. -/
  | within (first stop : Nat)
  /-- The range starts in the line and stops in another one. -/
  | starts (offset : Nat)
  /-- The range starts before the line and stops after it. -/
  | inside
  /-- The range stops in the line and starts in another one. -/
  | stops (offset : Nat)
  /-- The range has no part in the line. -/
  | outside
deriving DecidableEq, Repr

namespace LineMark

/-- The number of lines that are shown after the first one of a range, whatever their number. -/
def linesAfterStart : Nat := 3

/-- The number of lines that are shown before the last one of a range, whatever their number. -/
def linesBeforeStop : Nat := 1

/-- Carets for a range within a line. They end at the latest one column after the line. -/
def carets (line : SourceLine) (first stop : Nat) : String :=
  let length := ((line.cells.getLast?).map (·.stop)).getD 0
  let afterLine : Cell := ⟨' ', length, length + 1, 1⟩
  String.join <| (line.cells ++ [afterLine]).map fun cell =>
    if cell.overlaps first stop then "".pushn '^' cell.width
    else if cell.first < stop then "".pushn ' ' cell.width
    else ""

/-- The stroke of a frame under the characters of a line that start before an offset. -/
def stroke (line : SourceLine) (offset : Nat) : String :=
  String.join ((line.cells.takeWhile (·.first < offset)).map fun cell => "".pushn '─' cell.width)

/-- What stands between the border and the text of a line. Where a range starts at the first character
of a line that is no blank, its frame starts beside that line. -/
def gutter (line : SourceLine) : LineMark → String
  | within .. => ""
  | starts offset => if offset ≤ line.indentation then " ╭" else "  "
  | inside | stops _ => " │"
  | outside => "  "

/-- What stands under a line, if anything does; the note follows the last mark of a range. -/
def underline? (line : SourceLine) (note : String) : LineMark → Option String
  | within first stop => some (" " ++ carets line first stop ++ note)
  | starts offset =>
    if offset ≤ line.indentation then none else some (" ╭" ++ stroke line (offset + 1) ++ "^")
  | stops offset => some (" ╰" ++ stroke line offset ++ "^" ++ note)
  | inside | outside => none

end LineMark

/-- A range of a source text, with the lines of its two ends. -/
structure Excerpt where
  source : SourceText
  span : Span
  firstLine : SourceLine
  lastLine : SourceLine

namespace Excerpt

/-- The excerpt of a range. -/
def ofSpan (source : SourceText) (span : Span) : Excerpt :=
  ⟨source, span, source.lineAt span.start, source.lineAt span.stop⟩

/-- Whether both ends of the range are in one line. -/
def isWithinLine (excerpt : Excerpt) : Bool :=
  excerpt.firstLine.number = excerpt.lastLine.number

/-- The marks in a line. At least one byte is marked, also in an empty range. -/
def markOf (excerpt : Excerpt) (line : SourceLine) : LineMark :=
  let { span, firstLine, lastLine, .. } := excerpt
  let first := span.start - firstLine.start
  if excerpt.isWithinLine then .within first (max (span.stop - firstLine.start) (first + 1))
  else if line.number = firstLine.number then .starts first
  else if line.number = lastLine.number then .stops (span.stop - lastLine.start)
  else if firstLine.number < line.number && line.number < lastLine.number then .inside
  else .outside

/-- Whether a line is shown, however many lines there are. -/
def shows (excerpt : Excerpt) (line : SourceLine) : Bool :=
  match excerpt.markOf line with
  | .within .. | .starts _ | .stops _ => true
  | .inside =>
    line.number ≤ excerpt.firstLine.number + LineMark.linesAfterStart
      || excerpt.lastLine.number ≤ line.number + LineMark.linesBeforeStop
  | .outside => false

/-- The lines between the two ends of the range, and those of the ends. -/
def lines (excerpt : Excerpt) : List SourceLine :=
  let first := min excerpt.firstLine.number excerpt.lastLine.number
  let last := max excerpt.firstLine.number excerpt.lastLine.number
  excerpt.source.lines.filter fun line => first ≤ line.number && line.number ≤ last

/-- The number of characters of the greatest line number. -/
def margin (excerpt : Excerpt) : Nat :=
  (toString (max excerpt.firstLine.number excerpt.lastLine.number)).length

/-- The start of a row, up to the border, with text in the margin. -/
def rowStart (excerpt : Excerpt) (text : String) : String :=
  "".pushn ' ' (excerpt.margin - text.length) ++ text

/-- The rows for a line: the line itself, and what stands under it. -/
def lineRows (excerpt : Excerpt) (note : String) (line : SourceLine) : String :=
  let mark := excerpt.markOf line
  let number := excerpt.rowStart (toString line.number)
  let gutter := mark.gutter line
  let text := String.join (line.cells.map (·.shown))
  let margin := excerpt.rowStart ""
  let under :=
    match mark.underline? line note with
    | some marks => s!"{margin} │{marks}\n"
    | none => ""
  s!"{number} │{gutter} {text}\n" ++ under

/-- The row that stands for lines which are left out, given the first one of them. -/
def breakRow (excerpt : Excerpt) (line : SourceLine) : String :=
  excerpt.rowStart "" ++ " ·" ++ (excerpt.markOf line).gutter line ++ "\n"

/-- The rows for all lines. A single line is never left out. -/
def rows (excerpt : Excerpt) (note : String) : String :=
  let hidden := excerpt.lines.filter (!excerpt.shows ·)
  String.join <| excerpt.lines.map fun line =>
    if excerpt.shows line || hidden.length ≤ 1 then excerpt.lineRows note line
    else if hidden.head? = some line then excerpt.breakRow line
    else ""

/-- The rows above the lines: the position of the range, and an empty row. -/
def header (excerpt : Excerpt) : String :=
  let margin := excerpt.rowStart ""
  let { source, span, firstLine, .. } := excerpt
  let gutter := if excerpt.isWithinLine then "" else "  "
  let column := firstLine.columnAt span.start
  s!"{margin} ┌─ {source.file}:{firstLine.number}:{column}\n"
    ++ s!"{margin} │{gutter}\n"

end Excerpt

namespace Diagnostic

/-- The heading of an excerpt. -/
def excerptHeading (diagnostic : Diagnostic) : String :=
  let severity := if diagnostic.isError then "error" else "warning"
  s!"{severity}[{diagnostic.code}]: {diagnostic.category.title}\n"

/-- What follows the last mark: the message after a space, or nothing where there is no message. -/
def excerptNote (diagnostic : Diagnostic) : String :=
  if diagnostic.message.isEmpty then "" else s!" {diagnostic.message}"

/-- The diagnostic with the lines of the source that it is about. -/
def excerpt (diagnostic : Diagnostic) (source : SourceText) : String :=
  let excerpt := Excerpt.ofSpan source diagnostic.span
  diagnostic.excerptHeading ++ excerpt.header ++ excerpt.rows diagnostic.excerptNote ++ "\n"

end Diagnostic

end YulCheck
