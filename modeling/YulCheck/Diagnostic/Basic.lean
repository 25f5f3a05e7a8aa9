import YulCheck.Span

/-! # Diagnostics

A diagnostic is one problem of a checked program: its category, its number, where it is and a
message.
-/

namespace YulCheck

/-- What a diagnostic is about. Warnings do not make a program wrong, the others do. -/
inductive Category
  /-- Malformed identifiers and misplaced keywords. -/
  | grammar
  /-- Unknown, repeated or not yet declared names, and counts that differ. -/
  | declaration
  /-- Type mismatches, invalid literals and unavailable operations. -/
  | typing
  /-- Deprecated or suspicious code. -/
  | warning
deriving DecidableEq, Repr

namespace Category

/-- The heading of a category. -/
def title : Category → String
  | grammar => "SyntaxError"
  | declaration => "DeclarationError"
  | typing => "TypeError"
  | warning => "Warning"

/-- All categories. -/
def all : List Category := [grammar, declaration, typing, warning]

/-- Whether a problem of this category makes a program wrong. -/
def isError : Category → Bool
  | warning => false
  | _ => true

end Category

/-- One problem of a checked program. -/
structure Diagnostic where
  category : Category
  code : Nat
  span : Span
  message : String
deriving DecidableEq, Repr

namespace Diagnostic

/-- Whether the diagnostic makes the program wrong. -/
def isError (diagnostic : Diagnostic) : Bool := diagnostic.category.isError

/-- The diagnostic on one line, without its position. -/
instance : ToString Diagnostic where
  toString diagnostic :=
    s!"{diagnostic.category.title} {diagnostic.code}: {diagnostic.message}"

end Diagnostic

end YulCheck
