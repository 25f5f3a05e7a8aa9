import YulCheck.Literal
import YulCheck.Span

/-! # Program trees

A program is a tree of blocks, statements and expressions. Names and types occur as handles of a name
table. Blocks, expressions, names and function definitions have numbers of their own, so that facts
about them can be kept beside the tree.
-/

namespace YulCheck

/-- A literal with its type. -/
structure Literal where
  id : NodeId
  span : Span
  kind : LiteralKind
  value : LiteralValue
  type : TypeHandle
deriving DecidableEq, Repr

namespace Literal

/-- The source form of a literal, without quotes. -/
def format (literal : Literal) : String := literal.value.format literal.kind

/-- Whether a literal respects the limits of its kind. -/
def isValid (literal : Literal) : Bool := literal.value.isValid literal.kind

end Literal

/-- A use of a name. -/
structure Identifier where
  id : NodeId
  span : Span
  name : Handle
deriving DecidableEq, Repr

/-- A declared variable, parameter or return variable with its type. -/
structure Variable where
  id : NodeId
  span : Span
  name : Handle
  type : TypeHandle
deriving DecidableEq, Repr

/-- The variable as a use of its name. -/
def Variable.toIdentifier (declared : Variable) : Identifier :=
  ⟨declared.id, declared.span, declared.name⟩

/-- An expression. -/
inductive Expression
  | literal (constant : Literal)
  | identifier (use : Identifier)
  | call (id : NodeId) (span : Span) (callee : Identifier) (arguments : List Expression)
deriving Repr

namespace Expression

/-- The number of an expression. -/
def id : Expression → NodeId
  | literal constant => constant.id
  | identifier use => use.id
  | call id .. => id

/-- The position of an expression. -/
def span : Expression → Span
  | literal constant => constant.span
  | identifier use => use.span
  | call _ span .. => span

end Expression

mutual

/-- Statements between braces. -/
inductive Block
  | mk (id : NodeId) (span : Span) (statements : List Statement)

/-- A statement. -/
inductive Statement
  /-- A call for its effects. -/
  | expression (span : Span) (expression : Expression)
  /-- New values for variables, as in `a, b := f()`. -/
  | assignment (span : Span) (targets : List Identifier) (value : Expression)
  /-- New variables, as in `let a, b := f()` or `let a`. -/
  | declaration (span : Span) (locals : List Variable) (value : Option Expression)
  | function (id : NodeId) (span : Span) (name : Handle) (parameters returns : List Variable)
      (body : Block)
  | conditional (span : Span) (condition : Expression) (body : Block)
  | switch (span : Span) (scrutinee : Expression) (cases : List Case)
  | loop (id : NodeId) (span : Span) (pre : Block) (condition : Expression) (post body : Block)
  | break (span : Span)
  | continue (span : Span)
  | leave (span : Span)
  | block (block : Block)

/-- One case of a switch; the default case has no value. -/
inductive Case
  | mk (span : Span) (value : Option Literal) (body : Block)

end

namespace Block

/-- The number of a block. -/
def id : Block → NodeId
  | mk id .. => id

/-- The statements of a block. -/
def statements : Block → List Statement
  | mk _ _ statements => statements

end Block

namespace Case

/-- The value of a case; the default case has none. -/
def value? : Case → Option Literal
  | mk _ value _ => value

end Case

end YulCheck
