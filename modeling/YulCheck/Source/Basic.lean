import YulCheck.Literal
import YulCheck.Span

/-! # Source trees

A program as it is written, before its names are looked up: names and types are labels, or handles of
names that exist already, and positions are noted beside the nodes that have one.
-/

namespace YulCheck.Source

/-- A name as it is written, or one that exists already. -/
inductive Name
  | label (text : String)
  | handle (name : Handle)
deriving DecidableEq, Repr

/-- A declared variable with its type, or with the default one. -/
structure Variable where
  name : Name
  type : Option Name
deriving DecidableEq, Repr

/-- The handle of a variable that is given by one and has no type of its own. -/
def Variable.existing? : Variable → Option Handle
  | ⟨.handle name, none⟩ => some name
  | _ => none

/-- The position of a node, and those of the names in it that have other ones. -/
structure Location where
  span : Span
  names : List Span
deriving DecidableEq, Repr

/-- A location that is noted inside another one. The inner position of the node counts, and the outer
positions of its names. -/
def Location.inside (location : Location) : Option Location → Location
  | none => location
  | some outer =>
    { location with names := outer.names ++ location.names.drop outer.names.length }

/-- A literal. -/
inductive Literal
  /-- Number with a type, or with the default one. -/
  | number (text : String) (type : Option String)
  /-- Truth value with a type, or with that of truth values. -/
  | boolean (flag : Bool) (type : Option String)
  | string (text : String)
  /-- Literal with any value. -/
  | value (kind : LiteralKind) (value : LiteralValue) (type : Name)
  | located (location : Location) (literal : Literal)
deriving Repr

/-- An expression. -/
inductive Expression
  | literal (constant : Literal)
  | identifier (name : Name)
  | call (callee : Name) (arguments : List Expression)
  | located (location : Location) (expression : Expression)
deriving Repr

mutual

/-- A statement. -/
inductive Statement
  | expression (expression : Expression)
  | assignment (targets : List Name) (value : Expression)
  | declaration (locals : List Variable) (value : Option Expression)
  | function (name : Name) (parameters returns : List Variable) (body : List Statement)
  | conditional (condition : Expression) (body : List Statement)
  | switch (scrutinee : Expression) (cases : List Case)
  | loop (pre : List Statement) (condition : Expression) (post body : List Statement)
  | break
  | continue
  | leave
  | block (statements : List Statement)
  | located (location : Location) (statement : Statement)

/-- One case of a switch; the default case has no value. -/
inductive Case
  | mk (span : Option Span) (value : Option Literal) (body : List Statement)

end

end YulCheck.Source
