import YulCheck.Check.Walk

/-! # Lexical environments

An environment is the stack of the constructs around a point of a program that declare names: blocks
and functions, the innermost first. It is read off the program text alone. A name refers to what the
innermost frame with a declaration of it says; the variables outside of the innermost function are
hidden. All names of a block are there from its start, but a variable can be used only after its
declaration.
-/

namespace YulCheck

/-- The variables that a statement declares in its block. -/
def Statement.locals : Statement → List Variable
  | .declaration _ locals _ => locals
  | _ => []

/-- The function that a statement defines in its block, with what its name is bound to. -/
def Statement.function? : Statement → Option (Handle × Binding)
  | .function _ _ name parameters returns _ =>
    some (name, .function (parameters.map (·.type)) (returns.map (·.type)))
  | _ => none

/-- A variable with what its name is bound to. -/
def Variable.binding (declared : Variable) : Handle × Binding :=
  (declared.name, .variable declared.type)

/-- A construct that declares names. -/
inductive Frame
  /-- A block, with its statements and those among them that come before a point, the last of them
  first. -/
  | block (statements before : List Statement)
  /-- A function with its parameters and returned variables, as its body sees them. -/
  | function (parameters returns : List Variable)

namespace Frame

/-- Whether the frame is that of a function. -/
def isFunction : Frame → Bool
  | block .. => false
  | function .. => true

/-- The declared names with what they are bound to; the functions of a block come first. -/
def bindings : Frame → List (Handle × Binding)
  | block statements _ =>
    statements.filterMap (·.function?) ++ statements.flatMap fun statement =>
      statement.locals.map (·.binding)
  | function parameters returns => (parameters ++ returns).map (·.binding)

/-- The declared names. -/
def names (frame : Frame) : List Handle := frame.bindings.map (·.1)

/-- What a name is bound to in this very frame. -/
def binding? (frame : Frame) (name : Handle) : Option Binding := frame.bindings.lookup name

/-- Whether the declaration of a variable is complete: parameters are declared before the body of
their function, and variables by the statements before the point. -/
def isComplete : Frame → Handle → Bool
  | block _ before, name => before.any fun statement => statement.locals.any (·.name = name)
  | function parameters returns, name => (parameters ++ returns).any (·.name = name)

end Frame

/-- The constructs around a point of a program that declare names, the innermost first. -/
abbrev Environment := List Frame

namespace Environment

/-- What a name refers to. The flag tells whether a function was left on the way to the frames, so
that variables are hidden. -/
def lookupFrom (name : Handle) : (leftFunction : Bool) → Environment → Option Found
  | _, [] => none
  | leftFunction, frame :: outer =>
    match frame.binding? name with
    | some binding =>
      if leftFunction && binding.isVariable then none else some ⟨binding, frame.isComplete name⟩
    | none => lookupFrom name (leftFunction || frame.isFunction) outer

/-- What a name refers to at a point. -/
def lookup? (environment : Environment) (name : Handle) : Option Found :=
  lookupFrom name false environment

/-- Whether a point is inside of a function. -/
def isInFunction (environment : Environment) : Bool := environment.any (·.isFunction)

end Environment

end YulCheck
