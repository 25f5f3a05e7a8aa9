import YulCheck.Check.Finding
import YulCheck.Check.Facts
import YulCheck.Fault

/-! # Walks

Checking a program is a walk over its tree. A walk does not touch any state itself: it is a tree of
requests, each with a walk for every answer to it. What a request does, and how it is answered, is
decided where the walk is carried out. So the rules of checking are stated once, apart from limits,
kept facts and what a host answers.
-/

namespace YulCheck

/-- How a name is used where the host of a program is asked about it. -/
inductive IdentifierUse
  /-- A name is read or called that the program does not bind. -/
  | read
  /-- A name is assigned to that the program does not bind. -/
  | write
  /-- A variable is declared. -/
  | declare
  /-- The program binds the name; the answer does not matter. -/
  | bound
deriving DecidableEq, Repr

/-- A question to the host of a program. -/
structure Query where
  identifier : Identifier
  use : IdentifierUse
  /-- Whether the name occurs inside of a function. -/
  inFunction : Bool
deriving DecidableEq, Repr

/-- The place of a statement: its block, and whether it is in the body of a loop and of a function. -/
structure Place where
  block : NodeId
  inLoop : Bool
  inFunction : Bool
deriving DecidableEq, Repr

/-- What a walk finds where it looks up a name. -/
structure Found where
  binding : Binding
  /-- Whether the walk came past the declaration, which matters for variables. -/
  isActive : Bool
deriving DecidableEq, Repr

/-- What a walk asks for. -/
inductive Request
  /-- Open the scope of a node inside of the current scope, and go into it. -/
  | openScope (owner : ScopeOwner)
  /-- Go into the scope of a block that was opened before. -/
  | resumeScope (block : NodeId)
  /-- Leave the current scope for the one before. -/
  | leaveScope
  /-- Bind a name in the current scope; the answer tells whether it was free. -/
  | bind (name : Handle) (binding : Binding)
  /-- Whether a node has a scope. -/
  | hasScope (owner : ScopeOwner)
  /-- Look up a name that is used in a block. -/
  | lookup (block : NodeId) (name : Handle)
  /-- Note that the declaration of a variable is complete; the answer tells whether the scope binds it
  to a variable. -/
  | activate (owner : ScopeOwner) (name : Handle)
  /-- The number of errors so far. -/
  | errorCount
  /-- Report a problem. -/
  | report (place : Place) (diagnostic : Diagnostic)
  /-- Report a warning, unless one with its number is recorded. -/
  | warnOnce (diagnostic : Diagnostic)
  /-- Ask the host about a name; the answer tells whether the host knows it. -/
  | consult (place : Place) (identifier : Identifier) (use : IdentifierUse)
  /-- Note the types of an expression. -/
  | noteTypes (expression : NodeId) (types : List TypeHandle)
  /-- Note the effects of a call. -/
  | noteEffects (effects : SideEffects)
deriving DecidableEq, Repr

/-- The answers to a request. -/
abbrev Request.Answer : Request → Type
  | openScope _ | resumeScope _ | leaveScope | report .. | warnOnce _ | noteTypes ..
  | noteEffects _ => Unit
  | bind .. | hasScope _ | activate .. | consult .. => Bool
  | lookup .. => Option Found
  | errorCount => Nat

/-- A walk with a result of type `α`. -/
inductive Walk (α : Type)
  /-- The walk ends with a result. -/
  | done (result : α)
  /-- The walk cannot go on. -/
  | broken (fault : Fault)
  /-- The walk asks for something and goes on with the answer. -/
  | step (request : Request) (next : request.Answer → Walk α)

namespace Walk

variable {α β : Type}

/-- One walk after another. -/
def bind : Walk α → (α → Walk β) → Walk β
  | done result, next => next result
  | broken fault, _ => broken fault
  | step request answered, next => step request fun answer => (answered answer).bind next

instance : Monad Walk where
  pure := done
  bind := bind

theorem bind_done (walk : Walk α) : walk.bind done = walk := by
  induction walk with
  | done => rfl
  | broken => rfl
  | step request next ih => simp only [bind, ih]

theorem bind_assoc {γ : Type} (walk : Walk α) (second : α → Walk β) (third : β → Walk γ) :
    (walk.bind second).bind third = walk.bind fun result => (second result).bind third := by
  induction walk with
  | done => rfl
  | broken => rfl
  | step request next ih => simp only [bind, ih]

instance : LawfulMonad Walk := LawfulMonad.mk' Walk bind_done (fun _ _ => rfl) bind_assoc

/-- What is refused breaks the walk. -/
instance : MonadLift (Except Fault) Walk where
  monadLift
    | .ok result => done result
    | .error fault => broken fault

/-- The walk that asks for one thing. -/
def ask (request : Request) : Walk request.Answer := step request done

/-- Break the walk unless a condition holds. -/
def require (condition : Bool) (fault : Fault) : Walk Unit :=
  if condition then done () else broken fault

/-- Whether no error was reported since a moment with the given number of errors. -/
def isQuietSince (errors : Nat) : Walk Bool := do
  return (← ask .errorCount) = errors

end Walk

end YulCheck
