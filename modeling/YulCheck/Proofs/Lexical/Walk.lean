import YulCheck.Proofs.Lexical.Environment

/-! # Walks with their environments

A lexical walk is a walk whose requests carry the environment of the point at which they are made.
Without the environments it is an ordinary walk, and an ordinary walk is made lexical by an
environment for all of its requests.
-/

namespace YulCheck

/-- A walk with a result of type `α` that knows the environment of every request. -/
inductive LexicalWalk (α : Type)
  /-- The walk ends with a result. -/
  | done (result : α)
  /-- The walk cannot go on. -/
  | broken (fault : Fault)
  /-- The walk asks for something at a point and goes on with the answer. -/
  | step (environment : Environment) (request : Request) (next : request.Answer → LexicalWalk α)

/-- The walk in an environment. -/
def Walk.within {α : Type} (environment : Environment) : Walk α → LexicalWalk α
  | done result => .done result
  | broken fault => .broken fault
  | step request next => .step environment request fun answer => (next answer).within environment

namespace LexicalWalk

variable {α β : Type}

/-- One walk after another. -/
def bind : LexicalWalk α → (α → LexicalWalk β) → LexicalWalk β
  | done result, next => next result
  | broken fault, _ => broken fault
  | step environment request answered, next =>
    step environment request fun answer => (answered answer).bind next

instance : Monad LexicalWalk where
  pure := done
  bind := bind

/-- The walk without its environments. -/
def erase : LexicalWalk α → Walk α
  | done result => .done result
  | broken fault => .broken fault
  | step _ request next => .step request fun answer => (next answer).erase

@[simp]
theorem erase_pure (result : α) : (pure result : LexicalWalk α).erase = pure result := rfl

@[simp]
theorem erase_bind (walk : LexicalWalk α) (next : α → LexicalWalk β) :
    (walk >>= next).erase = walk.erase >>= fun result => (next result).erase := by
  induction walk with
  | done => rfl
  | broken => rfl
  | step environment request answered ih =>
    exact congrArg (Walk.step request) (funext ih)

@[simp]
theorem erase_within (environment : Environment) (walk : Walk α) :
    (walk.within environment).erase = walk := by
  induction walk with
  | done => rfl
  | broken => rfl
  | step request next ih => exact congrArg (Walk.step request) (funext ih)

@[simp]
theorem within_bind (environment : Environment) (walk : Walk α) (next : α → Walk β) :
    (walk >>= next).within environment =
      walk.within environment >>= fun result => (next result).within environment := by
  induction walk with
  | done => rfl
  | broken => rfl
  | step request answered ih =>
    exact congrArg (step environment request) (funext ih)

end LexicalWalk

end YulCheck
