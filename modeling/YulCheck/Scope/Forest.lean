import YulCheck.Handle

/-! # Scopes

A scope binds names to variables and functions. Scopes form trees, which share one numbering: a name
is looked up in a scope and then in the scopes around it. The parameters of a function have a scope
of their own, beyond which variables are not visible.
-/

namespace YulCheck

/-- The number of a scope. -/
abbrev ScopeId := Nat

/-- What a name is bound to. -/
inductive Binding
  | variable (type : TypeHandle)
  | function (parameters returns : List TypeHandle)
deriving DecidableEq, Repr

/-- Whether a name is bound to a variable. -/
def Binding.isVariable : Binding → Bool
  | .variable _ => true
  | .function .. => false

/-- One scope. -/
structure Scope where
  parent? : Option ScopeId
  /-- Whether this is the scope of the parameters of a function. -/
  isFunction : Bool
  bindings : List (Handle × Binding)
deriving DecidableEq, Repr, Inhabited

namespace Scope

/-- What a name is bound to in this very scope. -/
def get? (scope : Scope) (name : Handle) : Option Binding := scope.bindings.lookup name

/-- The number of bound names. -/
def size (scope : Scope) : Nat := scope.bindings.length

/-- Bind a name, unless it is bound in this very scope. -/
def bind? (scope : Scope) (name : Handle) (binding : Binding) : Option Scope :=
  if (scope.get? name).isSome then none
  else some { scope with bindings := (name, binding) :: scope.bindings }

end Scope

/-- Scopes numbered in the order in which they were opened. -/
structure ScopeForest where
  scopes : Array Scope
deriving DecidableEq, Repr

namespace ScopeForest

/-- The forest without scopes. -/
def empty : ScopeForest := ⟨#[]⟩

instance : Inhabited ScopeForest := ⟨empty⟩

/-- The number of scopes. -/
def size (forest : ScopeForest) : Nat := forest.scopes.size

/-- The scope of a number. -/
def get? (forest : ScopeForest) (id : ScopeId) : Option Scope := forest.scopes[id]?

/-- Open a scope. -/
def add (forest : ScopeForest) (parent? : Option ScopeId) (isFunction : Bool) :
    ScopeId × ScopeForest :=
  (forest.size, ⟨forest.scopes.push ⟨parent?, isFunction, []⟩⟩)

@[simp]
theorem size_add (forest : ScopeForest) (parent? : Option ScopeId) (isFunction : Bool) :
    (forest.add parent? isFunction).2.size = forest.size + 1 := by
  simp [add, size]

/-- The new scope has the next number and no bindings; the other ones stay. -/
theorem get?_add (forest : ScopeForest) (parent? : Option ScopeId) (isFunction : Bool)
    (id : ScopeId) :
    (forest.add parent? isFunction).2.get? id =
      if id = forest.size then some ⟨parent?, isFunction, []⟩ else forest.get? id := by
  rw [get?, add, Array.getElem?_push]
  rfl

/-- Bind a name in a scope, unless it is bound in that very scope or there is no such scope. -/
def bind? (forest : ScopeForest) (id : ScopeId) (name : Handle) (binding : Binding) :
    Option ScopeForest := do
  let scope ← (← forest.get? id).bind? name binding
  return ⟨forest.scopes.setIfInBounds id scope⟩

@[simp]
theorem size_of_bind?_eq_some {forest bound : ScopeForest} {id : ScopeId} {name : Handle}
    {binding : Binding} (isBound : forest.bind? id name binding = some bound) :
    bound.size = forest.size := by
  simp only [bind?, Option.bind_eq_bind, Option.bind_eq_some_iff, Option.pure_def,
    Option.some.injEq] at isBound
  obtain ⟨_, _, _, _, rfl⟩ := isBound
  exact Array.size_setIfInBounds

/-- The scopes from one outwards, at most as many as given, with their numbers. -/
def chainFrom (forest : ScopeForest) : (count : Nat) → Option ScopeId → List (ScopeId × Scope)
  | 0, _ | _, none => []
  | count + 1, some id =>
    match forest.get? id with
    | some scope => (id, scope) :: forest.chainFrom count scope.parent?
    | none => []

/-- The scopes from one outwards. Every scope is opened after the one around it, so there are no
more than the number of the first one tells. -/
def chain (forest : ScopeForest) (start : ScopeId) : List (ScopeId × Scope) :=
  forest.chainFrom (start + 1) (some start)

/-- What a name is bound to in the first scope of a chain that binds it. The flag tells whether the
chain left a function already: variables that are bound further out are not visible. -/
def lookupIn (name : Handle) : (leftFunction : Bool) → List (ScopeId × Scope) →
    Option (ScopeId × Binding)
  | _, [] => none
  | leftFunction, (id, scope) :: rest =>
    match scope.get? name with
    | some binding => if leftFunction && binding.isVariable then none else some (id, binding)
    | none => lookupIn name (leftFunction || scope.isFunction) rest

/-- What a name is bound to where it is used in a scope, and the scope that binds it. -/
def lookup? (forest : ScopeForest) (start : ScopeId) (name : Handle) :
    Option (ScopeId × Binding) :=
  lookupIn name false (forest.chain start)

/-- Whether a scope is that of a function or inside of one. -/
def isInFunction (forest : ScopeForest) (start : ScopeId) : Bool :=
  (forest.chain start).any (·.2.isFunction)

end ScopeForest

end YulCheck
