import YulCheck.AscendingList
import YulCheck.Evm.Effects
import YulCheck.Scope.Declarations

/-! # What checking finds out about a program

The scopes of a program, the scope of every block and function, the types of every expression and
the side effects of all calls of built-in functions. Facts can be extended by any number of programs;
what is noted last about a node counts.
-/

namespace YulCheck

/-- What is known about the programs that were checked. -/
structure Facts where
  scopes : ScopeForest := .empty
  blockScopes : List (NodeId × ScopeId) := []
  /-- The scopes of the parameters of functions. -/
  functionScopes : List (NodeId × ScopeId) := []
  expressionTypes : List (NodeId × List TypeHandle) := []
  sideEffects : SideEffects := .pure
deriving DecidableEq, Repr, Inhabited

namespace Facts

/-- The scope that a node opened. -/
def scopeOf? (facts : Facts) : ScopeOwner → Option ScopeId
  | .block id => facts.blockScopes.lookup id
  | .function id => facts.functionScopes.lookup id

/-- The types of the values of an expression. -/
def typesOf? (facts : Facts) (expression : NodeId) : Option (List TypeHandle) :=
  facts.expressionTypes.lookup expression

/-- Open the scope of a node inside of another scope. -/
def openScope (facts : Facts) (owner : ScopeOwner) (parent? : Option ScopeId) : Facts :=
  let (scope, scopes) := facts.scopes.add parent? owner.isFunction
  match owner with
  | .block id => { facts with scopes, blockScopes := (id, scope) :: facts.blockScopes }
  | .function id => { facts with scopes, functionScopes := (id, scope) :: facts.functionScopes }

/-- Note the types of an expression. -/
def noteTypes (facts : Facts) (expression : NodeId) (types : List TypeHandle) : Facts :=
  { facts with expressionTypes := (expression, types) :: facts.expressionTypes }

/-- Note the effects of a call. -/
def noteEffects (facts : Facts) (effects : SideEffects) : Facts :=
  { facts with sideEffects := facts.sideEffects.join effects }

/-- The nodes with an entry in a table, in ascending order. -/
def nodes {α : Type} (table : List (NodeId × α)) : List NodeId :=
  AscendingList.ofList (table.map (·.1))

/-- The scopes of the noted blocks and functions, in ascending order. -/
def notedScopes (facts : Facts) : List ScopeId :=
  AscendingList.ofList <|
    (nodes facts.blockScopes).filterMap (facts.scopeOf? <| .block ·)
      ++ (nodes facts.functionScopes).filterMap (facts.scopeOf? <| .function ·)

end Facts

end YulCheck
