import YulCheck.Scope.Forest
import YulCheck.Tree.Basic

/-! # The declarations of a program

Which scopes a block opens and what is declared in them, in the order in which they are entered. The
functions of a block come before everything else in it, so they can be called before the statement
that defines them. The body and the post block of a loop are inside its pre block, so its scope is
entered again for them. A scope that is left gives way to the one that was current before it.
-/

namespace YulCheck

/-- The node that opens a scope: a block, or a function definition for its parameters. -/
inductive ScopeOwner
  | block (id : NodeId)
  | function (id : NodeId)
deriving DecidableEq, Repr

/-- Whether the scope of an owner is that of the parameters of a function. -/
def ScopeOwner.isFunction : ScopeOwner → Bool
  | block _ => false
  | function _ => true

/-- One step of entering declarations. -/
inductive Declaration
  /-- A scope is opened inside of the current one, and becomes the current one. -/
  | scope (owner : ScopeOwner)
  /-- The scope of a block that was opened before becomes the current one. -/
  | resume (block : NodeId)
  /-- The scope before becomes the current one again. -/
  | leave
  /-- A function is declared in the current scope. -/
  | function (span : Span) (name : Handle) (parameters returns : List TypeHandle)
  /-- Variables are declared together in the current scope; the ones after a name that is taken are not
  entered. -/
  | locals (locals : List Variable)

/-- The function that a statement defines, as a declaration in its block. -/
def Statement.functionDeclaration? : Statement → Option Declaration
  | .function _ span name parameters returns _ =>
    some (.function span name (parameters.map (·.type)) (returns.map (·.type)))
  | _ => none

/-- The functions that statements define, as declarations in their block. -/
def functionDeclarations (statements : List Statement) : List Declaration :=
  statements.filterMap (·.functionDeclaration?)

mutual

/-- The declarations of a block. -/
def Block.declarations : Block → List Declaration
  | .mk id _ statements =>
    .scope (.block id) :: functionDeclarations statements ++ statementDeclarations statements
      ++ [.leave]

/-- The declarations of statements, apart from the names of their functions. -/
def statementDeclarations : List Statement → List Declaration
  | [] => []
  | statement :: rest => statement.declarations ++ statementDeclarations rest

/-- The declarations of a statement, apart from the name of its function. -/
def Statement.declarations : Statement → List Declaration
  | .declaration _ locals _ => [.locals locals]
  | .function id _ _ parameters returns body =>
    .scope (.function id) :: (parameters ++ returns).map (fun declared => .locals [declared])
      ++ body.declarations ++ [.leave]
  | .conditional _ _ body => body.declarations
  | .switch _ _ cases => caseDeclarations cases
  | .loop _ _ pre _ post body =>
    pre.declarations ++ .resume pre.id :: body.declarations ++ post.declarations ++ [.leave]
  | .block block => block.declarations
  | .expression .. | .assignment .. | .break _ | .continue _ | .leave _ => []

/-- The declarations of the cases of a switch. -/
def caseDeclarations : List Case → List Declaration
  | [] => []
  | .mk _ _ body :: rest => body.declarations ++ caseDeclarations rest

end

end YulCheck
