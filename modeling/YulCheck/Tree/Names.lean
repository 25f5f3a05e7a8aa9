import YulCheck.AscendingList
import YulCheck.Tree.Basic

/-! # The names of a program

The names that occur in a block at any depth: declared variables, parameters and functions,
assignment targets, uses and called functions.
-/

namespace YulCheck

mutual

/-- The names in an expression, from left to right. -/
def Expression.occurrences : Expression → List Handle
  | .literal _ => []
  | .identifier identifier => [identifier.name]
  | .call _ _ callee arguments => callee.name :: argumentOccurrences arguments

/-- The names in the arguments of a call, from left to right. -/
def argumentOccurrences : List Expression → List Handle
  | [] => []
  | argument :: rest => argument.occurrences ++ argumentOccurrences rest

end

mutual

/-- The names in a block, from left to right. -/
def Block.occurrences : Block → List Handle
  | .mk _ _ statements => statementOccurrences statements

/-- The names in a list of statements, from left to right. -/
def statementOccurrences : List Statement → List Handle
  | [] => []
  | statement :: rest => statement.occurrences ++ statementOccurrences rest

/-- The names in a statement, from left to right. -/
def Statement.occurrences : Statement → List Handle
  | .expression _ expression => expression.occurrences
  | .assignment _ targets value => targets.map (·.name) ++ value.occurrences
  | .declaration _ locals value =>
    locals.map (·.name) ++ (value.map (·.occurrences)).getD []
  | .function _ _ name parameters returns body =>
    name :: (parameters ++ returns).map (·.name) ++ body.occurrences
  | .conditional _ condition body => condition.occurrences ++ body.occurrences
  | .switch _ scrutinee cases => scrutinee.occurrences ++ caseOccurrences cases
  | .loop _ _ pre condition post body =>
    pre.occurrences ++ condition.occurrences ++ post.occurrences ++ body.occurrences
  | .break _ | .continue _ | .leave _ => []
  | .block block => block.occurrences

/-- The names in the cases of a switch, from left to right. -/
def caseOccurrences : List Case → List Handle
  | [] => []
  | .mk _ _ body :: rest => body.occurrences ++ caseOccurrences rest

end

/-- The set of the names in a block. -/
def Block.names (block : Block) : List Handle :=
  AscendingList.ofList block.occurrences

end YulCheck
