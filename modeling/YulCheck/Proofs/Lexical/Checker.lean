import YulCheck.Check.Statement
import YulCheck.Proofs.Lexical.Walk

/-! # Checking with an explicit stack of environments

The walk over the statements of a program, with the environment of every point: a block puts a frame
on the stack, which grows by the variables of each statement behind it; a function puts two frames on
it, one for its parameters and one for its body; the condition, the body and the post block of a loop
are behind all statements of its pre block. `erase_lexicalBlock` tells that this is how blocks are
checked, apart from the environments.
-/

namespace YulCheck.Setting

variable (setting : Setting)

mutual

/-- Check the statements of a block inside an environment. -/
def lexicalBlock (outer : Environment) (place : Place) : Block → LexicalWalk Unit
  | .mk id span statements => do
    let inside ← (enterBlock place (.mk id span statements)).within outer
    lexicalStatements outer statements [] inside statements

/-- Check statements of a block in their order, given all of its statements and those before. -/
def lexicalStatements (outer : Environment) (all before : List Statement) (place : Place) :
    List Statement → LexicalWalk Unit
  | [] => return
  | statement :: rest => do
    lexicalStatement (.block all before :: outer) place statement
    lexicalStatements outer all (statement :: before) place rest

/-- Check a statement in an environment. -/
def lexicalStatement (environment : Environment) (place : Place) : Statement → LexicalWalk Unit
  | .function id span name parameters returns body => do
    (setting.checkHeader place id span name parameters returns).within environment
    lexicalBlock (.function parameters returns :: environment)
      { place with inLoop := false, inFunction := true } body
  | .conditional _ condition body => do
    (setting.checkCondition place condition).within environment
    lexicalBlock environment place body
  | .switch span scrutinee cases => do
    let isOnlyDefault := cases.length = 1 && cases.all (·.value?.isNone)
    (expect place (!isOnlyDefault) span (pure .onlyDefaultCase)).within environment
    let type ← (setting.checkSingle place scrutinee).within environment
    lexicalCases environment place type [] cases
  | .loop _ _ pre condition post body => do
    let outside := { place with inLoop := false }
    lexicalBlock environment outside pre
    let inside ← (enterBlock outside pre).within environment
    let behind := .block pre.statements pre.statements.reverse :: environment
    (setting.checkCondition inside condition).within behind
    lexicalBlock behind { inside with inLoop := true } body
    lexicalBlock behind inside post
  | .block block => lexicalBlock environment place block
  | statement => (setting.checkStatement place statement).within environment

/-- Check the cases of a switch in an environment. -/
def lexicalCases (environment : Environment) (place : Place) (type : TypeHandle)
    (before : List Word) : List Case → LexicalWalk Unit
  | [] => return
  | .mk span value? body :: rest => do
    let values ← (match value? with
      | some literal => setting.checkCaseValue place type before span literal
      | none => pure before : Walk (List Word)).within environment
    lexicalBlock environment place body
    lexicalCases environment place type values rest

end

/-! ### The walk without its environments -/

mutual

theorem erase_lexicalBlock (outer : Environment) (place : Place) (block : Block) :
    (setting.lexicalBlock outer place block).erase = setting.checkBlock place block := by
  cases block with
  | mk id span statements =>
    simp only [lexicalBlock, checkBlock, LexicalWalk.erase_bind, LexicalWalk.erase_within]
    congr 1
    funext inside
    exact erase_lexicalStatements outer statements [] inside statements

theorem erase_lexicalStatements (outer : Environment) (all before : List Statement)
    (place : Place) (statements : List Statement) :
    (setting.lexicalStatements outer all before place statements).erase =
      setting.checkStatements place statements := by
  cases statements with
  | nil => simp only [lexicalStatements, checkStatements, LexicalWalk.erase_pure]
  | cons statement rest =>
    simp only [lexicalStatements, checkStatements, LexicalWalk.erase_bind,
      erase_lexicalStatement, erase_lexicalStatements]

theorem erase_lexicalStatement (environment : Environment) (place : Place)
    (statement : Statement) :
    (setting.lexicalStatement environment place statement).erase =
      setting.checkStatement place statement := by
  cases statement <;>
    simp only [lexicalStatement, checkStatement, LexicalWalk.erase_bind,
      LexicalWalk.erase_within, erase_lexicalBlock, erase_lexicalCases]

theorem erase_lexicalCases (environment : Environment) (place : Place) (type : TypeHandle)
    (before : List Word) (cases : List Case) :
    (setting.lexicalCases environment place type before cases).erase =
      setting.checkCases place type before cases := by
  cases cases with
  | nil => simp only [lexicalCases, checkCases, LexicalWalk.erase_pure]
  | cons first rest =>
    cases first with
    | mk span value? body =>
      simp only [lexicalCases, checkCases, LexicalWalk.erase_bind, LexicalWalk.erase_within,
        erase_lexicalBlock, erase_lexicalCases]
      cases value? <;> rfl

end

end YulCheck.Setting
