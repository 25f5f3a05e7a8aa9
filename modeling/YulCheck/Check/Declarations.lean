import YulCheck.Check.Setting

/-! # Entering declarations

The first part of a check: the scopes of a program are opened, and its functions and variables are
bound in them. Names that are taken are reported, and keep what they were bound to first.
-/

namespace YulCheck.Setting

variable (setting : Setting) (place : Place)

/-- Enter variables that are declared together, up to the first name that is taken. -/
def enterVariables : List Variable → Walk Unit
  | [] => return
  | declared :: rest => do
    if ← Walk.ask (.bind declared.name (.variable declared.type)) then
      enterVariables rest
    else
      report place (.variableTaken (← setting.names.shownLabel declared.name)) declared.span

/-- Enter a declaration. -/
def enter : Declaration → Walk Unit
  | .scope owner => .ask (.openScope owner)
  | .resume block => .ask (.resumeScope block)
  | .leave => .ask .leaveScope
  | .locals locals => setting.enterVariables place locals
  | .function span name parameters returns => do
    let isFree ← Walk.ask (.bind name (.function parameters returns))
    expect place isFree span do
      return .functionTaken (← setting.names.shownLabel name)

/-- Enter all declarations of a block. The result tells whether no name was declared twice. -/
def enterDeclarations (block : Block) : Walk Bool := do
  let errors ← Walk.ask .errorCount
  block.declarations.forM (setting.enter place)
  Walk.isQuietSince errors

end YulCheck.Setting
