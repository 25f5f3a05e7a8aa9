import YulCheck.Check.Run
import YulCheck.Check.Statement

/-! # Checkers

A checker checks blocks, one after another, against one setting. The reporter and the facts about the
programs are given to it and handed back extended, so they can be kept from run to run.
-/

namespace YulCheck

/-- A checker, with what is left of its earlier runs. -/
structure Checker where
  setting : Setting
  /-- The variables whose declarations are complete, with the scopes that bind them. -/
  active : List (ScopeId × Handle) := []
  /-- Whether the last run was stopped in the body of a loop. -/
  inLoop : Bool := false
  /-- Whether the last run was stopped in the body of a function. -/
  inFunction : Bool := false

/-- What a run hands back. -/
structure Analysis (σ : Type) where
  /-- Whether the program is correct. -/
  isCorrect : Bool
  reporter : Reporter
  facts : Facts
  hostState : σ
  checker : Checker

/-- What entering declarations hands back. -/
structure DeclarationRun where
  /-- Whether no name was declared twice, unless the run was stopped. -/
  outcome : Except Failure Bool
  reporter : Reporter
  facts : Facts

namespace Checker

variable {σ : Type}

/-- The state in which a run starts. -/
def start (checker : Checker) (reporter : Reporter) (facts : Facts) (hostState : σ) :
    RunState σ :=
  ⟨reporter, facts, hostState, [], checker.active, checker.inLoop, checker.inFunction⟩

/-- The place at which a run starts. -/
def place (checker : Checker) (block : Block) : Place :=
  ⟨block.id, checker.inLoop, checker.inFunction⟩

/-- Check a block. It is correct if the run was not stopped and no error was reported in it. -/
def analyze (checker : Checker) (host? : Option (Host σ)) (reporter : Reporter)
    (facts : Facts) (hostState : σ) (block : Block) : Except Fault (Analysis σ) := do
  let walk := checker.setting.checkProgram (checker.place block) block
  let (outcome, state) ← walk.run host? (checker.start reporter facts hostState)
  let isQuiet := state.reporter.errorCount = reporter.errorCount
  let isStopped := outcome matches .error _
  if isStopped && isQuiet then throw .stoppedWithoutError
  return {
    isCorrect := !isStopped && isQuiet
    reporter := state.reporter
    facts := state.facts
    hostState := state.hostState
    checker :=
      { checker with
        active := state.active, inLoop := state.inLoop, inFunction := state.inFunction } }

end Checker

namespace NameTable

/-- Enter the declarations of a block, without checking anything else. -/
def enterDeclarations (names : NameTable) (reporter : Reporter) (facts : Facts)
    (block : Block) : Except Fault DeclarationRun := do
  let checker : Checker := { setting := .ofNames names [] }
  let walk := checker.setting.enterDeclarations (checker.place block) block
  let (outcome, state) ← walk.run none (checker.start reporter facts ())
  return ⟨outcome, state.reporter, state.facts⟩

/-- What is known about a block that has to be correct. If it is not, its first error is refused. -/
def analyzeCorrect (names : NameTable) (block : Block) (dataNames : List String) :
    Except Fault Facts := do
  let checker : Checker := { setting := .ofNames names dataNames }
  let analysis ← checker.analyze none default {} () block
  if analysis.isCorrect && !analysis.reporter.hasErrors then return analysis.facts
  else
    let first? := analysis.reporter.errors.head?
    throw (.codeIncorrect ((first?.map toString).getD ""))

end NameTable

end YulCheck
