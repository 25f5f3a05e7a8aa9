import YulCheck.Check.Checker
import YulCheck.Diagnostic.Excerpt
import YulCheck.Dialect.Bundled
import YulCheck.Name.Dialect
import YulCheck.Name.Labels
import YulCheck.Source.Elaborate

/-! # Workspaces

A workspace holds the settings and the name table for any number of programs in one dialect. Programs
are elaborated, checked and given labels in it.
-/

namespace YulCheck

/-- The settings of a workspace. -/
structure Settings where
  dialect : BundledDialect := .default
  version : EvmVersion := .default
  /-- The number of errors that a run accepts, if it is limited. -/
  errorLimit? : Option Nat := some defaultLimit
  /-- The number of warnings that a run records, if it is limited. -/
  warningLimit? : Option Nat := some defaultLimit
  /-- Labels that aliases do not receive. -/
  reservedLabels : List String := []
deriving DecidableEq, Repr, Inhabited

/-- The settings with a dialect and a version given by name; nothing is said about the version if
there is no such dialect. -/
def Settings.withNames (settings : Settings) (dialect version : Option String) :
    Except Failure Settings := do
  let dialect ← (dialect.map BundledDialect.ofName?).getD (.ok .default)
  let version ← (version.map EvmVersion.ofName?).getD (.ok .default)
  return { settings with dialect, version }

/-- The result of a run in a workspace. -/
structure Outcome where
  isCorrect : Bool
  facts : Facts
  diagnostics : List Diagnostic
deriving DecidableEq, Repr

namespace Outcome

/-- The errors of a run. -/
def errors (outcome : Outcome) : List Diagnostic := outcome.diagnostics.filter (·.isError)

/-- The warnings of a run. -/
def warnings (outcome : Outcome) : List Diagnostic := outcome.diagnostics.filter (!·.isError)

/-- The diagnostics of a run beside the source text. -/
def render (outcome : Outcome) (source : SourceText) : List String :=
  outcome.diagnostics.map (·.excerpt source)

end Outcome

/-- Settings with the names of all programs so far. -/
structure Workspace where
  settings : Settings
  names : NameTable

namespace Workspace

variable {σ : Type}

/-- A workspace without programs. -/
def ofSettings (settings : Settings) : Workspace :=
  ⟨settings, .ofDialect (settings.dialect.build settings.version)⟩

/-- The block of a list of statements, and the workspace with the names in it. -/
def elaborate (workspace : Workspace) (statements : List Source.Statement) : Block × Workspace :=
  let (block, names) := workspace.names.elaborate statements
  (block, { workspace with names })

/-- A reporter without reports and with the limits of the workspace. -/
def reporter (workspace : Workspace) : Reporter :=
  .withLimits workspace.settings.errorLimit? workspace.settings.warningLimit?

/-- The checker for programs that know of the given data objects. -/
def checker (workspace : Workspace) (dataNames : List String) : Checker where
  setting := ⟨workspace.names, workspace.settings.version, dataNames⟩

/-- Check a block. The host, if there is one, is asked about names; its state is handed back. -/
def analyze (workspace : Workspace) (host? : Option (Host σ)) (hostState : σ) (block : Block)
    (dataNames : List String) : Except Fault (Outcome × σ) := do
  let checker := workspace.checker dataNames
  let analysis ← checker.analyze host? workspace.reporter {} hostState block
  let diagnostics := analysis.reporter.diagnostics.toList
  return (⟨analysis.isCorrect, analysis.facts, diagnostics⟩, analysis.hostState)

/-- Give every alias in a block a label. -/
def labelAliases (workspace : Workspace) (block : Block) : Except Fault Workspace := do
  let names ← workspace.names.labelAliases block workspace.settings.reservedLabels
  return { workspace with names }

end Workspace

end YulCheck
