import YulCheck.Dialect.Tabulated
import YulCheck.Host.Rules
import YulCheck.Workspace
import YulCheck.Proofs.Lexical.Environment
import YulCheck.Proofs.Lexical.Walk
import YulCheck.Proofs.Lexical.Agreement
import YulCheck.Proofs.Lexical.Checker
import YulCheck.Proofs.Lexical.Checks
import YulCheck.Proofs.Lexical.Requests
import YulCheck.Proofs.Scope.Growth
import YulCheck.Proofs.Scope.Layout
import YulCheck.Proofs.Scope.Entering
import YulCheck.Proofs.Lexical.Description
import YulCheck.Proofs.Scope.Entered
import YulCheck.Proofs.Lexical.Progress
import YulCheck.Proofs.Lexical.Resolution
import YulCheck.Proofs.Judgement.Verdict
import YulCheck.Proofs.Judgement.Decides
import YulCheck.Proofs.Judgement.Typing
import YulCheck.Proofs.Judgement.Values
import YulCheck.Proofs.Judgement.Calls
import YulCheck.Proofs.Judgement.Expressions
import YulCheck.Proofs.Judgement.Statements
import YulCheck.Proofs.Dialect.Types
import YulCheck.Proofs.Name.Growth
import YulCheck.Proofs.Name.Types
import YulCheck.Proofs.Judgement.Acceptance
import YulCheck.Proofs.Judgement.Recorded
import YulCheck.Proofs.Name.Orderly
import YulCheck.Proofs.Name.Ready
import YulCheck.Proofs.Name.Labelled
import YulCheck.Proofs.Build.Tree
import YulCheck.Proofs.Build.Yields
import YulCheck.Proofs.Build.Parts
import YulCheck.Proofs.Build.Builder
import YulCheck.Proofs.Safety.Completes
import YulCheck.Proofs.Safety.Rules
import YulCheck.Proofs.Safety.Calls
import YulCheck.Proofs.Safety.Statements
import YulCheck.Proofs.Safety.Analysis
import YulCheck.Proofs.Name.Candidates
import YulCheck.Proofs.Dialect.Names
import YulCheck.Proofs.Dialect.Reserved
import YulCheck.Proofs.Name.Assigned
import YulCheck.Proofs.Name.Labelling
import YulCheck.Proofs.Name.Consistent
import YulCheck.Proofs.Name.Faithful
import YulCheck.Proofs.Name.Generated
import YulCheck.Proofs.Name.Fresh
import YulCheck.Proofs.Name.Unified
import YulCheck.Proofs.Name.Indexed
import YulCheck.Proofs.Name.Represented
import YulCheck.Proofs.Name.Interned
import YulCheck.Proofs.Name.Provided
import YulCheck.Proofs.Name.Kept
import YulCheck.Proofs.Judgement.Passing
import YulCheck.Proofs.Rename.Tree
import YulCheck.Proofs.Rename.State
import YulCheck.Proofs.Rename.Passing
import YulCheck.Proofs.Dialect.Versions
import YulCheck.Proofs.Name.Predefined
import YulCheck.Proofs.Rename.Expressions
import YulCheck.Proofs.Rename.Statements
import YulCheck.Proofs.Mirror.Relabels
import YulCheck.Proofs.Mirror.Statements
import YulCheck.Proofs.Mirror.Acceptance
import YulCheck.Proofs.Mirror.Targets
import YulCheck.Proofs.Judgement.Declared
import YulCheck.Proofs.Report.Findings
import YulCheck.Proofs.Report.Reports
import YulCheck.Proofs.Report.Appended
import YulCheck.Proofs.Report.Feed
import YulCheck.Proofs.Report.Unlimited
import YulCheck.Proofs.Report.Limits
import YulCheck.Proofs.Kept.Scopes
import YulCheck.Proofs.Kept.Runs
import YulCheck.Proofs.Kept.Programs
import YulCheck.Proofs.Kept.Analysis
import YulCheck.Proofs.Judgement.Evaluated
import YulCheck.Proofs.Judgement.Effects
import YulCheck.Proofs.Build.Numbers
import YulCheck.Proofs.Build.Generations
import YulCheck.Proofs.Hoist.Reordering
import YulCheck.Proofs.Hoist.Alike
import YulCheck.Proofs.Hoist.Judgements
import YulCheck.Proofs.Hoist.Acceptance
import YulCheck.Proofs.Rename.Acceptance
import YulCheck.Proofs.Judgement.Called
import YulCheck.Proofs.Occurrence.Parts
import YulCheck.Proofs.Occurrence.Mentions
import YulCheck.Proofs.Host.Asked
import YulCheck.Proofs.Occurrence.Collected
import YulCheck.Proofs.Host.Silent
import YulCheck.Proofs.Host.Questions
import YulCheck.Proofs.Host.Unstopped
import YulCheck.Proofs.Host.Sequence
import YulCheck.Proofs.Lexical.Blocks
import YulCheck.Proofs.Told.Errors
import YulCheck.Proofs.Told.Callees
import YulCheck.Proofs.Told.Points
import YulCheck.Proofs.Told.Targets
import YulCheck.Proofs.Lexical.Visits
import YulCheck.Proofs.Told.Keywords
import YulCheck.Proofs.Kept.Again
import YulCheck.Proofs.Lexical.Reached
import YulCheck.Proofs.Mistake.Reports
import YulCheck.Proofs.Mistake.Expressions
import YulCheck.Proofs.Mistake.Visited
import YulCheck.Proofs.Mistake.Calls
import YulCheck.Proofs.Mistake.Statements
import YulCheck.Proofs.Mistake.Blocks
import YulCheck.Proofs.Mistake.Bindings
import YulCheck.Proofs.Mistake.Cases
import YulCheck.Proofs.Scope.Nesting
import YulCheck.Proofs.Scope.Opened
import YulCheck.Proofs.Scope.Filled
import YulCheck.Proofs.Scope.Outwards
import YulCheck.Proofs.Report.Ceilings
import YulCheck.Proofs.Name.Chosen
import YulCheck.Proofs.Word.Numerals
import YulCheck.Proofs.Name.Issued
import YulCheck.Proofs.Name.Owned
import YulCheck.Proofs.Name.Ghosts
import YulCheck.Proofs.Dialect.Plain
import YulCheck.Proofs.Name.Numbered
import YulCheck.Proofs.Name.Listed
import YulCheck.Proofs.Name.Mirrored
import YulCheck.Proofs.Word.Bytes
import YulCheck.Proofs.Word.Decimal
import YulCheck.Proofs.Text.Utf8
import YulCheck.Proofs.Literal.Packing
import YulCheck.Proofs.Dialect.Verbatim
