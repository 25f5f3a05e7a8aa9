import YulCheck.Check.Run
import YulCheck.Name.Table

/-! # Hosts from rules

A host that answers questions about names by the first rule that fits, and keeps the questions that
it was asked.
-/

namespace YulCheck

/-- What a rule answers. -/
inductive HostAnswer
  | known
  | unknown
  /-- The host fails. -/
  | failure (failure : Failure)
deriving DecidableEq, Repr

/-- A problem that a host reports about a name. -/
structure HostReport where
  category : Category
  code : Nat
  message : String
deriving DecidableEq, Repr

/-- A rule for questions. It fits if everything that it names agrees. -/
structure HostRule where
  label? : Option String
  use? : Option IdentifierUse
  inFunction? : Option Bool
  reports : List HostReport
  answer : HostAnswer
deriving DecidableEq, Repr

namespace HostRule

/-- Whether a rule fits a question. The label of the name is looked up only if the rule names one. -/
def fits (names : NameTable) (rule : HostRule) (query : Query) : Except Fault Bool := do
  let hasLabel : Bool ← match rule.label? with
    | some label => (names.shownLabel query.identifier.name).map (· == label)
    | none => pure true
  return hasLabel && rule.use?.all (· = query.use) && rule.inFunction?.all (· = query.inFunction)

/-- The first rule that fits a question. -/
def find? (names : NameTable) (query : Query) : List HostRule → Except Fault (Option HostRule)
  | [] => return none
  | rule :: rest => do
    if ← rule.fits names query then return some rule else find? names query rest

/-- Make the reports of a rule at a position, up to the first one beyond the limit. -/
def report (span : Span) : List HostReport → Reporter → Except Failure Unit × Reporter
  | [], reporter => (.ok (), reporter)
  | entry :: rest, reporter =>
    match reporter.report ⟨entry.category, entry.code, span, entry.message⟩ with
    | (.ok _, reporter) => report span rest reporter
    | (.error failure, reporter) => (.error failure, reporter)

end HostRule

/-- The host with the given rules. Its state is the list of the questions so far, the last one
first. -/
def Host.ofRules (names : NameTable) (rules : List HostRule) : Host (List Query) :=
  fun query (reporter, asked) => do
    let asked := query :: asked
    match ← HostRule.find? names query rules with
    | none => return (.ok false, reporter, asked)
    | some rule =>
      let (outcome, reporter) := HostRule.report query.identifier.span rule.reports reporter
      let answer : Except Failure Bool := do
        outcome
        match rule.answer with
        | .known => return true
        | .unknown => return false
        | .failure failure => throw failure
      return (answer, reporter, asked)

end YulCheck
