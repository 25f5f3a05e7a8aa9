import YulCheck.Diagnostic.Basic
import YulCheck.Fault

/-! # Reporting with limits

A reporter collects diagnostics in the order of their reports. It accepts a limited number of errors
and of warnings. The first error beyond its limit is replaced by a final note and stops the run; the
first warning beyond its limit is replaced by a note, and all later ones are dropped.
-/

namespace YulCheck

/-- The number of errors, and of warnings, that a run accepts unless it is told otherwise. -/
def defaultLimit : Nat := 256

/-- The diagnostics reported so far, and how many more are accepted. -/
structure Reporter where
  diagnostics : Array Diagnostic
  errorCount : Nat
  warningCount : Nat
  errorLimit? : Option Nat
  warningLimit? : Option Nat
deriving DecidableEq, Repr

namespace Reporter

/-- A reporter without reports and with the given limits. -/
def withLimits (errorLimit? warningLimit? : Option Nat) : Reporter :=
  ⟨#[], 0, 0, errorLimit?, warningLimit?⟩

/-- A reporter without reports that accepts any number of them. -/
def unlimited : Reporter := withLimits none none

instance : Inhabited Reporter := ⟨withLimits (some defaultLimit) (some defaultLimit)⟩

/-- The diagnostics, with one more at the end. -/
def record (reporter : Reporter) (diagnostic : Diagnostic) : Reporter :=
  { reporter with diagnostics := reporter.diagnostics.push diagnostic }

/-- The note that stands for the first error beyond the limit. -/
def errorLimitNote (limit : Nat) (excess : Diagnostic) : Diagnostic :=
  { excess with code := 4013, message := s!"There are more than {limit} errors. Aborting." }

/-- The note that stands for the first warning beyond the limit. -/
def warningLimitNote (limit : Nat) (excess : Diagnostic) : Diagnostic :=
  ⟨.warning, 4591, excess.span, s!"There are more than {limit} warnings. Ignoring the rest."⟩

/-- Report an error. Beyond the limit this stops the run. -/
def reportError (reporter : Reporter) (diagnostic : Diagnostic) : Except Failure Unit × Reporter :=
  let reporter := { reporter with errorCount := reporter.errorCount + 1 }
  match reporter.errorLimit? with
  | some limit =>
    if reporter.errorCount > limit then
      (.error (.errorLimit limit), reporter.record (errorLimitNote limit diagnostic))
    else (.ok (), reporter.record diagnostic)
  | none => (.ok (), reporter.record diagnostic)

/-- Report a warning. Beyond the limit it is dropped. -/
def reportWarning (reporter : Reporter) (diagnostic : Diagnostic) : Reporter :=
  let counted := { reporter with warningCount := reporter.warningCount + 1 }
  match reporter.warningLimit? with
  | some limit =>
    if reporter.warningCount < limit then counted.record diagnostic
    else if reporter.warningCount = limit then counted.record (warningLimitNote limit diagnostic)
    else reporter
  | none => counted.record diagnostic

/-- Report a diagnostic of any category. -/
def report (reporter : Reporter) (diagnostic : Diagnostic) : Except Failure Unit × Reporter :=
  if diagnostic.isError then reporter.reportError diagnostic
  else (.ok (), reporter.reportWarning diagnostic)

/-! ### The count of errors -/

/-- Every error is counted, also the ones beyond the limit. -/
@[simp]
theorem errorCount_reportError (reporter : Reporter) (diagnostic : Diagnostic) :
    (reporter.reportError diagnostic).2.errorCount = reporter.errorCount + 1 := by
  dsimp only [reportError]
  split
  · split <;> rfl
  · rfl

@[simp]
theorem errorCount_reportWarning (reporter : Reporter) (diagnostic : Diagnostic) :
    (reporter.reportWarning diagnostic).errorCount = reporter.errorCount := by
  dsimp only [reportWarning]
  split
  · split
    · rfl
    · split <;> rfl
  · rfl

theorem errorCount_report (reporter : Reporter) (diagnostic : Diagnostic) :
    (reporter.report diagnostic).2.errorCount =
      if diagnostic.isError then reporter.errorCount + 1 else reporter.errorCount := by
  unfold report
  split <;> simp

/-! ### Questions about the reports -/

/-- Whether an error was reported. -/
def hasErrors (reporter : Reporter) : Bool := reporter.errorCount > 0

/-- Whether a diagnostic with one of these numbers was recorded. -/
def hasAny (reporter : Reporter) (codes : List Nat) : Bool :=
  reporter.diagnostics.any fun diagnostic => codes.contains diagnostic.code

/-- The recorded errors, in the order of their reports. -/
def errors (reporter : Reporter) : List Diagnostic :=
  reporter.diagnostics.toList.filter (·.isError)

/-- The recorded warnings, in the order of their reports. -/
def warnings (reporter : Reporter) : List Diagnostic :=
  reporter.diagnostics.toList.filter (!·.isError)

/-- The number of errors at some moment, to tell later whether one was reported since. -/
structure Mark where
  baseline : Nat
deriving DecidableEq, Repr

/-- A mark for the errors that are reported from now on. -/
def mark (reporter : Reporter) : Mark := ⟨reporter.errorCount⟩

/-- Whether no error was reported since the mark was taken. -/
def isQuietSince (reporter : Reporter) (mark : Mark) : Bool :=
  reporter.errorCount = mark.baseline

end Reporter

end YulCheck
