import YulCheck.Proofs.Safety.Hosts

/-! # What reports do

A report records a diagnostic or a note, or drops a warning. It leaves the diagnostics alone that are
there, and counts the errors that it appends.
-/

namespace YulCheck.Reporter

variable {reporter middle after : Reporter} {diagnostic : Diagnostic} {first second : List Diagnostic}

/-! ### Single reports -/

/-- The reporter with one more error counted. -/
def countError (reporter : Reporter) : Reporter :=
  { reporter with errorCount := reporter.errorCount + 1 }

/-- The reporter with one more warning counted. -/
def countWarning (reporter : Reporter) : Reporter :=
  { reporter with warningCount := reporter.warningCount + 1 }

theorem toList_record (reporter : Reporter) (diagnostic : Diagnostic) :
    (reporter.record diagnostic).diagnostics.toList = reporter.diagnostics.toList ++ [diagnostic] :=
  Array.toList_push

/-- What a report does. -/
inductive Reported (reporter : Reporter) (diagnostic : Diagnostic) :
    Except Failure Unit × Reporter → Prop
  /-- The error is recorded. -/
  | error (isError : diagnostic.isError = true)
    (isWithin : ∀ limit, reporter.errorLimit? = some limit → reporter.errorCount < limit) :
    Reported reporter diagnostic
      (.ok (), reporter.countError.record diagnostic)
  /-- The error is beyond the limit. -/
  | refused {limit : Nat} (isError : diagnostic.isError = true)
    (isLimit : reporter.errorLimit? = some limit) (isBeyond : limit ≤ reporter.errorCount) :
    Reported reporter diagnostic
      (.error (.errorLimit limit), reporter.countError.record (errorLimitNote limit diagnostic))
  /-- The warning is recorded. -/
  | warning (isWarning : diagnostic.isError = false)
    (isWithin : ∀ limit, reporter.warningLimit? = some limit → reporter.warningCount < limit) :
    Reported reporter diagnostic
      (.ok (), reporter.countWarning.record diagnostic)
  /-- The warning is the first one beyond the limit. -/
  | noted {limit : Nat} (isWarning : diagnostic.isError = false)
    (isLimit : reporter.warningLimit? = some limit) (isFirst : reporter.warningCount = limit) :
    Reported reporter diagnostic
      (.ok (), reporter.countWarning.record (warningLimitNote limit diagnostic))
  /-- The warning is dropped. -/
  | dropped {limit : Nat} (isWarning : diagnostic.isError = false)
    (isLimit : reporter.warningLimit? = some limit) (isBeyond : limit < reporter.warningCount) :
    Reported reporter diagnostic (.ok (), reporter)

theorem reported_report (reporter : Reporter) (diagnostic : Diagnostic) :
    reporter.Reported diagnostic (reporter.report diagnostic) := by
  rw [report]
  split
  · rename_i isError
    dsimp only [reportError]
    split
    · rename_i limit isLimit
      split
      · exact .refused isError isLimit (by omega)
      · refine .error isError fun other same => ?_
        rw [isLimit] at same
        cases same
        omega
    · rename_i isUnlimited
      refine .error isError fun other same => ?_
      rw [isUnlimited] at same
      cases same
  · rename_i isOther
    have isWarning := Bool.eq_false_iff.mpr isOther
    dsimp only [reportWarning]
    split
    · rename_i limit isLimit
      split
      · refine .warning isWarning fun other same => ?_
        rw [isLimit] at same
        cases same
        assumption
      · split
        · exact .noted isWarning isLimit (by assumption)
        · exact .dropped isWarning isLimit (by omega)
    · rename_i isUnlimited
      refine .warning isWarning fun other same => ?_
      rw [isUnlimited] at same
      cases same

theorem report_of_warning (reporter : Reporter) (isWarning : diagnostic.isError = false) :
    reporter.report diagnostic = (.ok (), reporter.reportWarning diagnostic) :=
  if_neg (Bool.eq_false_iff.mp isWarning)

/-! ### Appended diagnostics -/

/-- Whether diagnostics were appended to those of a reporter, and the errors among them counted. -/
structure Appends (reporter after : Reporter) (appended : List Diagnostic) : Prop where
  diagnostics : after.diagnostics.toList = reporter.diagnostics.toList ++ appended
  errorCount : after.errorCount = reporter.errorCount + appended.countP (·.isError)

namespace Appends

theorem refl (reporter : Reporter) : reporter.Appends reporter [] :=
  ⟨(List.append_nil _).symm, rfl⟩

theorem trans (earlier : reporter.Appends middle first) (later : middle.Appends after second) :
    reporter.Appends after (first ++ second) where
  diagnostics := by
    rw [later.diagnostics, earlier.diagnostics, List.append_assoc]
  errorCount := by
    rw [later.errorCount, earlier.errorCount, List.countP_append, Nat.add_assoc]

end Appends

/-- One more diagnostic may be recorded when it is counted, if it is an error. -/
theorem appends_record {counted : Reporter} (same : counted.diagnostics = reporter.diagnostics)
    (errorCount : counted.errorCount =
      if diagnostic.isError then reporter.errorCount + 1 else reporter.errorCount) :
    reporter.Appends (counted.record diagnostic) [diagnostic] where
  diagnostics := by
    rw [toList_record, same]
  errorCount := by
    rw [List.countP_singleton]
    show counted.errorCount = _
    rw [errorCount]
    split <;> rfl

theorem exists_appends_report (reporter : Reporter) (diagnostic : Diagnostic) :
    ∃ appended, reporter.Appends (reporter.report diagnostic).2 appended := by
  have reported := reporter.reported_report diagnostic
  generalize reporter.report diagnostic = result at reported
  cases reported with
  | error isError => exact ⟨[diagnostic], appends_record rfl (if_pos isError).symm⟩
  | refused isError => exact ⟨[_], appends_record rfl (if_pos isError).symm⟩
  | warning isWarning =>
    exact ⟨[diagnostic], appends_record rfl (if_neg (Bool.eq_false_iff.mp isWarning)).symm⟩
  | noted => exact ⟨[_], appends_record rfl rfl⟩
  | dropped => exact ⟨[], .refl reporter⟩

theorem Reports.exists_appends {failures : List Failure} (reports : reporter.Reports after failures) :
    ∃ appended, reporter.Appends after appended := by
  induction reports with
  | none => exact ⟨[], .refl reporter⟩
  | accepted _ accepted ih =>
    obtain ⟨first, appends⟩ := ih
    obtain ⟨second, more⟩ := exists_appends_report _ _
    rw [accepted] at more
    exact ⟨first ++ second, appends.trans more⟩
  | refused _ refused ih =>
    obtain ⟨first, appends⟩ := ih
    obtain ⟨second, more⟩ := exists_appends_report _ _
    rw [refused] at more
    exact ⟨first ++ second, appends.trans more⟩

end YulCheck.Reporter
