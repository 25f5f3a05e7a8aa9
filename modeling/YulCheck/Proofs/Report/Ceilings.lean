import Mathlib.Data.List.Forall2
import YulCheck.Proofs.Report.Reports

/-! # Two independent limits

Errors and warnings are numbered separately. Whatever is reported in whatever order, also after a
report was refused, what becomes of a report depends on its number and on the limit of its own severity
alone: within the limit it is recorded as it is, every error beyond its limit is refused and leaves a
note, and only the first warning beyond its limit leaves one.
-/

namespace YulCheck.Reporter

variable {reporter : Reporter} {errorLimit? warningLimit? : Option Nat}
  {before : List Diagnostic} {diagnostic : Diagnostic}

/-! ### Single reports -/

/-- What becomes of a report that has a number among those of its severity: how it is answered, and
what is recorded for it. -/
inductive Becomes (errorLimit? warningLimit? : Option Nat) (number : Nat) (diagnostic : Diagnostic) :
    Except Failure Unit × List Diagnostic → Prop
  /-- The error is recorded. -/
  | error (isError : diagnostic.isError = true)
    (isWithin : ∀ limit, errorLimit? = some limit → number ≤ limit) :
    Becomes errorLimit? warningLimit? number diagnostic (.ok (), [diagnostic])
  /-- The error is beyond the limit. -/
  | refused {limit : Nat} (isError : diagnostic.isError = true) (isLimit : errorLimit? = some limit)
    (isBeyond : limit < number) :
    Becomes errorLimit? warningLimit? number diagnostic
      (.error (.errorLimit limit), [errorLimitNote limit diagnostic])
  /-- The warning is recorded. -/
  | warning (isWarning : diagnostic.isError = false)
    (isWithin : ∀ limit, warningLimit? = some limit → number ≤ limit) :
    Becomes errorLimit? warningLimit? number diagnostic (.ok (), [diagnostic])
  /-- The warning is the first one beyond the limit. -/
  | noted {limit : Nat} (isWarning : diagnostic.isError = false)
    (isLimit : warningLimit? = some limit) (isFirst : number = limit + 1) :
    Becomes errorLimit? warningLimit? number diagnostic
      (.ok (), [warningLimitNote limit diagnostic])
  /-- The warning is beyond the limit, and not the first one. -/
  | dropped {limit : Nat} (isWarning : diagnostic.isError = false)
    (isLimit : warningLimit? = some limit) (isLater : limit + 1 < number) :
    Becomes errorLimit? warningLimit? number diagnostic (.ok (), [])

/-- The number of the next report among those of its severity. -/
def nextNumber (before : List Diagnostic) (diagnostic : Diagnostic) : Nat :=
  before.countP (·.isError = diagnostic.isError) + 1

theorem nextNumber_of_error (isError : diagnostic.isError = true) (before : List Diagnostic) :
    nextNumber before diagnostic = before.countP (·.isError) + 1 := by
  simp only [nextNumber, isError, Bool.decide_eq_true]

theorem nextNumber_of_warning (isWarning : diagnostic.isError = false) (before : List Diagnostic) :
    nextNumber before diagnostic = before.countP (!·.isError) + 1 := by
  simp only [nextNumber, isWarning, Bool.decide_eq_false]

/-- Whether a reporter has the limits and the counts that it should have after some reports. Warnings
are counted up to the first one beyond the limit. -/
structure HasHeard (errorLimit? warningLimit? : Option Nat) (before : List Diagnostic)
    (reporter : Reporter) : Prop where
  errorLimit : reporter.errorLimit? = errorLimit?
  warningLimit : reporter.warningLimit? = warningLimit?
  errorCount : reporter.errorCount = before.countP (·.isError)
  warningCount : ∀ limit, warningLimit? = some limit →
    reporter.warningCount = min (before.countP (!·.isError)) (limit + 1)

theorem hasHeard_withLimits (errorLimit? warningLimit? : Option Nat) :
    HasHeard errorLimit? warningLimit? [] (withLimits errorLimit? warningLimit?) :=
  ⟨rfl, rfl, rfl, fun _ _ => (Nat.zero_min _).symm⟩

namespace HasHeard

/-- An error is counted, and no warning. -/
theorem countError (heard : HasHeard errorLimit? warningLimit? before reporter)
    (isError : diagnostic.isError = true) (recorded : Diagnostic) :
    HasHeard errorLimit? warningLimit? (before ++ [diagnostic])
      (reporter.countError.record recorded) where
  errorLimit := heard.errorLimit
  warningLimit := heard.warningLimit
  errorCount := by
    rw [List.countP_append, List.countP_singleton, if_pos isError, ← heard.errorCount]
    rfl
  warningCount limit isLimit := by
    rw [List.countP_append, List.countP_singleton, isError]
    exact heard.warningCount limit isLimit

/-- A warning is no error, and is counted if it should be. -/
theorem hearWarning (heard : HasHeard errorLimit? warningLimit? before reporter)
    (isWarning : diagnostic.isError = false) {after : Reporter}
    (errorLimit : after.errorLimit? = reporter.errorLimit?)
    (warningLimit : after.warningLimit? = reporter.warningLimit?)
    (errorCount : after.errorCount = reporter.errorCount)
    (warningCount : ∀ limit, reporter.warningLimit? = some limit →
      after.warningCount = min (reporter.warningCount + 1) (limit + 1)) :
    HasHeard errorLimit? warningLimit? (before ++ [diagnostic]) after where
  errorLimit := errorLimit.trans heard.errorLimit
  warningLimit := warningLimit.trans heard.warningLimit
  errorCount := by
    rw [List.countP_append, List.countP_singleton, isWarning, errorCount, heard.errorCount]
    rfl
  warningCount limit isLimit := by
    have counted := warningCount limit (heard.warningLimit.trans isLimit)
    rw [heard.warningCount limit isLimit] at counted
    rw [List.countP_append, List.countP_singleton, isWarning, counted]
    show _ = min (_ + 1) (limit + 1)
    omega

/-- What becomes of the next report. -/
theorem report (heard : HasHeard errorLimit? warningLimit? before reporter)
    (diagnostic : Diagnostic) :
    ∃ recorded, Becomes errorLimit? warningLimit? (nextNumber before diagnostic) diagnostic
        ((reporter.report diagnostic).1, recorded) ∧
      (reporter.report diagnostic).2.diagnostics.toList =
        reporter.diagnostics.toList ++ recorded ∧
      HasHeard errorLimit? warningLimit? (before ++ [diagnostic]) (reporter.report diagnostic).2 := by
  have reported := reporter.reported_report diagnostic
  generalize reporter.report diagnostic = result at reported ⊢
  cases reported with
  | error isError isWithin =>
    refine ⟨[diagnostic], .error isError fun limit isLimit => ?_, toList_record _ _,
      heard.countError isError _⟩
    have below := isWithin limit (heard.errorLimit.trans isLimit)
    rwa [nextNumber_of_error isError, ← heard.errorCount]
  | @refused limit isError isLimit isBeyond =>
    have hasLimit := heard.errorLimit.symm.trans isLimit
    refine ⟨[errorLimitNote limit diagnostic], .refused isError hasLimit ?_, toList_record _ _,
      heard.countError isError _⟩
    rw [nextNumber_of_error isError, ← heard.errorCount]
    exact Nat.lt_succ_of_le isBeyond
  | warning isWarning isWithin =>
    refine ⟨[diagnostic], .warning isWarning fun limit isLimit => ?_, toList_record _ _,
      heard.hearWarning isWarning rfl rfl rfl fun limit isLimit => ?_⟩
    · have below := isWithin limit (heard.warningLimit.trans isLimit)
      rw [heard.warningCount limit isLimit] at below
      rw [nextNumber_of_warning isWarning]
      omega
    · have below := isWithin limit isLimit
      show reporter.warningCount + 1 = _
      omega
  | @noted limit isWarning isLimit isFirst =>
    have hasLimit := heard.warningLimit.symm.trans isLimit
    refine ⟨[warningLimitNote limit diagnostic], .noted isWarning hasLimit ?_, toList_record _ _,
      heard.hearWarning isWarning rfl rfl rfl fun other isOther => ?_⟩
    · have counted := heard.warningCount limit hasLimit
      rw [nextNumber_of_warning isWarning]
      omega
    · cases isLimit.symm.trans isOther
      show reporter.warningCount + 1 = _
      omega
  | @dropped limit isWarning isLimit isBeyond =>
    have hasLimit := heard.warningLimit.symm.trans isLimit
    have counted := heard.warningCount limit hasLimit
    refine ⟨[], .dropped isWarning hasLimit ?_, (List.append_nil _).symm,
      heard.hearWarning isWarning rfl rfl rfl fun other isOther => ?_⟩
    · rw [nextNumber_of_warning isWarning]
      omega
    · cases isLimit.symm.trans isOther
      show reporter.warningCount = _
      omega

end HasHeard

/-! ### Reporting on -/

/-- Report diagnostics one after another, whether they are refused or not. -/
def reportEach (reporter : Reporter) : List Diagnostic → List (Except Failure Unit) × Reporter
  | [] => ([], reporter)
  | diagnostic :: rest =>
    let (answer, middle) := reporter.report diagnostic
    let (answers, after) := middle.reportEach rest
    (answer :: answers, after)

/-- Reports that come after others, with their numbers. -/
def numbered : (before : List Diagnostic) → List Diagnostic → List (Nat × Diagnostic)
  | _, [] => []
  | before, diagnostic :: rest =>
    (nextNumber before diagnostic, diagnostic) :: numbered (before ++ [diagnostic]) rest

theorem HasHeard.reportEach (heard : HasHeard errorLimit? warningLimit? before reporter)
    (items : List Diagnostic) :
    ∃ results, List.Forall₂
        (fun (number, diagnostic) => Becomes errorLimit? warningLimit? number diagnostic)
        (numbered before items) results ∧
      (reporter.reportEach items).1 = results.map (·.1) ∧
      (reporter.reportEach items).2.diagnostics.toList =
        reporter.diagnostics.toList ++ results.flatMap (·.2) ∧
      HasHeard errorLimit? warningLimit? (before ++ items) (reporter.reportEach items).2 := by
  induction items generalizing reporter before with
  | nil =>
    refine ⟨[], .nil, rfl, (List.append_nil _).symm, ?_⟩
    rw [List.append_nil]
    exact heard
  | cons diagnostic rest ih =>
    obtain ⟨recorded, becomes, diagnostics, heardNext⟩ := heard.report diagnostic
    obtain ⟨results, others, answers, diagnosticsLast, heardLast⟩ := ih heardNext
    refine ⟨(_, recorded) :: results, .cons becomes others, ?_, ?_, ?_⟩
    · exact congrArg (_ :: ·) answers
    · rw [List.flatMap_cons, ← List.append_assoc, ← diagnostics]
      exact diagnosticsLast
    · rw [List.append_cons]
      exact heardLast

/-- All errors are among the recorded ones, be it as they are or as notes. -/
theorem exists_appends_reportEach (reporter : Reporter) (items : List Diagnostic) :
    ∃ appended, reporter.Appends (reporter.reportEach items).2 appended := by
  induction items generalizing reporter with
  | nil => exact ⟨[], .refl reporter⟩
  | cons diagnostic rest ih =>
    obtain ⟨first, appends⟩ := reporter.exists_appends_report diagnostic
    obtain ⟨others, appendsLater⟩ := ih (reporter.report diagnostic).2
    exact ⟨first ++ others, appends.trans appendsLater⟩

theorem length_errors_reportEach (errorLimit? warningLimit? : Option Nat) (items : List Diagnostic) :
    let after := ((withLimits errorLimit? warningLimit?).reportEach items).2
    after.errors.length = after.errorCount := by
  obtain ⟨appended, appends⟩ :=
    exists_appends_reportEach (withLimits errorLimit? warningLimit?) items
  intro after
  rw [errors, appends.diagnostics, appends.errorCount, ← List.countP_eq_length_filter]
  exact (Nat.zero_add _).symm

/-- Whatever is reported to a new reporter, every report becomes what it should by its number among
those of its severity, and what is recorded keeps the order of the reports. There are as many errors
as were reported, and a mark that was taken on the way tells whether one was reported since. -/
theorem ceilings_independent (errorLimit? warningLimit? : Option Nat) (items : List Diagnostic) :
    let start := withLimits errorLimit? warningLimit?
    let (answers, after) := start.reportEach items
    (∃ results, List.Forall₂
        (fun (number, diagnostic) => Becomes errorLimit? warningLimit? number diagnostic)
        (numbered [] items) results ∧
      answers = results.map (·.1) ∧ after.diagnostics.toList = results.flatMap (·.2)) ∧
    after.errors.length = items.countP (·.isError) ∧
    ∀ before since, items = before ++ since →
      (after.isQuietSince (start.reportEach before).2.mark = true ↔
        ∀ diagnostic ∈ since, diagnostic.isError = false) := by
  intro start
  have fresh := hasHeard_withLimits errorLimit? warningLimit?
  obtain ⟨results, become, answers, diagnostics, heard⟩ := fresh.reportEach items
  refine ⟨⟨results, become, answers, diagnostics⟩, ?_, fun before since split => ?_⟩
  · exact (length_errors_reportEach errorLimit? warningLimit? items).trans heard.errorCount
  · obtain ⟨_, _, _, _, heardBefore⟩ := fresh.reportEach before
    have count := heard.errorCount
    have countBefore := heardBefore.errorCount
    rw [List.nil_append] at count countBefore
    rw [split, List.countP_append] at count
    rw [isQuietSince, mark, decide_eq_true_iff, split, count, countBefore, Nat.add_eq_left,
      List.countP_eq_zero]
    simp only [Bool.not_eq_true]

end YulCheck.Reporter
