import YulCheck.Host.Rules

/-! # Hosts that report

A host may do what it likes with its own state, but should touch the reporter only by reporting, and
fail only with a failure that the reporter told it of. Hosts from rules do so unless a rule fails or
names a label.
-/

namespace YulCheck

variable {σ : Type}

/-! ### Reports -/

namespace Reporter

/-- What reports make of a reporter, with the failures that were told of them. -/
inductive Reports (reporter : Reporter) : Reporter → List Failure → Prop
  | none : Reports reporter reporter []
  | accepted {middle after : Reporter} {failures : List Failure} {diagnostic : Diagnostic}
    (reports : Reports reporter middle failures)
    (accepted : middle.report diagnostic = (.ok (), after)) : Reports reporter after failures
  | refused {middle after : Reporter} {failures : List Failure} {diagnostic : Diagnostic}
    {failure : Failure} (reports : Reports reporter middle failures)
    (refused : middle.report diagnostic = (.error failure, after)) :
    Reports reporter after (failure :: failures)

variable {reporter after : Reporter} {failures : List Failure}

theorem errorCount_le_of_report {diagnostic : Diagnostic} {outcome : Except Failure Unit}
    (reported : reporter.report diagnostic = (outcome, after)) :
    reporter.errorCount ≤ after.errorCount := by
  have count := reporter.errorCount_report diagnostic
  rw [reported] at count
  rw [count]
  split <;> omega

/-- A report is refused only if it is one of an error. -/
theorem errorCount_lt_of_report {diagnostic : Diagnostic} {failure : Failure}
    (refused : reporter.report diagnostic = (.error failure, after)) :
    reporter.errorCount < after.errorCount := by
  have count := reporter.errorCount_report diagnostic
  rw [refused] at count
  rw [report] at refused
  split at refused <;> rename_i isError
  · rw [count, if_pos isError]
    exact Nat.lt_succ_self _
  · cases refused

theorem Reports.errorCount_le (reports : reporter.Reports after failures) :
    reporter.errorCount ≤ after.errorCount := by
  induction reports with
  | none => exact Nat.le_refl _
  | accepted _ accepted ih => exact Nat.le_trans ih (errorCount_le_of_report accepted)
  | refused _ refused ih => exact Nat.le_trans ih (errorCount_le_of_report refused)

/-- Who is told a failure has reported an error. -/
theorem Reports.errorCount_lt (reports : reporter.Reports after failures)
    (isRefused : failures ≠ []) : reporter.errorCount < after.errorCount := by
  induction reports with
  | none => exact absurd rfl isRefused
  | accepted _ accepted ih => exact Nat.lt_of_lt_of_le (ih isRefused) (errorCount_le_of_report accepted)
  | refused reports refused _ =>
    exact Nat.lt_of_le_of_lt reports.errorCount_le (errorCount_lt_of_report refused)

end Reporter

/-- Whether a host answers all questions, touches the reporter only by reporting, and fails only with
a failure that it was told of since it was asked. -/
def Host.IsOrderly (host : Host σ) : Prop :=
  ∀ query reporter hostState, ∃ answer after hostStateAfter failures,
    host query (reporter, hostState) = .ok (answer, after, hostStateAfter) ∧
      reporter.Reports after failures ∧ ∀ failure, answer = .error failure → failure ∈ failures

/-! ### Hosts from rules -/

theorem Reporter.Reports.trans {first second third : Reporter} {failures more : List Failure}
    (reports : first.Reports second failures) (later : second.Reports third more) :
    first.Reports third (more ++ failures) := by
  induction later with
  | none => exact reports
  | accepted _ accepted ih => exact ih.accepted accepted
  | refused _ refused ih => exact ih.refused refused

namespace HostRule

/-- The reports of a rule are made one after another, and the first one that is refused is told of. -/
theorem exists_reports_report (span : Span) (entries : List HostReport) (reporter : Reporter) :
    ∃ failures, reporter.Reports (report span entries reporter).2 failures ∧
      ∀ failure, (report span entries reporter).1 = .error failure → failure ∈ failures := by
  induction entries generalizing reporter with
  | nil => exact ⟨[], .none, nofun⟩
  | cons entry rest ih =>
    rw [report]
    split
    · rename_i middle accepted
      obtain ⟨failures, reports, known⟩ := ih middle
      refine ⟨failures ++ [], (Reporter.Reports.none.accepted accepted).trans reports, ?_⟩
      rw [List.append_nil]
      exact known
    · rename_i failure middle refused
      refine ⟨[failure], Reporter.Reports.none.refused refused, ?_⟩
      rintro _ ⟨rfl⟩
      exact List.mem_cons_self

/-- Whether a rule names no label and does not fail. -/
def IsPlain (rule : HostRule) : Prop := rule.label? = none ∧ ∀ failure, rule.answer ≠ .failure failure

theorem exists_find? (names : NameTable) (query : Query) {rules : List HostRule}
    (plain : ∀ rule ∈ rules, rule.IsPlain) :
    ∃ rule?, find? names query rules = .ok rule? ∧ ∀ rule ∈ rule?, rule.IsPlain := by
  induction rules with
  | nil => exact ⟨none, rfl, nofun⟩
  | cons rule rest ih =>
    rw [List.forall_mem_cons] at plain
    obtain ⟨isFit, fits⟩ : ∃ isFit, rule.fits names query = .ok isFit := by
      rw [fits, plain.1.1]
      exact ⟨_, rfl⟩
    rw [find?, fits]
    cases isFit with
    | true => exact ⟨some rule, rfl, by rintro _ ⟨rfl⟩; exact plain.1⟩
    | false => exact ih plain.2

end HostRule

/-- What a host gives back for the answer of a rule whose reports are all recorded. -/
def HostAnswer.outcome : HostAnswer → Except Failure Bool
  | .known => .ok true
  | .unknown => .ok false
  | .failure reported => .error reported

/-- A host of rules makes the reports of the rule that fits, and then gives back its answer. -/
theorem Host.ofRules_of_found {names : NameTable} {rules : List HostRule} {query : Query}
    {rule : HostRule} (found : HostRule.find? names query rules = .ok (some rule))
    (reporter : Reporter) (asked : List Query) :
    Host.ofRules names rules query (reporter, asked) =
      .ok ((HostRule.report query.identifier.span rule.reports reporter).1 >>=
          fun _ => rule.answer.outcome,
        (HostRule.report query.identifier.span rule.reports reporter).2, query :: asked) := by
  rcases rule with ⟨_, _, _, reports, answer⟩
  rw [ofRules, found]
  cases answer with
  | known | unknown | failure => rfl

theorem Host.isOrderly_ofRules (names : NameTable) {rules : List HostRule}
    (plain : ∀ rule ∈ rules, rule.IsPlain) : (Host.ofRules names rules).IsOrderly := by
  intro query reporter asked
  obtain ⟨rule?, found, isPlain⟩ := HostRule.exists_find? names query plain
  cases rule? with
  | none =>
    refine ⟨.ok false, reporter, query :: asked, [], ?_, .none, nofun⟩
    rw [ofRules, found]
    rfl
  | some rule =>
    obtain ⟨failures, reports, known⟩ :=
      HostRule.exists_reports_report query.identifier.span rule.reports reporter
    refine ⟨_, _, query :: asked, failures, ofRules_of_found found reporter asked, reports, ?_⟩
    intro failure isFailure
    rcases told : (HostRule.report query.identifier.span rule.reports reporter).1 with other | _
    · rw [told] at isFailure
      cases isFailure
      exact known _ told
    · rw [told] at isFailure
      obtain ⟨_, noFailure⟩ := isPlain rule rfl
      cases answered : rule.answer with
      | known | unknown =>
        rw [answered] at isFailure
        cases isFailure
      | failure other => exact absurd answered (noFailure other)

end YulCheck
