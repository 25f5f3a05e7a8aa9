import YulCheck.Proofs.Report.Feed

/-! # Reporters with and without limits

A reporter with limits follows one without limits when it is fed with all that the other one has
recorded. As long as no report is refused, both have counted the same errors. They may differ in the
warnings, but what the one with limits lacks was dropped, and then it drops all later warnings too.
-/

namespace YulCheck.Reporter

variable {reporter full limited after : Reporter} {diagnostic : Diagnostic} {failure : Failure}
  {errorLimit? warningLimit? : Option Nat}

/-- Whether a reporter accepts any number of reports. -/
def IsUnlimited (reporter : Reporter) : Prop :=
  reporter.errorLimit? = none ∧ reporter.warningLimit? = none

/-- Whether a reporter drops all warnings from now on. -/
def IsSaturated (reporter : Reporter) : Prop :=
  ∃ limit, reporter.warningLimit? = some limit ∧ limit < reporter.warningCount

/-- Without limits every report is recorded. -/
theorem IsUnlimited.exists_report (isUnlimited : reporter.IsUnlimited) (diagnostic : Diagnostic) :
    ∃ after, reporter.report diagnostic = (.ok (), after) ∧ after.IsUnlimited ∧
      after.diagnostics.toList = reporter.diagnostics.toList ++ [diagnostic] := by
  obtain ⟨noErrorLimit, noWarningLimit⟩ := isUnlimited
  have reported := reporter.reported_report diagnostic
  generalize reporter.report diagnostic = result at reported ⊢
  cases reported with
  | error | warning => exact ⟨_, rfl, ⟨noErrorLimit, noWarningLimit⟩, toList_record _ _⟩
  | refused _ isLimit =>
    rw [noErrorLimit] at isLimit
    cases isLimit
  | noted _ isLimit | dropped _ isLimit =>
    rw [noWarningLimit] at isLimit
    cases isLimit

theorem IsSaturated.reportWarning (isSaturated : reporter.IsSaturated) (diagnostic : Diagnostic) :
    reporter.reportWarning diagnostic = reporter := by
  obtain ⟨limit, isLimit, isBeyond⟩ := isSaturated
  dsimp only [Reporter.reportWarning]
  rw [isLimit]
  dsimp only
  rw [if_neg (by omega), if_neg (by omega)]

theorem IsSaturated.of_accepted (accepted : reporter.report diagnostic = (.ok (), after))
    (isSaturated : reporter.IsSaturated) : after.IsSaturated := by
  obtain ⟨limit, isLimit, isBeyond⟩ := isSaturated
  have reported := reporter.reported_report diagnostic
  rw [accepted] at reported
  cases reported with
  | error | dropped => exact ⟨limit, isLimit, isBeyond⟩
  | warning | noted => exact ⟨limit, isLimit, Nat.lt_succ_of_lt isBeyond⟩

/-- A report that is not refused is recorded, or no warning is recorded after it. -/
theorem mem_or_isSaturated_of_accepted (accepted : reporter.report diagnostic = (.ok (), after)) :
    diagnostic ∈ after.diagnostics.toList ∨ after.IsSaturated := by
  have reported := reporter.reported_report diagnostic
  rw [accepted] at reported
  cases reported with
  | error | warning =>
    left
    rw [toList_record]
    exact List.mem_append_right _ List.mem_cons_self
  | @noted limit _ isLimit isFirst =>
    exact .inr ⟨limit, isLimit, isFirst ▸ Nat.lt_succ_self _⟩
  | dropped _ isLimit isBeyond => exact .inr ⟨_, isLimit, isBeyond⟩

/-- What is recorded after a report that is not refused was recorded before, is the report or is the
note about dropped warnings. -/
theorem mem_of_accepted (accepted : reporter.report diagnostic = (.ok (), after))
    {recorded : Diagnostic} (member : recorded ∈ after.diagnostics.toList) :
    recorded ∈ reporter.diagnostics.toList ∨ recorded = diagnostic ∨ recorded.code = 4591 := by
  have reported := reporter.reported_report diagnostic
  rw [accepted] at reported
  cases reported with
  | error | warning =>
    rw [toList_record, List.mem_append, List.mem_singleton] at member
    exact member.imp_right .inl
  | noted =>
    rw [toList_record, List.mem_append, List.mem_singleton] at member
    rcases member with member | rfl
    · exact .inl member
    · exact .inr (.inr rfl)
  | dropped => exact .inl member

/-- Whether a reporter with limits was fed with all that one without limits has recorded. -/
structure Follows (errorLimit? warningLimit? : Option Nat) (full limited : Reporter) : Prop where
  isUnlimited : full.IsUnlimited
  fed : (withLimits errorLimit? warningLimit?).reportAll full.diagnostics.toList = (.ok (), limited)
  errorCount : limited.errorCount = full.errorCount
  /-- What is recorded without limits is also recorded with them, or warnings are dropped. -/
  heard : ∀ diagnostic ∈ full.diagnostics.toList,
    diagnostic ∈ limited.diagnostics.toList ∨ limited.IsSaturated
  /-- What is recorded with limits is also recorded without them, apart from the note about warnings. -/
  known : ∀ diagnostic ∈ limited.diagnostics.toList,
    diagnostic ∈ full.diagnostics.toList ∨ diagnostic.code = 4591

namespace Follows

theorem start (errorLimit? warningLimit? : Option Nat) :
    Follows errorLimit? warningLimit? unlimited (withLimits errorLimit? warningLimit?) :=
  ⟨⟨rfl, rfl⟩, rfl, rfl, nofun, nofun⟩

/-- A report that is not refused keeps two reporters together. -/
theorem of_accepted (follows : Follows errorLimit? warningLimit? full limited)
    (accepted : limited.report diagnostic = (.ok (), after)) :
    Follows errorLimit? warningLimit? (full.report diagnostic).2 after := by
  obtain ⟨next, reported, isUnlimited, diagnostics⟩ := follows.isUnlimited.exists_report diagnostic
  obtain ⟨appended, appends⟩ := limited.exists_appends_report diagnostic
  have fullCount := full.errorCount_report diagnostic
  have limitedCount := limited.errorCount_report diagnostic
  rw [accepted] at limitedCount appends
  rw [reported] at fullCount ⊢
  refine ⟨isUnlimited, ?_, ?_, ?_, ?_⟩
  · rw [diagnostics, reportAll_concat_of_accepted follows.fed]
    exact accepted
  · rw [fullCount, limitedCount, follows.errorCount]
  · intro item member
    rw [diagnostics, List.mem_append, List.mem_singleton] at member
    rcases member with member | rfl
    · refine (follows.heard item member).imp (fun recorded => ?_) (.of_accepted accepted)
      rw [appends.diagnostics]
      exact List.mem_append_left _ recorded
    · exact mem_or_isSaturated_of_accepted accepted
  · intro recorded member
    rw [diagnostics, List.mem_append, List.mem_singleton]
    rcases mem_of_accepted accepted member with member | same | isNote
    · exact (follows.known recorded member).imp_left .inl
    · exact .inl (.inr same)
    · exact .inr isNote

/-- A report that is refused ends the feed. -/
theorem of_refused (follows : Follows errorLimit? warningLimit? full limited)
    (refused : limited.report diagnostic = (.error failure, after)) :
    (withLimits errorLimit? warningLimit?).reportAll
      (full.report diagnostic).2.diagnostics.toList = (.error failure, after) := by
  obtain ⟨next, reported, _, diagnostics⟩ := follows.isUnlimited.exists_report diagnostic
  rw [reported, diagnostics, reportAll_concat_of_accepted follows.fed]
  exact refused

end Follows

theorem hasAny_singleton (reporter : Reporter) (code : Nat) :
    reporter.hasAny [code] = true ↔ ∃ recorded ∈ reporter.diagnostics.toList, recorded.code = code := by
  rw [hasAny, ← Array.any_toList, List.any_eq_true]
  simp only [List.contains_eq_mem, List.mem_singleton, decide_eq_true_eq]

/-- A number that is recorded without limits is recorded with them, unless warnings are dropped. -/
theorem Follows.hasAny_or_isSaturated (follows : Follows errorLimit? warningLimit? full limited)
    {code : Nat} (isRecorded : full.hasAny [code] = true) :
    limited.hasAny [code] = true ∨ limited.IsSaturated := by
  obtain ⟨recorded, member, same⟩ := (hasAny_singleton full code).mp isRecorded
  exact (follows.heard recorded member).imp_left
    fun member => (hasAny_singleton limited code).mpr ⟨recorded, member, same⟩

theorem Follows.hasAny (follows : Follows errorLimit? warningLimit? full limited) {code : Nat}
    (notNote : code ≠ 4591) (isRecorded : limited.hasAny [code] = true) :
    full.hasAny [code] = true := by
  obtain ⟨recorded, member, same⟩ := (hasAny_singleton limited code).mp isRecorded
  rcases follows.known recorded member with member | isNote
  · exact (hasAny_singleton full code).mpr ⟨recorded, member, same⟩
  · exact absurd (same.symm.trans isNote) notNote

end YulCheck.Reporter
