import YulCheck.Proofs.Report.Appended

/-! # Runs that nothing stops

Without a limit of errors every report is accepted. Then a run is stopped neither by a report nor by a
host that answers all questions, whatever the host answers and reports.
-/

namespace YulCheck

variable {σ α : Type}

/-! ### Reports without a limit of errors -/

namespace Reporter

variable {reporter after : Reporter} {failures : List Failure}

@[simp]
theorem errorLimit?_reportWarning (reporter : Reporter) (diagnostic : Diagnostic) :
    (reporter.reportWarning diagnostic).errorLimit? = reporter.errorLimit? := by
  dsimp only [reportWarning]
  split
  · split
    · rfl
    · split <;> rfl
  · rfl

theorem exists_report_of_noLimit (noLimit : reporter.errorLimit? = none) (diagnostic : Diagnostic) :
    ∃ after, reporter.report diagnostic = (.ok (), after) ∧ after.errorLimit? = none := by
  rw [report]
  split
  · dsimp only [reportError]
    rw [noLimit]
    exact ⟨_, rfl, rfl⟩
  · exact ⟨_, rfl, (reporter.errorLimit?_reportWarning diagnostic).trans noLimit⟩

theorem Reports.noLimit (reports : reporter.Reports after failures)
    (noLimit : reporter.errorLimit? = Option.none) : after.errorLimit? = Option.none := by
  induction reports with
  | none => exact noLimit
  | accepted _ accepted ih =>
    obtain ⟨next, reported, stays⟩ := exists_report_of_noLimit ih _
    cases accepted.symm.trans reported
    exact stays
  | refused _ refused ih =>
    obtain ⟨next, reported, _⟩ := exists_report_of_noLimit ih _
    cases refused.symm.trans reported

end Reporter

/-! ### Hosts that answer -/

/-- Whether a host answers all questions, and touches the reporter only by reporting. -/
def Host.NeverFails (host : Host σ) : Prop :=
  ∀ query reporter hostState, ∃ isKnown after hostStateAfter failures,
    host query (reporter, hostState) = .ok (.ok isKnown, after, hostStateAfter) ∧
      reporter.Reports after failures

theorem Host.NeverFails.isOrderly {host : Host σ} (neverFails : host.NeverFails) :
    host.IsOrderly := by
  intro query reporter hostState
  obtain ⟨isKnown, after, hostStateAfter, failures, answered, reports⟩ :=
    neverFails query reporter hostState
  exact ⟨.ok isKnown, after, hostStateAfter, failures, answered, reports, nofun⟩

variable {host? : Option (Host σ)} {state after : RunState σ}

theorem Run.not_stopped_of_answer (neverFails : ∀ host ∈ host?, host.NeverFails) {request : Request}
    {outcome : Except Failure request.Answer} (noLimit : state.reporter.errorLimit? = none)
    (answered : answer host? request state = .ok (outcome, after)) :
    (∃ result, outcome = .ok result) ∧ after.reporter.errorLimit? = none := by
  cases request with
  | report place diagnostic =>
    obtain ⟨reporter, reported, stays⟩ := Reporter.exists_report_of_noLimit noLimit diagnostic
    rw [answer, report_apply, reported] at answered
    cases answered
    exact ⟨⟨_, rfl⟩, stays⟩
  | warnOnce diagnostic =>
    cases answered
    refine ⟨⟨_, rfl⟩, ?_⟩
    dsimp only
    split
    · exact noLimit
    · exact (state.reporter.errorLimit?_reportWarning diagnostic).trans noLimit
  | consult place identifier use =>
    cases host? with
    | none =>
      cases answered
      exact ⟨⟨_, rfl⟩, noLimit⟩
    | some host =>
      obtain ⟨isKnown, reporter, hostState, failures, given, reports⟩ := neverFails host rfl
        ⟨identifier, use, (state.facts.scopeOf? (.block place.block)).any
          state.facts.scopes.isInFunction⟩ state.reporter state.hostState
      rw [answer, consult_some, given] at answered
      cases answered
      exact ⟨⟨_, rfl⟩, reports.noLimit noLimit⟩
  | _ =>
    obtain ⟨isAnswered, _, _, _, rfl⟩ := exists_of_answer (by trivial) answered
    exact ⟨isAnswered, noLimit⟩

/-- Without a limit of errors a run ends with a result unless it breaks off. -/
theorem Walk.not_stopped_of_run (neverFails : ∀ host ∈ host?, host.NeverFails) {walk : Walk α}
    {outcome : Except Failure α} (noLimit : state.reporter.errorLimit? = none)
    (ran : walk.run host? state = .ok (outcome, after)) : ∃ result, outcome = .ok result := by
  induction walk generalizing state with
  | done result =>
    cases ran
    exact ⟨result, rfl⟩
  | broken fault => cases ran
  | step request next ih =>
    rw [run_step, Run.bind_apply] at ran
    rcases answered : Run.answer host? request state with fault | ⟨given, between⟩
    · rw [answered] at ran
      cases ran
    · obtain ⟨⟨answer, rfl⟩, stays⟩ := Run.not_stopped_of_answer neverFails noLimit answered
      rw [answered] at ran
      exact ih answer stays ran

end YulCheck
