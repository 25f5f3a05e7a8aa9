import YulCheck.Check.Checker
import YulCheck.Proofs.Report.Findings
import YulCheck.Proofs.Report.Reports

/-! # What a run appends

A run leaves the diagnostics alone that are there and appends its own. The number of errors grows by
the number of errors among them, and a run that is stopped has appended one. So the verdict on a
program can be read off the diagnostics that checking it has appended.
-/

namespace YulCheck

variable {σ α : Type}

/-! ### Runs -/

/-- Whether a host touches the reporter only by reporting, and fails only with a failure that it was
told of since it was asked. It may leave questions without an answer. -/
def Host.OnlyReports (host : Host σ) : Prop :=
  ∀ query reporter hostState answer after hostStateAfter,
    host query (reporter, hostState) = .ok (answer, after, hostStateAfter) →
      ∃ failures, reporter.Reports after failures ∧
        ∀ failure, answer = .error failure → failure ∈ failures

theorem Host.IsOrderly.onlyReports {host : Host σ} (orderly : host.IsOrderly) : host.OnlyReports := by
  intro query reporter hostState answer after hostStateAfter answered
  obtain ⟨_, _, _, failures, same, reports, known⟩ := orderly query reporter hostState
  rw [answered] at same
  cases same
  exact ⟨failures, reports, known⟩

theorem Host.onlyReports_none : ∀ host ∈ (none : Option (Host σ)), host.OnlyReports :=
  fun host isSome => absurd isSome (Option.not_mem_none host)

namespace Run

variable {host? : Option (Host σ)} {state after : RunState σ}

/-- Whether a part of a run appended diagnostics, and was not stopped unless it counted an error. -/
def Appends (state after : RunState σ) (outcome : Except Failure α) : Prop :=
  (∃ appended, state.reporter.Appends after.reporter appended) ∧
    ∀ failure, outcome = .error failure → state.reporter.errorCount < after.reporter.errorCount

theorem appends_of_ok {result : α} {appended : List Diagnostic}
    (appends : state.reporter.Appends after.reporter appended) :
    Appends state after (.ok result) := by
  refine ⟨⟨appended, appends⟩, fun failure isStopped => ?_⟩
  cases isStopped

theorem appends_of_same {result : α} (same : after.reporter = state.reporter) :
    Appends state after (.ok result) := by
  have appends : state.reporter.Appends after.reporter [] := same ▸ .refl _
  exact appends_of_ok appends

theorem appends_of_consult (onlyReports : ∀ host ∈ host?, host.OnlyReports) {place : Place}
    {identifier : Identifier} {use : IdentifierUse} {outcome : Except Failure Bool}
    (answered : consult host? place identifier use state = .ok (outcome, after)) :
    Appends state after outcome := by
  cases host? with
  | none =>
    cases answered
    exact appends_of_same rfl
  | some host =>
    rw [consult_some] at answered
    split at answered
    · cases answered
    · rename_i asked
      cases answered
      obtain ⟨failures, reports, _⟩ := onlyReports host rfl _ _ _ _ _ _ asked
      obtain ⟨appended, appends⟩ := reports.exists_appends
      exact appends_of_ok appends
    · rename_i failure _ _ asked
      cases answered
      obtain ⟨failures, reports, known⟩ := onlyReports host rfl _ _ _ _ _ _ asked
      refine ⟨reports.exists_appends, fun _ _ => reports.errorCount_lt ?_⟩
      exact List.ne_nil_of_mem (known failure rfl)

theorem appends_of_report {place : Place} {diagnostic : Diagnostic} {outcome : Except Failure Unit}
    (answered : report place diagnostic state = .ok (outcome, after)) :
    Appends state after outcome := by
  refine ⟨?_, fun failure isStopped => ?_⟩
  · rw [reporter_of_report answered]
    exact state.reporter.exists_appends_report diagnostic
  · subst isStopped
    rw [report_apply] at answered
    split at answered
    · cases answered
    · rename_i refused
      cases answered
      exact Reporter.errorCount_lt_of_report refused

theorem appends_of_answer (onlyReports : ∀ host ∈ host?, host.OnlyReports) {request : Request}
    {outcome : Except Failure request.Answer} (finds : request.ReportsFindings)
    (answered : answer host? request state = .ok (outcome, after)) :
    Appends state after outcome := by
  cases request with
  | report place diagnostic => exact appends_of_report answered
  | consult place identifier use => exact appends_of_consult onlyReports answered
  | warnOnce diagnostic =>
    obtain ⟨span, rfl⟩ := finds
    cases answered
    dsimp only
    split
    · exact appends_of_same rfl
    · obtain ⟨appended, appends⟩ := state.reporter.exists_appends_report
        (Finding.transientStorage.toDiagnostic span)
      rw [Reporter.report_of_warning _ rfl] at appends
      exact appends_of_ok appends
  | _ =>
    obtain ⟨⟨_, rfl⟩, _, _, _, rfl⟩ := exists_of_answer (by trivial) answered
    exact appends_of_same rfl

end Run

/-- What a run appends when it is carried out. -/
theorem Walk.appends_of_run {host? : Option (Host σ)}
    (onlyReports : ∀ host ∈ host?, host.OnlyReports) {walk : Walk α}
    (finds : walk.Only Request.ReportsFindings) {state after : RunState σ}
    {outcome : Except Failure α} (ran : walk.run host? state = .ok (outcome, after)) :
    Run.Appends state after outcome := by
  induction walk generalizing state with
  | done result =>
    cases ran
    exact Run.appends_of_same rfl
  | broken fault => cases ran
  | step request next ih =>
    rw [run_step, Run.bind_apply] at ran
    rcases answered : Run.answer host? request state with fault | ⟨failure | answer, middle⟩
    · rw [answered] at ran
      cases ran
    · rw [answered] at ran
      cases ran
      obtain ⟨appends, isCounted⟩ := Run.appends_of_answer onlyReports finds.1 answered
      exact ⟨appends, fun _ _ => isCounted failure rfl⟩
    · rw [answered] at ran
      obtain ⟨⟨first, earlier⟩, _⟩ := Run.appends_of_answer onlyReports finds.1 answered
      obtain ⟨⟨second, later⟩, isCounted⟩ := ih answer (finds.2 answer) ran
      refine ⟨⟨first ++ second, earlier.trans later⟩, fun failure isStopped => ?_⟩
      exact Nat.lt_of_le_of_lt (earlier.errorCount ▸ Nat.le_add_right _ _)
        (isCounted failure isStopped)

/-! ### Verdicts -/

namespace Checker

variable {checker : Checker} {host? : Option (Host σ)} {reporter : Reporter} {facts : Facts}
  {hostState : σ} {block : Block}

/-- The run over a block. -/
def runOver (checker : Checker) (host? : Option (Host σ)) (reporter : Reporter) (facts : Facts)
    (hostState : σ) (block : Block) : Except Fault (Except Failure Unit × RunState σ) :=
  (checker.setting.checkProgram (checker.place block) block).run host?
    (checker.start reporter facts hostState)

theorem appends_of_runOver (onlyReports : ∀ host ∈ host?, host.OnlyReports)
    {outcome : Except Failure Unit} {state : RunState σ}
    (ran : checker.runOver host? reporter facts hostState block = .ok (outcome, state)) :
    (∃ appended, reporter.Appends state.reporter appended) ∧
      ∀ failure, outcome = .error failure → reporter.errorCount < state.reporter.errorCount :=
  Walk.appends_of_run onlyReports (Setting.findings_checkProgram _ _ block) ran

/-- What is handed back after a run, which cannot be stopped without an error. -/
theorem analyze_of_runOver (onlyReports : ∀ host ∈ host?, host.OnlyReports)
    {outcome : Except Failure Unit} {state : RunState σ}
    (ran : checker.runOver host? reporter facts hostState block = .ok (outcome, state)) :
    checker.analyze host? reporter facts hostState block = .ok {
      isCorrect := decide (state.reporter.errorCount = reporter.errorCount)
      reporter := state.reporter
      facts := state.facts
      hostState := state.hostState
      checker :=
        { checker with
          active := state.active, inLoop := state.inLoop, inFunction := state.inFunction } } := by
  obtain ⟨_, isCounted⟩ := appends_of_runOver onlyReports ran
  rw [runOver] at ran
  rw [analyze, ran]
  cases outcome with
  | ok result => rfl
  | error failure =>
    have more := isCounted failure rfl
    have isNoisy : decide (state.reporter.errorCount = reporter.errorCount) = false :=
      decide_eq_false (by omega)
    show (if (true && decide (state.reporter.errorCount = reporter.errorCount)) = true then _
      else _) = _
    rw [isNoisy]
    rfl

/-- The verdict on a program is what the appended diagnostics say: it is correct if there is no error
among them, and a run that is stopped has appended one. -/
theorem isCorrect_iff_appended (onlyReports : ∀ host ∈ host?, host.OnlyReports)
    (checker : Checker) (reporter : Reporter) (facts : Facts) (hostState : σ) (block : Block) :
    (∀ analysis, checker.analyze host? reporter facts hostState block = .ok analysis →
      ∃ appended,
        analysis.reporter.diagnostics.toList = reporter.diagnostics.toList ++ appended ∧
          (analysis.isCorrect = true ↔ ∀ diagnostic ∈ appended, diagnostic.isError = false)) ∧
      ∀ failure state,
        checker.runOver host? reporter facts hostState block = .ok (.error failure, state) →
          ∃ analysis, checker.analyze host? reporter facts hostState block = .ok analysis ∧
            analysis.reporter = state.reporter ∧ analysis.isCorrect = false := by
  constructor
  · intro analysis analyzed
    rcases ran : checker.runOver host? reporter facts hostState block with fault | ⟨outcome, state⟩
    · rw [runOver] at ran
      rw [analyze, ran] at analyzed
      cases analyzed
    · rw [analyze_of_runOver onlyReports ran] at analyzed
      cases analyzed
      obtain ⟨⟨appended, appends⟩, _⟩ := appends_of_runOver onlyReports ran
      refine ⟨appended, appends.diagnostics, ?_⟩
      rw [decide_eq_true_iff, appends.errorCount, Nat.add_eq_left, List.countP_eq_zero]
      simp only [Bool.not_eq_true]
  · intro failure state ran
    obtain ⟨_, isCounted⟩ := appends_of_runOver onlyReports ran
    have more := isCounted failure rfl
    exact ⟨_, analyze_of_runOver onlyReports ran, rfl, decide_eq_false (by omega)⟩

/-- A run that its host stops by an error has a verdict, and the error is among the diagnostics. -/
theorem isCorrect_iff_appended_stopped :
    let named := (NameTable.ofDialect .generic).define "x"
    let block : Block := .mk 1 .none [.expression .none (.identifier ⟨0, .none, named.1⟩)]
    let rule : HostRule := ⟨none, none, none, [⟨.declaration, 1, "x is hidden"⟩], .known⟩
    let checker : Checker := { setting := .ofNames named.2 [] }
    ∃ analysis, checker.analyze (some (.ofRules named.2 [rule])) (.withLimits (some 0) none) {} []
        block = .ok analysis ∧
      analysis.isCorrect = false ∧
        ∃ diagnostic ∈ analysis.reporter.diagnostics.toList, diagnostic.isError = true := by
  intro named block rule checker
  have plain : ∀ other ∈ [rule], other.IsPlain := List.forall_mem_singleton.mpr ⟨rfl, nofun⟩
  have onlyReports : ∀ host ∈ some (Host.ofRules named.2 [rule]), host.OnlyReports := by
    rintro _ ⟨rfl⟩
    exact (Host.isOrderly_ofRules named.2 plain).onlyReports
  obtain ⟨decides, returns⟩ :=
    isCorrect_iff_appended onlyReports checker (.withLimits (some 0) none) {} [] block
  have isStopped : (checker.runOver (some (.ofRules named.2 [rule])) (.withLimits (some 0) none) {} []
      block).map (·.1) = .ok (.error (.errorLimit 0)) := by
    decide +kernel
  rcases ran : checker.runOver (some (.ofRules named.2 [rule])) (.withLimits (some 0) none) {} []
    block with fault | ⟨outcome, state⟩
  · rw [ran] at isStopped
    cases isStopped
  · rw [ran] at isStopped
    obtain rfl := Except.ok.inj isStopped
    obtain ⟨analysis, analyzed, _, isWrong⟩ := returns _ state ran
    obtain ⟨appended, diagnostics, isCorrect⟩ := decides analysis analyzed
    refine ⟨analysis, analyzed, isWrong, ?_⟩
    rw [diagnostics]
    by_contra noError
    have isRight : analysis.isCorrect = true := isCorrect.mpr fun diagnostic member => by
      rw [← Bool.not_eq_true]
      exact fun isError => noError ⟨diagnostic, List.mem_append_right _ member, isError⟩
    rw [isWrong] at isRight
    cases isRight

end Checker

end YulCheck
