import YulCheck.Proofs.Build.Generations
import YulCheck.Proofs.Judgement.Acceptance
import YulCheck.Proofs.Report.Appended
import YulCheck.Proofs.Report.Unlimited
import YulCheck.Proofs.Safety.Analysis

/-! # Limits only truncate

A run with limits records what a reporter with these limits records that is fed with the diagnostics of
the run without limits, up to the first one that is refused. Until then the two runs go the same way.
-/

namespace YulCheck

variable {σ α : Type} {errorLimit? warningLimit? : Option Nat}

/-! ### Runs -/

namespace Run

/-- How a run with limits ends beside one without limits: in the same state, apart from the reporter,
or stopped by the first diagnostic of the other one that is refused. -/
inductive Truncates (errorLimit? warningLimit? : Option Nat) :
    Except Failure α × RunState σ → Except Failure α × RunState σ → Prop
  | complete {result : α} {full : RunState σ} {limited : Reporter}
    (follows : full.reporter.Follows errorLimit? warningLimit? limited) :
    Truncates errorLimit? warningLimit? (.ok result, full)
      (.ok result, { full with reporter := limited })
  | stopped {outcome : Except Failure α} {full limited : RunState σ} {failure : Failure}
    (refused : (Reporter.withLimits errorLimit? warningLimit?).reportAll
      full.reporter.diagnostics.toList = (.error failure, limited.reporter)) :
    Truncates errorLimit? warningLimit? (outcome, full) (.error failure, limited)

variable {full after : RunState σ} {limited : Reporter}

theorem truncates_report (follows : full.reporter.Follows errorLimit? warningLimit? limited)
    {place : Place} {diagnostic : Diagnostic} {outcome : Except Failure Unit}
    (answered : report place diagnostic full = .ok (outcome, after)) :
    ∃ ending, report place diagnostic { full with reporter := limited } = .ok ending ∧
      Truncates errorLimit? warningLimit? (outcome, after) ending := by
  have reporter := reporter_of_report answered
  obtain ⟨next, isReported, _⟩ := follows.isUnlimited.exists_report diagnostic
  rw [report_apply, isReported] at answered
  cases answered
  rw [report_apply]
  rcases reported : limited.report diagnostic with ⟨failure | _, stopped⟩
  · refine ⟨_, rfl, .stopped ?_⟩
    rw [reporter]
    exact follows.of_refused reported
  · refine ⟨_, rfl, .complete ?_⟩
    rw [reporter]
    exact follows.of_accepted reported

/-- The warning about transient storage is recorded once, with or without limits: if it is missing
where the warnings are limited, then it was dropped, and it is dropped again. -/
theorem truncates_warnOnce (follows : full.reporter.Follows errorLimit? warningLimit? limited)
    (span : Span) :
    let diagnostic := Finding.transientStorage.toDiagnostic span
    ∃ after ending, warnOnce diagnostic full = .ok (.ok (), after) ∧
      warnOnce diagnostic { full with reporter := limited } = .ok ending ∧
      Truncates errorLimit? warningLimit? (.ok (), after) ending := by
  intro diagnostic
  refine ⟨_, _, rfl, rfl, ?_⟩
  dsimp only
  by_cases isRecorded : full.reporter.hasAny [diagnostic.code] = true
  · rw [if_pos isRecorded]
    rcases follows.hasAny_or_isSaturated isRecorded with isKnown | isSaturated
    · rw [if_pos isKnown]
      exact .complete follows
    · rw [isSaturated.reportWarning, ite_self]
      exact .complete follows
  · have notNote : Finding.transientStorage.code ≠ 4591 := by decide
    have isNew : ¬limited.hasAny [diagnostic.code] = true :=
      fun isKnown => isRecorded (follows.hasAny notNote isKnown)
    rw [if_neg isRecorded, if_neg isNew]
    have isWarning : diagnostic.isError = false := rfl
    have next := follows.of_accepted (limited.report_of_warning isWarning)
    rw [full.reporter.report_of_warning isWarning] at next
    exact .complete next

theorem truncates_answer (follows : full.reporter.Follows errorLimit? warningLimit? limited)
    {request : Request} (finds : request.ReportsFindings) {outcome : Except Failure request.Answer}
    (answered : answer none request full = .ok (outcome, after)) :
    ∃ ending, answer none request { full with reporter := limited } = .ok ending ∧
      Truncates errorLimit? warningLimit? (outcome, after) ending := by
  cases request with
  | openScope | leaveScope | hasScope | noteTypes | noteEffects | consult =>
    cases answered
    exact ⟨_, rfl, .complete follows⟩
  | resumeScope block =>
    simp only [answer, resumeScope_apply] at answered ⊢
    split at answered <;> cases answered
    exact ⟨_, rfl, .complete follows⟩
  | errorCount =>
    cases answered
    refine ⟨_, rfl, ?_⟩
    dsimp only
    rw [follows.errorCount]
    exact .complete follows
  | bind name binding =>
    simp only [answer, bind_request_apply] at answered ⊢
    split at answered
    · cases answered
    · split at answered <;> cases answered <;> exact ⟨_, rfl, .complete follows⟩
  | lookup block name =>
    simp only [answer, lookup_apply] at answered ⊢
    split at answered <;> cases answered
    exact ⟨_, rfl, .complete follows⟩
  | activate owner name =>
    simp only [answer, activate_apply] at answered ⊢
    split at answered <;> cases answered
    exact ⟨_, rfl, .complete follows⟩
  | report place diagnostic => exact truncates_report follows answered
  | warnOnce diagnostic =>
    obtain ⟨span, rfl⟩ := finds
    obtain ⟨next, ending, warned, same, truncates⟩ := truncates_warnOnce follows span
    obtain ⟨rfl, rfl⟩ := Prod.mk.inj (Except.ok.inj (answered.symm.trans warned))
    exact ⟨ending, same, truncates⟩

end Run

/-- A run with limits only truncates the one without limits. -/
theorem Walk.truncates_run {walk : Walk α} (finds : walk.Only Request.ReportsFindings)
    {full after : RunState σ} {limited : Reporter} {outcome : Except Failure α}
    (follows : full.reporter.Follows errorLimit? warningLimit? limited)
    (ran : walk.run none full = .ok (outcome, after)) :
    ∃ ending, walk.run none { full with reporter := limited } = .ok ending ∧
      Run.Truncates errorLimit? warningLimit? (outcome, after) ending := by
  induction walk generalizing full limited with
  | done result =>
    cases ran
    exact ⟨_, rfl, .complete follows⟩
  | broken fault => cases ran
  | step request next ih =>
    rw [run_step, Run.bind_apply] at ran ⊢
    rcases answered : Run.answer none request full with fault | ⟨reply, middle⟩
    · rw [answered] at ran
      cases ran
    rw [answered] at ran
    obtain ⟨ending, limitedAnswer, truncates⟩ := Run.truncates_answer follows finds.1 answered
    rw [limitedAnswer]
    cases truncates with
    | complete follows => exact ih _ (finds.2 _) follows ran
    | stopped refused =>
      refine ⟨_, rfl, .stopped ?_⟩
      cases reply with
      | error failure =>
        cases ran
        exact refused
      | ok answer =>
        -- What the run without limits appends after the refusal is not heard.
        obtain ⟨⟨appended, appends⟩, _⟩ := appends_of_run Host.onlyReports_none (finds.2 answer) ran
        rw [appends.diagnostics]
        exact Reporter.reportAll_append_of_refused refused appended

namespace Run.Truncates

variable {outcome ending : Except Failure Unit} {full limited : RunState σ}

/-- The reporter with limits ends up as if it was fed. -/
theorem fed (truncates : Truncates errorLimit? warningLimit? (outcome, full) (ending, limited)) :
    (Reporter.withLimits errorLimit? warningLimit?).reportAll full.reporter.diagnostics.toList =
      (ending, limited.reporter) := by
  cases truncates with
  | complete follows => exact follows.fed
  | stopped refused => exact refused

/-- A run that is not stopped leaves the same facts. -/
theorem facts (truncates : Truncates errorLimit? warningLimit? (outcome, full) (ending, limited))
    (isComplete : ending = .ok ()) : limited.facts = full.facts := by
  cases truncates with
  | complete => rfl
  | stopped => cases isComplete

end Run.Truncates

/-! ### Checkers -/

namespace Checker

variable {checker : Checker} {block : Block} {outcome ending : Except Failure Unit}
  {full limited : RunState Unit}

theorem exists_truncates_runOver
    (ran : checker.runOver none .unlimited {} () block = .ok (outcome, full))
    (errorLimit? warningLimit? : Option Nat) :
    ∃ ending limited,
      checker.runOver none (.withLimits errorLimit? warningLimit?) {} () block =
        .ok (ending, limited) ∧
      Run.Truncates errorLimit? warningLimit? (outcome, full) (ending, limited) := by
  obtain ⟨⟨ending, limited⟩, limitedRan, truncates⟩ :=
    Walk.truncates_run (Setting.findings_checkProgram checker.setting _ block)
      (.start errorLimit? warningLimit?) ran
  exact ⟨ending, limited, limitedRan, truncates⟩

/-- With limits there are errors if there are some without limits. -/
theorem errorCount_eq_zero_iff
    (ran : checker.runOver none .unlimited {} () block = .ok (outcome, full))
    (limitedRan : checker.runOver none (.withLimits errorLimit? warningLimit?) {} () block =
      .ok (ending, limited))
    (truncates : Run.Truncates errorLimit? warningLimit? (outcome, full) (ending, limited)) :
    limited.reporter.errorCount = 0 ↔ full.reporter.errorCount = 0 := by
  cases truncates with
  | complete follows =>
    show Reporter.errorCount _ = 0 ↔ _
    rw [follows.errorCount]
  | stopped refused =>
    obtain ⟨_, isCounted⟩ := appends_of_runOver Host.onlyReports_none limitedRan
    obtain ⟨⟨appended, appends⟩, _⟩ := appends_of_runOver Host.onlyReports_none ran
    obtain ⟨item, member, isError⟩ := Reporter.exists_isError_of_refused refused
    rw [appends.diagnostics] at member
    have isSome : 0 < appended.countP (·.isError) := List.countP_pos_iff.mpr ⟨item, member, isError⟩
    have fullCount := appends.errorCount
    have limitedCount := isCounted _ rfl
    constructor <;> intro noError <;> omega

end Checker

/-! ### Workspaces -/

/-- Whether a run with limits leaves what one without limits leaves, but for what the limits drop. -/
structure Outcome.Truncates (errorLimit? warningLimit? : Option Nat) (full limited : Outcome) :
    Prop where
  /-- What is recorded is what a reporter with the limits records of all diagnostics. -/
  diagnostics : limited.diagnostics =
    ((Reporter.withLimits errorLimit? warningLimit?).reportAll full.diagnostics).2.diagnostics.toList
  /-- The errors beyond the limit are replaced by one note. -/
  errors : limited.errors = Reporter.kept errorLimit? Reporter.errorLimitNote 0 full.errors
  /-- The warnings beyond the limit, of those before the first error beyond its limit, are replaced by
  one note. -/
  warnings : limited.warnings = Reporter.kept warningLimit? Reporter.warningLimitNote 0
    ((Reporter.heard errorLimit? 0 full.diagnostics).filter (!·.isError))
  /-- Limits do not change the verdict. -/
  isCorrect : limited.isCorrect = full.isCorrect

namespace Workspace

variable {workspace : Workspace} {block : Block} {dataNames : List String}

/-- The workspace with other limits. -/
def withLimits (workspace : Workspace) (errorLimit? warningLimit? : Option Nat) : Workspace :=
  { workspace with settings := { workspace.settings with errorLimit?, warningLimit? } }

/-- How the run over a block ends that asks no host: with a result, or stopped. -/
def ending (workspace : Workspace) (block : Block) (dataNames : List String) :
    Except Fault (Except Failure Unit) :=
  ((workspace.checker dataNames).runOver none workspace.reporter {} () block).map (·.1)

/-- Whether a builder made a block with the names of a workspace. Labels may have been generated before
and after. -/
def HasMade (workspace : Workspace) (block : Block) : Prop :=
  workspace.names.HasMade (workspace.settings.dialect.build workspace.settings.version) block

theorem analyze_of_runOver {outcome : Except Failure Unit} {state : RunState Unit}
    (ran : (workspace.checker dataNames).runOver none workspace.reporter {} () block =
      .ok (outcome, state)) :
    workspace.analyze none () block dataNames =
      .ok (⟨decide (state.reporter.errorCount = 0), state.facts, state.reporter.diagnostics.toList⟩,
        ()) := by
  rw [analyze, Checker.analyze_of_runOver Host.onlyReports_none ran]
  rfl

theorem exists_runOver_of_analyze {full : Outcome}
    (analyzed : workspace.analyze none () block dataNames = .ok (full, ())) :
    ∃ outcome state, (workspace.checker dataNames).runOver none workspace.reporter {} () block =
      .ok (outcome, state) := by
  obtain ⟨outcome, state, ran, _⟩ := exists_run_of_analyze analyzed
  exact ⟨outcome, state, ran⟩

/-- The run over a block that a builder made has no fault. -/
theorem HasMade.exists_runOver (hasMade : workspace.HasMade block) (dataNames : List String)
    (reporter : Reporter) :
    ∃ outcome state, (workspace.checker dataNames).runOver none reporter {} () block =
      .ok (outcome, state) := by
  obtain ⟨built, distinct⟩ := hasMade.isBuilt
  let checker := workspace.checker dataNames
  have noHost : ∀ host ∈ (none : Option (Host Unit)), host.IsOrderly := nofun
  have noneActive : ∀ entry ∈ (checker.start reporter {} ()).active,
      entry.1 < (checker.start reporter {} ()).facts.scopes.size := nofun
  obtain ⟨outcome, state, ran, _⟩ := checker.setting.exists_run_checkProgram hasMade.isReady noHost
    (checker.place block) built distinct rfl noneActive
  exact ⟨outcome, state, ran⟩

/-- Limits only truncate: with any limits a block is checked as without limits, up to the first
diagnostic that a reporter with these limits refuses, and leaves the same facts if there is none. If a
builder made the block, then it can be checked. -/
theorem limits_truncate (workspace : Workspace) (block : Block) (dataNames : List String) :
    (workspace.HasMade block →
      ∃ full, (workspace.withLimits none none).analyze none () block dataNames = .ok (full, ())) ∧
    ∀ full, (workspace.withLimits none none).analyze none () block dataNames = .ok (full, ()) →
      ∀ errorLimit? warningLimit?, ∃ limited ending,
        (workspace.withLimits errorLimit? warningLimit?).analyze none () block dataNames =
          .ok (limited, ()) ∧
        (workspace.withLimits errorLimit? warningLimit?).ending block dataNames = .ok ending ∧
        ((Reporter.withLimits errorLimit? warningLimit?).reportAll full.diagnostics).1 = ending ∧
        full.Truncates errorLimit? warningLimit? limited ∧
        (ending = .ok () → limited.facts = full.facts) := by
  constructor
  · intro hasMade
    obtain ⟨outcome, full, ran⟩ := hasMade.exists_runOver dataNames .unlimited
    exact ⟨_, analyze_of_runOver ran⟩
  · intro _ analyzed errorLimit? warningLimit?
    obtain ⟨outcome, full, ran⟩ := exists_runOver_of_analyze analyzed
    cases analyzed.symm.trans (analyze_of_runOver ran)
    obtain ⟨ending, limited, limitedRan, truncates⟩ :=
      Checker.exists_truncates_runOver ran errorLimit? warningLimit?
    have fed := truncates.fed
    have isWithin (limit : Nat) :
        (Reporter.withLimits errorLimit? warningLimit?).errorLimit? = some limit →
          (Reporter.withLimits errorLimit? warningLimit?).errorCount ≤ limit := fun _ => Nat.zero_le _
    have errors := Reporter.errors_reportAll _ full.reporter.diagnostics.toList isWithin
    have warnings := Reporter.warnings_reportAll _ full.reporter.diagnostics.toList isWithin
    rw [fed] at errors warnings
    refine ⟨_, ending, analyze_of_runOver limitedRan, ?_, congrArg Prod.fst fed,
      ⟨?_, errors, warnings, ?_⟩, truncates.facts⟩
    · rw [Workspace.ending]
      exact congrArg (Except.map (·.1)) limitedRan
    · exact congrArg (·.2.diagnostics.toList) fed.symm
    · exact decide_eq_decide.mpr (Checker.errorCount_eq_zero_iff ran limitedRan truncates)

/-- A program with one error, which is replaced by a note where no error is accepted. -/
theorem limits_truncate_undeclared :
    let named := (NameTable.ofDialect .generic).define "x"
    let block : Block := .mk 1 .none [.expression .none (.identifier ⟨0, .none, named.1⟩)]
    let workspace : Workspace := ⟨{ dialect := .generic }, named.2⟩
    ∃ full stopped complete,
      (workspace.withLimits none none).analyze none () block [] = .ok (full, ()) ∧
      (workspace.withLimits (some 0) none).analyze none () block [] = .ok (stopped, ()) ∧
      (workspace.withLimits (some 1) none).analyze none () block [] = .ok (complete, ()) ∧
      stopped.errors = (full.errors.take 1).map (Reporter.errorLimitNote 0) ∧
      complete.errors = full.errors ∧ complete.facts = full.facts := by
  intro named block workspace
  have started : Builder.Arises Dialect.generic _ := .start
  have used := started.step (.make (.identifier (by decide : "x" ≠ "")) (.refl _))
  have stated := used.step (.make (.effect _) (.refl _))
  have made := stated.step (.make (.block [_]) (.refl _))
  obtain ⟨exists_full, truncates⟩ := limits_truncate workspace block []
  obtain ⟨full, analyzed⟩ := exists_full ⟨_, made, rfl, List.mem_cons_self⟩
  obtain ⟨stopped, _, stoppedAnalyzed, _, _, isStopped, _⟩ := truncates full analyzed (some 0) none
  obtain ⟨complete, ending, completeAnalyzed, ends, _, isComplete, sameFacts⟩ :=
    truncates full analyzed (some 1) none
  have isOne : ((workspace.withLimits none none).analyze none () block []).map
      (·.1.errors.length) = .ok 1 := by
    decide +kernel
  rw [analyzed] at isOne
  obtain ⟨only, errors⟩ := List.length_eq_one_iff.mp (Except.ok.inj isOne)
  have notStopped : (workspace.withLimits (some 1) none).ending block [] = .ok (.ok ()) := by
    decide +kernel
  refine ⟨full, stopped, complete, analyzed, stoppedAnalyzed, completeAnalyzed, ?_, ?_, ?_⟩
  · rw [isStopped.errors, errors]
    rfl
  · rw [isComplete.errors, errors]
    rfl
  · exact sameFacts (Except.ok.inj (ends.symm.trans notStopped))

end Workspace

end YulCheck
