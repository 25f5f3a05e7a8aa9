import YulCheck.Check.Checker
import YulCheck.Proofs.Judgement.Decides
import YulCheck.Proofs.Name.Answers

/-! # Walks that pass

A walk passes if its run without a host comes to a result and reports no error. What it does where it
reports an error does not matter for whether it passes.
-/

namespace YulCheck

variable {α β : Type}

namespace Walk

/-- Whether a walk leads from a state to another one without an error. -/
structure Passes (walk : Walk α) (state : RunState Unit) (result : α) (after : RunState Unit) :
    Prop where
  ran : walk.run none state = .ok (.ok result, after)
  quiet : after.reporter.errorCount = state.reporter.errorCount

/-- Whether a walk is answered without a change of the state, while there is the given number of
errors. -/
def Answers (walk : Walk α) (errors : Nat) (answer : α) : Prop :=
  ∀ state, state.reporter.errorCount = errors → ∀ result after,
    walk.Passes state result after ↔ result = answer ∧ after = state

variable {walk : Walk α} {next : α → Walk β} {state after : RunState Unit}
  {result : α} {last : β} {errors : Nat}

/-! ### What passes -/

theorem errorCount_le_of_run {outcome : Except Failure α}
    (ran : walk.run none state = .ok (outcome, after)) :
    state.reporter.errorCount ≤ after.reporter.errorCount :=
  errorCount_of_run (only_of_forall (fun _ => .inr rfl) walk) ran

/-- One walk after another passes if both do. -/
theorem passes_bind_iff :
    (walk >>= next).Passes state last after ↔
      ∃ value middle, walk.Passes state value middle ∧ (next value).Passes middle last after := by
  constructor
  · rintro ⟨ran, quiet⟩
    rw [run_bind, Run.bind_eq_ok_ok_iff] at ran
    obtain ⟨value, middle, ranFirst, ranNext⟩ := ran
    -- The number of errors never falls, so it has to stay the same in both parts.
    have before := errorCount_le_of_run ranFirst
    have behind := errorCount_le_of_run ranNext
    exact ⟨value, middle, ⟨ranFirst, by omega⟩, ⟨ranNext, by omega⟩⟩
  · rintro ⟨value, middle, passesFirst, passesNext⟩
    refine ⟨?_, passesNext.quiet.trans passesFirst.quiet⟩
    rw [run_bind, Run.bind_eq_ok_ok_iff]
    exact ⟨value, middle, passesFirst.ran, passesNext.ran⟩

/-- What is answered without a change of the state may be taken for granted. -/
theorem passes_bind_iff_of_answer {answer : α}
    (answers : ∀ value middle, walk.Passes state value middle ↔ value = answer ∧ middle = state) :
    (walk >>= next).Passes state last after ↔ (next answer).Passes state last after := by
  rw [passes_bind_iff]
  constructor
  · rintro ⟨value, middle, answered, passes⟩
    obtain ⟨rfl, rfl⟩ := (answers value middle).mp answered
    exact passes
  · exact fun passes => ⟨answer, state, (answers answer state).mpr ⟨rfl, rfl⟩, passes⟩

theorem passes_pure_iff {value : α} :
    (pure value : Walk α).Passes state result after ↔ result = value ∧ after = state := by
  constructor
  · rintro ⟨ran, _⟩
    cases ran
    exact ⟨rfl, rfl⟩
  · rintro ⟨rfl, rfl⟩
    exact ⟨rfl, rfl⟩

theorem not_passes_broken {fault : Fault} : ¬(broken fault : Walk α).Passes state result after :=
  fun passes => nomatch passes.ran

/-- What is lifted passes if it has a result. -/
theorem passes_lift_iff {value : Except Fault α} :
    (liftM value : Walk α).Passes state result after ↔ value = .ok result ∧ after = state := by
  cases value with
  | error fault => exact iff_of_false not_passes_broken nofun
  | ok value =>
    refine Iff.trans passes_pure_iff (and_congr_left fun _ => ?_)
    rw [Except.ok.injEq, eq_comm]

theorem passes_lift_bind_iff {value : Except Fault α} :
    ((liftM value : Walk α) >>= next).Passes state last after ↔
      ∃ result, value = .ok result ∧ (next result).Passes state last after := by
  rw [passes_bind_iff]
  constructor
  · rintro ⟨result, middle, lifted, passes⟩
    obtain ⟨known, rfl⟩ := passes_lift_iff.mp lifted
    exact ⟨result, known, passes⟩
  · rintro ⟨result, known, passes⟩
    exact ⟨result, state, passes_lift_iff.mpr ⟨known, rfl⟩, passes⟩

theorem passes_errorCount_iff {count : Nat} :
    (ask .errorCount).Passes state count after ↔
      count = state.reporter.errorCount ∧ after = state := by
  constructor
  · rintro ⟨ran, _⟩
    cases ran
    exact ⟨rfl, rfl⟩
  · rintro ⟨rfl, rfl⟩
    exact ⟨rfl, rfl⟩

/-- Without a host no name is known. -/
theorem passes_consult_iff {place : Place} {identifier : Identifier} {use : IdentifierUse}
    {isKnown : Bool} :
    (ask (.consult place identifier use)).Passes state isKnown after ↔
      isKnown = false ∧ after = state := by
  constructor
  · rintro ⟨ran, _⟩
    cases ran
    exact ⟨rfl, rfl⟩
  · rintro ⟨rfl, rfl⟩
    exact ⟨rfl, rfl⟩

theorem not_passes_report {place : Place} {diagnostic : Diagnostic}
    (isError : diagnostic.isError = true) :
    ¬(ask (.report place diagnostic)).Passes state () after := by
  rintro ⟨ran, quiet⟩
  rw [run_ask] at ran
  have more := Run.errorCount_of_report diagnostic isError ran
  omega

theorem passes_isQuietSince_iff {isQuiet : Bool} :
    (isQuietSince errors).Passes state isQuiet after ↔
      isQuiet = decide (state.reporter.errorCount = errors) ∧ after = state := by
  rw [isQuietSince, passes_bind_iff]
  constructor
  · rintro ⟨count, middle, counted, passes⟩
    obtain ⟨rfl, rfl⟩ := passes_errorCount_iff.mp counted
    exact passes_pure_iff.mp passes
  · rintro ⟨rfl, rfl⟩
    exact ⟨_, _, passes_errorCount_iff.mpr ⟨rfl, rfl⟩, passes_pure_iff.mpr ⟨rfl, rfl⟩⟩

theorem answers_errorCount : (ask .errorCount).Answers errors errors :=
  fun _ count _ _ => count ▸ passes_errorCount_iff

theorem answers_consult {place : Place} {identifier : Identifier} {use : IdentifierUse} :
    (ask (.consult place identifier use)).Answers errors false :=
  fun _ _ _ _ => passes_consult_iff

/-- As long as a walk passes there are no further errors. -/
theorem answers_isQuietSince : (isQuietSince errors).Answers errors true :=
  fun _ count _ _ => decide_eq_true count ▸ passes_isQuietSince_iff

theorem passes_ask_iff {request : Request} {state after : RunState Unit} {answer : request.Answer} :
    (ask request).Passes state answer after ↔
      Run.answer none request state = .ok (.ok answer, after) ∧
        after.reporter.errorCount = state.reporter.errorCount := by
  rw [← run_ask]
  exact ⟨fun passes => ⟨passes.ran, passes.quiet⟩, fun both => ⟨both.1, both.2⟩⟩

theorem passes_require_iff {condition : Bool} {fault : Fault} {state after : RunState Unit} :
    (require condition fault).Passes state () after ↔ condition = true ∧ after = state := by
  cases condition with
  | true => exact Iff.trans passes_pure_iff (and_congr_left fun _ => iff_of_true rfl rfl)
  | false => exact iff_of_false not_passes_broken nofun

end Walk

/-! ### Reports -/

namespace Setting

open Walk

variable {place : Place} {span : Span} {errors : Nat} {state after : RunState Unit}

/-- No walk passes that ends with the report of an error. -/
theorem not_passes_finding {finding : Walk Finding} (finds : FindsError finding) :
    ¬(finding >>= fun found => report place found span).Passes state () after := by
  induction finding generalizing state with
  | done found => exact not_passes_report finds
  | broken => exact not_passes_broken
  | step request next ih =>
    intro passes
    have unfolded : (step request next >>= fun found => report place found span) =
        (ask request >>= fun answer => next answer >>= fun found => report place found span) := rfl
    rw [unfolded, passes_bind_iff] at passes
    obtain ⟨answer, middle, _, passes⟩ := passes
    exact ih answer (finds answer) passes

/-- The condition for which no error is reported holds. -/
theorem passes_expect_iff {condition : Bool} {finding : Walk Finding} (finds : FindsError finding) :
    (expect place condition span finding).Passes state () after ↔
      condition = true ∧ after = state := by
  cases condition with
  | true => exact Iff.trans passes_pure_iff (and_congr_left fun _ => iff_of_true rfl rfl)
  | false => exact iff_of_false (not_passes_finding finds) nofun

theorem passes_expect_bind_iff {α : Type} {condition : Bool} {finding : Walk Finding}
    (finds : FindsError finding) {next : Unit → Walk α} {result : α} :
    (expect place condition span finding >>= next).Passes state result after ↔
      condition = true ∧ (next ()).Passes state result after := by
  rw [passes_bind_iff]
  constructor
  · rintro ⟨_, middle, expected, passes⟩
    obtain ⟨holds, rfl⟩ := (passes_expect_iff finds).mp expected
    exact ⟨holds, passes⟩
  · rintro ⟨holds, passes⟩
    exact ⟨(), state, (passes_expect_iff finds).mpr ⟨holds, rfl⟩, passes⟩

/-- What follows on an error does not matter. -/
theorem not_passes_report_bind {α : Type} {finding : Finding}
    (isError : finding.category.isError = true) {next : Unit → Walk α} {result : α} :
    ¬(report place finding span >>= next).Passes state result after := by
  intro passes
  obtain ⟨_, middle, reported, _⟩ := passes_bind_iff.mp passes
  have isError : (finding.toDiagnostic span).isError = true := isError
  exact not_passes_report isError reported

/-- A name that nothing binds is never accepted without a host. -/
theorem not_passes_unknown {α : Type} {use : IdentifierUse} {identifier : Identifier}
    {finding : Walk Finding} (finds : FindsError finding) {next : Bool → Unit → Walk α} {result : α}
    (count : state.reporter.errorCount = errors) :
    ¬(do
      let isKnown ← consult place identifier use
      let isQuiet ← isQuietSince errors
      expect place (isKnown || !isQuiet) span finding >>= next isKnown).Passes state result after := by
  intro passes
  have unknown := (passes_bind_iff_of_answer fun _ _ => passes_consult_iff).mp passes
  have rejected := (passes_bind_iff_of_answer (answers_isQuietSince state count)).mp unknown
  rw [passes_expect_bind_iff finds] at rejected
  cases rejected.1

end Setting

/-! ### Checkers -/

namespace Checker

variable {checker : Checker} {reporter : Reporter} {facts : Facts} {block : Block}
  {analysis : Analysis Unit}

/-- What a checker hands back when the run over a block passed. -/
def accept (checker : Checker) (after : RunState Unit) : Analysis Unit where
  isCorrect := true
  reporter := after.reporter
  facts := after.facts
  hostState := after.hostState
  checker :=
    { checker with
      active := after.active, inLoop := after.inLoop, inFunction := after.inFunction }

/-- A program is found to be correct if and only if the run over it passes. -/
theorem analyze_eq_ok_iff_passes :
    checker.analyze none reporter facts () block = .ok analysis ∧ analysis.isCorrect = true ↔
      ∃ after, (checker.setting.checkProgram (checker.place block) block).Passes
          (checker.start reporter facts ()) () after ∧ analysis = checker.accept after := by
  constructor
  · rintro ⟨analyzed, isCorrect⟩
    rw [analyze] at analyzed
    obtain ⟨⟨ended, after⟩, ran, concluded⟩ := Except.bind_eq_ok_iff.mp analyzed
    cases ended with
    | error failure =>
      dsimp only at concluded
      split at concluded
      · cases concluded
      · cases concluded
        cases isCorrect
    | ok =>
      cases concluded
      have quiet : after.reporter.errorCount = reporter.errorCount := of_decide_eq_true isCorrect
      refine ⟨after, ⟨ran, quiet⟩, ?_⟩
      show (⟨!false && decide _, _, _, _, _⟩ : Analysis Unit) = _
      rw [decide_eq_true quiet]
      rfl
  · rintro ⟨after, passes, rfl⟩
    have quiet : after.reporter.errorCount = reporter.errorCount := passes.quiet
    refine ⟨?_, rfl⟩
    rw [analyze, passes.ran]
    show Except.ok (⟨!false && decide (after.reporter.errorCount = reporter.errorCount), _, _, _, _⟩ :
      Analysis Unit) = _
    rw [decide_eq_true quiet]
    rfl

end Checker

end YulCheck
