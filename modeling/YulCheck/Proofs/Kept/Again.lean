import YulCheck.Proofs.Hoist.Acceptance
import YulCheck.Proofs.Kept.Analysis

/-! # Checkers that are used again

A checker can be used for one program after another. From run to run it keeps the variables whose
declarations are complete, which are none of the next program's, and whether the last run that was
stopped was in the body of a loop or of a function. Unless a run was stopped there, a checker that was
used judges every program as a new one does.
-/

namespace YulCheck

variable {σ α : Type} {host? : Option (Host σ)} {state after : RunState σ}

/-- Whether the last run that was stopped was in the body of a loop, and whether it was in the body of a
function. -/
def RunState.stop (state : RunState σ) : Bool × Bool := (state.inLoop, state.inFunction)

/-- A request that is answered does not stop a run. -/
theorem Run.stop_of_answer {request : Request} {given : request.Answer}
    (answered : answer host? request state = .ok (.ok given, after)) : after.stop = state.stop := by
  cases request with
  | warnOnce diagnostic =>
    cases answered
    dsimp only
    split <;> rfl
  | report place diagnostic =>
    rw [answer, report_apply] at answered
    split at answered <;> cases answered
    rfl
  | consult place identifier use =>
    cases host? with
    | none =>
      cases answered
      rfl
    | some host =>
      rw [answer, consult_some] at answered
      split at answered <;> cases answered
      rfl
  | _ =>
    obtain ⟨_, _, _, _, rfl⟩ := Run.exists_of_answer (by trivial) answered
    rfl

/-- A run that is not stopped leaves alone where the last run was stopped. -/
theorem Walk.stop_of_run {walk : Walk α} {result : α}
    (ran : walk.run host? state = .ok (.ok result, after)) : after.stop = state.stop := by
  induction walk generalizing state with
  | done value =>
    cases ran
    rfl
  | broken fault => cases ran
  | step request next ih =>
    rw [run_step] at ran
    obtain ⟨given, middle, answered, ran⟩ := Run.bind_eq_ok_ok_iff.mp ran
    exact (ih given ran).trans (Run.stop_of_answer answered)

namespace Checker

/-- Whether a check is stopped in the body of a loop or of a function. -/
def IsStoppedInside (checker : Checker) (reporter : Reporter) (facts : Facts) (block : Block) : Prop :=
  ∃ failure state, checker.runOver (none : Option (Host Unit)) reporter facts () block =
    .ok (.error failure, state) ∧ (state.inLoop = true ∨ state.inFunction = true)

/-- Whether a checker was made with a setting, a reporter and facts, and then used for any number of
programs, without being stopped in the body of a loop or of a function. -/
inductive Reused (setting : Setting) : Checker → Reporter → Facts → Prop
  | new {other : Checker} {facts : Facts} (kept : other.Keeps facts) (reporter : Reporter) :
    Reused setting { setting } reporter facts
  | again {checker : Checker} {reporter : Reporter} {facts : Facts} {block : Block}
    {analysis : Analysis Unit} (before : Reused setting checker reporter facts)
    (analyzed : checker.analyze none reporter facts () block = .ok analysis)
    (outside : ¬checker.IsStoppedInside reporter facts block) :
    Reused setting analysis.checker analysis.reporter analysis.facts

namespace Reused

variable {setting : Setting} {checker : Checker} {reporter : Reporter} {facts : Facts}

theorem keeps (reused : Reused setting checker reporter facts) : checker.Keeps facts := by
  induction reused with
  | new kept => exact .replace kept setting
  | again _ analyzed _ ih => exact .analyze ih analyzed

/-- Apart from its variables, a checker that was used is a new one. -/
theorem eq_new (reused : Reused setting checker reporter facts) :
    { checker with active := [] } = ({ setting } : Checker) := by
  induction reused with
  | new => rfl
  | @again checker reporter facts block analysis before analyzed outside ih =>
    obtain ⟨sameSetting, _, inLoop, inFunction⟩ := Checker.mk.inj ih
    rw [analyze_eq] at analyzed
    obtain ⟨⟨outcome, after⟩, ran, handedBack⟩ := Except.bind_eq_ok_iff.mp analyzed
    obtain ⟨_, _, sameChecker⟩ := handBack_eq_ok handedBack
    have stop : after.stop = (false, false) := by
      cases outcome with
      | error failure =>
        have isOutside : ¬(after.inLoop = true ∨ after.inFunction = true) :=
          fun isInside => outside ⟨failure, after, ran, isInside⟩
        obtain ⟨notInLoop, notInFunction⟩ := not_or.mp isOutside
        exact Prod.ext (Bool.eq_false_iff.mpr notInLoop) (Bool.eq_false_iff.mpr notInFunction)
      | ok => exact (Walk.stop_of_run ran).trans (Prod.ext inLoop inFunction)
    obtain ⟨notInLoop, notInFunction⟩ := Prod.mk.inj stop
    rw [sameChecker, sameSetting, notInLoop, notInFunction]

end Reused

/-- A checker that was used judges every program as a new one does, with the same reporter and the same
facts, unless a check was stopped in the body of a loop or of a function. If a builder made the program,
then both can check it. -/
theorem analyze_again {setting : Setting} {checker : Checker} {reporter : Reporter} {facts : Facts}
    (reused : Reused setting checker reporter facts) (block : Block) :
    let new := ({ setting } : Checker).analyze none reporter facts () block
    let again := checker.analyze none reporter facts () block
    (∀ fault, again = .error fault ↔ new = .error fault) ∧
      (∀ analysis, new = .ok analysis → ∃ other, again = .ok other ∧
        other.isCorrect = analysis.isCorrect ∧ other.reporter = analysis.reporter) ∧
      ∀ (kind : BundledDialect) version, setting.names.HasMade (kind.build version) block →
        ∃ analysis, new = .ok analysis := by
  intro new again
  have stale := (reused.keeps.isSettled reporter ()).active
  obtain ⟨faults, finds⟩ := checker.analyze_of_kept none reporter facts () block stale
  obtain ⟨newFaults, newFinds⟩ :=
    ({ setting } : Checker).analyze_of_kept none reporter facts () block nofun
  rw [reused.eq_new] at faults finds
  refine ⟨fun fault => (faults fault).trans (newFaults fault).symm, fun analysis analyzed => ?_,
    fun kind version hasMade => ?_⟩
  · cases checked : ({ setting } : Checker).analyze none reporter {} () block with
    | error fault => cases analyzed.symm.trans ((newFaults fault).mpr checked)
    | ok found =>
      obtain ⟨_, same, isCorrect, sameReporter, _⟩ := newFinds found checked
      obtain rfl := Except.ok.inj (analyzed.symm.trans same)
      obtain ⟨other, checkedAgain, isCorrectAgain, sameReporterAgain, _⟩ := finds found checked
      exact ⟨other, checkedAgain, isCorrectAgain.trans isCorrect.symm,
        sameReporterAgain.trans sameReporter.symm⟩
  · have canCheck : setting.CanCheck (kind.build version) block := .of_hasMade hasMade
    exact ({ setting } : Checker).exists_analysis canCheck.ready nofun canCheck.built
      canCheck.distinct reporter () nofun

/-- With a limit of no errors the check of `break` is stopped outside of all loops. The checker finds
the sample program correct afterwards, as a new one does. -/
theorem analyze_again_sample :
    let setting := (Workspace.sample.checker []).setting
    ∃ (stopped new again : Analysis Unit),
      ({ setting } : Checker).analyze none (.withLimits (some 0) none) {} ()
        (.mk 1 .none [.break .none]) = .ok stopped ∧
      ({ setting } : Checker).analyze none stopped.reporter stopped.facts ()
        Workspace.sampleProgram = .ok new ∧
      stopped.checker.analyze none stopped.reporter stopped.facts () Workspace.sampleProgram =
        .ok again ∧
      new.isCorrect = true ∧ again.isCorrect = true ∧ again.reporter = new.reporter := by
  intro setting
  let checker : Checker := { setting }
  let reporter : Reporter := .withLimits (some 0) none
  let block : Block := .mk 1 .none [.break .none]
  obtain ⟨stops, checks⟩ :
      (checker.runOver (none : Option (Host Unit)) reporter {} () block).map
          (fun (_, state) => (state.inLoop, state.inFunction)) = .ok (false, false) ∧
        (do
          let stopped ← checker.analyze none reporter {} () block
          let new ← checker.analyze none stopped.reporter stopped.facts () Workspace.sampleProgram
          return new.isCorrect) = .ok true := by
    decide +kernel
  have outside : ¬checker.IsStoppedInside reporter {} block := by
    rintro ⟨failure, state, ran, isInside⟩
    rw [ran] at stops
    obtain ⟨notInLoop, notInFunction⟩ := Prod.mk.inj (Except.ok.inj stops)
    rw [notInLoop, notInFunction] at isInside
    exact isInside.elim Bool.false_ne_true Bool.false_ne_true
  obtain ⟨stopped, isStopped, checks⟩ := Except.bind_eq_ok_iff.mp checks
  obtain ⟨new, isNew, checks⟩ := Except.bind_eq_ok_iff.mp checks
  have isCorrect : new.isCorrect = true := Except.ok.inj checks
  have reused : Reused setting stopped.checker stopped.reporter stopped.facts :=
    .again (.new (.start setting) reporter) isStopped outside
  obtain ⟨again, isAgain, sameVerdict, sameReporter⟩ :=
    (analyze_again reused Workspace.sampleProgram).2.1 new isNew
  exact ⟨stopped, new, again, isStopped, isNew, isAgain, isCorrect, sameVerdict.trans isCorrect,
    sameReporter⟩

/-- A checker that was stopped in the body of a loop finds the program `break` correct, unlike a new
one. It is stopped there in the check of `for {} true {} { leave }` if no errors are accepted. -/
theorem not_analyze_again :
    ¬∀ (setting : Setting) (reporter : Reporter) (block next : Block)
      (stopped new again : Analysis Unit),
      block.owners.Nodup → next.owners.Nodup →
        ({ setting } : Checker).analyze none reporter {} () block = .ok stopped →
          ({ setting } : Checker).analyze none stopped.reporter stopped.facts () next = .ok new →
            stopped.checker.analyze none stopped.reporter stopped.facts () next = .ok again →
              again.isCorrect = new.isCorrect := by
  intro same
  let setting := (Workspace.sample.checker []).setting
  let loop : Block := .mk 1 .none [.loop 2 .none (.mk 3 .none [])
    (.literal ⟨4, .none, .boolean, .ofBool true, ⟨1⟩⟩) (.mk 5 .none []) (.mk 6 .none [.leave .none])]
  let next : Block := .mk 1 .none [.break .none]
  have computed : (do
      let stopped ← ({ setting } : Checker).analyze none (.withLimits (some 0) none) {} () loop
      let new ← ({ setting } : Checker).analyze none stopped.reporter stopped.facts () next
      let again ← stopped.checker.analyze none stopped.reporter stopped.facts () next
      return (new.isCorrect, again.isCorrect)) = .ok (false, true) := by
    decide +kernel
  obtain ⟨stopped, isStopped, computed⟩ := Except.bind_eq_ok_iff.mp computed
  obtain ⟨new, isNew, computed⟩ := Except.bind_eq_ok_iff.mp computed
  obtain ⟨again, isAgain, computed⟩ := Except.bind_eq_ok_iff.mp computed
  obtain ⟨notCorrect, isCorrect⟩ := Prod.mk.inj (Except.ok.inj computed)
  have equal := same setting _ loop next stopped new again (by decide) (by decide) isStopped isNew
    isAgain
  rw [notCorrect, isCorrect] at equal
  cases equal

end Checker

end YulCheck
