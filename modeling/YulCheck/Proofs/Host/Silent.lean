import YulCheck.Proofs.Host.Asked
import YulCheck.Proofs.Occurrence.Parts

/-! # Silent hosts

A host that reports nothing and answers every question makes no difference to a program that is correct
without a host. In such a program every name that is read, called or assigned to is bound, so whatever
the host answers is ignored.
-/

namespace YulCheck

variable {σ α β : Type}

/-- Whether a host reports nothing and answers every question. -/
def Host.IsSilent (host : Host σ) : Prop :=
  ∀ query reporter hostState, ∃ isKnown after,
    host query (reporter, hostState) = .ok (.ok isKnown, reporter, after)

/-- Whether the answer of a host does not matter, since a name is declared or bound by the program. -/
def IdentifierUse.IsSettled (use : IdentifierUse) : Prop := use = .declare ∨ use = .bound

theorem Run.consult_of_isSilent {host : Host σ} (silent : host.IsSilent) (place : Place)
    (identifier : Identifier) (use : IdentifierUse) (state : RunState Unit) (hostState : σ) :
    ∃ isKnown after, consult (some host) place identifier use (state.withHost hostState) =
      .ok (.ok isKnown, state.withHost after) := by
  obtain ⟨isKnown, after, answered⟩ := silent ⟨identifier, use,
    (state.facts.scopeOf? (.block place.block)).any state.facts.scopes.isInFunction⟩ state.reporter
    hostState
  refine ⟨isKnown, after, ?_⟩
  rw [consult_some]
  dsimp only [RunState.withHost]
  rw [answered]

namespace Walk

/-- Whether a walk that passes without a host comes to the same with a host: with the same result and
in the same state, and the host is asked about names only that are declared or bound. The walk starts
with the given number of errors. -/
def IsUndisturbed (host : Host σ) (errors : Nat) (walk : Walk α) : Prop :=
  ∀ state result after, state.reporter.errorCount = errors → walk.Passes state result after →
    ∀ hostState, (∃ hostStateAfter, walk.run (some host) (state.withHost hostState) =
        .ok (.ok result, after.withHost hostStateAfter)) ∧
      ∀ query ∈ walk.asked host (state.withHost hostState), query.use.IsSettled

namespace IsUndisturbed

variable {host : Host σ} {errors : Nat} {walk : Walk α} {next : α → Walk β}

theorem pure (result : α) : (Pure.pure result : Walk α).IsUndisturbed host errors := by
  intro state _ _ _ passes hostState
  obtain ⟨rfl, rfl⟩ := passes_pure_iff.mp passes
  exact ⟨⟨hostState, rfl⟩, List.forall_mem_nil _⟩

/-- A walk that never passes is left undisturbed. -/
theorem of_not_passes (never : ∀ state result after, state.reporter.errorCount = errors →
    ¬walk.Passes state result after) : walk.IsUndisturbed host errors :=
  fun state result after count passes => absurd passes (never state result after count)

theorem bind (first : walk.IsUndisturbed host errors)
    (rest : ∀ result, (next result).IsUndisturbed host errors) :
    (walk >>= next).IsUndisturbed host errors := by
  intro state last after count passes hostState
  obtain ⟨value, middle, passesFirst, passesNext⟩ := passes_bind_iff.mp passes
  obtain ⟨⟨between, ranFirst⟩, areSettled⟩ := first state value middle count passesFirst hostState
  obtain ⟨⟨final, ranNext⟩, areSettledNext⟩ :=
    rest value middle last after (passesFirst.quiet.trans count) passesNext between
  constructor
  · refine ⟨final, ?_⟩
    rw [run_bind, Run.bind_apply, ranFirst]
    exact ranNext
  · rw [asked_bind, ranFirst]
    exact List.forall_mem_append.mpr ⟨areSettled, areSettledNext⟩

theorem counted {next : Nat → Walk α} (rest : (next errors).IsUndisturbed host errors) :
    (ask .errorCount >>= next).IsUndisturbed host errors := by
  intro state last after count passes hostState
  subst count
  exact rest state last after rfl
    ((passes_bind_iff_of_answer (answers_errorCount state rfl)).mp passes) hostState

/-- The host takes no part in requests that are not put to it. -/
theorem asked {request : Request} (isOwn : request.IsOwn) :
    (ask request).IsUndisturbed host errors := by
  intro state answer after _ passes hostState
  obtain ⟨answered, _⟩ := passes_ask_iff.mp passes
  constructor
  · refine ⟨hostState, ?_⟩
    rw [run_ask, Run.answer_withHost isOwn none, answered]
    rfl
  · rw [asked_ask, Request.question?_of_isOwn isOwn]
    exact List.forall_mem_nil _

theorem of_own (isOwn : walk.Only (·.IsOwn)) : walk.IsUndisturbed host errors := by
  induction walk with
  | done result => exact pure result
  | broken fault => exact of_not_passes fun _ _ _ _ => not_passes_broken
  | step request next ih => exact (asked isOwn.1).bind fun answer => ih answer (isOwn.2 answer)

/-- An answer of the host that nothing depends on. -/
theorem ignored_bind (silent : host.IsSilent) {place : Place} {identifier : Identifier}
    {use : IdentifierUse} (isSettled : use.IsSettled) {next : Walk α}
    (rest : next.IsUndisturbed host errors) :
    (ask (.consult place identifier use) >>= fun _ => next).IsUndisturbed host errors := by
  intro state result after count passes hostState
  have passesNext := (passes_bind_iff_of_answer fun _ _ => passes_consult_iff).mp passes
  obtain ⟨isKnown, between, consulted⟩ :=
    Run.consult_of_isSilent silent place identifier use state hostState
  have answered : (ask (.consult place identifier use)).run (some host) (state.withHost hostState) =
      .ok (.ok isKnown, state.withHost between) := by
    rw [run_ask]
    exact consulted
  obtain ⟨⟨final, ran⟩, areSettled⟩ := rest state result after count passesNext between
  constructor
  · refine ⟨final, ?_⟩
    rw [run_bind, Run.bind_apply, answered]
    exact ran
  · rw [asked_bind, answered, asked_ask]
    exact List.forall_mem_append.mpr ⟨List.forall_mem_singleton.mpr isSettled, areSettled⟩

end IsUndisturbed

end Walk

/-! ### The parts of a check -/

namespace Setting

open Walk

variable {setting : Setting} {place : Place} {host : Host σ} {errors : Nat}

section Silent

variable (silent : host.IsSilent)

include silent

theorem undisturbed_checkIdentifier (identifier : Identifier) :
    (setting.checkIdentifier place identifier).IsUndisturbed host errors := by
  refine .bind (.of_own (only_require _ _)) fun _ => .counted ?_
  refine .bind (.asked trivial) fun found? => ?_
  rcases found? with _ | ⟨type | ⟨parameters, returns⟩, isActive⟩
  · exact .of_not_passes fun _ _ _ count =>
      not_passes_unknown (finds_bind fun _ => finds_pure rfl) count
  · refine .bind (.of_own (own_checks.expect _ _ ?_)) fun _ => ?_
    · exact only_bind (only_lift _) fun _ => only_pure _
    · exact .ignored_bind silent (.inr rfl) (.pure _)
  · refine .of_not_passes fun _ _ _ _ passes => ?_
    obtain ⟨label, _, reported⟩ := passes_lift_bind_iff.mp passes
    exact not_passes_report_bind rfl reported

theorem undisturbed_resolveCallee (callee : Identifier) :
    (setting.resolveCallee place errors callee).IsUndisturbed host errors := by
  refine .bind (.of_own (only_lift _)) fun builtin? => ?_
  cases builtin? with
  | some builtin =>
    refine .bind (.of_own (own_checks.warnOfUse callee)) fun _ => ?_
    refine .bind (.of_own (own_checks.checkTarget callee)) fun _ => ?_
    exact .bind (.asked trivial) fun _ => .pure _
  | none =>
    refine .bind (.asked trivial) fun found? => ?_
    rcases found? with _ | ⟨type | ⟨parameters, returns⟩, isActive⟩
    · refine .of_not_passes fun state resolved last count passes => ?_
      obtain ⟨isRefused, _, target, unknown⟩ := passes_bind_iff.mp passes
      obtain ⟨rfl, rfl⟩ := passes_checkTarget target
      exact not_passes_unknown (finds_bind fun _ => finds_pure rfl) count unknown
    · exact .of_not_passes fun _ _ _ _ => not_passes_report_bind rfl
    · exact .ignored_bind silent (.inr rfl) (.pure _)

theorem undisturbed_targetType (target : Identifier) :
    (setting.targetType place target).IsUndisturbed host errors := by
  refine .counted (.bind (.asked trivial) fun found? => ?_)
  rcases found? with _ | ⟨type | ⟨parameters, returns⟩, isActive⟩
  · exact .of_not_passes fun _ _ _ count => not_passes_unknown (finds_pure rfl) count
  · refine .ignored_bind silent (.inr rfl) (.of_own ?_)
    refine only_bind (own_checks.expect _ _ ?_) fun _ => only_pure _
    exact only_bind (only_lift _) fun _ => only_pure _
  · exact .ignored_bind silent (.inr rfl) (.of_not_passes fun _ _ _ _ => not_passes_report_bind rfl)

/-- A check of a program is left undisturbed by a silent host. -/
theorem checkRules_undisturbed (errors : Nat) :
    setting.CheckRules (fun _ => True) (· = errors) fun _ walk => walk.IsUndisturbed host errors where
  pure := .pure
  broken _ := .of_not_passes fun _ _ _ _ => not_passes_broken
  bind := .bind
  counted rest := .counted (rest errors rfl)
  asked isOwn _ := .asked isOwn
  declared _ _ _ := .ignored_bind silent (.inl rfl) (.pure ())
  identifier _ identifier _ := undisturbed_checkIdentifier silent identifier
  callee _ _ isCount callee _ := isCount ▸ undisturbed_resolveCallee silent callee
  target _ target _ := undisturbed_targetType silent target

end Silent

end Setting

/-! ### Checks -/

namespace Checker

variable {checker : Checker} {reporter : Reporter} {facts : Facts} {block : Block}
  {analysis : Analysis Unit}

theorem handBack_of_quiet {state : RunState σ} {errors : Nat}
    (quiet : state.reporter.errorCount = errors) :
    checker.handBack errors false state = .ok {
      isCorrect := true
      reporter := state.reporter
      facts := state.facts
      hostState := state.hostState
      checker :=
        { checker with
          active := state.active, inLoop := state.inLoop, inFunction := state.inFunction } } := by
  rw [handBack, decide_eq_true quiet]
  rfl

/-- A silent host makes no difference to a program that is correct without a host: with the host the
program is correct too, with the same diagnostics, types, scopes and effects. The host is asked about
names only that the program declares or binds. -/
theorem analyze_of_isSilent (analyzed : checker.analyze none reporter facts () block = .ok analysis)
    (isCorrect : analysis.isCorrect = true) {host : Host σ} (silent : host.IsSilent)
    (hostState : σ) :
    (∃ hosted, checker.analyze (some host) reporter facts hostState block = .ok hosted ∧
        hosted.isCorrect = true ∧ hosted.reporter = analysis.reporter ∧
        hosted.facts = analysis.facts ∧ hosted.checker = analysis.checker) ∧
      ∀ query ∈ checker.asked host reporter facts hostState block,
        query.use = .declare ∨ query.use = .bound := by
  obtain ⟨after, passes, rfl⟩ := analyze_eq_ok_iff_passes.mp ⟨analyzed, isCorrect⟩
  have undisturbed : (checker.setting.checkProgram (checker.place block) block).IsUndisturbed host
      reporter.errorCount :=
    (Setting.checkRules_undisturbed silent _).checkProgram fun _ _ => trivial
  obtain ⟨⟨last, ran⟩, areSettled⟩ := undisturbed _ _ _ rfl passes hostState
  have isRun : checker.runOver (some host) reporter facts hostState block =
    .ok (.ok (), after.withHost last) := ran
  refine ⟨⟨{ checker.accept after with hostState := last }, ?_, rfl, rfl, rfl, rfl⟩, areSettled⟩
  rw [analyze_eq, isRun]
  exact handBack_of_quiet passes.quiet

/-- The sample program stays correct with a host that counts how often it is asked and knows every
name. It is asked about the variable, the called function and the read variable. -/
theorem analyze_of_isSilent_sample :
    let host : Host Nat := fun _ (reporter, count) => .ok (.ok true, reporter, count + 1)
    let checker := Workspace.sample.checker []
    ∃ hosted, checker.analyze (some host) default {} 0 Workspace.sampleProgram = .ok hosted ∧
      hosted.isCorrect = true ∧ host.IsSilent ∧
      (checker.asked host default {} 0 Workspace.sampleProgram).map (·.use) =
        [.declare, .bound, .bound] := by
  intro host checker
  have silent : host.IsSilent := fun query reporter count => ⟨true, count + 1, rfl⟩
  obtain ⟨accepted, uses⟩ :
      (checker.analyze none default {} () Workspace.sampleProgram).map (·.isCorrect) = .ok true ∧
        (checker.asked host default {} 0 Workspace.sampleProgram).map (·.use) =
          [.declare, .bound, .bound] := by
    decide +kernel
  obtain ⟨analysis, analyzed, isCorrect⟩ := Except.map_eq_ok_iff.mp accepted
  obtain ⟨⟨hosted, analyzedHosted, stays, _⟩, _⟩ :=
    analyze_of_isSilent analyzed isCorrect silent 0
  exact ⟨hosted, analyzedHosted, stays, silent, uses⟩

end Checker

end YulCheck
