import YulCheck.Proofs.Judgement.Passing
import YulCheck.Proofs.Rename.State

/-! # Walks that pass under other names

One walk is renamed to another one if the other one passes wherever the first does, with the same
result and under other names. Where names are bound or looked up, the other walk does so with the other
names; all other requests are the same.
-/

namespace YulCheck

variable {α β γ : Type}

/-- Whether a request is made without a name that a program could change. -/
def Request.IsNameless : Request → Prop
  | .bind .. | .lookup .. | .activate .. | .consult .. => False
  | _ => True

theorem Request.IsNameless.names {request : Request} (nameless : request.IsNameless) :
    request.names = [] := by
  cases request <;> trivial

theorem RunState.facts_rename {σ : Type} (state : RunState σ) (change : Handle → Handle) :
    (state.rename change).facts = state.facts.rename change := rfl

namespace Run

variable {host? : Option (Host Unit)} {state after : RunState Unit} {request : Request}
  {outcome : Except Failure request.Answer}

theorem scopeOf?_rename (facts : Facts) (change : Handle → Handle) (owner : ScopeOwner) :
    (facts.rename change).scopeOf? owner = facts.scopeOf? owner := by
  cases owner <;> rfl

/-- Requests without names are answered alike under other names. -/
theorem answer_rename (nameless : request.IsNameless)
    (answered : answer none request state = .ok (outcome, after)) (change : Handle → Handle) :
    answer none request (state.rename change) = .ok (outcome, after.rename change) := by
  cases request with
  | bind | lookup | activate | consult => cases nameless
  | openScope owner =>
    cases answered
    rw [answer, openScope_apply]
    dsimp only [RunState.rename]
    rw [Facts.openScope_rename]
    dsimp only [Facts.rename]
    rw [ScopeForest.size_rename]
  | resumeScope block =>
    simp only [answer, resumeScope_apply, RunState.facts_rename, scopeOf?_rename] at answered ⊢
    split at answered <;> cases answered
    rfl
  | hasScope owner =>
    cases answered
    show Except.ok (Except.ok ((state.facts.rename change).scopeOf? owner).isSome, _) = _
    rw [scopeOf?_rename]
  | leaveScope | errorCount | noteTypes | noteEffects =>
    cases answered
    rfl
  | report place diagnostic =>
    simp only [answer, report_apply] at answered ⊢
    dsimp only [RunState.rename]
    split at answered <;> cases answered <;> rfl
  | warnOnce diagnostic =>
    cases answered
    show Except.ok (Except.ok (), ite _ _ _) = Except.ok (Except.ok (), RunState.rename _ (ite _ _ _))
    rw [apply_ite (RunState.rename change)]
    rfl

variable {renames : Renaming} {name : Handle} (isKnown : name ∈ renames.domain)
  (knows : state.KnowsOnly renames.domain)

include isKnown knows

theorem contains_rename (scope : ScopeId) :
    (state.rename renames.change).active.contains (scope, renames.change name) =
      state.active.contains (scope, name) := by
  let changeEntry (entry : ScopeId × Handle) := (entry.1, renames.change entry.2)
  have same : ∀ entry ∈ state.active, changeEntry entry = changeEntry (scope, name) →
      entry = (scope, name) := by
    intro entry isActive same
    obtain ⟨sameScope, sameName⟩ := Prod.mk.inj same
    exact Prod.ext sameScope (renames.injective (knows.active entry isActive) isKnown sameName)
  exact List.contains_map_of_forall same

/-- What a name refers to, the other name refers to under other names. -/
theorem lookup_rename (block : NodeId) :
    lookup block (renames.change name) (state.rename renames.change) =
      (lookup block name state).map fun answer => (answer.1, answer.2.rename renames.change) := by
  rw [lookup_apply, lookup_apply, RunState.facts_rename, scopeOf?_rename]
  cases state.facts.scopeOf? (.block block) with
  | none => rfl
  | some scope =>
    dsimp only [Facts.rename]
    rw [ScopeForest.lookup?_rename isKnown knows.bound]
    simp only [contains_rename isKnown knows]
    rfl

theorem activate_rename (owner : ScopeOwner) :
    activate owner (renames.change name) (state.rename renames.change) =
      (activate owner name state).map fun answer => (answer.1, answer.2.rename renames.change) := by
  rw [activate_apply, activate_apply, RunState.facts_rename, scopeOf?_rename]
  cases state.facts.scopeOf? owner with
  | none => rfl
  | some id =>
    dsimp only [Facts.rename]
    rw [ScopeForest.get?_rename]
    rcases found : state.facts.scopes.get? id with _ | scope
    · rfl
    · rw [Option.map_some, Option.bind_some, Scope.get?_rename isKnown (knows.bound.get? found)]
      rfl

theorem bind_rename (binding : Binding) :
    bind (renames.change name) binding (state.rename renames.change) =
      (bind name binding state).map fun answer => (answer.1, answer.2.rename renames.change) := by
  rw [bind_request_apply, bind_request_apply, RunState.facts_rename,
    show (state.rename renames.change).around = state.around from rfl]
  cases state.around with
  | nil => rfl
  | cons id outer =>
    dsimp only [Facts.rename]
    rw [ScopeForest.bind?_rename isKnown knows.bound]
    cases state.facts.scopes.bind? id name binding <;> rfl

end Run

namespace Walk

/-- Whether another walk passes under other names wherever a walk does that comes across no further
names, while there is the given number of errors. -/
def RenamedBy (first : Walk α) (renames : Renaming) (errors : Nat) (second : Walk α) : Prop :=
  ∀ state result after, state.reporter.errorCount = errors → state.KnowsOnly renames.domain →
    first.Passes state result after → after.KnowsOnly renames.domain ∧
      second.Passes (state.rename renames.change) result (after.rename renames.change)

variable {renames : Renaming} {errors : Nat} {first second : Walk α} {next other : α → Walk β}

namespace RenamedBy

/-! ### Parts of walks -/

theorem pure (result : α) :
    (Pure.pure result : Walk α).RenamedBy renames errors (Pure.pure result) := by
  intro state _ _ _ knows passes
  obtain ⟨rfl, rfl⟩ := passes_pure_iff.mp passes
  exact ⟨knows, passes_pure_iff.mpr ⟨rfl, rfl⟩⟩

/-- A walk that never passes is renamed to all others. -/
theorem of_not_passes (second : Walk α)
    (never : ∀ state result after, state.reporter.errorCount = errors →
      ¬first.Passes state result after) : first.RenamedBy renames errors second :=
  fun state result after count _ passes => absurd passes (never state result after count)

/-- What follows on a result of the first part may depend on the result. -/
theorem bind_of_passes (isRenamed : first.RenamedBy renames errors second)
    (rest : ∀ result,
      (∃ state after, state.reporter.errorCount = errors ∧ first.Passes state result after) →
        (next result).RenamedBy renames errors (other result)) :
    (first >>= next).RenamedBy renames errors (second >>= other) := by
  intro state last after count knows passes
  obtain ⟨value, middle, passesFirst, passesNext⟩ := passes_bind_iff.mp passes
  obtain ⟨knowsMiddle, passesSecond⟩ := isRenamed _ _ _ count knows passesFirst
  obtain ⟨knowsAfter, passesOther⟩ := rest value ⟨state, middle, count, passesFirst⟩ _ _ _
    (passesFirst.quiet.trans count) knowsMiddle passesNext
  exact ⟨knowsAfter, passes_bind_iff.mpr ⟨value, _, passesSecond, passesOther⟩⟩

theorem bind (isRenamed : first.RenamedBy renames errors second)
    (rest : ∀ result, (next result).RenamedBy renames errors (other result)) :
    (first >>= next).RenamedBy renames errors (second >>= other) :=
  isRenamed.bind_of_passes fun result _ => rest result

/-- What is answered alike without a change of the state may be taken for granted. -/
theorem answered_bind {answer : α} (answers : first.Answers errors answer)
    (otherAnswers : second.Answers errors answer)
    (rest : (next answer).RenamedBy renames errors (other answer)) :
    (first >>= next).RenamedBy renames errors (second >>= other) := by
  intro state last after count knows passes
  rw [passes_bind_iff_of_answer (answers state count)] at passes
  rw [passes_bind_iff_of_answer (otherAnswers (state.rename renames.change) count)]
  exact rest state last after count knows passes

/-- What is lifted may have another result, if the rest makes no difference between them. -/
theorem lift_bind {β : Type} {value otherValue : Except Fault α} {next other : α → Walk β}
    (rest : ∀ result, value = .ok result →
      ∃ final, otherValue = .ok final ∧ (next result).RenamedBy renames errors (other final)) :
    ((liftM value : Walk α) >>= next).RenamedBy renames errors
      ((liftM otherValue : Walk α) >>= other) := by
  intro state last after count knows passes
  obtain ⟨value, known, passesNext⟩ := passes_lift_bind_iff.mp passes
  obtain ⟨final, otherKnown, isRenamed⟩ := rest value known
  obtain ⟨knowsAfter, passesOther⟩ := isRenamed _ _ _ count knows passesNext
  exact ⟨knowsAfter, passes_lift_bind_iff.mpr ⟨final, otherKnown, passesOther⟩⟩

theorem require {condition otherCondition : Bool} {fault otherFault : Fault}
    (implies : condition = true → otherCondition = true) :
    (Walk.require condition fault).RenamedBy renames errors
      (Walk.require otherCondition otherFault) := by
  intro state _ after _ knows passes
  obtain ⟨holds, rfl⟩ := passes_require_iff.mp passes
  exact ⟨knows, passes_require_iff.mpr ⟨implies holds, rfl⟩⟩

theorem forM_map {visit otherVisit : β → Walk Unit} {change : β → β} {elements : List β}
    (each : ∀ element ∈ elements,
      (visit element).RenamedBy renames errors (otherVisit (change element))) :
    (elements.forM visit).RenamedBy renames errors ((elements.map change).forM otherVisit) := by
  induction elements with
  | nil => exact pure ()
  | cons element rest ih =>
    rw [List.forall_mem_cons] at each
    exact each.1.bind fun _ => ih each.2

/-! ### Requests -/

theorem ask_of_nameless {request : Request} (nameless : request.IsNameless) :
    (ask request).RenamedBy renames errors (ask request) := by
  intro state result after _ knows passes
  obtain ⟨answered, quiet⟩ := passes_ask_iff.mp passes
  have noNames : ∀ name ∈ request.names, name ∈ renames.domain :=
    nameless.names ▸ List.forall_mem_nil _
  exact ⟨(Run.addsOnly_of_answer noNames answered).knowsOnly knows,
    passes_ask_iff.mpr ⟨Run.answer_rename nameless answered renames.change, quiet⟩⟩

/-- A walk without names is renamed to itself. -/
theorem of_nameless {walk : Walk α} (nameless : walk.Only (·.IsNameless)) :
    walk.RenamedBy renames errors walk := by
  induction walk with
  | done result => exact pure result
  | broken fault => exact of_not_passes _ fun _ _ _ _ => not_passes_broken
  | step request next ih =>
    exact (ask_of_nameless nameless.1).bind fun answer => ih answer (nameless.2 answer)

variable {name : Handle} (isKnown : name ∈ renames.domain)

include isKnown

theorem lookup (block : NodeId) :
    (ask (.lookup block name)).RenamedBy renames errors
      (ask (.lookup block (renames.change name))) := by
  intro state found after _ knows passes
  obtain ⟨answered, quiet⟩ := passes_ask_iff.mp passes
  have areKnown : ∀ other ∈ (Request.lookup block name).names, other ∈ renames.domain :=
    List.forall_mem_singleton.mpr isKnown
  refine ⟨(Run.addsOnly_of_answer areKnown answered).knowsOnly knows, passes_ask_iff.mpr ⟨?_, quiet⟩⟩
  exact (Run.lookup_rename isKnown knows block).trans (congrArg (Except.map _) answered)

theorem activate (owner : ScopeOwner) :
    (ask (.activate owner name)).RenamedBy renames errors
      (ask (.activate owner (renames.change name))) := by
  intro state isBound after _ knows passes
  obtain ⟨answered, quiet⟩ := passes_ask_iff.mp passes
  have areKnown : ∀ other ∈ (Request.activate owner name).names, other ∈ renames.domain :=
    List.forall_mem_singleton.mpr isKnown
  refine ⟨(Run.addsOnly_of_answer areKnown answered).knowsOnly knows, passes_ask_iff.mpr ⟨?_, quiet⟩⟩
  exact (Run.activate_rename isKnown knows owner).trans (congrArg (Except.map _) answered)

theorem bindName (binding : Binding) :
    (ask (.bind name binding)).RenamedBy renames errors
      (ask (.bind (renames.change name) binding)) := by
  intro state isFree after _ knows passes
  obtain ⟨answered, quiet⟩ := passes_ask_iff.mp passes
  have areKnown : ∀ other ∈ (Request.bind name binding).names, other ∈ renames.domain :=
    List.forall_mem_singleton.mpr isKnown
  refine ⟨(Run.addsOnly_of_answer areKnown answered).knowsOnly knows, passes_ask_iff.mpr ⟨?_, quiet⟩⟩
  exact (Run.bind_rename isKnown knows binding).trans (congrArg (Except.map _) answered)

end RenamedBy

end Walk

end YulCheck
