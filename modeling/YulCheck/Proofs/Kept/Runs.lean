import YulCheck.Proofs.Kept.Scopes
import YulCheck.Proofs.Scope.Opened

/-! # Runs behind kept facts

A run that starts with facts about earlier programs does what it does without them, as long as it asks
for the scopes of nodes that it opened itself: the same answers, the same reports, the same questions
to the host. What it finds out comes in front of the facts that were there.
-/

namespace YulCheck

variable {σ α β : Type}

/-! ### Facts -/

namespace Facts

/-- The facts about a program, together with those about earlier programs. -/
def behind (facts kept : Facts) : Facts where
  scopes := facts.scopes.behind kept.scopes
  blockScopes :=
    facts.blockScopes.map (fun (id, scope) => (id, kept.scopes.size + scope)) ++ kept.blockScopes
  functionScopes :=
    facts.functionScopes.map (fun (id, scope) => (id, kept.scopes.size + scope))
      ++ kept.functionScopes
  expressionTypes := facts.expressionTypes ++ kept.expressionTypes
  sideEffects := kept.sideEffects.join facts.sideEffects

variable {facts kept : Facts} {owner : ScopeOwner}

/-- Whether every scope is opened after the one around it, and nodes have only scopes that are open. -/
structure IsOrdered (facts : Facts) : Prop where
  parents : facts.scopes.IsOrdered
  owned : ∀ owner scope, facts.scopeOf? owner = some scope → scope < facts.scopes.size

theorem isOrdered_empty : ({} : Facts).IsOrdered where
  parents := ScopeForest.isOrdered_empty
  owned owner scope owned := by
    cases owner <;> cases owned

theorem empty_behind (kept : Facts) : ({} : Facts).behind kept = kept := by
  obtain ⟨scopes, blockScopes, functionScopes, expressionTypes, sideEffects⟩ := kept
  rw [behind, ScopeForest.empty_behind, SideEffects.join_comm, SideEffects.pure_join]
  rfl

theorem scopeOf?_behind (facts kept : Facts) (owner : ScopeOwner) :
    (facts.behind kept).scopeOf? owner =
      ((facts.scopeOf? owner).map (kept.scopes.size + ·)).or (kept.scopeOf? owner) := by
  cases owner with
  | block id =>
    show List.lookup id (_ ++ kept.blockScopes) = _
    rw [List.lookup_append, List.lookup_map_snd]
    rfl
  | function id =>
    show List.lookup id (_ ++ kept.functionScopes) = _
    rw [List.lookup_append, List.lookup_map_snd]
    rfl

theorem scopeOf?_behind_of_isSome (isOpen : (facts.scopeOf? owner).isSome = true) (kept : Facts) :
    (facts.behind kept).scopeOf? owner = (facts.scopeOf? owner).map (kept.scopes.size + ·) := by
  obtain ⟨scope, owned⟩ := Option.isSome_iff_exists.mp isOpen
  rw [scopeOf?_behind, owned]
  rfl

theorem typesOf?_behind (facts kept : Facts) (expression : NodeId) :
    (facts.behind kept).typesOf? expression =
      (facts.typesOf? expression).or (kept.typesOf? expression) := List.lookup_append

theorem openScope_behind (facts kept : Facts) (owner : ScopeOwner) (parent? : Option ScopeId) :
    (facts.behind kept).openScope owner (parent?.map (kept.scopes.size + ·)) =
      (facts.openScope owner parent?).behind kept := by
  have added := ScopeForest.add_behind facts.scopes kept.scopes parent? owner.isFunction
  cases owner <;>
  · rw [openScope, show (facts.behind kept).scopes = facts.scopes.behind kept.scopes from rfl, added]
    rfl

theorem noteEffects_behind (facts kept : Facts) (effects : SideEffects) :
    (facts.behind kept).noteEffects effects = (facts.noteEffects effects).behind kept := by
  simp only [noteEffects, behind, SideEffects.join_assoc]

end Facts

/-! ### Requests for known nodes -/

/-- The nodes that have a scope when a request is made. -/
def Request.needs : Request → List ScopeOwner
  | .hasScope owner | .activate owner _ => [owner]
  | .resumeScope block | .lookup block _ => [.block block]
  | .consult place .. => [.block place.block]
  | .openScope _ | .leaveScope | .bind .. | .errorCount | .report .. | .warnOnce _ | .noteTypes .. | .noteEffects _ => []

/-! ### States -/

/-- The state of a run together with facts about earlier programs, and with the variables of earlier
programs whose declarations are complete. -/
def RunState.behind (state : RunState σ) (kept : Facts) (stale : List (ScopeId × Handle)) :
    RunState σ :=
  { state with
    facts := state.facts.behind kept
    around := state.around.map (kept.scopes.size + ·)
    active := state.active.map (fun (scope, name) => (kept.scopes.size + scope, name)) ++ stale }

/-- Whether a part of a run does the same together with facts about earlier programs. -/
def Run.IsSameBehind (part : Run σ α) (kept : Facts) (stale : List (ScopeId × Handle))
    (state : RunState σ) : Prop :=
  part (state.behind kept stale) =
    (part state).map fun (outcome, after) => (outcome, after.behind kept stale)

section Behind

variable {kept : Facts} {stale : List (ScopeId × Handle)} {state : RunState σ}
  {host? : Option (Host σ)}

/-- Variables of earlier programs are not mistaken for those of the program. -/
theorem contains_active_behind (isStale : ∀ entry ∈ stale, entry.1 < kept.scopes.size)
    (state : RunState σ) (scope : ScopeId) (name : Handle) :
    (state.behind kept stale).active.contains (kept.scopes.size + scope, name) =
      state.active.contains (scope, name) := by
  rw [Bool.eq_iff_iff, List.contains_iff_mem, List.contains_iff_mem]
  constructor
  · intro member
    rcases List.mem_append.mp member with member | member
    · obtain ⟨⟨other, otherName⟩, isActive, same⟩ := List.mem_map.mp member
      obtain ⟨sameScope, rfl⟩ := Prod.mk.inj same
      exact Nat.add_left_cancel sameScope ▸ isActive
    · exact absurd (isStale _ member) (Nat.not_lt.mpr (Nat.le_add_right _ _))
  · intro member
    exact List.mem_append_left _ (List.mem_map.mpr ⟨_, member, rfl⟩)

namespace Run.IsSameBehind

theorem pure (result : α) : (pure result : Run σ α).IsSameBehind kept stale state := rfl

theorem fault (fault : Fault) : (Run.fault fault : Run σ α).IsSameBehind kept stale state := rfl

theorem bind {first : Run σ α} {next : α → Run σ β} (isFirst : first.IsSameBehind kept stale state)
    (rest : ∀ value after, first state = .ok (.ok value, after) →
      (next value).IsSameBehind kept stale after) :
    (first >>= next).IsSameBehind kept stale state := by
  rw [IsSameBehind, bind_apply, bind_apply, isFirst]
  rcases ran : first state with fault | ⟨failure | value, after⟩
  · rfl
  · rfl
  · exact rest value after ran

end Run.IsSameBehind

namespace Run

theorem scopeOf_behind {owner : ScopeOwner} (isOpen : (state.facts.scopeOf? owner).isSome = true) :
    (state.behind kept stale).facts.scopeOf? owner =
      (state.facts.scopeOf? owner).map (kept.scopes.size + ·) :=
  Facts.scopeOf?_behind_of_isSome isOpen kept

/-- A request for nodes that the run opened itself is answered as without the earlier programs. -/
theorem answer_behind (isStale : ∀ entry ∈ stale, entry.1 < kept.scopes.size)
    (ordered : state.facts.IsOrdered) {request : Request} (areOpen : state.HasOpened request.needs) :
    (answer host? request).IsSameBehind kept stale state := by
  rw [IsSameBehind]
  cases request with
  | openScope owner =>
    have opened := state.facts.openScope_behind kept owner state.around.head?
    rw [answer, openScope_apply, openScope_apply]
    dsimp only [RunState.behind]
    rw [List.head?_map, opened, show (state.facts.behind kept).scopes.size = _ from
      ScopeForest.size_behind state.facts.scopes kept.scopes]
    rfl
  | resumeScope block =>
    have isOpen := areOpen (.block block) List.mem_cons_self
    obtain ⟨scope, owned⟩ := Option.isSome_iff_exists.mp isOpen
    simp only [answer, resumeScope_apply, scopeOf_behind isOpen, owned, Option.map_some]
    rfl
  | leaveScope =>
    rw [answer, leaveScope_apply, leaveScope_apply]
    dsimp only [RunState.behind]
    rw [← List.map_tail]
    rfl
  | bind name binding =>
    simp only [answer, bind_request_apply]
    rw [show (state.behind kept stale).around = state.around.map (kept.scopes.size + ·) from rfl,
      show (state.behind kept stale).facts.scopes = state.facts.scopes.behind kept.scopes from rfl]
    cases state.around with
    | nil => rfl
    | cons scope outer =>
      rw [List.map_cons]
      dsimp only
      rw [ScopeForest.bind?_behind]
      cases state.facts.scopes.bind? scope name binding <;> rfl
  | hasScope owner =>
    have isOpen := areOpen owner List.mem_cons_self
    show Except.ok (Except.ok ((state.behind kept stale).facts.scopeOf? owner).isSome, _) = _
    rw [scopeOf_behind isOpen, Option.isSome_map]
    rfl
  | lookup block name =>
    have isOpen := areOpen (.block block) List.mem_cons_self
    obtain ⟨scope, owned⟩ := Option.isSome_iff_exists.mp isOpen
    simp only [answer, lookup_apply, scopeOf_behind isOpen, owned, Option.map_some]
    rw [show (state.behind kept stale).facts.scopes = state.facts.scopes.behind kept.scopes from rfl,
      ScopeForest.lookup?_behind ordered.parents, Option.map_map]
    cases state.facts.scopes.lookup? scope name with
    | none => rfl
    | some found =>
      simp only [Option.map_some, Function.comp_apply, contains_active_behind isStale]
      rfl
  | activate owner name =>
    have isOpen := areOpen owner List.mem_cons_self
    obtain ⟨scope, owned⟩ := Option.isSome_iff_exists.mp isOpen
    simp only [answer, activate_apply, scopeOf_behind isOpen, owned, Option.map_some]
    rw [show (state.behind kept stale).facts.scopes = state.facts.scopes.behind kept.scopes from rfl,
      ScopeForest.get?_behind_add]
    cases state.facts.scopes.get? scope <;> rfl
  | errorCount | noteTypes => rfl
  | noteEffects effects =>
    show Except.ok (Except.ok (), { state.behind kept stale with
      facts := (state.facts.behind kept).noteEffects effects }) = _
    rw [Facts.noteEffects_behind]
    rfl
  | report place diagnostic =>
    simp only [answer, report_apply]
    rw [show (state.behind kept stale).reporter = state.reporter from rfl]
    rcases state.reporter.report diagnostic with ⟨failure | result, reporter⟩ <;> rfl
  | warnOnce diagnostic =>
    show Except.ok (Except.ok (), if state.reporter.hasAny [diagnostic.code]
      then state.behind kept stale
      else { state.behind kept stale with reporter := state.reporter.reportWarning diagnostic }) =
      Except.ok (Except.ok (), (if state.reporter.hasAny [diagnostic.code] then state
      else { state with reporter := state.reporter.reportWarning diagnostic }).behind kept stale)
    split <;> rfl
  | consult place identifier use =>
    cases host? with
    | none => rfl
    | some host =>
      have isOpen := areOpen (.block place.block) List.mem_cons_self
      obtain ⟨scope, owned⟩ := Option.isSome_iff_exists.mp isOpen
      simp only [answer, consult_some, scopeOf_behind isOpen, owned, Option.map_some, Option.any_some]
      rw [show (state.behind kept stale).facts.scopes = state.facts.scopes.behind kept.scopes from rfl,
        ScopeForest.isInFunction_behind ordered.parents,
        show (state.behind kept stale).reporter = state.reporter from rfl,
        show (state.behind kept stale).hostState = state.hostState from rfl]
      rcases host ⟨identifier, use, state.facts.scopes.isInFunction scope⟩
        (state.reporter, state.hostState) with fault | ⟨failure | isKnown, reporter, hostState⟩ <;> rfl

end Run

end Behind

/-! ### What runs keep -/

/-- Whether the scopes in a state are in order, and so are those that are entered and the variables whose
declarations are complete. -/
structure RunState.IsSettled (state : RunState σ) : Prop extends state.facts.IsOrdered where
  around : ∀ id ∈ state.around, id < state.facts.scopes.size
  active : ∀ entry ∈ state.active, entry.1 < state.facts.scopes.size

namespace RunState

variable {state after : RunState σ}

/-- Everything but the scopes and the variables may change. -/
theorem IsSettled.of_same (settled : state.IsSettled)
    (scoping : after.facts.scoping = state.facts.scoping) (around : after.around = state.around)
    (active : after.active = state.active) : after.IsSettled := by
  have scopes : after.facts.scopes = state.facts.scopes := congrArg Scoping.forest scoping
  have scopeOf? : after.facts.scopeOf? = state.facts.scopeOf? := congrArg Scoping.scopeOf? scoping
  refine ⟨⟨?_, ?_⟩, ?_, ?_⟩
  · rw [scopes]
    exact settled.parents
  · rw [scopes, scopeOf?]
    exact settled.owned
  · rw [scopes, around]
    exact settled.around
  · rw [scopes, active]
    exact settled.active

end RunState

namespace Facts

variable {facts : Facts}

theorem scopes_openScope (facts : Facts) (owner : ScopeOwner) (parent? : Option ScopeId) :
    (facts.openScope owner parent?).scopes = (facts.scopes.add parent? owner.isFunction).2 := by
  cases owner <;> rfl

theorem IsOrdered.openScope (ordered : facts.IsOrdered) (owner : ScopeOwner)
    {parent? : Option ScopeId} (below : ∀ parent, parent? = some parent → parent < facts.scopes.size) :
    (facts.openScope owner parent?).IsOrdered where
  parents := by
    rw [scopes_openScope]
    exact ordered.parents.add below owner.isFunction
  owned other scope owned := by
    rw [scopes_openScope, ScopeForest.size_add]
    rw [scopeOf?_openScope] at owned
    split at owned
    · cases owned
      exact Nat.lt_succ_self _
    · exact Nat.lt_succ_of_lt (ordered.owned other scope owned)

end Facts

section Kept

variable {host? : Option (Host σ)} {state after : RunState σ}

/-- No request disturbs the order of the scopes. -/
theorem Run.isSettled_of_answer {request : Request} {outcome : Except Failure request.Answer}
    (answered : answer host? request state = .ok (outcome, after)) (settled : state.IsSettled) :
    after.IsSettled := by
  by_cases stays : ∃ block, request.StaysIn block
  · obtain ⟨block, stays⟩ := stays
    exact settled.of_same (scoping_of_answer stays.keepsScopes answered)
      (around_of_answer stays.staysInside answered) (active_of_answer stays answered)
  cases request with
  | openScope owner =>
    cases answered
    have below : ∀ parent, state.around.head? = some parent → parent < state.facts.scopes.size :=
      fun parent isCurrent => settled.around parent (List.mem_of_head? isCurrent)
    have size : (state.facts.openScope owner state.around.head?).scopes.size =
        state.facts.scopes.size + 1 := by
      rw [Facts.scopes_openScope, ScopeForest.size_add]
    refine ⟨settled.toIsOrdered.openScope owner below, List.forall_mem_cons.mpr ⟨?_, ?_⟩, ?_⟩
    · exact size.symm ▸ Nat.lt_succ_self _
    · exact fun id isAround => size.symm ▸ Nat.lt_succ_of_lt (settled.around id isAround)
    · exact fun entry isActive => size.symm ▸ Nat.lt_succ_of_lt (settled.active entry isActive)
  | resumeScope block =>
    simp only [answer, resumeScope_apply] at answered
    split at answered <;> cases answered
    rename_i owned
    exact ⟨settled.toIsOrdered, List.forall_mem_cons.mpr ⟨settled.owned _ _ owned, settled.around⟩,
      settled.active⟩
  | leaveScope =>
    cases answered
    exact ⟨settled.toIsOrdered, fun id isAround => settled.around id (List.mem_of_mem_tail isAround),
      settled.active⟩
  | bind name binding =>
    simp only [answer, bind_request_apply] at answered
    split at answered
    · cases answered
    · split at answered <;> cases answered
      · rename_i isBound
        have size := ScopeForest.size_of_bind?_eq_some isBound
        exact ⟨⟨settled.parents.bind? isBound, fun other scope owned =>
          size.symm ▸ settled.owned other scope owned⟩, fun id isAround =>
          size.symm ▸ settled.around id isAround, fun entry isActive =>
          size.symm ▸ settled.active entry isActive⟩
      · exact settled
  | activate owner name =>
    simp only [answer, activate_apply] at answered
    split at answered
    · rename_i owned
      cases answered
      exact ⟨settled.toIsOrdered, settled.around, List.forall_mem_cons.mpr
        ⟨settled.owned owner _ owned, settled.active⟩⟩
    · cases answered
  | hasScope owner =>
    cases answered
    exact settled
  | lookup | consult => exact absurd ⟨_, rfl⟩ stays
  | errorCount | report | warnOnce | noteTypes | noteEffects => exact absurd ⟨0, trivial⟩ stays

/-- The scopes stay in order while a walk is carried out. -/
theorem Walk.isSettled_of_run {walk : Walk α} {outcome : Except Failure α}
    (ran : walk.run host? state = .ok (outcome, after)) (settled : state.IsSettled) :
    after.IsSettled := by
  have any : walk.Only fun _ => True := only_of_forall (fun _ => trivial) walk
  exact run_relates (fun state after => state.IsSettled → after.IsSettled) (fun _ => id)
    (fun _ _ _ first second settled => second (first settled))
    (fun _ _ _ _ _ => Run.isSettled_of_answer) any ran settled

/-! ### Walks -/

variable {kept : Facts} {stale : List (ScopeId × Handle)}

/-- A walk that needs only nodes with scopes does the same together with facts about earlier
programs. -/
theorem Walk.run_behind (isStale : ∀ entry ∈ stale, entry.1 < kept.scopes.size)
    {owners : List ScopeOwner} {walk : Walk α} (only : walk.Only (·.needs ⊆ owners))
    (settled : state.IsSettled) (opened : state.HasOpened owners) :
    (walk.run host?).IsSameBehind kept stale state := by
  induction walk generalizing state with
  | done result => exact .pure result
  | broken fault => exact .fault fault
  | step request next ih =>
    rw [run_step]
    have areOpen : state.HasOpened request.needs := fun owner member => opened owner (only.1 member)
    refine .bind (Run.answer_behind isStale settled.toIsOrdered areOpen) fun answer after ran => ?_
    exact ih answer (only.2 answer) (Run.isSettled_of_answer ran settled)
      (opened.of_keepsOpen (Run.keepsOpen_of_answer ran))

end Kept

end YulCheck
