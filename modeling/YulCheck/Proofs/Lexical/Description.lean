import Mathlib.Data.List.Forall2
import YulCheck.Proofs.Lexical.Agreement
import YulCheck.Proofs.Scope.Chain

/-! # Environments that describe scopes

An environment describes a scope in the state of a run if its frames are, one by one, the scopes from
that one outwards: with the same bindings, and with the same variables complete. Then looking up a
name along the scopes finds what the environment says about it.
-/

namespace YulCheck

variable {σ : Type} {state after : RunState σ}

/-- Whether a frame describes a scope. -/
structure Frame.Describes (frame : Frame) (state : RunState σ) (id : ScopeId) (scope : Scope) :
    Prop where
  isFunction : scope.isFunction = frame.isFunction
  get (name : Handle) : scope.get? name = frame.binding? name
  active (name : Handle) : (id, name) ∈ state.active ↔ frame.isComplete name = true

/-- Whether an environment describes the scopes from one outwards. Every scope has a greater number
than the one around it. -/
inductive Environment.Describes (state : RunState σ) : Environment → Option ScopeId → Prop
  | outermost : Describes state [] none
  | inside {id : ScopeId} {scope : Scope} {frame : Frame} {outer : Environment}
      (present : state.facts.scopes.get? id = some scope)
      (described : frame.Describes state id scope)
      (ordered : ∀ parent, scope.parent? = some parent → parent < id)
      (around : Describes state outer scope.parent?) : Describes state (frame :: outer) (some id)

namespace Environment

/-- The frames of an environment are one by one the scopes on the way outwards. -/
theorem Describes.exists_outwards {environment : Environment} {scope? : Option ScopeId}
    (describes : environment.Describes state scope?) :
    ∃ chain, state.facts.scopes.Outwards scope? chain ∧
      List.Forall₂ (fun (entry : ScopeId × Scope) frame => frame.Describes state entry.1 entry.2)
        chain environment := by
  induction describes with
  | outermost => exact ⟨[], .outermost, .nil⟩
  | inside present described ordered _ ih =>
    obtain ⟨outer, outwards, others⟩ := ih
    exact ⟨_, .inside present ordered outwards, .cons described others⟩

/-- A lookup goes through scopes and frames in the same way. -/
theorem lookupIn_of_forall₂ {chain : List (ScopeId × Scope)} {environment : Environment}
    (described : List.Forall₂
      (fun (entry : ScopeId × Scope) frame => frame.Describes state entry.1 entry.2)
      chain environment) (name : Handle) (leftFunction : Bool) :
    (ScopeForest.lookupIn name leftFunction chain).map (fun (found, binding) =>
        Found.mk binding (state.active.contains (found, name))) =
      lookupFrom name leftFunction environment := by
  induction described generalizing leftFunction with
  | nil => rfl
  | @cons entry frame chain outer described _ ih =>
    rw [ScopeForest.lookupIn, lookupFrom, described.get name]
    cases frame.binding? name with
    | none =>
      rw [described.isFunction]
      exact ih _
    | some binding =>
      have same : state.active.contains (entry.1, name) = frame.isComplete name := by
        rw [Bool.eq_iff_iff, List.contains_iff_mem]
        exact described.active name
      dsimp only
      split
      · rfl
      · exact congrArg some (congrArg (Found.mk binding) same)

theorem isInFunction_of_forall₂ {chain : List (ScopeId × Scope)} {environment : Environment}
    (described : List.Forall₂
      (fun (entry : ScopeId × Scope) frame => frame.Describes state entry.1 entry.2)
      chain environment) : chain.any (·.2.isFunction) = environment.isInFunction := by
  rw [isInFunction]
  induction described with
  | nil => rfl
  | cons described _ ih => rw [List.any_cons, List.any_cons, ih, described.isFunction]

variable {environment : Environment} {id : ScopeId}

theorem Describes.found? (describes : environment.Describes state (some id)) (name : Handle) :
    state.found? id name = environment.lookup? name := by
  obtain ⟨chain, outwards, described⟩ := describes.exists_outwards
  refine Eq.trans ?_ (lookupIn_of_forall₂ described name false)
  rw [← outwards.chain_eq]
  rfl

theorem Describes.isInFunction (describes : environment.Describes state (some id)) :
    state.facts.scopes.isInFunction id = environment.isInFunction := by
  obtain ⟨chain, outwards, described⟩ := describes.exists_outwards
  rw [← isInFunction_of_forall₂ described, ← outwards.chain_eq]
  rfl

/-- An environment keeps describing a scope as long as the scopes and the variables that are complete
in it and around it stay the same. -/
theorem Describes.of_same {scope? : Option ScopeId} (describes : environment.Describes state scope?)
    (scopes : after.facts.scopes = state.facts.scopes)
    (active : ∀ id, scope? = some id → ∀ other name, other ≤ id →
      ((other, name) ∈ after.active ↔ (other, name) ∈ state.active)) :
    environment.Describes after scope? := by
  induction describes with
  | outermost => exact .outermost
  | @inside id scope frame outer present described ordered around ih =>
    refine .inside (scopes ▸ present) ⟨described.isFunction, described.get, ?_⟩ ordered (ih ?_)
    · intro name
      exact (active id rfl id name (Nat.le_refl _)).trans (described.active name)
    · intro parent isParent other name notAfter
      have below : parent < id := ordered parent isParent
      exact active id rfl other name (Nat.le_trans notAfter (Nat.le_of_lt below))

end Environment

/-- Whether a point in a block is described by an environment. -/
structure RunState.Inside (state : RunState σ) (place : Place) (id : ScopeId)
    (environment : Environment) : Prop where
  owned : state.facts.scopeOf? (.block place.block) = some id
  describes : environment.Describes state (some id)

/-- What stays in the block is answered the way the environment says. -/
theorem RunState.Inside.answers {place : Place} {id : ScopeId} {environment : Environment}
    (inside : state.Inside place id environment) {request : Request}
    (stays : request.StaysIn place.block) : environment.Answers state request := by
  cases request with
  | lookup block name =>
    cases stays
    exact ⟨id, inside.owned, inside.describes.found? name⟩
  | consult other identifier use =>
    have same : other.block = place.block := stays
    show (state.facts.scopeOf? (.block other.block)).any _ = _
    rw [same, inside.owned]
    exact inside.describes.isInFunction
  | openScope | resumeScope | leaveScope | bind | hasScope | activate => cases stays
  | errorCount | report | warnOnce | noteTypes | noteEffects => trivial

end YulCheck
