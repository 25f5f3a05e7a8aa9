import Mathlib.Data.Set.Function
import YulCheck.Proofs.Rename.Tree
import YulCheck.Proofs.Lexical.Run

/-! # Scopes under other names

A run binds, activates and looks up names. It does the same under other names, as long as different
names of the program do not become the same one.
-/

namespace YulCheck

/-- Other names for some names, different ones for different ones. -/
structure Renaming where
  /-- The names that get other ones. -/
  domain : Set Handle
  change : Handle → Handle
  injective : Set.InjOn change domain

/-! ### Scopes -/

section Scopes

variable (change : Handle → Handle)

/-- The scope with other names. -/
def Scope.rename (scope : Scope) : Scope :=
  { scope with bindings := scope.bindings.map fun entry => (change entry.1, entry.2) }

/-- The scopes with other names. -/
def ScopeForest.rename (forest : ScopeForest) : ScopeForest := ⟨forest.scopes.map (·.rename change)⟩

/-- The facts with other names. -/
def Facts.rename (facts : Facts) : Facts := { facts with scopes := facts.scopes.rename change }

/-- The state of a run with other names. -/
def RunState.rename {σ : Type} (state : RunState σ) : RunState σ :=
  { state with
    facts := state.facts.rename change
    active := state.active.map fun entry => (entry.1, change entry.2) }

namespace ScopeForest

variable (forest : ScopeForest)

@[simp]
theorem empty_rename : empty.rename change = empty := congrArg mk Array.map_empty

@[simp]
theorem size_rename : (forest.rename change).size = forest.size := Array.size_map

theorem get?_rename (id : ScopeId) :
    (forest.rename change).get? id = (forest.get? id).map (·.rename change) := Array.getElem?_map

theorem add_rename (parent? : Option ScopeId) (isFunction : Bool) :
    (forest.rename change).add parent? isFunction =
      (forest.size, (forest.add parent? isFunction).2.rename change) := by
  rw [add, size_rename]
  simp only [rename, add, Array.map_push]
  rfl

theorem chainFrom_rename (count : Nat) (start? : Option ScopeId) :
    (forest.rename change).chainFrom count start? =
      (forest.chainFrom count start?).map fun entry => (entry.1, entry.2.rename change) := by
  induction count generalizing start? with
  | zero => cases start? <;> rfl
  | succ count ih =>
    cases start? with
    | none => rfl
    | some start =>
      rw [chainFrom, chainFrom, get?_rename]
      cases forest.get? start with
      | none => rfl
      | some scope => exact congrArg ((start, scope.rename change) :: ·) (ih scope.parent?)

end ScopeForest

theorem Facts.openScope_rename (facts : Facts) (owner : ScopeOwner) (parent? : Option ScopeId) :
    (facts.rename change).openScope owner parent? = (facts.openScope owner parent?).rename change := by
  rw [openScope, openScope]
  dsimp only [rename]
  rw [ScopeForest.add_rename]
  cases owner <;> rfl

end Scopes

@[simp]
theorem Scope.rename_id (scope : Scope) : scope.rename (fun name => name) = scope := by
  show { scope with bindings := scope.bindings.map id } = scope
  rw [List.map_id]

@[simp]
theorem ScopeForest.rename_id (forest : ScopeForest) :
    forest.rename (fun name => name) = forest := by
  rw [rename, funext Scope.rename_id, Array.map_id_fun']
  rfl

@[simp]
theorem RunState.rename_id {σ : Type} (state : RunState σ) :
    state.rename (fun name => name) = state := by
  rw [rename, Facts.rename, ScopeForest.rename_id]
  show { state with active := state.active.map id } = state
  rw [List.map_id]

/-! ### Lookups -/

theorem List.lookup_map_fst {κ α : Type} [BEq κ] [LawfulBEq κ] {change : κ → κ}
    {known : Set κ} (injective : Set.InjOn change known) {table : List (κ × α)} {key : κ}
    (isKnown : key ∈ known) (areKnown : ∀ entry ∈ table, entry.1 ∈ known) :
    (table.map fun entry => (change entry.1, entry.2)).lookup (change key) = table.lookup key := by
  induction table with
  | nil => rfl
  | cons entry rest ih =>
    rw [List.forall_mem_cons] at areKnown
    rw [List.map_cons, List.lookup_cons, List.lookup_cons, ih areKnown.2,
      Bool.eq_iff_iff.mpr (beq_iff_eq.trans ((injective.eq_iff isKnown areKnown.1).trans
        beq_iff_eq.symm))]

/-- Nothing else in a list becomes what an element of it becomes. -/
theorem List.contains_map_of_forall {α β : Type} [BEq α] [LawfulBEq α] [BEq β] [LawfulBEq β]
    {change : α → β} {elements : List α} {element : α}
    (same : ∀ other ∈ elements, change other = change element → other = element) :
    (elements.map change).contains (change element) = elements.contains element := by
  rw [Bool.eq_iff_iff, List.contains_iff_mem, List.contains_iff_mem]
  refine ⟨fun isMapped => ?_, List.mem_map_of_mem⟩
  obtain ⟨other, member, isSame⟩ := List.mem_map.mp isMapped
  exact same other member isSame ▸ member

/-- Whether a scope binds only some names. -/
def Scope.BindsOnly (known : Set Handle) (scope : Scope) : Prop :=
  ∀ entry ∈ scope.bindings, entry.1 ∈ known

/-- Whether only some names are bound in scopes. -/
def ScopeForest.BindsOnly (known : Set Handle) (forest : ScopeForest) : Prop :=
  ∀ scope ∈ forest.scopes, scope.BindsOnly known

/-- Whether a run came across only some names. -/
structure RunState.KnowsOnly {σ : Type} (known : Set Handle) (state : RunState σ) : Prop where
  bound : state.facts.scopes.BindsOnly known
  active : ∀ entry ∈ state.active, entry.2 ∈ known

section Known

variable {renames : Renaming} {name : Handle} (isKnown : name ∈ renames.domain)

include isKnown

namespace Scope

variable {scope : Scope} (binds : scope.BindsOnly renames.domain)

include binds

theorem get?_rename :
    (scope.rename renames.change).get? (renames.change name) = scope.get? name :=
  List.lookup_map_fst renames.injective isKnown binds

theorem bind?_rename (binding : Binding) :
    (scope.rename renames.change).bind? (renames.change name) binding =
      (scope.bind? name binding).map (·.rename renames.change) := by
  rw [bind?, bind?, get?_rename isKnown binds]
  split <;> rfl

end Scope

namespace ScopeForest

variable {forest : ScopeForest} (binds : forest.BindsOnly renames.domain)

omit isKnown in
theorem BindsOnly.get? {known : Set Handle} (binds : forest.BindsOnly known) {id : ScopeId}
    {scope : Scope} (isScope : forest.get? id = some scope) : scope.BindsOnly known :=
  binds scope (Array.mem_of_getElem? isScope)

omit isKnown in
theorem BindsOnly.chainFrom {known : Set Handle} (binds : forest.BindsOnly known) (count : Nat)
    (start? : Option ScopeId) :
    ∀ entry ∈ forest.chainFrom count start?, entry.2.BindsOnly known := by
  induction count generalizing start? with
  | zero => cases start? <;> exact fun _ isEntry => absurd isEntry List.not_mem_nil
  | succ count ih =>
    cases start? with
    | none => exact fun _ isEntry => absurd isEntry List.not_mem_nil
    | some start =>
      rw [ScopeForest.chainFrom]
      rcases found : forest.get? start with _ | scope
      · exact fun _ isEntry => absurd isEntry List.not_mem_nil
      · exact List.forall_mem_cons.mpr ⟨binds.get? found, ih scope.parent?⟩

theorem lookupIn_rename (leftFunction : Bool) {chain : List (ScopeId × Scope)}
    (bind : ∀ entry ∈ chain, entry.2.BindsOnly renames.domain) :
    lookupIn (renames.change name) leftFunction
        (chain.map fun entry => (entry.1, entry.2.rename renames.change)) =
      lookupIn name leftFunction chain := by
  induction chain generalizing leftFunction with
  | nil => rfl
  | cons entry rest ih =>
    obtain ⟨id, scope⟩ := entry
    rw [List.forall_mem_cons] at bind
    rw [List.map_cons, lookupIn, lookupIn, Scope.get?_rename isKnown bind.1]
    cases scope.get? name with
    | some binding => rfl
    | none => exact ih _ bind.2

include binds

theorem lookup?_rename (start : ScopeId) :
    (forest.rename renames.change).lookup? start (renames.change name) =
      forest.lookup? start name := by
  rw [lookup?, lookup?, chain, chain, chainFrom_rename]
  exact lookupIn_rename isKnown false (binds.chainFrom _ _)

theorem bind?_rename (id : ScopeId) (binding : Binding) :
    (forest.rename renames.change).bind? id (renames.change name) binding =
      (forest.bind? id name binding).map (·.rename renames.change) := by
  rw [bind?, bind?, get?_rename]
  rcases found : forest.get? id with _ | scope
  · rfl
  · show ((scope.rename renames.change).bind? (renames.change name) binding).bind _ =
      ((scope.bind? name binding).bind _).map _
    rw [Scope.bind?_rename isKnown (binds.get? found)]
    cases scope.bind? name binding with
    | none => rfl
    | some bound =>
      exact congrArg (fun scopes => some (ScopeForest.mk scopes)) Array.map_setIfInBounds.symm

end ScopeForest

end Known

/-! ### Requests -/

/-- The names that a request is about. -/
def Request.names : Request → List Handle
  | .bind name _ | .lookup _ name | .activate _ name => [name]
  | .consult _ identifier _ => [identifier.name]
  | .openScope _ | .resumeScope _ | .leaveScope | .hasScope _ | .errorCount | .report .. | .warnOnce _ | .noteTypes ..
  | .noteEffects _ => []

/-- Whether all bindings in scopes are for known names, or were there before. -/
def ScopeForest.AddsOnly (known : Set Handle) (before after : ScopeForest) : Prop :=
  ∀ id scope, after.get? id = some scope → ∀ entry ∈ scope.bindings,
    entry.1 ∈ known ∨ ∃ earlier, before.get? id = some earlier ∧ entry ∈ earlier.bindings

namespace ScopeForest

variable {known : Set Handle} {first second third : ScopeForest}

theorem AddsOnly.refl (forest : ScopeForest) : forest.AddsOnly known forest :=
  fun _ scope isScope _ isBound => .inr ⟨scope, isScope, isBound⟩

theorem AddsOnly.trans (adds : first.AddsOnly known second) (addsMore : second.AddsOnly known third) :
    first.AddsOnly known third := by
  intro id scope isScope entry isBound
  rcases addsMore id scope isScope entry isBound with isKnown | ⟨earlier, isEarlier, wasBound⟩
  · exact .inl isKnown
  · exact adds id earlier isEarlier entry wasBound

theorem addsOnly_add (forest : ScopeForest) (parent? : Option ScopeId) (isFunction : Bool) :
    forest.AddsOnly known (forest.add parent? isFunction).2 := by
  intro id scope isScope entry isBound
  rw [get?_add] at isScope
  split at isScope
  · cases isScope
    exact absurd isBound List.not_mem_nil
  · exact .inr ⟨scope, isScope, isBound⟩

theorem addsOnly_bind? {forest bound : ScopeForest} {id : ScopeId} {name : Handle}
    (isKnown : name ∈ known) {binding : Binding} (isBound : forest.bind? id name binding = some bound) :
    forest.AddsOnly known bound := by
  obtain ⟨scope, isScope, entered⟩ := Option.bind_eq_some_iff.mp isBound
  obtain ⟨extended, isFree, same⟩ := Option.bind_eq_some_iff.mp entered
  cases same
  intro other found isFound entry isEntry
  rw [get?, Array.getElem?_setIfInBounds] at isFound
  split at isFound
  · rename_i isHere
    subst isHere
    split at isFound
    · cases isFound
      rw [Scope.bind?] at isFree
      split at isFree <;> cases isFree
      rcases List.mem_cons.mp isEntry with rfl | isOld
      · exact .inl isKnown
      · exact .inr ⟨scope, isScope, isOld⟩
    · cases isFound
  · exact .inr ⟨found, isFound, isEntry⟩

end ScopeForest

/-- Whether since an earlier state a run bound only known names and completed the declarations of known
variables only. -/
structure RunState.AddsOnly {σ : Type} (known : Set Handle) (before after : RunState σ) : Prop where
  bound : before.facts.scopes.AddsOnly known after.facts.scopes
  active : ∀ entry ∈ after.active, entry.2 ∈ known ∨ entry ∈ before.active

namespace RunState.AddsOnly

variable {σ : Type} {known : Set Handle} {first second third : RunState σ}

theorem refl (state : RunState σ) : state.AddsOnly known state :=
  ⟨.refl _, fun _ => .inr⟩

theorem trans (adds : first.AddsOnly known second) (addsMore : second.AddsOnly known third) :
    first.AddsOnly known third :=
  ⟨adds.bound.trans addsMore.bound, fun entry isActive =>
    (addsMore.active entry isActive).elim .inl (adds.active entry)⟩

theorem knowsOnly (adds : first.AddsOnly known second) (knows : first.KnowsOnly known) :
    second.KnowsOnly known := by
  constructor
  · intro scope member entry isBound
    obtain ⟨id, isScope⟩ := Array.mem_iff_getElem?.mp member
    rcases adds.bound id scope isScope entry isBound with isKnown | ⟨earlier, isEarlier, wasBound⟩
    · exact isKnown
    · exact knows.bound.get? isEarlier entry wasBound
  · exact fun entry isActive => (adds.active entry isActive).elim id (knows.active entry)

end RunState.AddsOnly

/-- A run comes across no other names than those that its requests are about. -/
theorem Run.addsOnly_of_answer {σ : Type} {host? : Option (Host σ)} {state after : RunState σ}
    {request : Request} {outcome : Except Failure request.Answer} {known : Set Handle}
    (areKnown : ∀ name ∈ request.names, name ∈ known)
    (answered : answer host? request state = .ok (outcome, after)) :
    state.AddsOnly known after := by
  cases request with
  | openScope owner =>
    cases answered
    refine ⟨?_, fun _ => .inr⟩
    cases owner <;> exact state.facts.scopes.addsOnly_add _ _
  | resumeScope block =>
    simp only [answer, resumeScope_apply] at answered
    split at answered <;> cases answered
    exact ⟨.refl _, fun _ => .inr⟩
  | leaveScope | hasScope | errorCount | noteTypes | noteEffects =>
    cases answered
    exact ⟨.refl _, fun _ => .inr⟩
  | bind name binding =>
    simp only [answer, bind_request_apply] at answered
    split at answered
    · cases answered
    · split at answered <;> cases answered
      · rename_i entered
        have isKnown := List.forall_mem_singleton.mp areKnown
        exact ⟨ScopeForest.addsOnly_bind? isKnown entered, fun _ => .inr⟩
      · exact .refl state
  | lookup block name =>
    simp only [answer, lookup_apply] at answered
    split at answered <;> cases answered
    exact .refl state
  | activate owner name =>
    simp only [answer, activate_apply] at answered
    split at answered <;> cases answered
    have isKnown := List.forall_mem_singleton.mp areKnown
    exact ⟨.refl _, List.forall_mem_cons.mpr ⟨.inl isKnown, fun _ => .inr⟩⟩
  | report place diagnostic =>
    simp only [answer, report_apply] at answered
    split at answered <;> cases answered <;> exact ⟨.refl _, fun _ => .inr⟩
  | warnOnce diagnostic =>
    cases answered
    show RunState.AddsOnly known state (ite _ _ _)
    split <;> exact ⟨.refl _, fun _ => .inr⟩
  | consult place identifier use =>
    cases host? with
    | none =>
      cases answered
      exact .refl state
    | some host =>
      simp only [answer, consult_some] at answered
      split at answered <;> cases answered <;> exact ⟨.refl _, fun _ => .inr⟩

end YulCheck
