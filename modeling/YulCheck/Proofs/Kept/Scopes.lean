import YulCheck.Proofs.Scope.Chain
import YulCheck.Proofs.Scope.Growth

/-! # Scopes behind kept ones

The scopes of a program can stand behind those of earlier programs. Then all of them have greater
numbers, by as much as there are earlier scopes, and a lookup that starts in one of them finds what it
would find without the earlier ones: every scope is opened after the one around it.
-/

namespace YulCheck

theorem List.lookup_map_snd {κ α β : Type} [BEq κ] (table : List (κ × α)) (change : α → β)
    (key : κ) :
    (table.map fun entry => (entry.1, change entry.2)).lookup key = (table.lookup key).map change := by
  induction table with
  | nil => rfl
  | cons entry rest ih =>
    rw [List.map_cons, List.lookup_cons, List.lookup_cons]
    cases key == entry.1 with
    | true => rfl
    | false => exact ih

/-! ### Scopes -/

/-- The scope with the number of its parent increased. -/
def Scope.shift (count : Nat) (scope : Scope) : Scope :=
  { scope with parent? := scope.parent?.map (count + ·) }

@[simp]
theorem Scope.get?_shift (scope : Scope) (count : Nat) (name : Handle) :
    (scope.shift count).get? name = scope.get? name := rfl

theorem Scope.bind?_shift (scope : Scope) (count : Nat) (name : Handle) (binding : Binding) :
    (scope.shift count).bind? name binding = (scope.bind? name binding).map (·.shift count) := by
  rw [bind?, bind?, get?_shift]
  split <;> rfl

namespace ScopeForest

variable {forest kept : ScopeForest} {id : ScopeId}

/-- The scopes behind kept ones. -/
def behind (forest kept : ScopeForest) : ScopeForest :=
  ⟨kept.scopes ++ forest.scopes.map (·.shift kept.size)⟩

@[simp]
theorem size_behind (forest kept : ScopeForest) :
    (forest.behind kept).size = kept.size + forest.size := by
  simp [behind, size]

theorem get?_behind_of_lt (forest : ScopeForest) (isKept : id < kept.size) :
    (forest.behind kept).get? id = kept.get? id :=
  Array.getElem?_append_left isKept

theorem get?_behind_add (forest kept : ScopeForest) (id : ScopeId) :
    (forest.behind kept).get? (kept.size + id) = (forest.get? id).map (·.shift kept.size) := by
  show (kept.scopes ++ forest.scopes.map (·.shift kept.size))[kept.scopes.size + id]? = _
  rw [Array.getElem?_append_right (Nat.le_add_right _ _), Nat.add_sub_cancel_left,
    Array.getElem?_map]
  rfl

@[simp]
theorem empty_behind (kept : ScopeForest) : empty.behind kept = kept := by
  simp [behind, empty]

theorem add_behind (forest kept : ScopeForest) (parent? : Option ScopeId) (isFunction : Bool) :
    (forest.behind kept).add (parent?.map (kept.size + ·)) isFunction =
      (kept.size + forest.size, (forest.add parent? isFunction).2.behind kept) := by
  rw [add, size_behind]
  simp only [behind, add, Array.map_push, Array.append_push]
  rfl

theorem bind?_behind (forest kept : ScopeForest) (id : ScopeId) (name : Handle)
    (binding : Binding) :
    (forest.behind kept).bind? (kept.size + id) name binding =
      (forest.bind? id name binding).map (·.behind kept) := by
  have replaced (scope : Scope) :
      (⟨(forest.behind kept).scopes.setIfInBounds (kept.size + id) (scope.shift kept.size)⟩ :
        ScopeForest) = (⟨forest.scopes.setIfInBounds id scope⟩ : ScopeForest).behind kept := by
    simp only [behind, size, Array.map_setIfInBounds]
    rw [Array.setIfInBounds_append_right (Nat.le_add_right _ _), Nat.add_sub_cancel_left]
  rw [bind?, bind?, get?_behind_add]
  cases forest.get? id with
  | none => rfl
  | some scope =>
    show ((scope.shift kept.size).bind? name binding).bind _ =
      ((scope.bind? name binding).bind _).map _
    rw [Scope.bind?_shift]
    cases scope.bind? name binding with
    | none => rfl
    | some bound => exact congrArg some (replaced bound)

/-! ### Lookups -/

/-- The numbered scope behind kept ones. -/
def shiftEntry (count : Nat) (entry : ScopeId × Scope) : ScopeId × Scope :=
  (count + entry.1, entry.2.shift count)

/-- The way outwards leads through the same scopes, with greater numbers. -/
theorem Outwards.behind {start? : Option ScopeId} {chain : List (ScopeId × Scope)}
    (outwards : forest.Outwards start? chain) (kept : ScopeForest) :
    (forest.behind kept).Outwards (start?.map (kept.size + ·))
      (chain.map (shiftEntry kept.size)) := by
  induction outwards with
  | outermost => exact .outermost
  | @inside id scope outer present ordered _ ih =>
    refine .inside ?_ (fun parent isParent => ?_) ih
    · rw [get?_behind_add, present]
      rfl
    · obtain ⟨before, isBefore, rfl⟩ := Option.map_eq_some_iff.mp isParent
      exact Nat.add_lt_add_left (ordered before isBefore) kept.size

theorem chain_behind (ordered : forest.IsOrdered) (kept : ScopeForest) (start : ScopeId) :
    (forest.behind kept).chain (kept.size + start) =
      (forest.chain start).map (shiftEntry kept.size) := by
  by_cases below : start < forest.size
  · obtain ⟨chain, outwards⟩ := ordered.exists_outwards below
    rw [outwards.chain_eq]
    exact (outwards.behind kept).chain_eq
  · have absent : forest.get? start = none := Array.getElem?_eq_none (Nat.le_of_not_lt below)
    rw [chain_of_absent absent, chain_of_absent]
    · rfl
    · rw [get?_behind_add, absent]
      rfl

/-- Scopes that bind a name alike are looked through alike, whatever their numbers are. -/
theorem lookupIn_map (change : ScopeId × Scope → ScopeId × Scope) (renumber : ScopeId → ScopeId)
    {name : Handle} (numbers : ∀ entry, (change entry).1 = renumber entry.1)
    (isFunction : ∀ entry, (change entry).2.isFunction = entry.2.isFunction)
    (bindings : ∀ entry, (change entry).2.get? name = entry.2.get? name) (leftFunction : Bool)
    (chain : List (ScopeId × Scope)) :
    lookupIn name leftFunction (chain.map change) =
      (lookupIn name leftFunction chain).map fun (id, binding) => (renumber id, binding) := by
  induction chain generalizing leftFunction with
  | nil => rfl
  | cons entry rest ih =>
    rw [List.map_cons, lookupIn, lookupIn, bindings, isFunction, numbers]
    cases entry.2.get? name with
    | none => exact ih _
    | some binding =>
      dsimp only
      split <;> rfl

/-- A lookup finds the same scope, whose number is greater. -/
theorem lookup?_behind (ordered : forest.IsOrdered) (kept : ScopeForest) (start : ScopeId)
    (name : Handle) :
    (forest.behind kept).lookup? (kept.size + start) name =
      (forest.lookup? start name).map fun (id, binding) => (kept.size + id, binding) := by
  rw [lookup?, chain_behind ordered]
  exact lookupIn_map (shiftEntry kept.size) _ (fun _ => rfl) (fun _ => rfl) (fun _ => rfl) false _

theorem isInFunction_behind (ordered : forest.IsOrdered) (kept : ScopeForest) (start : ScopeId) :
    (forest.behind kept).isInFunction (kept.size + start) = forest.isInFunction start := by
  rw [isInFunction, isInFunction, chain_behind ordered, List.any_map]
  rfl

/-! ### Ordered scopes -/

theorem isOrdered_empty : empty.IsOrdered := nofun

theorem IsOrdered.add (ordered : forest.IsOrdered) {parent? : Option ScopeId}
    (isOpen : ∀ parent, parent? = some parent → parent < forest.size) (isFunction : Bool) :
    (forest.add parent? isFunction).2.IsOrdered := by
  intro id scope parent present isParent
  rw [get?_add] at present
  split at present
  · rename_i isNew
    cases present
    exact isNew ▸ isOpen parent isParent
  · exact ordered id scope parent present isParent

theorem IsOrdered.extend (ordered : forest.IsOrdered) (id : ScopeId)
    (bindings : List (Handle × Binding)) : (forest.extend id bindings).IsOrdered := by
  intro other scope parent present isParent
  rw [get?_extend] at present
  split at present
  · obtain ⟨before, wasPresent, rfl⟩ := Option.map_eq_some_iff.mp present
    exact ordered other before parent wasPresent isParent
  · exact ordered other scope parent present isParent

theorem IsOrdered.bind? (ordered : forest.IsOrdered) {bound : ScopeForest} {name : Handle}
    {binding : Binding} (isBound : forest.bind? id name binding = some bound) : bound.IsOrdered := by
  cases found : forest.get? id with
  | none =>
    rw [ScopeForest.bind?, found] at isBound
    cases isBound
  | some scope =>
    obtain ⟨_, rfl⟩ := (bind?_eq_some_iff found).mp isBound
    exact ordered.extend id _

end ScopeForest

end YulCheck
