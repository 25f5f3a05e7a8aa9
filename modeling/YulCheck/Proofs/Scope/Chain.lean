import YulCheck.Scope.Forest

/-! # The way outwards

From every scope the parents lead outwards to one that has none, since a scope is opened after the one
around it. The scopes on that way are those that a lookup goes through.
-/

namespace YulCheck

theorem lt_of_some_eq {id first : Nat} (below : id < first) (outer : Nat)
    (same : some id = some outer) : outer < first := by
  cases same
  exact below

namespace ScopeForest

variable {forest : ScopeForest} {start : ScopeId} {start? : Option ScopeId}
  {chain : List (ScopeId × Scope)}

/-- Whether every scope is opened after the one around it. -/
def IsOrdered (forest : ScopeForest) : Prop :=
  ∀ id scope parent, forest.get? id = some scope → scope.parent? = some parent → parent < id

/-- The scopes from one outwards, along the parents up to a scope that has none. -/
inductive Outwards (forest : ScopeForest) : Option ScopeId → List (ScopeId × Scope) → Prop
  | outermost : Outwards forest none []
  | inside {id : ScopeId} {scope : Scope} {outer : List (ScopeId × Scope)}
    (present : forest.get? id = some scope)
    (ordered : ∀ parent, scope.parent? = some parent → parent < id)
    (around : Outwards forest scope.parent? outer) :
    Outwards forest (some id) ((id, scope) :: outer)

/-- In an ordered forest the way outwards ends. -/
theorem IsOrdered.exists_outwards (ordered : forest.IsOrdered) (below : start < forest.size) :
    ∃ chain, forest.Outwards (some start) chain := by
  induction start using Nat.strongRecOn with
  | ind start ih =>
    have present : forest.get? start = some forest.scopes[start] := Array.getElem?_eq_getElem below
    generalize forest.scopes[start] = scope at present
    have earlier (parent : ScopeId) (isParent : scope.parent? = some parent) : parent < start :=
      ordered start scope parent present isParent
    obtain ⟨outer, around⟩ : ∃ outer, forest.Outwards scope.parent? outer := by
      cases isParent : scope.parent? with
      | none => exact ⟨[], .outermost⟩
      | some parent =>
        have isEarlier := earlier parent isParent
        exact ih parent isEarlier (Nat.lt_trans isEarlier below)
    exact ⟨_, .inside present earlier around⟩

/-- As many scopes as the number of the first one allows are all scopes on the way. -/
theorem Outwards.chainFrom_eq (outwards : forest.Outwards start? chain) {count : Nat}
    (enough : ∀ start, start? = some start → start < count) :
    forest.chainFrom count start? = chain := by
  induction outwards generalizing count with
  | outermost => cases count <;> rfl
  | @inside id scope outer present ordered _ ih =>
    obtain _ | count := count
    · exact absurd (enough id rfl) (Nat.not_lt_zero id)
    · rw [chainFrom, present]
      refine congrArg (_ :: ·) (ih fun parent isParent => ?_)
      exact Nat.lt_of_lt_of_le (ordered parent isParent) (Nat.le_of_lt_succ (enough id rfl))

theorem Outwards.chain_eq (outwards : forest.Outwards (some start) chain) :
    forest.chain start = chain :=
  outwards.chainFrom_eq (lt_of_some_eq (Nat.lt_succ_self start))

theorem chain_of_absent (absent : forest.get? start = none) : forest.chain start = [] := by
  rw [ScopeForest.chain, chainFrom, absent]

end ScopeForest

end YulCheck
