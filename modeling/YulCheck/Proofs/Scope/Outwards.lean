import YulCheck.Proofs.Kept.Scopes

/-! # Looking outwards

From every scope the parents lead outwards to one that has none, since a scope is opened after the one
around it. A name is looked up in the nearest scope on that way that binds it, but a variable is hidden
if the way leaves a function before it comes there. Binding a name concerns no other name, and only the
scopes from which the way comes to the one that binds it.
-/

namespace YulCheck

namespace ScopeForest

variable {forest : ScopeForest} {id start : ScopeId} {name other : Handle} {binding : Binding}

/-! ### Forests that can be built -/

/-- Bind a name in a scope if it is free there. The flag tells whether it was. -/
def register (forest : ScopeForest) (id : ScopeId) (name : Handle) (binding : Binding) :
    Bool × ScopeForest :=
  match forest.bind? id name binding with
  | some bound => (true, bound)
  | none => (false, forest)

/-- The forests that are built by opening scopes inside of scopes that are there, and by binding names
in them. -/
inductive Reachable : ScopeForest → Prop
  | empty : Reachable empty
  | add {forest : ScopeForest} (before : Reachable forest) {parent? : Option ScopeId}
    (isOpen : ∀ parent, parent? = some parent → parent < forest.size) (isFunction : Bool) :
    Reachable (forest.add parent? isFunction).2
  | register {forest : ScopeForest} (before : Reachable forest) (id : ScopeId) (name : Handle)
    (binding : Binding) : Reachable (forest.register id name binding).2

theorem IsOrdered.register (ordered : forest.IsOrdered) (id : ScopeId) (name : Handle)
    (binding : Binding) : (forest.register id name binding).2.IsOrdered := by
  rw [ScopeForest.register]
  split
  · rename_i isBound
    exact ordered.bind? isBound
  · exact ordered

theorem Reachable.isOrdered (reachable : forest.Reachable) : forest.IsOrdered := by
  induction reachable with
  | empty => exact isOrdered_empty
  | add _ isOpen isFunction ih => exact ih.add isOpen isFunction
  | register _ id name binding ih => exact ih.register id name binding

/-! ### The nearest binding -/

/-- Whether the nearest scope on a way outwards that binds a name is that of a number, behind the given
scopes, and what it binds the name to. -/
structure Nearest (name : Handle) (chain inner : List (ScopeId × Scope)) (id : ScopeId)
    (binding : Binding) : Prop where
  skipped : ∀ entry ∈ inner, entry.2.get? name = none
  binds : ∃ scope outer, chain = inner ++ (id, scope) :: outer ∧ scope.get? name = some binding

/-- The nearest binding is found, unless it is a variable and a function was left on the way there. -/
theorem lookupIn_of_nearest {chain inner : List (ScopeId × Scope)}
    (nearest : Nearest name chain inner id binding) (leftFunction : Bool) :
    lookupIn name leftFunction chain =
      if (leftFunction || inner.any (·.2.isFunction)) && binding.isVariable then none
      else some (id, binding) := by
  obtain ⟨skipped, scope, outer, rfl, binds⟩ := nearest
  induction inner generalizing leftFunction with
  | nil => rw [List.nil_append, lookupIn, binds, List.any_nil, Bool.or_false]
  | cons entry rest ih =>
    rw [List.forall_mem_cons] at skipped
    rw [List.cons_append, lookupIn, skipped.1, List.any_cons, ← Bool.or_assoc]
    exact ih (leftFunction || entry.2.isFunction) skipped.2

theorem lookupIn_of_unbound {chain : List (ScopeId × Scope)}
    (unbound : ∀ entry ∈ chain, entry.2.get? name = none) (leftFunction : Bool) :
    lookupIn name leftFunction chain = none := by
  induction chain generalizing leftFunction with
  | nil => rfl
  | cons entry rest ih =>
    rw [List.forall_mem_cons] at unbound
    rw [lookupIn, unbound.1]
    exact ih unbound.2 _

/-! ### One more binding -/

theorem register_eq_of_get? {scope : Scope} (present : forest.get? id = some scope) :
    forest.register id name binding =
      if scope.get? name = none then (true, forest.extend id [(name, binding)])
      else (false, forest) := by
  rw [register]
  by_cases free : scope.get? name = none
  · have isNew := Scope.get?_eq_none_iff.mp free
    rw [(bind?_eq_some_iff present).mpr ⟨isNew, rfl⟩, if_pos free]
  · have isTaken : forest.bind? id name binding = none := by
      rw [Option.eq_none_iff_forall_ne_some]
      intro bound isBound
      exact free (Scope.get?_eq_none_iff.mpr ((bind?_eq_some_iff present).mp isBound).1)
    rw [isTaken, if_neg free]

/-- The numbered scope with more bindings, if it is that of the number. -/
def extendEntry (id : ScopeId) (bindings : List (Handle × Binding)) (entry : ScopeId × Scope) :
    ScopeId × Scope :=
  (entry.1, if id = entry.1 then entry.2.extend bindings else entry.2)

theorem isFunction_extendEntry (id : ScopeId) (bindings : List (Handle × Binding))
    (entry : ScopeId × Scope) : (extendEntry id bindings entry).2.isFunction = entry.2.isFunction := by
  rw [extendEntry]
  dsimp only
  split <;> rfl

/-- A binding concerns no other name. -/
theorem get?_extendEntry_of_ne (isOther : other ≠ name) (id : ScopeId) (binding : Binding)
    (entry : ScopeId × Scope) :
    (extendEntry id [(name, binding)] entry).2.get? other = entry.2.get? other := by
  rw [extendEntry]
  dsimp only
  split
  · show List.lookup other ((name, binding) :: entry.2.bindings) = _
    rw [List.lookup_cons, beq_false_of_ne isOther]
    rfl
  · rfl

/-- Bindings do not change the way. -/
theorem Outwards.extend {start? : Option ScopeId} {chain : List (ScopeId × Scope)}
    (outwards : forest.Outwards start? chain) (id : ScopeId) (bindings : List (Handle × Binding)) :
    (forest.extend id bindings).Outwards start? (chain.map (extendEntry id bindings)) := by
  induction outwards with
  | outermost => exact .outermost
  | @inside opened scope outer present ordered _ ih =>
    have parents : (extendEntry id bindings (opened, scope)).2.parent? = scope.parent? := by
      rw [extendEntry]
      dsimp only
      split <;> rfl
    refine .inside ?_ (parents.symm ▸ ordered) (parents.symm ▸ ih)
    rw [get?_extend, present]
    split <;> rfl

theorem lookup?_extend_self {scope : Scope} (present : forest.get? id = some scope) (name : Handle)
    (binding : Binding) :
    (forest.extend id [(name, binding)]).lookup? id name = some (id, binding) := by
  have bound : (forest.extend id [(name, binding)]).get? id =
      some (scope.extend [(name, binding)]) := by
    rw [get?_extend, if_pos rfl, present]
    rfl
  have isBound : (scope.extend [(name, binding)]).get? name = some binding := List.lookup_cons_self
  rw [lookup?, chain, chainFrom, bound, lookupIn, isBound]
  rfl

theorem map_extendEntry_of_notMem {chain : List (ScopeId × Scope)} (isOff : id ∉ chain.map (·.1))
    (bindings : List (Handle × Binding)) : chain.map (extendEntry id bindings) = chain := by
  refine (List.map_congr_left fun entry member => ?_).trans chain.map_id
  have isOther : id ≠ entry.1 := by
    rintro rfl
    exact isOff (List.mem_map_of_mem member)
  rw [extendEntry, if_neg isOther]
  rfl

/-- A lookup finds something else after a binding only for the bound name, and only from scopes from
which the way outwards comes to the one that binds it. -/
theorem IsOrdered.of_lookup?_ne (ordered : forest.IsOrdered)
    (differs : (forest.extend id [(name, binding)]).lookup? start other ≠ forest.lookup? start other) :
    other = name ∧ ∃ chain, forest.Outwards (some start) chain ∧ id ∈ chain.map (·.1) := by
  by_cases below : start < forest.size
  · obtain ⟨chain, outwards⟩ := ordered.exists_outwards below
    have after := (outwards.extend id [(name, binding)]).chain_eq
    rw [lookup?, lookup?, after, outwards.chain_eq] at differs
    refine ⟨?_, chain, outwards, ?_⟩
    · by_contra isOther
      refine differs ((lookupIn_map (extendEntry id _) (fun number => number) (fun _ => rfl)
        (isFunction_extendEntry id _) (get?_extendEntry_of_ne isOther id binding) false chain).trans ?_)
      exact congrFun Option.map_id _
    · by_contra isOff
      rw [map_extendEntry_of_notMem isOff] at differs
      exact differs rfl
  · have absent : forest.get? start = none := Array.getElem?_eq_none (Nat.le_of_not_lt below)
    have absentAfter : (forest.extend id [(name, binding)]).get? start = none := by
      rw [get?_extend, absent]
      exact ite_self _
    rw [lookup?, lookup?, chain_of_absent absent, chain_of_absent absentAfter] at differs
    exact absurd rfl differs

/-! ### All forests that can be built -/

/-- From every scope the way outwards ends. The nearest binding on it is found, unless it is a variable
and a scope before it is one of a function; a scope is inside of a function if one on the way is. A name
can be registered in a scope that does not bind it, and is found from there. If it cannot, then nothing
changes; if it can, then only for this name, and only from scopes from which the way comes there. -/
theorem Reachable.resolves_outwards (reachable : forest.Reachable) :
    (∀ start < forest.size, ∃ chain, forest.Outwards (some start) chain) ∧
    (∀ start chain, forest.Outwards (some start) chain →
      (∀ name inner id binding, Nearest name chain inner id binding →
        forest.lookup? start name =
          if inner.any (·.2.isFunction) && binding.isVariable then none else some (id, binding)) ∧
      (∀ name, (∀ entry ∈ chain, entry.2.get? name = none) → forest.lookup? start name = none) ∧
      (forest.isInFunction start = true ↔ ∃ entry ∈ chain, entry.2.isFunction = true)) ∧
    ∀ id scope name binding, forest.get? id = some scope →
      let (isFree, after) := forest.register id name binding
      (isFree = true ↔ scope.get? name = none) ∧
      (isFree = false → after = forest) ∧
      (isFree = true → after.lookup? id name = some (id, binding) ∧
        ∀ start other, after.lookup? start other ≠ forest.lookup? start other →
          other = name ∧ ∃ chain, forest.Outwards (some start) chain ∧ id ∈ chain.map (·.1)) := by
  have ordered := reachable.isOrdered
  refine ⟨fun start below => ordered.exists_outwards below, fun start chain outwards => ?_,
    fun id scope name binding present => ?_⟩
  · rw [← outwards.chain_eq]
    refine ⟨fun name inner id binding nearest => ?_, fun name unbound => ?_, List.any_eq_true⟩
    · exact lookupIn_of_nearest nearest false
    · exact lookupIn_of_unbound unbound false
  · rw [register_eq_of_get? present]
    by_cases free : scope.get? name = none
    · rw [if_pos free]
      refine ⟨iff_of_true rfl free, nofun, fun _ => ⟨?_, fun start other => ordered.of_lookup?_ne⟩⟩
      exact lookup?_extend_self present name binding
    · rw [if_neg free]
      exact ⟨iff_of_false nofun free, fun _ => rfl, nofun⟩

/-- A scope with a variable and a function, the scope of a function inside of it, and its body. -/
def hidingSample : ScopeForest :=
  let outermost := (empty.add none false).2
  let declared := (outermost.register 0 ⟨10⟩ (.variable ⟨1⟩)).2
  (((declared.register 0 ⟨11⟩ (.function [] [])).2.add (some 0) true).2.add (some 1) false).2

theorem reachable_hidingSample : hidingSample.Reachable := by
  have noParent : ∀ parent, (none : Option ScopeId) = some parent → parent < 0 := nofun
  have declared := ((Reachable.empty.add noParent false).register 0 ⟨10⟩ (.variable ⟨1⟩)).register 0
    ⟨11⟩ (.function [] [])
  exact (declared.add (lt_of_some_eq Nat.zero_lt_one) true).add (lt_of_some_eq Nat.one_lt_two) false

/-- The scopes around the body, without the outermost one. -/
def hidingInner : List (ScopeId × Scope) := [(2, ⟨some 1, false, []⟩), (1, ⟨some 0, true, []⟩)]

/-- The outermost scope of the sample. -/
def hidingGlobal : Scope := ⟨none, false, [(⟨11⟩, .function [] []), (⟨10⟩, .variable ⟨1⟩)]⟩

theorem outwards_hidingSample :
    hidingSample.Outwards (some 2) (hidingInner ++ [(0, hidingGlobal)]) :=
  .inside rfl (lt_of_some_eq Nat.one_lt_two)
    (.inside rfl (lt_of_some_eq Nat.zero_lt_one) (.inside rfl nofun .outermost))

theorem nearest_hidingSample {name : Handle} {binding : Binding}
    (binds : hidingGlobal.get? name = some binding) :
    Nearest name (hidingInner ++ [(0, hidingGlobal)]) hidingInner 0 binding where
  skipped := by
    rw [hidingInner, List.forall_mem_cons, List.forall_mem_singleton]
    exact ⟨rfl, rfl⟩
  binds := ⟨hidingGlobal, [], rfl, binds⟩

/-- From the body the outer function is found and the outer variable is not, until the body binds its
name. The way outwards from the scope of the function does not come to its body. -/
theorem resolves_outwards_hidden :
    let (isFree, after) := hidingSample.register 2 ⟨10⟩ (.variable ⟨1⟩)
    hidingSample.lookup? 2 ⟨10⟩ = none ∧
      hidingSample.lookup? 2 ⟨11⟩ = some (0, .function [] []) ∧
      hidingSample.isInFunction 2 = true ∧ isFree = true ∧
      after.lookup? 2 ⟨10⟩ = some (2, .variable ⟨1⟩) ∧
      after.lookup? 1 ⟨10⟩ = hidingSample.lookup? 1 ⟨10⟩ := by
  obtain ⟨_, resolves, registers⟩ := reachable_hidingSample.resolves_outwards
  obtain ⟨found, _, inside⟩ := resolves 2 _ outwards_hidingSample
  obtain ⟨isFree, _, changes⟩ := registers 2 ⟨some 1, false, []⟩ ⟨10⟩ (.variable ⟨1⟩) rfl
  obtain ⟨isFound, onlyInside⟩ := changes (isFree.mpr rfl)
  refine ⟨found ⟨10⟩ _ _ _ (nearest_hidingSample rfl), found ⟨11⟩ _ _ _ (nearest_hidingSample rfl),
    inside.mpr ⟨(1, ⟨some 0, true, []⟩), ?_, rfl⟩, isFree.mpr rfl, isFound, ?_⟩
  · exact List.mem_append_left _ (List.mem_cons_of_mem _ List.mem_cons_self)
  · by_contra differs
    obtain ⟨_, chain, around, comes⟩ := onlyInside 1 ⟨10⟩ differs
    rw [← around.chain_eq] at comes
    exact absurd comes (by decide)

end ScopeForest

end YulCheck
