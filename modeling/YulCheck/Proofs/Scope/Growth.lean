import Mathlib.Data.List.Nodup
import YulCheck.Check.Facts

/-! # How scopes grow

Entering declarations does two things to the scopes that are known: `Scoping.extend` binds more names
in one of them, and `Scoping.append` adds scopes behind the others, together with the nodes that open
them. Both compose, and they commute where they concern different scopes.
-/

namespace YulCheck

/-- In a table without repeated keys every entry is found. -/
theorem List.lookup_of_mem {κ α : Type} [BEq κ] [LawfulBEq κ] {table : List (κ × α)}
    (distinct : (table.map (·.1)).Nodup) {key : κ} {value : α} (member : (key, value) ∈ table) :
    table.lookup key = some value := by
  induction table with
  | nil => cases member
  | cons entry rest ih =>
    rw [List.map_cons, List.nodup_cons] at distinct
    rcases List.mem_cons.mp member with rfl | member
    · exact List.lookup_cons_self
    · have different : key ≠ entry.1 := by
        rintro rfl
        exact distinct.1 (List.mem_map.mpr ⟨_, member, rfl⟩)
      rw [List.lookup_cons, beq_false_of_ne different]
      exact ih distinct.2 member

/-- Without repeated keys the order of a table does not matter. -/
theorem List.lookup_of_perm {κ α : Type} [BEq κ] [LawfulBEq κ] {table other : List (κ × α)}
    (isPermuted : table.Perm other) (distinct : (table.map (·.1)).Nodup) (key : κ) :
    table.lookup key = other.lookup key := by
  cases found : table.lookup key with
  | none =>
    symm
    rw [List.lookup_eq_none_iff] at found ⊢
    exact fun entry member => found entry (isPermuted.mem_iff.mpr member)
  | some value =>
    obtain ⟨before, after, rfl, _⟩ := List.lookup_eq_some_iff.mp found
    refine (List.lookup_of_mem ((isPermuted.map _).nodup_iff.mp distinct) ?_).symm
    exact isPermuted.mem_iff.mp (List.mem_append_right _ List.mem_cons_self)

theorem List.lookup_reverse {κ α : Type} [BEq κ] [LawfulBEq κ] {table : List (κ × α)}
    (distinct : (table.map (·.1)).Nodup) (key : κ) :
    table.reverse.lookup key = table.lookup key :=
  (List.lookup_of_perm table.reverse_perm.symm distinct key).symm

namespace Scope

/-- The names that are bound in this very scope. -/
def names (scope : Scope) : List Handle := scope.bindings.map (·.1)

/-- The scope with more bindings. -/
def extend (scope : Scope) (bindings : List (Handle × Binding)) : Scope :=
  { scope with bindings := bindings.reverse ++ scope.bindings }

@[simp]
theorem extend_nil (scope : Scope) : scope.extend [] = scope := rfl

@[simp]
theorem extend_extend (scope : Scope) (first second : List (Handle × Binding)) :
    (scope.extend first).extend second = scope.extend (first ++ second) := by
  simp only [extend, List.reverse_append, List.append_assoc]

theorem names_extend (scope : Scope) (bindings : List (Handle × Binding)) :
    (scope.extend bindings).names = (bindings.map (·.1)).reverse ++ scope.names := by
  simp only [names, extend, List.map_append, List.map_reverse]

theorem get?_eq_none_iff {scope : Scope} {name : Handle} :
    scope.get? name = none ↔ name ∉ scope.names := by
  simp only [get?, List.lookup_eq_none_iff, names, List.mem_map, not_exists, not_and]
  constructor
  · intro absent entry member same
    simpa [same] using absent entry member
  · intro absent entry member
    simpa using fun same => absent entry member same.symm

theorem bind?_eq_some_iff {scope bound : Scope} {name : Handle} {binding : Binding} :
    scope.bind? name binding = some bound ↔
      name ∉ scope.names ∧ bound = scope.extend [(name, binding)] := by
  rw [← get?_eq_none_iff, bind?]
  cases scope.get? name <;> simp [extend, eq_comm]

end Scope

namespace ScopeForest

/-- The forest with more bindings in one scope. -/
def extend (forest : ScopeForest) (id : ScopeId) (bindings : List (Handle × Binding)) :
    ScopeForest :=
  ⟨forest.scopes.modify id (·.extend bindings)⟩

/-- The forest with more scopes behind the others. -/
def append (forest : ScopeForest) (scopes : List Scope) : ScopeForest :=
  ⟨forest.scopes ++ scopes.toArray⟩

theorem ext_get? {left right : ScopeForest} (same : ∀ id, left.get? id = right.get? id) :
    left = right := by
  cases left
  cases right
  exact congrArg ScopeForest.mk (Array.ext_getElem? same)

@[simp]
theorem size_extend (forest : ScopeForest) (id : ScopeId) (bindings : List (Handle × Binding)) :
    (forest.extend id bindings).size = forest.size := Array.size_modify

@[simp]
theorem size_append (forest : ScopeForest) (scopes : List Scope) :
    (forest.append scopes).size = forest.size + scopes.length := by
  simp [append, size]

theorem get?_extend (forest : ScopeForest) (id other : ScopeId)
    (bindings : List (Handle × Binding)) :
    (forest.extend id bindings).get? other =
      if id = other then (forest.get? other).map (·.extend bindings) else forest.get? other := by
  rw [get?, extend, Array.getElem?_modify]
  rfl

theorem get?_append (forest : ScopeForest) (scopes : List Scope) (id : ScopeId) :
    (forest.append scopes).get? id =
      if id < forest.size then forest.get? id else scopes[id - forest.size]? := by
  rw [get?, append, Array.getElem?_append]
  simp only [List.getElem?_toArray]
  rfl

theorem lt_size_of_get? {forest : ScopeForest} {id : ScopeId} {scope : Scope}
    (present : forest.get? id = some scope) : id < forest.size :=
  (Array.getElem?_eq_some_iff.mp present).1

@[simp]
theorem append_nil (forest : ScopeForest) : forest.append [] = forest := by
  simp [append]

theorem append_append (forest : ScopeForest) (first second : List Scope) :
    (forest.append first).append second = forest.append (first ++ second) := by
  simp [append]

theorem extend_extend (forest : ScopeForest) (id : ScopeId)
    (first second : List (Handle × Binding)) :
    (forest.extend id first).extend id second = forest.extend id (first ++ second) := by
  refine ext_get? fun other => ?_
  simp only [get?_extend]
  split
  · cases forest.get? other <;> simp
  · rfl

theorem extend_nil (forest : ScopeForest) (id : ScopeId) : forest.extend id [] = forest := by
  refine ext_get? fun other => ?_
  rw [get?_extend]
  split
  · cases forest.get? other <;> rfl
  · rfl

/-- More bindings in an old scope do not concern the new ones. -/
theorem extend_append (forest : ScopeForest) {id : ScopeId} (present : id < forest.size)
    (bindings : List (Handle × Binding)) (scopes : List Scope) :
    (forest.append scopes).extend id bindings = (forest.extend id bindings).append scopes := by
  refine ext_get? fun other => ?_
  simp only [get?_extend, get?_append, size_extend]
  by_cases old : other < forest.size
  · simp only [old, if_true]
  · have different : id ≠ other := fun same => old (same ▸ present)
    simp only [old, different, if_false]

/-- More bindings in the first one of the new scopes. -/
theorem extend_append_size (forest : ScopeForest) (bindings : List (Handle × Binding))
    (scope : Scope) (scopes : List Scope) :
    (forest.append (scope :: scopes)).extend forest.size bindings =
      forest.append (scope.extend bindings :: scopes) := by
  refine ext_get? fun other => ?_
  simp only [get?_extend, get?_append]
  rcases Nat.lt_trichotomy other forest.size with old | rfl | new
  · simp only [Nat.ne_of_gt old, old, if_true, if_false]
  · simp
  · obtain ⟨position, rfl⟩ := Nat.exists_eq_add_of_lt new
    rw [Nat.add_assoc]
    simp

theorem bind?_eq_some_iff {forest bound : ScopeForest} {id : ScopeId} {scope : Scope}
    {name : Handle} {binding : Binding} (present : forest.get? id = some scope) :
    forest.bind? id name binding = some bound ↔
      name ∉ scope.names ∧ bound = forest.extend id [(name, binding)] := by
  have replaced : (⟨forest.scopes.setIfInBounds id (scope.extend [(name, binding)])⟩ : ScopeForest) =
      forest.extend id [(name, binding)] := by
    refine ext_get? fun other => ?_
    rw [get?_extend, get?, Array.getElem?_setIfInBounds]
    by_cases same : id = other
    · subst same
      have old : id < forest.scopes.size := lt_size_of_get? present
      rw [if_pos rfl, if_pos rfl, if_pos old, present]
      rfl
    · rw [if_neg same, if_neg same]
      rfl
  simp only [bind?, present, Option.bind_eq_bind, Option.bind_some, Option.bind_eq_some_iff,
    Scope.bind?_eq_some_iff, Option.pure_def, Option.some.injEq]
  constructor
  · rintro ⟨_, ⟨free, rfl⟩, rfl⟩
    exact ⟨free, replaced⟩
  · rintro ⟨free, rfl⟩
    exact ⟨_, ⟨free, rfl⟩, replaced⟩

end ScopeForest

/-! ### Scopes with their owners -/

/-- The scopes of programs, and which of them the nodes opened. -/
@[ext]
structure Scoping where
  forest : ScopeForest
  scopeOf? : ScopeOwner → Option ScopeId

/-- The scopes that are known, and which of them the nodes opened. -/
def Facts.scoping (facts : Facts) : Scoping := ⟨facts.scopes, facts.scopeOf?⟩

namespace Scoping

/-- More bindings in one scope. -/
def extend (scoping : Scoping) (id : ScopeId) (bindings : List (Handle × Binding)) : Scoping :=
  { scoping with forest := scoping.forest.extend id bindings }

/-- More scopes behind the others, opened by the given nodes. -/
def append (scoping : Scoping) (scopes : List Scope) (owners : List ScopeOwner) : Scoping where
  forest := scoping.forest.append scopes
  scopeOf? owner :=
    ((owners.zipIdx scoping.forest.size).reverse.lookup owner).or (scoping.scopeOf? owner)

theorem append_nil (scoping : Scoping) : scoping.append [] [] = scoping := by
  ext1
  · exact ScopeForest.append_nil _
  · rfl

theorem extend_nil (scoping : Scoping) (id : ScopeId) : scoping.extend id [] = scoping := by
  ext1
  · exact ScopeForest.extend_nil _ _
  · rfl

theorem extend_extend (scoping : Scoping) (id : ScopeId)
    (first second : List (Handle × Binding)) :
    (scoping.extend id first).extend id second = scoping.extend id (first ++ second) := by
  ext1
  · exact ScopeForest.extend_extend _ _ _ _
  · rfl

theorem append_append (scoping : Scoping) {first : List Scope} {owners : List ScopeOwner}
    (lengths : first.length = owners.length) (second : List Scope)
    (others : List ScopeOwner) :
    (scoping.append first owners).append second others =
      scoping.append (first ++ second) (owners ++ others) := by
  ext1
  · exact ScopeForest.append_append _ _ _
  · funext owner
    simp only [append, ScopeForest.size_append, List.zipIdx_append, List.reverse_append,
      List.lookup_append, lengths, Option.or_assoc]

theorem extend_append (scoping : Scoping) {id : ScopeId} (present : id < scoping.forest.size)
    (bindings : List (Handle × Binding)) (scopes : List Scope) (owners : List ScopeOwner) :
    (scoping.append scopes owners).extend id bindings =
      (scoping.extend id bindings).append scopes owners := by
  ext1
  · exact ScopeForest.extend_append _ present _ _
  · funext owner
    simp only [append, extend, ScopeForest.size_extend]

theorem scopeOf?_append_of_getElem? (scoping : Scoping) (scopes : List Scope)
    {owners : List ScopeOwner} (distinct : owners.Nodup) (position : Nat) {owner : ScopeOwner}
    (found : owners[position]? = some owner) :
    (scoping.append scopes owners).scopeOf? owner = some (scoping.forest.size + position) := by
  have keys : ((owners.zipIdx scoping.forest.size).map (·.1)).Nodup := by
    simpa using distinct
  have member : (owner, scoping.forest.size + position) ∈ owners.zipIdx scoping.forest.size :=
    List.mem_zipIdx_iff_le_and_getElem?_sub.mpr ⟨by simp, by simpa using found⟩
  simp only [append, List.lookup_reverse keys, List.lookup_of_mem keys member, Option.some_or]

end Scoping

end YulCheck
