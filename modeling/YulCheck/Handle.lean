/-! # Handles of names

Programs refer to identifiers, builtin functions and types by handles. A handle is the position of a
name in a name table; the first name of every table is the empty one.
-/

namespace YulCheck

/-- The position of a name in a name table. -/
structure Handle where
  index : Nat
deriving DecidableEq, Repr, Inhabited, Hashable

namespace Handle

/-- The empty name. -/
def empty : Handle := ⟨0⟩

/-- Whether this is the empty name. -/
def isEmpty (handle : Handle) : Bool := handle = empty

@[simp]
theorem isEmpty_iff {handle : Handle} : handle.isEmpty = true ↔ handle = empty :=
  decide_eq_true_iff

theorem not_isEmpty_of_ne {handle : Handle} (isNamed : handle ≠ empty) :
    (!handle.isEmpty) = true := by
  rw [Bool.not_eq_true', ← Bool.not_eq_true, isEmpty_iff]
  exact isNamed

/-- Handles are ordered by position. -/
instance : LT Handle := ⟨fun left right => left.index < right.index⟩

instance : DecidableLT Handle :=
  fun left right => inferInstanceAs (Decidable (left.index < right.index))

theorem lt_iff_index_lt {left right : Handle} : left < right ↔ left.index < right.index :=
  Iff.rfl

instance : Std.Trichotomous (fun left right : Handle => left < right) where
  trichotomous left right notLess notGreater := by
    cases left
    cases right
    simp only [lt_iff_index_lt] at notLess notGreater
    congr
    omega

instance : Trans (fun left right : Handle => left < right) (fun left right : Handle => left < right)
    (fun left right : Handle => left < right) where
  trans := Nat.lt_trans

/-- A handle as it is shown in messages. -/
instance : ToString Handle := ⟨fun handle => s!"#{handle.index}"⟩

end Handle

/-- A type is a name of the table as well. -/
abbrev TypeHandle := Handle

/-- The number of a node within one tree. -/
abbrev NodeId := Nat

end YulCheck
