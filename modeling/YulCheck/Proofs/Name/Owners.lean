import YulCheck.Proofs.Name.Assigned

/-! # Owners of labels

A label keeps the name that owns it, and is owned by the first name that it is given to if it had no
owner. Labels with owners change nothing but the entries of the names that they are given to, so they
may as well be given at once as behind all others.
-/

namespace YulCheck.NameTable

variable {table : NameTable} {name : Handle} {label : String} {labels : List (Handle × String)}

/-! ### Owners -/

/-- A label with an owner is given without a change of owners. -/
theorem assign_of_owned (owned : (table.owners.lookup label).isSome = true) :
    table.assign name label =
      { table with entries := table.entries.setIfInBounds name.index (.labelled label) } := by
  rw [assign, if_pos owned]

theorem owned_of_named (isNamed : table.named label ≠ .empty) :
    (table.owners.lookup label).isSome = true := by
  rw [named] at isNamed
  cases found : table.owners.lookup label with
  | none =>
    rw [found] at isNamed
    exact absurd rfl isNamed
  | some owner => rfl

theorem lookup_assign_ne {otherLabel : String} (differs : label ≠ otherLabel) (table : NameTable)
    (other : Handle) :
    (table.assign other otherLabel).owners.lookup label = table.owners.lookup label := by
  rw [assign]
  dsimp only
  split
  · rfl
  · rw [List.lookup_cons, beq_eq_false_iff_ne.mpr differs]

/-- Labels keep their owners. -/
theorem lookup_assign {owner : Handle} (owned : table.owners.lookup label = some owner)
    (other : Handle) (otherLabel : String) :
    (table.assign other otherLabel).owners.lookup label = some owner := by
  by_cases same : label = otherLabel
  · subst same
    rw [assign_of_owned (by rw [owned]; rfl)]
    exact owned
  · rw [lookup_assign_ne same]
    exact owned

/-- A label without an owner is owned by the name that it is given to. -/
theorem lookup_assign_self (isNew : table.owners.lookup label = none) (name : Handle) :
    (table.assign name label).owners.lookup label = some name := by
  rw [assign, isNew]
  dsimp only
  rw [if_neg (by decide), List.lookup_cons, beq_self_eq_true]

theorem owned_assign_self (table : NameTable) (name : Handle) (label : String) :
    ((table.assign name label).owners.lookup label).isSome = true := by
  cases owned : table.owners.lookup label with
  | none => rw [lookup_assign_self owned, Option.isSome_some]
  | some owner => rw [lookup_assign owned, Option.isSome_some]

theorem owned_assign (owned : (table.owners.lookup label).isSome = true) (other : Handle)
    (otherLabel : String) :
    ((table.assign other otherLabel).owners.lookup label).isSome = true := by
  obtain ⟨owner, isOwner⟩ := Option.isSome_iff_exists.mp owned
  rw [lookup_assign isOwner]
  rfl

theorem lookup_assignAll {owner : Handle} (owned : table.owners.lookup label = some owner)
    (labels : List (Handle × String)) :
    (table.assignAll labels).owners.lookup label = some owner := by
  induction labels generalizing table with
  | nil => exact owned
  | cons entry rest ih => exact ih (lookup_assign owned entry.1 entry.2)

theorem lookup_assignAll_of_ne (areOther : ∀ entry ∈ labels, label ≠ entry.2) :
    (table.assignAll labels).owners.lookup label = table.owners.lookup label := by
  induction labels generalizing table with
  | nil => rfl
  | cons first rest ih =>
    rw [List.forall_mem_cons] at areOther
    rw [assignAll_cons, ih areOther.2, lookup_assign_ne areOther.1]

theorem lookup_assignAll_of_new (distinct : (labels.map (·.2)).Nodup)
    (member : (name, label) ∈ labels) (isNew : table.owners.lookup label = none) :
    (table.assignAll labels).owners.lookup label = some name := by
  induction labels generalizing table with
  | nil => cases member
  | cons first rest ih =>
    obtain ⟨isFirst, distinct⟩ := List.nodup_cons.mp distinct
    rw [assignAll_cons]
    rcases List.mem_cons.mp member with rfl | member
    · exact lookup_assignAll (lookup_assign_self isNew name) rest
    · have differs : label ≠ first.2 := by
        rintro rfl
        exact isFirst (List.mem_map.mpr ⟨_, member, rfl⟩)
      exact ih distinct member ((lookup_assign_ne differs table first.1).trans isNew)

/-- All labels that are given have owners. -/
theorem owned_assignAll {entry : Handle × String} (member : entry ∈ labels) :
    ((table.assignAll labels).owners.lookup entry.2).isSome = true := by
  induction labels generalizing table with
  | nil => cases member
  | cons first rest ih =>
    rcases List.mem_cons.mp member with rfl | member
    · obtain ⟨owner, owned⟩ :=
        Option.isSome_iff_exists.mp (owned_assign_self table entry.1 entry.2)
      rw [assignAll_cons, lookup_assignAll owned]
      rfl
    · exact ih member

theorem owners_assignAll_of_owned
    (owned : ∀ entry ∈ labels, (table.owners.lookup entry.2).isSome = true) :
    (table.assignAll labels).owners = table.owners := by
  induction labels generalizing table with
  | nil => rfl
  | cons first rest ih =>
    rw [List.forall_mem_cons] at owned
    have same : (table.assign first.1 first.2).owners = table.owners := by
      rw [assign_of_owned owned.1]
    rw [assignAll_cons, ih (same.symm ▸ owned.2), same]

/-! ### The order of labels -/

theorem assign_comm {other : Handle} {otherLabel : String} (isOther : name ≠ other)
    (owned : (table.owners.lookup label).isSome = true) :
    (table.assign name label).assign other otherLabel =
      (table.assign other otherLabel).assign name label := by
  have indices : name.index ≠ other.index := fun same => isOther (congrArg Handle.mk same)
  rw [assign_of_owned (owned_assign owned other otherLabel), assign_of_owned owned, assign, assign]
  dsimp only
  rw [Array.setIfInBounds_comm _ _ indices]

/-- A label with an owner can as well be given last. -/
theorem assignAll_assign (owned : (table.owners.lookup label).isSome = true)
    (isNew : name ∉ labels.map (·.1)) :
    (table.assign name label).assignAll labels = (table.assignAll labels).assign name label := by
  induction labels generalizing table with
  | nil => rfl
  | cons first rest ih =>
    rw [List.map_cons, List.mem_cons, not_or] at isNew
    have ownedLater := owned_assign owned first.1 first.2
    rw [assignAll_cons, assignAll_cons, assign_comm isNew.1 owned, ih ownedLater isNew.2]

/-! ### Names that become their owners -/

/-- The table in which, of the names with their labels, those whose labels name something have become
what they name. -/
def unifyAll (table : NameTable) (labels : List (Handle × String)) : NameTable :=
  table.assignAll (labels.filter fun entry => !(table.named entry.2).isEmpty)

theorem owners_unifyAll (table : NameTable) (labels : List (Handle × String)) :
    (table.unifyAll labels).owners = table.owners := by
  refine owners_assignAll_of_owned fun entry member => owned_of_named ?_
  have isNamed := (List.mem_filter.mp member).2
  rw [Bool.not_eq_true', ← Bool.not_eq_true, Handle.isEmpty_iff] at isNamed
  exact isNamed

theorem named_unifyAll (table : NameTable) (labels : List (Handle × String)) (label : String) :
    (table.unifyAll labels).named label = table.named label := by
  rw [named, owners_unifyAll]
  rfl

theorem unifyAll_concat_of_new (isNew : table.named label = .empty)
    (labels : List (Handle × String)) (name : Handle) :
    table.unifyAll (labels ++ [(name, label)]) = table.unifyAll labels := by
  have isOut : ¬(!(table.named label).isEmpty) = true := by
    rw [Bool.not_eq_true', ← Bool.not_eq_true, Handle.isEmpty_iff]
    exact not_not.mpr isNew
  have single : [(name, label)].filter (fun entry => !(table.named entry.2).isEmpty) = [] :=
    List.filter_cons_of_neg isOut
  rw [unifyAll, List.filter_append, single, List.append_nil]
  rfl

theorem unifyAll_concat_of_named (isNamed : table.named label ≠ .empty)
    (labels : List (Handle × String)) (name : Handle) :
    table.unifyAll (labels ++ [(name, label)]) = (table.unifyAll labels).assign name label := by
  have single : [(name, label)].filter (fun entry => !(table.named entry.2).isEmpty) =
      [(name, label)] := List.filter_cons_of_pos (Handle.not_isEmpty_of_ne isNamed)
  rw [unifyAll, List.filter_append, single, assignAll_concat]
  rfl

end YulCheck.NameTable
