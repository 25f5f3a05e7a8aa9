import YulCheck.Proofs.Name.Generated

/-! # What tables provide for types

The functions that a dialect provides for its types are listed once, when its table is made. The names
in the list are names of the table, and programs change neither the list nor the function that negates
truth values.
-/

namespace YulCheck.NameTable

variable {dialect : Dialect} {table middle after : NameTable} {name base : Handle}

/-- Whether the functions that are provided for types are names of a table. -/
structure ProvidesNames (table : NameTable) : Prop where
  operations : ∀ functions ∈ table.typeBuiltins, ∀ entry ∈ functions.operations,
    entry.2.index < table.size
  negation : ∀ name, table.negation? = some name → name.index < table.size

/-- Whether another table provides the same functions for types. -/
structure SameProvided (table after : NameTable) : Prop where
  size : table.size ≤ after.size
  typeBuiltins : after.typeBuiltins = table.typeBuiltins
  negation? : after.negation? = table.negation?

namespace SameProvided

theorem trans (first : table.SameProvided middle) (second : middle.SameProvided after) :
    table.SameProvided after where
  size := Nat.le_trans first.size second.size
  typeBuiltins := second.typeBuiltins.trans first.typeBuiltins
  negation? := second.negation?.trans first.negation?

theorem providesNames (same : table.SameProvided after) (provides : table.ProvidesNames) :
    after.ProvidesNames where
  operations functions member entry listed :=
    Nat.lt_of_lt_of_le
      (provides.operations functions (same.typeBuiltins ▸ member) entry listed) same.size
  negation name isOne :=
    Nat.lt_of_lt_of_le (provides.negation name (same.negation? ▸ isOne)) same.size

end SameProvided

/-! ### What the operations do -/

theorem sameProvided_define (table : NameTable) (label : String) :
    table.SameProvided (table.define label).2 := by
  have size := (grows_define table label).size
  have added := adds_define table label
  generalize (table.define label).2 = after at added size
  cases added with
  | same | label | verbatim => exact ⟨size, rfl, rfl⟩

theorem sameProvided_derive (derived : table.derive base = .ok (name, after)) :
    table.SameProvided after := by
  have size := (grows_derive derived).size
  obtain rfl := congrArg Prod.snd (derive_eq_ok derived).2
  exact ⟨size, rfl, rfl⟩

theorem sameProvided_defineGhost (table : NameTable) :
    table.SameProvided table.defineGhost.2 := by
  have counted : table.SameProvided { table with ghostCount := table.ghostCount + 1 } :=
    ⟨Nat.le_refl _, rfl, rfl⟩
  exact counted.trans (sameProvided_define _ (ghostLabel table.ghostCount))

theorem Generates.sameProvided {block : Block} {reserved used : List String}
    {labels : List (Handle × String)}
    (generates : table.Generates block reserved used labels after) : table.SameProvided after := by
  have size := generates.size_eq
  obtain ⟨entries, owners, rfl, _⟩ := generates.exists_eq
  exact ⟨Nat.le_of_eq size.symm, rfl, rfl⟩

/-! ### The table of a dialect -/

/-- What is found among the functions of an orderly table is a name of it, and so is the empty name. -/
theorem IsOrderly.builtinNamed_lt (orderly : table.IsOrderly) (label : String) :
    (table.builtinNamed label).index < table.size := by
  by_cases isNamed : table.builtinNamed label = .empty
  · rw [isNamed]
    exact orderly.size_pos
  · exact (orderly.builtins _ (builtinNamed_spec isNamed).1).lt

theorem IsOrderly.providesNames_addTypeBuiltins (orderly : table.IsOrderly) :
    table.addTypeBuiltins.ProvidesNames where
  operations functions member entry listed := by
    obtain ⟨label, _, rfl⟩ := List.mem_map.mp member
    obtain ⟨operation, _, isEntry⟩ := List.mem_filterMap.mp listed
    obtain ⟨function, _, rfl⟩ := Option.map_eq_some_iff.mp isEntry
    exact orderly.builtinNamed_lt function.name
  negation name isOne := by
    obtain ⟨function, _, rfl⟩ := Option.map_eq_some_iff.mp isOne
    exact orderly.builtinNamed_lt function.name

theorem sameProvided_addPlaceholders (table : NameTable) :
    table.SameProvided table.addPlaceholders := by
  have zero := sameProvided_define table "@ 0"
  have one := zero.trans (sameProvided_define _ "@ 1")
  have thirtyTwo := one.trans (sameProvided_define _ "@ 32")
  exact ⟨thirtyTwo.size, thirtyTwo.typeBuiltins, thirtyTwo.negation?⟩

theorem providesNames_ofDialect (regular : dialect.IsRegular) :
    (ofDialect dialect).ProvidesNames := by
  have typed := (knowsTypes_addTypes regular).addBuiltins regular
  obtain ⟨functions, inRange⟩ := isWhole_addBuiltins regular
  rw [ofDialect]
  generalize ((blank dialect).append "").2.addTypes.addBuiltins = table at *
  obtain ⟨named, _⟩ := isWhole_addPredefined regular functions inRange typed
  exact (sameProvided_addPlaceholders _).providesNames
    named.toIsOrderly.providesNames_addTypeBuiltins

/-! ### All tables of a dialect -/

theorem Reachable.providesNames (catalogued : dialect.IsCatalogued) (regular : dialect.IsRegular)
    (reachable : table.Reachable dialect) : table.ProvidesNames := by
  induction reachable with
  | ofDialect => exact providesNames_ofDialect regular
  | define _ label ih => exact (sameProvided_define _ label).providesNames ih
  | derive _ derived ih => exact (sameProvided_derive derived).providesNames ih
  | defineGhost _ ih => exact (sameProvided_defineGhost _).providesNames ih
  | labelAliases before labelled ih =>
    obtain ⟨unified, faithful⟩ := before.exists_isFaithful catalogued regular
    obtain ⟨used, labels, generates⟩ := exists_generates faithful.toIsOrderly labelled
    exact generates.sameProvided.providesNames ih

end YulCheck.NameTable
