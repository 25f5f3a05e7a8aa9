import YulCheck.Proofs.Name.Consistent

/-! # Labels with owners

The labels with owners in the table of a dialect are those of its types and functions, and those that the
library refers to.
-/

namespace YulCheck.NameTable

variable {dialect : Dialect} {table : NameTable} {label : String}

/-- Whether all labels with owners have a property. -/
def OwnsOnly (property : String → Prop) (table : NameTable) : Prop :=
  ∀ entry ∈ table.owners, property entry.1

namespace OwnsOnly

variable {property : String → Prop}

theorem define (owns : table.OwnsOnly property) (holds : property label) :
    (table.define label).2.OwnsOnly property := by
  have added := adds_define table label
  generalize (table.define label).2 = after at added
  cases added with
  | same | verbatim => exact owns
  | label =>
    intro entry owned
    rcases mem_owners_append owned with owned | rfl
    · exact owns entry owned
    · exact holds

/-- What adds one label after another only owns the labels that are added. -/
theorem foldl {step : NameTable → String → NameTable}
    (keeps : ∀ (table : NameTable) (label : String), table.OwnsOnly property → property label →
      (step table label).OwnsOnly property)
    {labels : List String} (owns : table.OwnsOnly property) (hold : ∀ label ∈ labels, property label) :
    (labels.foldl step table).OwnsOnly property := by
  induction labels generalizing table with
  | nil => exact owns
  | cons label rest ih =>
    rw [List.forall_mem_cons] at hold
    exact ih (keeps table label owns hold.1) hold.2

theorem addType (owns : table.OwnsOnly property) (holds : property label) :
    (table.addType label).OwnsOnly property := by
  rw [NameTable.addType]
  split
  · exact owns
  · exact owns.define holds

theorem addBuiltin (owns : table.OwnsOnly property) (holds : property label) :
    (table.addBuiltin label).OwnsOnly property := by
  rw [NameTable.addBuiltin]
  dsimp only
  split <;> exact owns.define holds

theorem builtinOrDefine (owns : table.OwnsOnly property) (holds : property label) :
    (table.builtinOrDefine label).2.OwnsOnly property := by
  rw [NameTable.builtinOrDefine]
  split
  · exact owns
  · exact owns.define holds

theorem addTypes (owns : table.OwnsOnly property)
    (types : ∀ label ∈ table.dialect.types, property label) : table.addTypes.OwnsOnly property := by
  have added : (table.dialect.types.foldl NameTable.addType table).OwnsOnly property :=
    foldl (fun _ _ owns holds => owns.addType holds) owns types
  exact added

theorem predefine (owns : table.OwnsOnly property) (predefined : PredefinedNames) :
    { table with predefined }.OwnsOnly property := owns

theorem addBuiltins (owns : table.OwnsOnly property) (base : property Dialect.verbatimBase)
    (builtins : ∀ label ∈ table.dialect.builtinNames, property label) :
    table.addBuiltins.OwnsOnly property := by
  let ranged : NameTable := { table with builtinRange := ⟨table.size, table.size⟩ }
  have ranges : ranged.OwnsOnly property := owns
  have isOf : (ranged.define Dialect.verbatimBase).2.dialect = table.dialect :=
    (grows_define ranged Dialect.verbatimBase).dialect
  have based := ranges.define base
  rw [NameTable.addBuiltins]
  dsimp only
  rw [show "@ verbatim" = Dialect.verbatimBase from rfl]
  generalize ranged.define Dialect.verbatimBase = verbatim at isOf based
  refine foldl (fun _ _ owns holds => owns.addBuiltin holds) (based.predefine _) ?_
  intro label member
  exact builtins label (isOf ▸ (List.mem_filter.mp member).1)

theorem addPredefined (owns : table.OwnsOnly property)
    (predefined : ∀ label ∈ predefinedLabels, property label) :
    table.addPredefined.OwnsOnly property := by
  obtain ⟨names, same, _⟩ := table.addPredefined_eq
  have named : (table.withBuiltins predefinedLabels).OwnsOnly property :=
    foldl (fun _ _ owns holds => owns.builtinOrDefine holds) owns predefined
  rw [same]
  exact named.predefine names

theorem addPlaceholders (owns : table.OwnsOnly property)
    (placeholders : ∀ label ∈ ["@ 0", "@ 1", "@ 32"], property label) :
    table.addPlaceholders.OwnsOnly property := by
  rw [List.forall_mem_cons, List.forall_mem_cons, List.forall_mem_singleton] at placeholders
  have placed := ((owns.define placeholders.1).define placeholders.2.1).define placeholders.2.2
  rw [NameTable.addPlaceholders]
  dsimp only
  generalize ((table.define "@ 0").2.define "@ 1").2.define "@ 32" = last at placed
  exact placed

end OwnsOnly

/-! ### The table of a dialect -/

theorem dialect_addTypes (table : NameTable) : table.addTypes.dialect = table.dialect := by
  have foldl (labels : List String) {table : NameTable} :
      (labels.foldl addType table).dialect = table.dialect := by
    induction labels generalizing table with
    | nil => rfl
    | cons label rest ih =>
      refine ih.trans ?_
      rw [addType]
      split
      · rfl
      · exact (grows_define table label).dialect
  exact foldl table.dialect.types

/-- The labels that the library itself refers to. -/
def libraryLabels : List String :=
  ["", Dialect.verbatimBase] ++ predefinedLabels ++ ["@ 0", "@ 1", "@ 32"]

/-- The labels in the table of a dialect are those of its types and functions and those that the library
refers to. -/
theorem ownsOnly_ofDialect {property : String → Prop} (types : ∀ label ∈ dialect.types, property label)
    (builtins : ∀ label ∈ dialect.builtinNames, property label)
    (library : ∀ label ∈ libraryLabels, property label) : (ofDialect dialect).OwnsOnly property := by
  rw [libraryLabels, List.forall_mem_append, List.forall_mem_append, List.forall_mem_cons,
    List.forall_mem_singleton] at library
  obtain ⟨⟨⟨isEmpty, base⟩, predefined⟩, placeholders⟩ := library
  have started : ((blank dialect).append "").2.OwnsOnly property := by
    intro entry owned
    obtain rfl := List.mem_singleton.mp owned
    exact isEmpty
  have typed := started.addTypes types
  have isOf : ((blank dialect).append "").2.addTypes.dialect = dialect := dialect_addTypes _
  rw [ofDialect]
  generalize ((blank dialect).append "").2.addTypes = table at typed isOf
  have listed := typed.addBuiltins base (isOf.symm ▸ builtins)
  generalize table.addBuiltins = functions at listed
  have named := listed.addPredefined predefined
  generalize functions.addPredefined = predefined at named
  have provided : predefined.addTypeBuiltins.OwnsOnly property := named
  exact provided.addPlaceholders placeholders

end YulCheck.NameTable
