import YulCheck.Proofs.Name.Interned
import YulCheck.Proofs.Name.Provided

/-! # Answers that are kept

What a table answers about its names stays the answer, whatever is added to the table and whatever
labels are generated in it. Only aliases that await a label change, and they have no label before.
Where no labels are generated, chains of aliases do not change either.
-/

namespace YulCheck.NameTable

variable {dialect : Dialect} {unified : Handle → Prop} {table middle after : NameTable}
  {name base : Handle} {label : String}

/-! ### Kept answers -/

/-- Whether the answers of a table about its names are those of another table. -/
structure KeepsAnswers (table after : NameTable) : Prop where
  size : table.size ≤ after.size
  /-- Labels stay. -/
  label : ∀ name label, table.label name = .ok label → after.label name = .ok label
  /-- Functions stay, also where there is none. -/
  builtin? : ∀ name : Handle, name.index < table.size → after.builtin? name = table.builtin? name
  isType : ∀ name, after.isType name = table.isType name
  predefined : after.predefined = table.predefined
  operationOn? : ∀ (operation : TypeOperation) (type : TypeHandle), type.index < table.size →
    after.operationOn? operation type = table.operationOn? operation type
  hashOf : ∀ type : TypeHandle, type.index < table.size → after.hashOf type = table.hashOf type
  negation : after.negation = table.negation
  /-- Labels keep the names that had them first. -/
  named : ∀ label, table.named label ≠ .empty → after.named label = table.named label
  /-- No name becomes an alias. -/
  isAlias : ∀ name, table.isAlias name = .ok false → after.isAlias name = .ok false

/-- Whether the answers of a table about its chains of aliases are those of another table. -/
structure KeepsChains (table after : NameTable) : Prop where
  base : ∀ name : Handle, name.index < table.size → after.base name = table.base name
  isOfDialect : ∀ name : Handle, name.index < table.size →
    after.isOfDialect name = table.isOfDialect name
  shownLabel : ∀ name label, table.shownLabel name = .ok label → after.shownLabel name = .ok label

namespace KeepsAnswers

theorem refl (table : NameTable) : table.KeepsAnswers table where
  size := Nat.le_refl _
  label _ _ := id
  builtin? _ _ := rfl
  isType _ := rfl
  predefined := rfl
  operationOn? _ _ _ := rfl
  hashOf _ _ := rfl
  negation := rfl
  named _ _ := rfl
  isAlias _ := id

theorem trans (first : table.KeepsAnswers middle) (second : middle.KeepsAnswers after) :
    table.KeepsAnswers after where
  size := Nat.le_trans first.size second.size
  label name label labelled := second.label name label (first.label name label labelled)
  builtin? name inTable :=
    (second.builtin? name (Nat.lt_of_lt_of_le inTable first.size)).trans
      (first.builtin? name inTable)
  isType name := (second.isType name).trans (first.isType name)
  predefined := second.predefined.trans first.predefined
  operationOn? operation type inTable :=
    (second.operationOn? operation type (Nat.lt_of_lt_of_le inTable first.size)).trans
      (first.operationOn? operation type inTable)
  hashOf type inTable :=
    (second.hashOf type (Nat.lt_of_lt_of_le inTable first.size)).trans (first.hashOf type inTable)
  negation := second.negation.trans first.negation
  named label isNamed := by
    have same := first.named label isNamed
    exact (second.named label (same.symm ▸ isNamed)).trans same
  isAlias name isNone := second.isAlias name (first.isAlias name isNone)

end KeepsAnswers

/-! ### What is provided for types -/

theorem SameProvided.builtinsOf_eq (same : table.SameProvided after) (types : after.types = table.types)
    {type : TypeHandle} (inTable : type.index < table.size) :
    after.builtinsOf type = table.builtinsOf type := by
  rw [builtinsOf, builtinsOf, require_of_lt inTable,
    require_of_lt (Nat.lt_of_lt_of_le inTable same.size), types, same.typeBuiltins]

theorem mem_of_builtinsOf {type : TypeHandle} {functions : TypeBuiltins}
    (answered : table.builtinsOf type = .ok (some functions)) : functions ∈ table.typeBuiltins := by
  rw [builtinsOf] at answered
  obtain ⟨_, _, answered⟩ := Except.bind_eq_ok_iff.mp answered
  split at answered
  · exact List.mem_of_getElem? (Except.ok.inj answered)
  · split at answered
    · exact List.mem_of_getElem? (Except.ok.inj answered)
    · cases answered

theorem SameProvided.hashOf_eq (same : table.SameProvided after) (types : after.types = table.types)
    {type : TypeHandle} (inTable : type.index < table.size) :
    after.hashOf type = table.hashOf type := by
  rw [NameTable.hashOf, NameTable.hashOf, same.builtinsOf_eq types inTable]

section Provided

variable (same : table.SameProvided after) (provides : table.ProvidesNames)
  (builtin? : ∀ name : Handle, name.index < table.size → after.builtin? name = table.builtin? name)

include same provides builtin?

/-- The functions that are provided for a type stay, as the names of functions do. -/
theorem SameProvided.operationOn?_eq (types : after.types = table.types) (operation : TypeOperation)
    {type : TypeHandle} (inTable : type.index < table.size) :
    after.operationOn? operation type = table.operationOn? operation type := by
  rw [NameTable.operationOn?, NameTable.operationOn?, same.builtinsOf_eq types inTable]
  cases answered : table.builtinsOf type with
  | error fault => rfl
  | ok functions? =>
    have answers : ∀ name, functions?.bind (·.operations.lookup operation) = some name →
        after.builtin? name = table.builtin? name := by
      intro name listed
      obtain ⟨functions, rfl, listed⟩ := Option.bind_eq_some_iff.mp listed
      exact builtin? name
        (provides.operations _ (mem_of_builtinsOf answered) _ (List.mem_of_lookup_eq_some listed))
    dsimp only [bind, Except.bind]
    cases listed : functions?.bind (·.operations.lookup operation) with
    | none => rfl
    | some name => exact answers name listed

theorem SameProvided.negation_eq : after.negation = table.negation := by
  rw [NameTable.negation, NameTable.negation, same.negation?]
  cases known : table.negation? with
  | none => rfl
  | some name => exact builtin? name (provides.negation name known)

end Provided

/-! ### Names that are added -/

theorem KeepsNames.named_eq (keeps : table.KeepsNames after) (isNamed : table.named label ≠ .empty) :
    after.named label = table.named label := by
  rw [named] at isNamed ⊢
  cases owned : table.owners.lookup label with
  | none =>
    rw [owned] at isNamed
    exact absurd rfl isNamed
  | some owner => rw [named, keeps.owners label owner owned, owned]

namespace Grows

variable (grows : table.Grows after) (back : RefersBack table.entries)

include grows back

theorem base_eq (inTable : name.index < table.size) : after.base name = table.base name := by
  rw [base_of_lt inTable, base_of_lt (Nat.lt_of_lt_of_le inTable grows.size), grows.root back inTable]

theorem isOfDialect_eq (inTable : name.index < table.size) :
    after.isOfDialect name = table.isOfDialect name := by
  rw [NameTable.isOfDialect, NameTable.isOfDialect, grows.base_eq back inTable, grows.builtinRange]

/-- Names that are added change nothing about chains of aliases. -/
theorem keepsChains : table.KeepsChains after where
  base _ inTable := grows.base_eq back inTable
  isOfDialect _ inTable := grows.isOfDialect_eq back inTable
  shownLabel name label isShown := by
    rw [grows.shownLabel back (IsShown.lt ⟨label, isShown⟩), isShown]

theorem keepsAnswers (keeps : table.KeepsNames after) (same : table.SameProvided after)
    (provides : table.ProvidesNames) : table.KeepsAnswers after where
  size := grows.size
  label name label labelled := by
    rw [grows.label back (HasLabel.lt ⟨label, labelled⟩), labelled]
  builtin? _ inTable := grows.builtin? back inTable
  isType name := by rw [NameTable.isType, NameTable.isType, grows.typeRange]
  predefined := grows.predefined
  operationOn? operation _ inTable := same.operationOn?_eq provides
    (fun _ inTable => grows.builtin? back inTable) grows.types operation inTable
  hashOf _ inTable := same.hashOf_eq grows.types inTable
  negation := same.negation_eq provides fun _ inTable => grows.builtin? back inTable
  named _ isNamed := keeps.named_eq isNamed
  isAlias name isNone := by rw [grows.isAlias (lt_of_isAlias isNone).1, isNone]

end Grows

/-! ### Labels that are generated -/

section Generates

variable {block : Block} {labels : List (Handle × String)} {used reserved : List String}

/-- Names that await a label have none. -/
theorem AwaitsLabel.label_ne_ok (awaits : table.AwaitsLabel name) : table.label name ≠ .ok label := by
  have inTable := awaits.lt
  refine label_ne_ok_of_alias ?_ ?_ label
  · rw [isAlias_of_lt inTable, hasAlias_iff.mpr awaits.isAlias]
  · rw [isVerbatim_of_lt inTable, decide_eq_false awaits.isOther]

theorem Generates.keepsAnswers (generates : table.Generates block reserved used labels after)
    (faithful : table.IsFaithful dialect unified) (keeps : table.KeepsNames after)
    (provides : table.ProvidesNames) : table.KeepsAnswers after := by
  have orderly := faithful.toIsOrderly
  have consistent := faithful.toIsConsistent
  have same := generates.sameProvided
  have functions (name : Handle) (inTable : name.index < table.size) :
      after.builtin? name = table.builtin? name := generates.builtin? orderly consistent inTable
  obtain ⟨entries, owners, isAfter, size⟩ := generates.exists_eq
  refine ⟨same.size, fun name label labelled => ?_, functions, fun name => ?_, ?_,
    fun operation type inTable => ?_, fun type inTable => ?_, same.negation_eq provides functions,
    fun label isNamed => keeps.named_eq isNamed, fun name isNone => ?_⟩
  · have inTable : name.index < table.size := HasLabel.lt ⟨label, labelled⟩
    rw [generates.label_of_not_awaits orderly consistent inTable
      fun awaits => awaits.label_ne_ok labelled, labelled]
  · rw [isAfter]
    rfl
  · rw [isAfter]
  · exact same.operationOn?_eq provides functions (by rw [isAfter]) operation inTable
  · exact same.hashOf_eq (by rw [isAfter]) inTable
  · obtain ⟨inTable, hasNone⟩ := lt_of_isAlias isNone
    refine (generates.isAlias_of_not_awaits inTable fun awaits => ?_).trans isNone
    rw [hasAlias_iff.mpr awaits.isAlias] at hasNone
    cases hasNone

end Generates

/-! ### Operations -/

/-- The operations that change a table. -/
inductive Operation
  | define (label : String)
  | derive (base : Handle)
  | defineGhost
  | labelAliases (block : Block) (reserved : List String)

namespace Operation

/-- The table after an operation. -/
def apply (operation : Operation) (table : NameTable) : Except Fault NameTable :=
  match operation with
  | define label => return (table.define label).2
  | derive base => return (← table.derive base).2
  | defineGhost => return table.defineGhost.2
  | labelAliases block reserved => table.labelAliases block reserved

/-- Whether an operation generates labels. -/
def isGeneration (operation : Operation) : Bool := operation matches labelAliases ..

end Operation

theorem evolves_of_apply {operation : Operation} (applied : operation.apply table = .ok after) :
    table.Evolves after := by
  cases operation with
  | define label =>
    cases applied
    exact .define .refl label
  | derive base =>
    obtain ⟨⟨name, derived⟩, isDerived, applied⟩ := Except.bind_eq_ok_iff.mp applied
    cases applied
    exact .derive .refl isDerived
  | defineGhost =>
    cases applied
    exact .defineGhost .refl
  | labelAliases block reserved => exact .labelAliases .refl applied

/-- All operations but the generation of labels only add names. -/
theorem grows_of_apply {operation : Operation} (applied : operation.apply table = .ok after)
    (addsNames : operation.isGeneration = false) : table.Grows after := by
  cases operation with
  | define label =>
    cases applied
    exact grows_define table label
  | derive base =>
    obtain ⟨⟨name, derived⟩, isDerived, applied⟩ := Except.bind_eq_ok_iff.mp applied
    cases applied
    exact grows_derive isDerived
  | defineGhost =>
    cases applied
    exact grows_defineGhost table
  | labelAliases block reserved => cases addsNames

/-! ### All tables of the bundled dialects -/

section Bundled

variable {kind : BundledDialect} {version : EvmVersion}

/-- Names that are added to a table that programs can have keep its answers. -/
theorem Reachable.keepsAnswers_of_grows (reachable : table.Reachable (kind.build version))
    (grows : table.Grows after) (evolves : table.Evolves after) (same : table.SameProvided after) :
    table.KeepsAnswers after := by
  have catalogued := kind.isCatalogued_build version
  have regular := kind.isRegular_build version
  obtain ⟨unified, faithful⟩ := reachable.exists_isFaithful catalogued regular
  exact grows.keepsAnswers faithful.back (reachable.keepsNames evolves) same
    (reachable.providesNames catalogued regular)

/-- So do labels that are generated. -/
theorem Reachable.keepsAnswers_of_labelAliases (reachable : table.Reachable (kind.build version))
    {block : Block} {reserved : List String}
    (labelled : table.labelAliases block reserved = .ok after) : table.KeepsAnswers after := by
  have catalogued := kind.isCatalogued_build version
  have regular := kind.isRegular_build version
  obtain ⟨unified, faithful⟩ := reachable.exists_isFaithful catalogued regular
  obtain ⟨used, labels, generates⟩ := exists_generates faithful.toIsOrderly labelled
  exact generates.keepsAnswers faithful (reachable.keepsNames (.labelAliases .refl labelled))
    (reachable.providesNames catalogued regular)

/-- The answers of every table that programs can have are kept while it evolves. -/
theorem Reachable.keepsAnswers_of_evolves (reachable : table.Reachable (kind.build version))
    (evolves : table.Evolves after) : table.KeepsAnswers after := by
  induction evolves with
  | refl => exact .refl table
  | define before label ih =>
    exact ih.trans ((reachable.evolves before).keepsAnswers_of_grows (grows_define _ label)
      (.define .refl label) (sameProvided_define _ label))
  | derive before derived ih =>
    exact ih.trans ((reachable.evolves before).keepsAnswers_of_grows (grows_derive derived)
      (.derive .refl derived) (sameProvided_derive derived))
  | defineGhost before ih =>
    exact ih.trans ((reachable.evolves before).keepsAnswers_of_grows (grows_defineGhost _)
      (.defineGhost .refl) (sameProvided_defineGhost _))
  | labelAliases before labelled ih =>
    exact ih.trans ((reachable.evolves before).keepsAnswers_of_labelAliases labelled)

/-- No operation on a table that programs can have changes its answers about the names in it: their
labels, functions and types, and the names of labels. Operations that generate no labels do not change
chains of aliases either. -/
theorem Reachable.keeps_of_apply (reachable : table.Reachable (kind.build version))
    {operation : Operation} (applied : operation.apply table = .ok after) :
    table.KeepsAnswers after ∧ (operation.isGeneration = false → table.KeepsChains after) := by
  refine ⟨reachable.keepsAnswers_of_evolves (evolves_of_apply applied), fun addsNames => ?_⟩
  obtain ⟨unified, faithful⟩ :=
    reachable.exists_isFaithful (kind.isCatalogued_build version) (kind.isRegular_build version)
  exact (grows_of_apply applied addsNames).keepsChains faithful.back

/-- The label of `x` is kept when labels are generated for its alias, and so is the alias where a ghost
is added instead. -/
theorem keeps_of_apply_aliasSample :
    (∃ after, aliasSample.labelAliases (sampleBlock [⟨25⟩]) ["x"] = .ok after ∧
      aliasSample.label ⟨24⟩ = .ok "x" ∧ after.label ⟨24⟩ = .ok "x") ∧
    aliasSample.base ⟨25⟩ = .ok ⟨24⟩ ∧ aliasSample.defineGhost.2.base ⟨25⟩ = .ok ⟨24⟩ := by
  obtain ⟨after, labelled⟩ := exists_labelAliases_sample
  have isLabel : aliasSample.label ⟨24⟩ = .ok "x" := by decide +kernel
  have isBase : aliasSample.base ⟨25⟩ = .ok ⟨24⟩ := by decide +kernel
  have inTable : (25 : Nat) < aliasSample.size := by decide +kernel
  have generated : (Operation.labelAliases (sampleBlock [⟨25⟩]) ["x"]).apply aliasSample = .ok after :=
    labelled
  have kept := (reachable_aliasSample.keeps_of_apply generated).1
  have added : Operation.defineGhost.apply aliasSample = .ok aliasSample.defineGhost.2 := rfl
  have chains := (reachable_aliasSample.keeps_of_apply added).2 rfl
  exact ⟨⟨after, labelled, isLabel, kept.label _ _ isLabel⟩, isBase,
    (chains.base ⟨25⟩ inTable).trans isBase⟩

end Bundled

end YulCheck.NameTable
