import YulCheck.Proofs.Name.Represented
import YulCheck.Proofs.Name.Unified

/-! # Interned labels

A label has the same name at all times. Once it is defined, its name has this label and no other label
has this name, whatever programs add later and whatever labels are generated.
-/

namespace YulCheck.NameTable

variable {dialect : Dialect} {unified : Handle → Prop} {table middle after later : NameTable}
  {name : Handle} {label : String}

/-! ### Names that are found -/

/-- Whether a label has a name, so that nothing has to be added when it is defined. -/
inductive Interns (table : NameTable) (label : String) : Handle → Prop
  | verbatim {function : Builtin} {name : Handle}
    (known : table.dialect.builtin? label = some function)
    (isVerbatim : function.isVerbatim = true)
    (listed : table.verbatims.lookup function.arity = some name) : Interns table label name
  | builtin {function : Builtin} (known : table.dialect.builtin? label = some function)
    (isOther : function.isVerbatim = false) (isNamed : table.builtinNamed label ≠ .empty) :
    Interns table label (table.builtinNamed label)
  | empty (isFree : table.dialect.builtin? label = none) (isEmpty : label = "")
    (hasNames : table.size ≠ 0) : Interns table label .empty
  | owner {name : Handle} (isFree : table.dialect.builtin? label = none) (hasLabel : label ≠ "")
    (owned : table.owners.lookup label = some name) (isNamed : name ≠ .empty) :
    Interns table label name

theorem Interns.define_eq (interns : table.Interns label name) :
    table.define label = (name, table) := by
  cases interns with
  | verbatim known isVerbatim listed =>
    rw [Builtin.isVerbatim] at isVerbatim
    rw [Builtin.arity] at listed
    rw [define, known]
    dsimp only
    rw [isVerbatim, if_pos rfl, defineVerbatim]
    dsimp only
    rw [listed]
  | builtin known isOther isNamed =>
    rw [Builtin.isVerbatim] at isOther
    rw [define, known]
    dsimp only
    rw [isOther, if_neg Bool.false_ne_true, if_neg fun isEmpty => isNamed (Handle.isEmpty_iff.mp isEmpty)]
  | empty isFree isEmpty hasNames =>
    rw [define, isFree]
    dsimp only
    rw [if_pos ⟨String.isEmpty_iff.mpr isEmpty, hasNames⟩]
  | owner isFree hasLabel owned isNamed =>
    have isName : table.named label = name := by rw [named, owned, Option.getD_some]
    rw [define, isFree]
    dsimp only
    rw [if_neg fun isEmpty => hasLabel (String.isEmpty_iff.mp isEmpty.1), isName,
      if_neg fun isEmpty => isNamed (Handle.isEmpty_iff.mp isEmpty)]

/-- A label has a name once it is defined. -/
theorem IsFaithful.interns_define (faithful : table.IsFaithful dialect unified) (label : String) :
    (table.define label).2.Interns label (table.define label).1 := by
  have hasNames : table.size ≠ 0 := Nat.ne_of_gt faithful.size_pos
  rw [NameTable.define]
  cases known : table.dialect.builtin? label with
  | some function =>
    dsimp only
    split
    · rename_i isVerbatim
      rw [defineVerbatim]
      dsimp only
      split
      · rename_i listed
        exact .verbatim known isVerbatim listed
      · exact .verbatim known isVerbatim List.lookup_cons_self
    · rename_i isOther
      rw [Bool.not_eq_true] at isOther
      obtain ⟨name, inRange, listed⟩ :=
        faithful.finds label function (faithful.isOf ▸ known) isOther
      have isNamed := builtinNamed_ne_empty faithful.positive inRange listed.labelled
      rw [if_neg fun isEmpty => isNamed (Handle.isEmpty_iff.mp isEmpty)]
      exact .builtin known isOther isNamed
  | none =>
    dsimp only
    split
    · rename_i isEmpty
      exact .empty known (String.isEmpty_iff.mp isEmpty.1) hasNames
    · rename_i notEmpty
      have hasLabel : label ≠ "" := fun isEmpty =>
        notEmpty ⟨String.isEmpty_iff.mpr isEmpty, hasNames⟩
      split
      · rename_i isNew
        have noOwner := faithful.toIsOrderly.lookup_of_named (Handle.isEmpty_iff.mp isNew) hasLabel
        have owners : (table.append label).2.owners = (label, ⟨table.size⟩) :: table.owners := by
          rw [append, noOwner]
          rfl
        refine .owner known hasLabel ?_ fun isEmpty => hasNames (congrArg Handle.index isEmpty)
        rw [owners, List.lookup_cons_self]
        rfl
      · rename_i isNamed
        have notEmpty : table.named label ≠ .empty :=
          fun isEmpty => isNamed (Handle.isEmpty_iff.mpr isEmpty)
        refine .owner known hasLabel ?_ notEmpty
        cases owned : table.owners.lookup label with
        | none => rw [named, owned] at notEmpty; exact absurd rfl notEmpty
        | some owner => rw [named, owned, Option.getD_some]

/-! ### The labels of names that are found -/

/-- A label that is found among the functions is that of an entry. -/
theorem IsIndexed.labelled_builtinNamed (indexed : table.IsIndexed)
    (isNamed : table.builtinNamed label ≠ .empty) :
    table.entries[(table.builtinNamed label).index]? = some (.labelled label) := by
  obtain ⟨inRange, atRoot⟩ := builtinNamed_spec isNamed
  obtain ⟨own, labelled⟩ := indexed.plain _ inRange
  rwa [rootLabel?_eq_some_iff, root_of_labelled labelled] at atRoot

/-- The name of a label has this label. Functions of the `verbatim` family have it by their arity. -/
theorem Interns.label_eq {kind : BundledDialect} {version : EvmVersion}
    (interns : table.Interns label name) (faithful : table.IsFaithful (kind.build version) unified)
    (indexed : table.IsIndexed) : table.label name = .ok label := by
  cases interns with
  | verbatim known isVerbatim listed =>
    rw [faithful.isOf] at known
    have hasArity := indexed.family _ name listed
    have inTable : name.index < table.size := (Array.getElem?_eq_some_iff.mp hasArity.isAlias).1
    obtain ⟨signature, described, arity⟩ := hasArity.function
    obtain ⟨otherKnown, isOtherVerbatim, _⟩ :=
      faithful.toIsConsistent.verbatims_of_alias hasArity.isAlias described
    have isLabel : signature.function.name = label :=
      BundledDialect.eq_of_verbatim otherKnown isOtherVerbatim known isVerbatim
        (congrArg Prod.fst arity) (congrArg Prod.snd arity)
    have isRoot := hasArity.root_eq faithful.toIsOrderly
    rw [label_of_alias inTable (hasAlias_iff.mpr ⟨_, hasArity.isAlias⟩), if_pos isRoot,
      builtin?_of_lt inTable, isRoot, if_pos faithful.inRange, described, ← isLabel]
    rfl
  | builtin known isOther isNamed => exact label_of_entry (indexed.labelled_builtinNamed isNamed)
  | empty isFree isEmpty => exact isEmpty ▸ label_of_entry faithful.first
  | owner isFree hasLabel owned =>
    exact label_of_entry (faithful.owners _ (List.mem_of_lookup_eq_some owned))

/-! ### Tables that evolve -/

/-- Whether programs, and generations of labels, can lead from a table to another one. -/
inductive Evolves (table : NameTable) : NameTable → Prop
  | refl : Evolves table table
  | define {middle : NameTable} (before : Evolves table middle) (label : String) :
    Evolves table (middle.define label).2
  | derive {middle after : NameTable} (before : Evolves table middle) {base name : Handle}
    (derived : middle.derive base = .ok (name, after)) : Evolves table after
  | defineGhost {middle : NameTable} (before : Evolves table middle) :
    Evolves table middle.defineGhost.2
  | labelAliases {middle after : NameTable} (before : Evolves table middle) {block : Block}
    {reserved : List String} (labelled : middle.labelAliases block reserved = .ok after) :
    Evolves table after

/-- What evolves from a table that programs can have is one. -/
theorem Reachable.evolves (reachable : table.Reachable dialect) (evolves : table.Evolves after) :
    after.Reachable dialect := by
  induction evolves with
  | refl => exact reachable
  | define _ label ih => exact ih.define label
  | derive _ derived ih => exact ih.derive derived
  | defineGhost _ ih => exact ih.defineGhost
  | labelAliases _ labelled ih => exact ih.labelAliases labelled

/-- Whether all labels that have names in a table have the same ones in another table. -/
structure KeepsNames (table after : NameTable) : Prop where
  dialect : after.dialect = table.dialect
  size : table.size ≤ after.size
  owners : ∀ label name, table.owners.lookup label = some name →
    after.owners.lookup label = some name
  verbatims : ∀ arity name, table.verbatims.lookup arity = some name →
    after.verbatims.lookup arity = some name
  builtins : ∀ label, after.builtinNamed label = table.builtinNamed label

namespace KeepsNames

theorem refl (table : NameTable) : table.KeepsNames table :=
  ⟨rfl, Nat.le_refl _, fun _ _ => id, fun _ _ => id, fun _ => rfl⟩

theorem trans (first : table.KeepsNames middle) (second : middle.KeepsNames after) :
    table.KeepsNames after where
  dialect := second.dialect.trans first.dialect
  size := Nat.le_trans first.size second.size
  owners label name owned := second.owners label name (first.owners label name owned)
  verbatims arity name listed := second.verbatims arity name (first.verbatims arity name listed)
  builtins label := (second.builtins label).trans (first.builtins label)

end KeepsNames

theorem Interns.of_keepsNames (interns : table.Interns label name) (keeps : table.KeepsNames after) :
    after.Interns label name := by
  cases interns with
  | verbatim known isVerbatim listed =>
    exact .verbatim (keeps.dialect ▸ known) isVerbatim (keeps.verbatims _ _ listed)
  | builtin known isOther isNamed =>
    rw [← keeps.builtins label] at isNamed ⊢
    exact .builtin (keeps.dialect ▸ known) isOther isNamed
  | empty isFree isEmpty hasNames =>
    have more := keeps.size
    exact .empty (keeps.dialect ▸ isFree) isEmpty (by omega)
  | owner isFree hasLabel owned isNamed =>
    exact .owner (keeps.dialect ▸ isFree) hasLabel (keeps.owners _ _ owned) isNamed

/-! ### What the operations keep -/

/-- The functions of the dialect are found where they were, as long as they keep their labels. -/
theorem IsIndexed.builtinNamed_eq (indexed : table.IsIndexed)
    (builtinRange : after.builtinRange = table.builtinRange)
    (labels : ∀ (name : Handle) (label : String),
      table.entries[name.index]? = some (.labelled label) →
        after.entries[name.index]? = some (.labelled label)) (label : String) :
    after.builtinNamed label = table.builtinNamed label := by
  refine builtinNamed_congr builtinRange (fun name inRange => ?_) label
  obtain ⟨own, labelled⟩ := indexed.plain name inRange
  rw [rootLabel?, rootLabel?, root_of_labelled labelled, root_of_labelled (labels name own labelled),
    labelled, labels name own labelled]

namespace IsIndexed

variable (indexed : table.IsIndexed)

include indexed

theorem keepsNames_of_grows (grows : table.Grows after)
    (owners : ∀ label name, table.owners.lookup label = some name →
      after.owners.lookup label = some name)
    (verbatims : ∀ arity name, table.verbatims.lookup arity = some name →
      after.verbatims.lookup arity = some name) : table.KeepsNames after where
  dialect := grows.dialect
  size := grows.size
  owners := owners
  verbatims := verbatims
  builtins := indexed.builtinNamed_eq grows.builtinRange fun _ _ labelled =>
    (grows.entries _ (Array.getElem?_eq_some_iff.mp labelled).1).trans labelled

theorem keepsNames_define (label : String) : table.KeepsNames (table.define label).2 := by
  have added := adds_define table label
  generalize (table.define label).2 = after at added
  cases added with
  | same => exact .refl table
  | label =>
    exact indexed.keepsNames_of_grows (grows_append table label)
      (fun _ _ owned => lookup_assign owned ⟨table.size⟩ label) fun _ _ => id
  | verbatim _ _ isNew =>
    refine indexed.keepsNames_of_grows (grows_appendVerbatim table _) (fun _ _ => id)
      fun arity name listed => ?_
    rename_i function _ _
    have verbatims : (table.appendVerbatim function).2.verbatims =
        (function.arity, ⟨table.size⟩) :: table.verbatims := rfl
    have differs : (arity == function.arity) = false := by
      rw [beq_eq_false_iff_ne]
      rintro rfl
      rw [isNew] at listed
      cases listed
    rw [verbatims, List.lookup_cons, differs]
    exact listed

theorem keepsNames_derive {base : Handle} (derived : table.derive base = .ok (name, after)) :
    table.KeepsNames after := by
  have grows := grows_derive derived
  obtain rfl := congrArg Prod.snd (derive_eq_ok derived).2
  exact indexed.keepsNames_of_grows grows (fun _ _ => id) fun _ _ => id

theorem keepsNames_defineGhost : table.KeepsNames table.defineGhost.2 := by
  have counted : { table with ghostCount := table.ghostCount + 1 }.IsIndexed :=
    indexed.of_same rfl rfl rfl rfl rfl rfl
  have keeps : table.KeepsNames { table with ghostCount := table.ghostCount + 1 } :=
    ⟨rfl, Nat.le_refl _, fun _ _ => id, fun _ _ => id, fun _ => rfl⟩
  exact keeps.trans (counted.keepsNames_define (ghostLabel table.ghostCount))

theorem keepsNames_generates {block : Block} {reserved used : List String}
    {labels : List (Handle × String)}
    (generates : table.Generates block reserved used labels after) : table.KeepsNames after := by
  obtain ⟨entries, owners, same, _⟩ := generates.exists_eq
  refine ⟨?_, Nat.le_of_eq generates.size_eq.symm, fun label name owned => ?_,
    fun arity name listed => ?_, indexed.builtinNamed_eq ?_ fun _ _ => generates.getElem?_of_labelled⟩
  · rw [same]
  · rw [generates.outcome]
    exact lookup_assignAll owned labels
  · rw [same]
    exact listed
  · rw [same]

end IsIndexed

/-! ### All tables of the bundled dialects -/

section Bundled

variable {kind : BundledDialect} {version : EvmVersion}

/-- All labels keep their names while a table evolves. -/
theorem Reachable.keepsNames (reachable : table.Reachable (kind.build version))
    (evolves : table.Evolves after) : table.KeepsNames after := by
  have catalogued := kind.isCatalogued_build version
  have regular := kind.isRegular_build version
  have isIndexed {table : NameTable} (reachable : table.Reachable (kind.build version)) :
      table.IsIndexed := by
    obtain ⟨unified, history⟩ := reachable_iff_exists_history.mp reachable
    exact history.isIndexed catalogued regular
  induction evolves with
  | refl => exact .refl table
  | define before label ih =>
    exact ih.trans ((isIndexed (reachable.evolves before)).keepsNames_define label)
  | derive before derived ih =>
    exact ih.trans ((isIndexed (reachable.evolves before)).keepsNames_derive derived)
  | defineGhost before ih =>
    exact ih.trans (isIndexed (reachable.evolves before)).keepsNames_defineGhost
  | labelAliases before labelled ih =>
    have reached := reachable.evolves before
    obtain ⟨unified, faithful⟩ := reached.exists_isFaithful catalogued regular
    obtain ⟨used, labels, generates⟩ := exists_generates faithful.toIsOrderly labelled
    exact ih.trans ((isIndexed reached).keepsNames_generates generates)

/-- The name that a label has when it is defined has this label from then on. -/
theorem Reachable.label_of_evolves (reachable : table.Reachable (kind.build version))
    (label : String) (evolves : (table.define label).2.Evolves later) :
    later.Interns label (table.define label).1 ∧ later.label (table.define label).1 = .ok label := by
  have catalogued := kind.isCatalogued_build version
  have regular := kind.isRegular_build version
  obtain ⟨unified, faithful⟩ := reachable.exists_isFaithful catalogued regular
  have defined := reachable.define label
  have interns := (faithful.interns_define label).of_keepsNames (defined.keepsNames evolves)
  obtain ⟨unifiedLater, history⟩ := reachable_iff_exists_history.mp (defined.evolves evolves)
  exact ⟨interns, interns.label_eq (history.isFaithful catalogued regular)
    (history.isIndexed catalogued regular)⟩

/-- The name that a label has when it is defined has this label from then on, and is the name that the
label, and no other one, has whenever it is defined again. -/
theorem Reachable.define_stable (reachable : table.Reachable (kind.build version))
    (label : String) (evolves : (table.define label).2.Evolves later) :
    later.label (table.define label).1 = .ok label ∧
      later.define label = ((table.define label).1, later) ∧
      ∀ other, (later.define other).1 = (table.define label).1 ↔ other = label := by
  obtain ⟨interns, isLabel⟩ := reachable.label_of_evolves label evolves
  refine ⟨isLabel, interns.define_eq, fun other => ⟨fun same => ?_, ?_⟩⟩
  · have otherLabel :=
      (((reachable.define label).evolves evolves).label_of_evolves other .refl).2
    have stillLabel := (reachable.label_of_evolves label (evolves.define other)).2
    rw [same, stillLabel] at otherLabel
    exact (Except.ok.inj otherLabel).symm
  · rintro rfl
    rw [interns.define_eq]

/-- The name `x` keeps its label when an alias of it is given another one. -/
theorem define_stable_aliasSample : ∃ after,
    aliasSample.labelAliases (sampleBlock [⟨25⟩]) ["x"] = .ok after ∧
      after.label ⟨24⟩ = .ok "x" ∧ after.define "x" = (⟨24⟩, after) ∧
      (after.define "y").1 ≠ ⟨24⟩ := by
  obtain ⟨after, labelled⟩ := exists_labelAliases_sample
  have reachable : (ofDialect .generic).Reachable (BundledDialect.generic.build .default) :=
    .ofDialect
  have evolves : ((ofDialect .generic).define "x").2.Evolves after :=
    (Evolves.refl.derive derive_aliasSample).labelAliases labelled
  have isName : ((ofDialect .generic).define "x").1 = ⟨24⟩ := by decide +kernel
  obtain ⟨isLabel, defined, onlyLabel⟩ := reachable.define_stable "x" evolves
  rw [isName] at isLabel defined onlyLabel
  exact ⟨after, labelled, isLabel, defined, fun same => absurd ((onlyLabel "y").mp same) (by decide)⟩

end Bundled

end YulCheck.NameTable
