import YulCheck.Proofs.Name.Generated

/-! # Tables that are indexed

Beside its entries a table has the owners of labels and the names of the `verbatim` family by their
arities. Both cover the entries in every table that programs can have: each label has an owner, and
each arity leads to an alias of the family with a function of this arity. The functions that are
listed by their names are no aliases.
-/

namespace YulCheck.NameTable

variable {dialect : Dialect} {unified : Handle → Prop} {table after : NameTable} {name : Handle}
  {label : String} {function : Builtin}

/-! ### Aliases of the `verbatim` family -/

/-- Whether a name is an alias of the base of the `verbatim` family, with a function of an arity. -/
structure HasArity (table : NameTable) (name : Handle) (arity : Nat × Nat) : Prop where
  isAlias : table.entries[name.index]? = some (.alias table.predefined.verbatim)
  function : ∃ signature, table.builtins.lookup name = some signature ∧
    signature.function.arity = arity

namespace HasArity

variable {arity : Nat × Nat}

theorem of_grows (hasArity : table.HasArity name arity) (grows : table.Grows after) :
    after.HasArity name arity := by
  have inTable : name.index < table.size := (Array.getElem?_eq_some_iff.mp hasArity.isAlias).1
  refine ⟨?_, ?_⟩
  · rw [grows.entries _ inTable, grows.predefined]
    exact hasArity.isAlias
  · rw [grows.builtins name inTable]
    exact hasArity.function

theorem root_eq (hasArity : table.HasArity name arity) (orderly : table.IsOrderly) :
    table.root name = table.predefined.verbatim := by
  obtain ⟨label, labelled⟩ := orderly.verbatim
  rw [root_of_alias orderly.back hasArity.isAlias, root_of_labelled labelled]

theorem not_awaits (hasArity : table.HasArity name arity) (orderly : table.IsOrderly) :
    ¬table.AwaitsLabel name :=
  fun awaits => awaits.isOther (hasArity.root_eq orderly)

end HasArity

/-! ### Indexed tables -/

/-- Whether labels and arities lead to the entries of a table. -/
structure IsIndexed (table : NameTable) : Prop where
  owned : ∀ (name : Handle) (label : String),
    table.entries[name.index]? = some (.labelled label) →
      (table.owners.lookup label).isSome = true
  family : ∀ arity name, table.verbatims.lookup arity = some name → table.HasArity name arity
  typed : ∀ entry ∈ table.builtins,
    entry.2.function.arity = (entry.2.parameters.length, entry.2.returns.length)
  /-- The functions that are listed by their names are no aliases. -/
  plain : ∀ name, table.builtinRange.contains name = true →
    ∃ label, table.entries[name.index]? = some (.labelled label)

/-- A new label is owned like a label that is given to a new name. -/
theorem owners_append (table : NameTable) (label : String) :
    (table.append label).2.owners = (table.assign ⟨table.size⟩ label).owners := rfl

/-- The numbers of types in a signature are those of its function. -/
theorem arity_signature (table : NameTable) (name : Handle) (function : Builtin) :
    (table.signature name function).function.arity =
      ((table.signature name function).parameters.length,
        (table.signature name function).returns.length) := by
  rw [signature, List.length_map, List.length_map]
  rfl

namespace IsIndexed

/-- What is the same in a table that grew, apart from the new names. -/
theorem of_grows (indexed : table.IsIndexed) (grows : table.Grows after)
    (owned : ∀ (name : Handle) (label : String),
      after.entries[name.index]? = some (.labelled label) →
        (after.owners.lookup label).isSome = true)
    (family : ∀ arity name, after.verbatims.lookup arity = some name →
      table.verbatims.lookup arity = some name ∨ after.HasArity name arity)
    (typed : ∀ entry ∈ after.builtins,
      entry.2.function.arity = (entry.2.parameters.length, entry.2.returns.length)) :
    after.IsIndexed where
  owned := owned
  family arity name listed := (family arity name listed).elim
    (fun before => (indexed.family arity name before).of_grows grows) id
  typed := typed
  plain name inRange := by
    rw [grows.builtinRange] at inRange
    obtain ⟨label, labelled⟩ := indexed.plain name inRange
    have inTable := (Array.getElem?_eq_some_iff.mp labelled).1
    exact ⟨label, (grows.entries _ inTable).trans labelled⟩

/-- Everything but the entries and what leads to them may change. -/
theorem of_same (indexed : table.IsIndexed) (entries : after.entries = table.entries)
    (owners : after.owners = table.owners) (builtins : after.builtins = table.builtins)
    (verbatims : after.verbatims = table.verbatims)
    (verbatim : after.predefined.verbatim = table.predefined.verbatim)
    (builtinRange : after.builtinRange = table.builtinRange) : after.IsIndexed where
  owned := by
    rw [entries, owners]
    exact indexed.owned
  family arity name listed := by
    have before := indexed.family arity name (verbatims ▸ listed)
    refine ⟨?_, builtins ▸ before.function⟩
    rw [entries, verbatim]
    exact before.isAlias
  typed := builtins ▸ indexed.typed
  plain name inRange := by
    rw [entries]
    exact indexed.plain name (builtinRange ▸ inRange)

/-- The names that the library refers to may change, apart from the base of the family. -/
theorem predefine (indexed : table.IsIndexed) {predefined : PredefinedNames}
    (verbatim : predefined.verbatim = table.predefined.verbatim) :
    { table with predefined }.IsIndexed := indexed.of_same rfl rfl rfl rfl verbatim rfl

theorem append (indexed : table.IsIndexed) (label : String) : (table.append label).2.IsIndexed := by
  refine indexed.of_grows (grows_append table label) (fun name other labelled => ?_)
    (fun _ _ listed => .inl listed) indexed.typed
  rw [show (table.append label).2.entries = table.entries.push (.labelled label) from rfl,
    Array.getElem?_push] at labelled
  rw [owners_append]
  split at labelled
  · cases labelled
    exact owned_assign_self table ⟨table.size⟩ label
  · exact owned_assign (indexed.owned name other labelled) ⟨table.size⟩ label

/-- Labels in a table with one more alias were there before. -/
theorem owned_appendAlias (indexed : table.IsIndexed) (base name : Handle) (label : String)
    (labelled : (table.appendAlias base).2.entries[name.index]? = some (.labelled label)) :
    (table.owners.lookup label).isSome = true := by
  rw [NameTable.appendAlias, Array.getElem?_push] at labelled
  split at labelled
  · cases labelled
  · exact indexed.owned name label labelled

theorem appendAlias (indexed : table.IsIndexed) (base : Handle) :
    (table.appendAlias base).2.IsIndexed :=
  indexed.of_grows (grows_appendAlias table base) (indexed.owned_appendAlias base)
    (fun _ _ listed => .inl listed) indexed.typed

theorem appendVerbatim (indexed : table.IsIndexed) (function : Builtin) :
    (table.appendVerbatim function).2.IsIndexed := by
  refine indexed.of_grows (grows_appendVerbatim table function)
    (indexed.owned_appendAlias table.predefined.verbatim) (fun arity name listed => ?_) ?_
  · have verbatims : (table.appendVerbatim function).2.verbatims =
        (function.arity, ⟨table.size⟩) :: table.verbatims := rfl
    rw [verbatims, List.lookup_cons] at listed
    split at listed
    · rename_i same
      obtain rfl := Option.some.inj listed
      obtain rfl := eq_of_beq same
      refine .inr ⟨Array.getElem?_push_size, _, List.lookup_cons_self, rfl⟩
    · exact .inl listed
  · exact List.forall_mem_cons.mpr ⟨arity_signature _ _ _, indexed.typed⟩

theorem define (indexed : table.IsIndexed) (label : String) : (table.define label).2.IsIndexed := by
  have added := adds_define table label
  generalize (table.define label).2 = after at added
  cases added with
  | same => exact indexed
  | label => exact indexed.append label
  | verbatim => exact indexed.appendVerbatim _

theorem derive (indexed : table.IsIndexed) {base : Handle}
    (derived : table.derive base = .ok (name, after)) : after.IsIndexed := by
  obtain rfl := congrArg Prod.snd (derive_eq_ok derived).2
  exact indexed.appendAlias base

theorem defineGhost (indexed : table.IsIndexed) : table.defineGhost.2.IsIndexed := by
  have counted : { table with ghostCount := table.ghostCount + 1 }.IsIndexed :=
    indexed.of_same rfl rfl rfl rfl rfl rfl
  exact counted.define (ghostLabel table.ghostCount)

theorem builtinOrDefine (indexed : table.IsIndexed) (label : String) :
    (table.builtinOrDefine label).2.IsIndexed := by
  rw [NameTable.builtinOrDefine]
  split
  · exact indexed
  · exact indexed.define label

theorem withBuiltins (indexed : table.IsIndexed) (labels : List String) :
    (table.withBuiltins labels).IsIndexed := by
  induction labels generalizing table with
  | nil => exact indexed
  | cons label rest ih => exact ih (indexed.builtinOrDefine label)

/-- Labels that are generated own themselves, or belong to an owner that was there before. -/
theorem generates (indexed : table.IsIndexed) (orderly : table.IsOrderly) {block : Block}
    {reserved used : List String} {labels : List (Handle × String)}
    (generates : table.Generates block reserved used labels after) : after.IsIndexed := by
  obtain ⟨entries, owners, same, _⟩ := generates.exists_eq
  refine ⟨fun name label labelled => ?_, fun arity name listed => ?_, ?_, fun name inRange => ?_⟩
  · rcases generates.entry_cases labelled with member | before
    · rw [generates.outcome]
      exact owned_assignAll member
    · obtain ⟨owner, isOwner⟩ := Option.isSome_iff_exists.mp (indexed.owned name label before)
      rw [generates.outcome, lookup_assignAll isOwner labels]
      rfl
  · have before : table.HasArity name arity :=
      indexed.family arity name ((congrArg NameTable.verbatims same) ▸ listed)
    refine ⟨?_, ?_⟩
    · rw [generates.getElem?_of_not_awaits (before.not_awaits orderly), before.isAlias, same]
    · rw [same]
      exact before.function
  · rw [same]
    exact indexed.typed
  · obtain ⟨label, labelled⟩ := indexed.plain name ((congrArg builtinRange same) ▸ inRange)
    exact ⟨label, generates.getElem?_of_labelled labelled⟩

end IsIndexed

/-! ### The table of a dialect -/

theorem isIndexed_blank (dialect : Dialect) : ((blank dialect).append "").2.IsIndexed := by
  refine IsIndexed.append ⟨fun name label labelled => ?_, fun arity name listed => ?_,
    List.forall_mem_nil _, fun name inRange => ?_⟩ ""
  · rw [show (blank dialect).entries = #[] from rfl, Array.getElem?_empty] at labelled
    cases labelled
  · cases listed
  · exact absurd (HandleRange.contains_iff.mp inRange).2 (Nat.not_lt_zero _)

theorem IsIndexed.addType (indexed : table.IsIndexed) (label : String) :
    (table.addType label).IsIndexed := by
  rw [NameTable.addType]
  split
  · exact indexed.of_same rfl rfl rfl rfl rfl rfl
  · exact (indexed.define label).of_same rfl rfl rfl rfl rfl rfl

theorem isIndexed_addTypes (dialect : Dialect) :
    ((blank dialect).append "").2.addTypes.IsIndexed := by
  have foldl (labels : List String) {table : NameTable} (indexed : table.IsIndexed) :
      (labels.foldl addType table).IsIndexed := by
    induction labels generalizing table with
    | nil => exact indexed
    | cons label rest ih => exact ih (indexed.addType label)
  exact (foldl dialect.types (isIndexed_blank dialect)).of_same rfl rfl rfl rfl rfl rfl

/-- Whether an indexed table has no aliases: the tables that functions are added to. -/
structure IsFlat (dialect : Dialect) (table : NameTable) : Prop extends table.IsIndexed where
  isOf : table.dialect = dialect
  labelled : ∀ (index : Nat) (base : Handle), table.entries[index]? ≠ some (Entry.alias base)
  verbatims : table.verbatims = []

namespace IsFlat

theorem define (flat : table.IsFlat dialect)
    (isOther : ∀ function, dialect.builtin? label = some function → function.isVerbatim = false) :
    (table.define label).2.IsFlat dialect := by
  have indexed := flat.toIsIndexed.define label
  have added := adds_define table label
  generalize (table.define label).2 = after at added indexed
  cases added with
  | same => exact flat
  | label =>
    refine ⟨indexed, flat.isOf, fun index base isAlias => ?_, flat.verbatims⟩
    rw [append, Array.getElem?_push] at isAlias
    split at isAlias
    · cases isAlias
    · exact flat.labelled index base isAlias
  | verbatim known isVerbatim =>
    rw [isOther _ (flat.isOf ▸ known)] at isVerbatim
    cases isVerbatim

theorem describe (flat : table.IsFlat dialect) (name : Handle) (function : Builtin) :
    (table.describe name function).IsFlat dialect := by
  refine ⟨⟨flat.owned, fun arity name listed => ?_, ?_, flat.plain⟩, flat.isOf, flat.labelled,
    flat.verbatims⟩
  · rw [show (table.describe _ function).verbatims = [] from flat.verbatims] at listed
    cases listed
  · exact List.forall_mem_cons.mpr ⟨arity_signature _ _ _, flat.typed⟩

theorem addBuiltin (flat : table.IsFlat dialect)
    (isOther : ∀ function, dialect.builtin? label = some function → function.isVerbatim = false) :
    (table.addBuiltin label).IsFlat dialect := by
  rw [NameTable.addBuiltin]
  dsimp only
  split
  · exact (flat.define isOther).describe _ _
  · exact flat.define isOther

theorem foldl_addBuiltin (flat : table.IsFlat dialect) (catalogued : dialect.IsCatalogued)
    {labels : List String} (areMembers : labels ⊆ dialect.builtinNames) :
    (labels.foldl NameTable.addBuiltin table).IsFlat dialect := by
  induction labels generalizing table with
  | nil => exact flat
  | cons label rest ih =>
    rw [List.cons_subset] at areMembers
    exact ih (flat.addBuiltin (catalogued.members label areMembers.1)) areMembers.2

end IsFlat

theorem isFlat_withVerbatim (regular : dialect.IsRegular) :
    ((blank dialect).append "").2.addTypes.withVerbatim.IsFlat dialect := by
  obtain ⟨plain, _⟩ := isPlain_addTypes regular
  have isOf := (knowsTypes_addTypes regular).isOf
  have indexed := isIndexed_addTypes dialect
  generalize ((blank dialect).append "").2.addTypes = table at *
  let ranged : NameTable := { table with builtinRange := ⟨table.size, table.size⟩ }
  have started : ranged.IsPlain :=
    ⟨plain.first, plain.labelled, plain.owners, plain.builtins, plain.verbatims⟩
  have based := isPlain_append started Dialect.verbatimBase
  have isEmpty (arity : Nat × Nat) (name : Handle) : table.verbatims.lookup arity ≠ some name := by
    rw [plain.verbatims]
    nofun
  have rangedIndexed : ranged.IsIndexed := by
    refine ⟨indexed.owned, fun arity name listed => absurd listed (isEmpty arity name),
      indexed.typed, fun name inRange => ?_⟩
    have bounds := HandleRange.contains_iff.mp inRange
    exact absurd bounds.1 (Nat.not_le_of_lt bounds.2)
  have basedIndexed := rangedIndexed.append Dialect.verbatimBase
  refine ⟨⟨basedIndexed.owned, fun arity name listed => absurd listed (isEmpty arity name),
    basedIndexed.typed, basedIndexed.plain⟩, isOf, based.labelled, plain.verbatims⟩

theorem isIndexed_addBuiltins (catalogued : dialect.IsCatalogued) (regular : dialect.IsRegular) :
    ((blank dialect).append "").2.addTypes.addBuiltins.IsIndexed := by
  obtain ⟨_, owned⟩ := isPlain_addTypes regular
  have isOf := (knowsTypes_addTypes regular).isOf
  have flat := isFlat_withVerbatim regular
  have added := addBuiltins_eq regular isOf owned
  generalize ((blank dialect).append "").2.addTypes = table at *
  have all : table.withFunctions.IsFlat dialect := by
    refine flat.foldl_addBuiltin catalogued ?_
    rw [isOf]
    exact List.filter_subset_self _
  rw [added]
  refine ⟨all.owned, fun arity name listed => ?_, all.typed, fun name inRange => ?_⟩
  · rw [show NameTable.verbatims _ = [] from all.verbatims] at listed
    cases listed
  · have inTable : name.index < table.withFunctions.size := (HandleRange.contains_iff.mp inRange).2
    have entry : table.withFunctions.entries[name.index]? =
        some table.withFunctions.entries[name.index] := Array.getElem?_eq_getElem inTable
    rcases known : table.withFunctions.entries[name.index] with label | base
    · exact ⟨label, known ▸ entry⟩
    · exact absurd (known ▸ entry) (all.labelled name.index base)

theorem isIndexed_ofDialect (catalogued : dialect.IsCatalogued) (regular : dialect.IsRegular) :
    (ofDialect dialect).IsIndexed := by
  have functions := isIndexed_addBuiltins catalogued regular
  rw [ofDialect]
  generalize ((blank dialect).append "").2.addTypes.addBuiltins = table at *
  obtain ⟨predefined, same, verbatim, _⟩ := table.addPredefined_eq
  have named : table.addPredefined.IsIndexed := by
    rw [same]
    exact (functions.withBuiltins predefinedLabels).predefine verbatim
  generalize table.addPredefined = table at *
  have provided : table.addTypeBuiltins.IsIndexed := named.of_same rfl rfl rfl rfl rfl rfl
  generalize table.addTypeBuiltins = table at *
  have placed := ((provided.define "@ 0").define "@ 1").define "@ 32"
  rw [addPlaceholders]
  exact placed.predefine rfl

/-! ### All tables of a dialect -/

theorem History.isIndexed (catalogued : dialect.IsCatalogued) (regular : dialect.IsRegular)
    (history : History dialect table unified) : table.IsIndexed := by
  induction history with
  | ofDialect => exact isIndexed_ofDialect catalogued regular
  | define before label ih => exact ih.define label
  | derive before derived ih => exact ih.derive derived
  | defineGhost before ih => exact ih.defineGhost
  | labelAliases before labelled ih =>
    have orderly := (before.isFaithful catalogued regular).toIsOrderly
    obtain ⟨used, labels, generates⟩ := exists_generates orderly labelled
    exact ih.generates orderly generates

end YulCheck.NameTable
