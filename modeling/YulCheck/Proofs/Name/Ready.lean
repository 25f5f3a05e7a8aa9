import YulCheck.Proofs.Name.Orderly

/-! # Tables that are ready for programs

The table of a dialect is orderly, and everything in it has a label: so have the types of the dialect,
the types of its functions, and all names that `define` finds or appends from then on. Names that are
derived from others are shown by labels.
-/

namespace YulCheck.NameTable

variable {dialect : Dialect} {table after : NameTable} {name base : Handle} {label : String}
  {function : Builtin}

/-! ### Tables with nothing but named names -/

/-- Whether all names of an orderly table are named, the types and the functions among them. -/
structure IsWhole (table : NameTable) : Prop extends table.IsOrderly where
  named : ∀ name : Handle, name.index < table.size → table.IsNamed name
  types : ∀ entry ∈ table.types, entry.1.index < table.size
  typeRange : table.typeRange.stop ≤ table.size
  builtinRange : table.builtinRange.stop ≤ table.size

/-- A table grows by one name at most when a label is defined. -/
theorem size_define (table : NameTable) (label : String) :
    (table.define label).2.size = table.size ∨
      (table.define label).2.size = table.size + 1 ∧ (table.define label).1 = ⟨table.size⟩ := by
  have defined := defines_define table label
  revert defined
  cases table.define label with
  | mk name after =>
    intro defined
    cases defined with
    | empty | verbatim | builtin | owner => exact .inl rfl
    | append => exact .inr ⟨table.size_append label, rfl⟩
    | appendVerbatim => exact .inr ⟨table.size_appendAlias _, rfl⟩

namespace IsWhole

/-- The base of the `verbatim` family may be any name of a table that holds nothing but labels. -/
theorem of_isPlain (plain : table.IsPlain) (verbatim : table.predefined.verbatim.index < table.size)
    (types : ∀ entry ∈ table.types, entry.1.index < table.size)
    (typeRange : table.typeRange.stop ≤ table.size)
    (builtinRange : table.builtinRange.stop ≤ table.size) : table.IsWhole where
  first := plain.first
  back index base isAlias := absurd isAlias (plain.labelled index base)
  owners := plain.owners
  verbatim := plain.exists_label verbatim
  verbatims entry listed := by
    have none : table.verbatims = [] := plain.verbatims
    exact absurd (none ▸ listed) List.not_mem_nil
  builtins name inRange :=
    .inl (plain.exists_label (Nat.lt_of_lt_of_le (HandleRange.contains_iff.mp inRange).2 builtinRange))
  named _ inTable := .inl (plain.exists_label inTable)
  types := types
  typeRange := typeRange
  builtinRange := builtinRange

/-- Functions may be described, and everything but the entries may change. -/
theorem of_same (whole : table.IsWhole) (entries : after.entries = table.entries)
    (owners : after.owners = table.owners) (verbatims : after.verbatims = table.verbatims)
    (verbatim : after.predefined.verbatim = table.predefined.verbatim)
    (functions : ∀ name, (table.builtins.lookup name).isSome = true →
      (after.builtins.lookup name).isSome = true)
    (types : after.types = table.types) (typeRange : after.typeRange = table.typeRange)
    (builtinRange : after.builtinRange.stop ≤ table.size) : after.IsWhole := by
  have size : after.size = table.size := congrArg Array.size entries
  have described {name : Handle} (before : table.IsDescribed name) : after.IsDescribed name := by
    refine ⟨entries ▸ before.isAlias, ?_, functions name before.function⟩
    rw [root, entries, verbatim]
    exact before.root
  have named {name : Handle} (inTable : name.index < table.size) : after.IsNamed name := by
    rcases whole.named name inTable with labelled | before
    · exact .inl (entries ▸ labelled)
    · exact .inr (described before)
  refine ⟨⟨entries ▸ whole.first, entries ▸ whole.back, ?_, ?_, ?_, ?_⟩, ?_, ?_, ?_, ?_⟩
  · rw [owners, entries]
    exact whole.owners
  · rw [verbatim, entries]
    exact whole.verbatim
  · rw [verbatims]
    exact fun entry listed => (whole.verbatims entry listed).imp id described
  · exact fun name inRange =>
      named (Nat.lt_of_lt_of_le (HandleRange.contains_iff.mp inRange).2 builtinRange)
  · exact fun name inTable => named (size ▸ inTable)
  · rw [types, size]
    exact whole.types
  · rw [typeRange, size]
    exact whole.typeRange
  · rw [size]
    exact builtinRange

theorem define (whole : table.IsWhole) (label : String) : (table.define label).2.IsWhole := by
  have grows := grows_define table label
  obtain ⟨orderly, isNamed, _⟩ := whole.toIsOrderly.define label
  refine ⟨orderly, fun name inTable => ?_, ?_, ?_, ?_⟩
  · by_cases isOld : name.index < table.size
    · exact grows.isNamed whole.back (whole.named name isOld)
    · rcases size_define table label with same | ⟨size, isNew⟩
      · omega
      · have isLast : name = ⟨table.size⟩ :=
          congrArg Handle.mk (by omega : name.index = table.size)
        rw [isLast, ← isNew]
        exact isNamed
  · rw [grows.types]
    exact fun entry listed => Nat.lt_of_lt_of_le (whole.types entry listed) grows.size
  · rw [grows.typeRange]
    exact Nat.le_trans whole.typeRange grows.size
  · rw [grows.builtinRange]
    exact Nat.le_trans whole.builtinRange grows.size

theorem describe (whole : table.IsWhole) (name : Handle) (function : Builtin) :
    (table.describe name function).IsWhole := by
  refine whole.of_same rfl rfl rfl rfl (fun other isDescribed => ?_) rfl rfl whole.builtinRange
  show (List.lookup other ((name, _) :: table.builtins)).isSome = true
  rw [List.lookup_cons]
  split
  · rfl
  · exact isDescribed

theorem addBuiltin (whole : table.IsWhole) (label : String) : (table.addBuiltin label).IsWhole := by
  rw [NameTable.addBuiltin]
  dsimp only
  split
  · exact (whole.define label).describe _ _
  · exact whole.define label

theorem foldl_addBuiltin (whole : table.IsWhole) (labels : List String) :
    (labels.foldl NameTable.addBuiltin table).IsWhole := by
  induction labels generalizing table with
  | nil => exact whole
  | cons label rest ih => exact ih (whole.addBuiltin label)

theorem builtinOrDefine (whole : table.IsWhole) (label : String) :
    (table.builtinOrDefine label).2.IsWhole := by
  rw [NameTable.builtinOrDefine]
  split
  · exact whole
  · exact whole.define label

theorem withBuiltins (whole : table.IsWhole) (labels : List String) :
    (table.withBuiltins labels).IsWhole := by
  induction labels generalizing table with
  | nil => exact whole
  | cons label rest ih => exact ih (whole.builtinOrDefine label)

end IsWhole

/-! ### The table of a dialect -/

/-- The types of a table that has no other names yet are names of it. -/
theorem lt_of_mem_types (regular : dialect.IsRegular) {entry : TypeHandle × String}
    (listed : entry ∈ ((blank dialect).append "").2.addTypes.types) :
    entry.1.index < ((blank dialect).append "").2.addTypes.size := by
  by_cases hasEmpty : "" ∈ dialect.types
  · rw [addTypes_of_untyped (regular.untyped hasEmpty)] at listed ⊢
    obtain rfl := List.mem_singleton.mp listed
    exact Nat.zero_lt_one
  · exact ((listsTypes_types regular hasEmpty).named entry listed).2

theorem predefined_addBuiltin (table : NameTable) (label : String) :
    (table.addBuiltin label).predefined = table.predefined := by
  rw [addBuiltin]
  dsimp only
  split <;> exact (grows_define table label).predefined

theorem predefined_foldl_addBuiltin (table : NameTable) (labels : List String) :
    (labels.foldl addBuiltin table).predefined = table.predefined := by
  induction labels generalizing table with
  | nil => rfl
  | cons label rest ih => exact (ih (table.addBuiltin label)).trans (predefined_addBuiltin table label)

/-- The base of the `verbatim` family is new where only types own labels. -/
theorem define_verbatimBase (regular : dialect.IsRegular) (isOf : table.dialect = dialect)
    (owned : ∀ entry ∈ table.owners, entry.1 ∈ "" :: dialect.types) :
    table.define Dialect.verbatimBase = table.append Dialect.verbatimBase := by
  have isFree : table.dialect.builtin? Dialect.verbatimBase = none :=
    isOf ▸ regular.free _ List.mem_cons_self
  have hasLabel : Dialect.verbatimBase ≠ "" := by decide
  rcases define_of_free isFree hasLabel with ⟨name, isOwned, _⟩ | appended
  · rcases List.mem_cons.mp (owned _ isOwned) with isEmpty | isType
    · exact absurd isEmpty hasLabel
    · exact absurd isType regular.base
  · exact appended

/-- The table in which the base of the `verbatim` family is the only name behind the types. -/
def withVerbatim (table : NameTable) : NameTable :=
  let based := ({ table with builtinRange := ⟨table.size, table.size⟩ }.append
    Dialect.verbatimBase).2
  { based with predefined := { based.predefined with verbatim := ⟨table.size⟩ } }

/-- The table with the base of the `verbatim` family and all functions. -/
def withFunctions (table : NameTable) : NameTable :=
  (table.dialect.builtinNames.filter (!·.isEmpty)).foldl addBuiltin table.withVerbatim

theorem addBuiltins_of_new
    (based : { table with builtinRange := ⟨table.size, table.size⟩ }.define Dialect.verbatimBase =
      { table with builtinRange := ⟨table.size, table.size⟩ }.append Dialect.verbatimBase) :
    table.addBuiltins =
      { table.withFunctions with builtinRange := ⟨table.size, table.withFunctions.size⟩ } := by
  rw [addBuiltins]
  dsimp only
  rw [show "@ verbatim" = Dialect.verbatimBase from rfl, based]
  rfl

theorem addBuiltins_eq (regular : dialect.IsRegular) (isOf : table.dialect = dialect)
    (owned : ∀ entry ∈ table.owners, entry.1 ∈ "" :: dialect.types) :
    table.addBuiltins =
      { table.withFunctions with builtinRange := ⟨table.size, table.withFunctions.size⟩ } :=
  addBuiltins_of_new (define_verbatimBase regular isOf owned)

theorem isWhole_withVerbatim (plain : table.IsPlain)
    (types : ∀ entry ∈ table.types, entry.1.index < table.size)
    (typeRange : table.typeRange.stop ≤ table.size) : table.withVerbatim.IsWhole := by
  have started : { table with builtinRange := ⟨table.size, table.size⟩ }.IsPlain :=
    ⟨plain.first, plain.labelled, plain.owners, plain.builtins, plain.verbatims⟩
  have appended := isPlain_append started Dialect.verbatimBase
  have size : table.withVerbatim.size = table.size + 1 := table.size_append Dialect.verbatimBase
  have based : table.withVerbatim.IsPlain :=
    ⟨appended.first, appended.labelled, appended.owners, appended.builtins, appended.verbatims⟩
  refine IsWhole.of_isPlain based ?_ (fun entry listed => ?_) ?_ ?_ <;> rw [size]
  · exact Nat.lt_succ_self table.size
  · exact Nat.lt_succ_of_lt (types entry listed)
  · exact Nat.le_succ_of_le typeRange
  · exact Nat.le_succ table.size

/-- All functions are named, and the base of the `verbatim` family is one of them. -/
theorem isWhole_addBuiltins (regular : dialect.IsRegular) :
    let table := ((blank dialect).append "").2.addTypes.addBuiltins
    table.IsWhole ∧ table.builtinRange.contains table.predefined.verbatim = true := by
  obtain ⟨plain, owned⟩ := isPlain_addTypes regular
  have based := isWhole_withVerbatim plain (fun entry listed => lt_of_mem_types regular listed)
    (Nat.le_refl _)
  dsimp only
  rw [addBuiltins_eq regular (knowsTypes_addTypes regular).isOf owned, withFunctions]
  generalize ((blank dialect).append "").2.addTypes.dialect.builtinNames.filter _ = labels
  have whole := based.foldl_addBuiltin labels
  have verbatim := predefined_foldl_addBuiltin
    ((blank dialect).append "").2.addTypes.withVerbatim labels
  constructor
  · exact whole.of_same rfl rfl rfl rfl (fun _ isDescribed => isDescribed) rfl rfl (Nat.le_refl _)
  · have inTable := whole.toIsOrderly.verbatim_lt
    refine HandleRange.contains_iff.mpr ⟨?_, inTable⟩
    rw [verbatim]
    exact Nat.le_refl _

/-! ### Predefined names -/

/-- Whether the predefined names that every check needs are what they should be. -/
structure KnowsPredefined (table : NameTable) : Prop where
  inRange : table.builtinRange.contains table.predefined.verbatim = true
  defaultType : table.isType table.predefined.defaultType = true
  boolType : table.isType table.predefined.boolType = true

/-- The other predefined names may change while a table grows. -/
theorem KnowsPredefined.of_grows (knows : table.KnowsPredefined) (grows : table.Grows after)
    {predefined : PredefinedNames} (verbatim : predefined.verbatim = table.predefined.verbatim)
    (defaultType : predefined.defaultType = table.predefined.defaultType)
    (boolType : predefined.boolType = table.predefined.boolType) :
    { after with predefined }.KnowsPredefined where
  inRange := by
    show after.builtinRange.contains predefined.verbatim = true
    rw [grows.builtinRange, verbatim]
    exact knows.inRange
  defaultType := by
    show after.typeRange.contains predefined.defaultType = true
    rw [grows.typeRange, defaultType]
    exact knows.defaultType
  boolType := by
    show after.typeRange.contains predefined.boolType = true
    rw [grows.typeRange, boolType]
    exact knows.boolType

theorem grows_builtinOrDefine (table : NameTable) (label : String) :
    table.Grows (table.builtinOrDefine label).2 := by
  rw [builtinOrDefine]
  split
  · exact Grows.refl table
  · exact grows_define table label

theorem grows_withBuiltins (table : NameTable) (labels : List String) :
    table.Grows (table.withBuiltins labels) := by
  induction labels generalizing table with
  | nil => exact Grows.refl table
  | cons label rest ih => exact (grows_builtinOrDefine table label).trans (ih _)

theorem IsWhole.predefine (whole : table.IsWhole) {predefined : PredefinedNames}
    (verbatim : predefined.verbatim = table.predefined.verbatim) :
    { table with predefined }.IsWhole :=
  whole.of_same rfl rfl rfl verbatim (fun _ isDescribed => isDescribed) rfl rfl whole.builtinRange

theorem isWhole_addPredefined (regular : dialect.IsRegular) (whole : table.IsWhole)
    (verbatim : table.builtinRange.contains table.predefined.verbatim = true)
    (knows : table.KnowsTypes dialect) :
    table.addPredefined.IsWhole ∧ table.addPredefined.KnowsPredefined := by
  obtain ⟨predefined, same, sameVerbatim, boolType, defaultType⟩ := table.addPredefined_eq
  have grows := grows_withBuiltins table predefinedLabels
  rw [same]
  refine ⟨(whole.withBuiltins predefinedLabels).predefine sameVerbatim, ⟨?_, ?_, ?_⟩⟩
  · show HandleRange.contains _ predefined.verbatim = true
    rw [grows.builtinRange, sameVerbatim, grows.predefined]
    exact verbatim
  · show HandleRange.contains _ predefined.defaultType = true
    rw [grows.typeRange, defaultType, knows.isOf]
    exact knows.areTypes _ regular.defaultType
  · show HandleRange.contains _ predefined.boolType = true
    rw [grows.typeRange, boolType, knows.isOf]
    exact knows.areTypes _ regular.boolType

theorem isWhole_addPlaceholders (whole : table.IsWhole) (knows : table.KnowsPredefined) :
    table.addPlaceholders.IsWhole ∧ table.addPlaceholders.KnowsPredefined := by
  have zero := grows_define table "@ 0"
  have one := zero.trans (grows_define _ "@ 1")
  have thirtyTwo := one.trans (grows_define _ "@ 32")
  have placed := ((whole.define "@ 0").define "@ 1").define "@ 32"
  rw [addPlaceholders]
  dsimp only
  generalize ((table.define "@ 0").2.define "@ 1").2.define "@ 32" = last at *
  have predefined := thirtyTwo.predefined
  constructor
  · exact placed.predefine rfl
  · refine knows.of_grows thirtyTwo ?_ ?_ ?_ <;> dsimp only <;> rw [predefined]

theorem isWhole_ofDialect (regular : dialect.IsRegular) :
    (ofDialect dialect).IsWhole ∧ (ofDialect dialect).KnowsPredefined := by
  have typed := (knowsTypes_addTypes regular).addBuiltins regular
  obtain ⟨functions, inRange⟩ := isWhole_addBuiltins regular
  rw [ofDialect]
  -- Each phase is forgotten once it is known what its table is like.
  generalize ((blank dialect).append "").2.addTypes.addBuiltins = table at *
  obtain ⟨named, predefined⟩ := isWhole_addPredefined regular functions inRange typed
  generalize table.addPredefined = table at *
  have provided : table.addTypeBuiltins.IsWhole :=
    named.of_same rfl rfl rfl rfl (fun _ isDescribed => isDescribed) rfl rfl named.builtinRange
  have known : table.addTypeBuiltins.KnowsPredefined :=
    ⟨predefined.inRange, predefined.defaultType, predefined.boolType⟩
  exact isWhole_addPlaceholders provided known

/-! ### Tables that are ready -/

/-- Whether a table is ready for programs: all that is looked up in it has a label. -/
structure IsReady (dialect : Dialect) (table : NameTable) : Prop extends
    table.IsOrderly, table.KnowsTypes dialect, table.KnowsPredefined where
  ofType : ∀ type, table.isType type = true → table.IsNamed type
  listed : ∀ entry ∈ table.types, table.IsNamed entry.1

namespace IsReady

theorem ofDialect (regular : dialect.IsRegular) :
    (NameTable.ofDialect dialect).IsReady dialect := by
  obtain ⟨whole, placed⟩ := isWhole_ofDialect regular
  refine ⟨whole.toIsOrderly, KnowsTypes.ofDialect regular, placed, ?_, ?_⟩
  · intro type isType
    exact whole.named type (Nat.lt_of_lt_of_le (HandleRange.contains_iff.mp isType).2 whole.typeRange)
  · intro entry listed
    exact whole.named entry.1 (whole.types entry listed)

/-- A table stays ready if it grows in order. -/
theorem of_grows (ready : table.IsReady dialect) (grows : table.Grows after)
    (orderly : after.IsOrderly) (knows : after.KnowsTypes dialect) : after.IsReady dialect where
  toIsOrderly := orderly
  toKnowsTypes := knows
  toKnowsPredefined := ready.toKnowsPredefined.of_grows grows
    (congrArg PredefinedNames.verbatim grows.predefined)
    (congrArg PredefinedNames.defaultType grows.predefined)
    (congrArg PredefinedNames.boolType grows.predefined)
  ofType type isType := by
    rw [NameTable.isType, grows.typeRange] at isType
    exact grows.isNamed ready.back (ready.ofType type isType)
  listed entry isListed := by
    rw [grows.types] at isListed
    exact grows.isNamed ready.back (ready.listed entry isListed)

theorem define (regular : dialect.IsRegular) (ready : table.IsReady dialect) (label : String) :
    (table.define label).2.IsReady dialect :=
  ready.of_grows (grows_define table label) (ready.toIsOrderly.define label).1
    (ready.toKnowsTypes.define regular label)

theorem derive (ready : table.IsReady dialect) (derived : table.derive base = .ok (name, after)) :
    after.IsReady dialect :=
  ready.of_grows (grows_derive derived) (ready.toIsOrderly.derive derived)
    (ready.toKnowsTypes.derive derived)

/-- The number of ghosts does not matter. -/
theorem count (ready : table.IsReady dialect) (ghostCount : Nat) :
    { table with ghostCount }.IsReady dialect := by
  have counted : table.Grows { table with ghostCount } :=
    ⟨rfl, rfl, rfl, rfl, rfl, Nat.le_refl _, fun _ _ => rfl, fun _ _ => rfl⟩
  refine ready.of_grows counted ?_ (ready.toKnowsTypes.of_same rfl rfl rfl rfl)
  exact ready.toIsOrderly.of_grows counted ready.back ready.owners fun entry listed =>
    ready.toIsOrderly.verbatims_of_grows counted listed

theorem defineGhost (regular : dialect.IsRegular) (ready : table.IsReady dialect) :
    table.defineGhost.2.IsReady dialect :=
  (ready.count (table.ghostCount + 1)).define regular (ghostLabel table.ghostCount)

end IsReady

end YulCheck.NameTable
