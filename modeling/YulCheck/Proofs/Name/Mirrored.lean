import YulCheck.Dialect.Tabulated
import YulCheck.Proofs.Name.Listed
import YulCheck.Proofs.Name.Provided

/-! # Tables that mirror their dialect

The table of a dialect with plain labels says what the dialect says: which names are types, which ones are
functions, with which types, and what there is for every type.
-/

/-- What is listed for a key is its value. -/
theorem List.lookup_filterMap {α β : Type} [BEq α] [LawfulBEq α] {key : α} (value? : α → Option β)
    {keys : List α} (member : key ∈ keys) :
    (keys.filterMap fun key => (value? key).map fun value => (key, value)).lookup key =
      value? key := by
  cases found : (keys.filterMap fun key => (value? key).map fun value => (key, value)).lookup key with
  | none =>
    symm
    rw [Option.eq_none_iff_forall_ne_some]
    intro value known
    have isEntry : (value? key).map (fun value => (key, value)) = some (key, value) := by
      rw [known]
      rfl
    have differs := List.lookup_eq_none_iff.mp found _ (List.mem_filterMap.mpr ⟨key, member, isEntry⟩)
    rw [bne_self_eq_false] at differs
    cases differs
  | some value =>
    obtain ⟨other, _, isEntry⟩ := List.mem_filterMap.mp (List.mem_of_lookup_eq_some found)
    obtain ⟨_, known, same⟩ := Option.map_eq_some_iff.mp isEntry
    cases same
    exact known.symm

namespace YulCheck

/-- The function of a label among those that every program can refer to. -/
def Dialect.listed? (dialect : Dialect) (label : String) : Option Builtin :=
  if label ∈ dialect.builtinNames ∧ label ≠ "" then dialect.builtin? label else none

theorem Dialect.listed?_eq_some_iff {dialect : Dialect} {label : String} {function : Builtin} :
    dialect.listed? label = some function ↔
      label ∈ dialect.builtinNames.filter (!·.isEmpty) ∧ dialect.builtin? label = some function := by
  have isMember : label ∈ dialect.builtinNames.filter (!·.isEmpty) ↔
      label ∈ dialect.builtinNames ∧ label ≠ "" := by
    rw [List.mem_filter, Bool.not_eq_true', Bool.eq_false_iff, Ne, String.isEmpty_iff]
  rw [isMember, listed?, Option.ite_none_right_eq_some]

namespace NameTable

variable {dialect : Dialect} {table after : NameTable} {name : Handle} {label : String}
  {function : Builtin}

/-! ### Tables with all functions -/

/-- Whether a table holds the types and functions of a dialect. -/
structure HoldsBuiltins (dialect : Dialect) (table : NameTable) : Prop
    extends table.MirrorsTypes dialect,
      table.ListsBuiltins dialect table.builtinRange (dialect.builtinNames.filter (!·.isEmpty)) where
  isOf : table.dialect = dialect
  noAlias : table.HasNoAlias

theorem HoldsTypes.addBuiltins (holds : table.HoldsTypes dialect) (plain : dialect.IsPlain) :
    table.addBuiltins.HoldsBuiltins dialect := by
  let ranged : NameTable := { table with builtinRange := ⟨table.size, table.size⟩ }
  have based : ranged.define Dialect.verbatimBase = ranged.append Dialect.verbatimBase := by
    refine define_of_new rfl (fun function known => ?_) (by decide) fun entry owned => ?_
    · rw [plain.isVerbatim_eq (holds.isOf ▸ known)]
      decide
    · rcases List.mem_cons.mp (holds.owned entry owned) with isEmpty | isType
      · rw [isEmpty]
        decide
      · exact plain.ne_verbatimBase (List.mem_append_left _ isType)
  have areMembers : ∀ label ∈ dialect.builtinNames.filter (!·.isEmpty), label ∈ dialect.builtinNames :=
    fun label member => (List.mem_filter.mp member).1
  have named : "" ∉ dialect.builtinNames.filter (!·.isEmpty) := fun member =>
    absurd (List.mem_filter.mp member).2 (by decide)
  have adds := (AddsBuiltins.withVerbatim holds).foldl_addBuiltin plain areMembers named
    (fun _ _ => List.not_mem_nil) (plain.builtinNames.filter _)
  have functions : table.withFunctions =
      (dialect.builtinNames.filter (!·.isEmpty)).foldl NameTable.addBuiltin table.withVerbatim := by
    rw [withFunctions, holds.isOf]
  rw [← functions] at adds
  rw [addBuiltins_of_new based]
  have closes : table.withFunctions.Extends
      { table.withFunctions with builtinRange := ⟨table.size, table.withFunctions.size⟩ } :=
    ⟨rfl, rfl, rfl, Nat.le_refl _, fun _ _ => rfl, id⟩
  have extended := adds.extended.trans closes
  have noAlias : table.HasNoAlias := fun index base isAlias => absurd isAlias (holds.labelled index base)
  exact {
    toMirrorsTypes := holds.toMirrorsTypes.of_extends extended
    toListsBuiltins := (adds.of_extends closes rfl).of_mem_iff fun label => by
      rw [List.append_nil, List.mem_reverse]
    isOf := adds.isOf
    noAlias := extended.noAlias noAlias }

namespace HoldsBuiltins

theorem of_addsLabels (holds : table.HoldsBuiltins dialect) (adds : table.AddsLabels after) :
    after.HoldsBuiltins dialect where
  toMirrorsTypes := holds.toMirrorsTypes.of_extends adds.toExtends
  toListsBuiltins := adds.builtinRange ▸ holds.toListsBuiltins.of_extends adds.toExtends adds.builtins
  isOf := adds.dialect.trans holds.isOf
  noAlias := adds.noAlias holds.noAlias

variable (holds : table.HoldsBuiltins dialect)

include holds

/-- The name that is found for a label has it. -/
theorem isAt_builtinNamed (isNamed : table.builtinNamed label ≠ .empty) :
    table.IsAt table.builtinRange label (table.builtinNamed label) := by
  obtain ⟨inRange, labelled⟩ := builtinNamed_spec isNamed
  rw [rootLabel?_eq_some_iff, holds.noAlias.root_eq] at labelled
  exact ⟨inRange, labelled⟩

/-- A label in the range of functions is found where it is. -/
theorem builtinNamed_eq (isAt : table.IsAt table.builtinRange label name) :
    table.builtinNamed label = name := by
  have isNamed := builtinNamed_ne_empty holds.positive isAt.inRange isAt.labelled
  exact holds.distinct label _ _ (holds.isAt_builtinNamed isNamed) isAt

/-- A function that is listed has a name. -/
theorem isAt_of_listed (listed : dialect.listed? label = some function) :
    table.IsAt table.builtinRange label (table.builtinNamed label) := by
  obtain ⟨member, known⟩ := Dialect.listed?_eq_some_iff.mp listed
  obtain ⟨name, isAt⟩ := holds.found label member function known
  rw [holds.builtinNamed_eq isAt]
  exact isAt

theorem lookup_builtins_iff (name : Handle) (signature : BuiltinSignature) :
    table.builtins.lookup name = some signature ↔
      ∃ label function, dialect.listed? label = some function ∧ name = table.builtinNamed label ∧
        signature = table.signature name function := by
  rw [holds.described]
  constructor
  · rintro ⟨label, member, function, known, isAt, same⟩
    exact ⟨label, function, Dialect.listed?_eq_some_iff.mpr ⟨member, known⟩,
      (holds.builtinNamed_eq isAt).symm, same⟩
  · rintro ⟨label, function, listed, rfl, same⟩
    obtain ⟨member, known⟩ := Dialect.listed?_eq_some_iff.mp listed
    exact ⟨label, member, function, known, holds.isAt_of_listed listed, same⟩

/-- What is found for a label is its function, if it is listed. -/
theorem lookup_builtinNamed (label : String) :
    table.builtins.lookup (table.builtinNamed label) =
      (dialect.listed? label).map (table.signature (table.builtinNamed label)) := by
  refine Option.ext fun signature => ?_
  rw [holds.lookup_builtins_iff, Option.map_eq_some_iff]
  constructor
  · rintro ⟨other, function, listed, sameName, same⟩
    have otherAt := holds.isAt_of_listed listed
    rw [← sameName] at otherAt
    have isNamed : table.builtinNamed label ≠ .empty := by
      intro isEmpty
      have isPositive := Nat.lt_of_lt_of_le holds.positive (HandleRange.contains_iff.mp otherAt.inRange).1
      rw [isEmpty] at isPositive
      exact absurd isPositive (Nat.lt_irrefl 0)
    have sameEntry := (holds.isAt_builtinNamed isNamed).labelled.symm.trans otherAt.labelled
    cases sameEntry
    exact ⟨function, listed, same.symm⟩
  · rintro ⟨function, listed, same⟩
    exact ⟨label, function, listed, rfl, same.symm⟩

/-- What a name of the table refers to. -/
theorem builtin?_eq (inTable : name.index < table.size) :
    table.builtin? name = .ok (table.builtins.lookup name) := by
  rw [builtin?_of_lt inTable, holds.noAlias.root_eq]
  split
  · rfl
  · rename_i outside
    cases described : table.builtins.lookup name with
    | none => rfl
    | some signature =>
      obtain ⟨label, _, _, _, isAt, _⟩ := (holds.described name signature).mp described
      exact absurd isAt.inRange outside

theorem size_pos : 0 < table.size := by
  obtain ⟨label, member⟩ := List.exists_mem_of_ne_nil _ dialect.typeLabels_ne_nil
  exact Nat.zero_lt_of_lt (Array.getElem?_eq_some_iff.mp (holds.named label member)).1

end HoldsBuiltins

/-! ### What is provided for types -/

/-- Whether the library refers to the types of a dialect. -/
structure RefersToTypes (dialect : Dialect) (table : NameTable) : Prop where
  defaultType : table.predefined.defaultType = table.typeNamed dialect.defaultType
  boolType : table.predefined.boolType = table.typeNamed dialect.boolType

theorem refersToTypes_addPredefined (isOf : table.dialect = dialect)
    (named : table.AddsLabels table.addPredefined) : table.addPredefined.RefersToTypes dialect := by
  obtain ⟨predefined, same, _, boolType, defaultType⟩ := table.addPredefined_eq
  constructor
  · rw [named.typeNamed_eq, same, ← isOf]
    exact defaultType
  · rw [named.typeNamed_eq, same, ← isOf]
    exact boolType

/-- The types that the library refers to stay the same when other names are noted. -/
theorem RefersToTypes.addPlaceholders (refers : table.RefersToTypes dialect)
    (placed : table.AddsLabels table.addPlaceholders) :
    table.addPlaceholders.RefersToTypes dialect := by
  have grows := ((grows_define table "@ 0").trans (grows_define _ "@ 1")).trans (grows_define _ "@ 32")
  have same : table.addPlaceholders.predefined.defaultType = table.predefined.defaultType ∧
      table.addPlaceholders.predefined.boolType = table.predefined.boolType := by
    rw [NameTable.addPlaceholders]
    dsimp only
    rw [grows.predefined]
    exact ⟨rfl, rfl⟩
  constructor
  · rw [same.1, placed.typeNamed_eq]
    exact refers.defaultType
  · rw [same.2, placed.typeNamed_eq]
    exact refers.boolType

/-- Whether a table lists what a dialect provides for its types. -/
structure Provides (dialect : Dialect) (table : NameTable) : Prop where
  typeBuiltins : table.typeBuiltins = dialect.typeLabels.map table.builtinsForType
  negation? : table.negation? = dialect.negation?.map fun function => table.builtinNamed function.name

theorem addsLabels_addTypeBuiltins (table : NameTable) : table.AddsLabels table.addTypeBuiltins :=
  ⟨⟨rfl, rfl, rfl, Nat.le_refl _, fun _ _ => rfl, id⟩, rfl, rfl⟩

theorem HoldsBuiltins.provides (holds : table.HoldsBuiltins dialect) :
    table.addTypeBuiltins.Provides dialect where
  typeBuiltins := by
    rw [← holds.listed]
    rfl
  negation? := by
    rw [← holds.isOf]
    rfl

theorem Provides.of_addsLabels (provides : table.Provides dialect) (same : table.SameProvided after)
    (holds : table.HoldsBuiltins dialect) (adds : table.AddsLabels after) :
    after.Provides dialect := by
  have sameNames : after.builtinNamed = table.builtinNamed :=
    funext fun label => adds.builtinNamed_eq holds.noAlias holds.within label
  constructor
  · rw [same.typeBuiltins, provides.typeBuiltins]
    refine List.map_congr_left fun label _ => ?_
    rw [builtinsForType, builtinsForType, sameNames, adds.dialect]
  · rw [same.negation?, provides.negation?, sameNames]

/-- The table of a dialect holds its functions, and what it provides for its types. -/
theorem holdsBuiltins_ofDialect (plain : dialect.IsPlain) :
    (ofDialect dialect).HoldsBuiltins dialect ∧ (ofDialect dialect).RefersToTypes dialect ∧
      (ofDialect dialect).Provides dialect := by
  have areOther : ∀ label, Verbatim.startsWith Verbatim.stem label = false →
      ∀ function, dialect.builtin? label = some function → function.isVerbatim = false :=
    fun label outside function known => (plain.isVerbatim_eq known).trans outside
  have holds := (holdsTypes_addTypes plain).addBuiltins plain
  rw [ofDialect]
  generalize ((blank dialect).append "").2.addTypes.addBuiltins = table at holds
  have named : table.AddsLabels table.addPredefined := .addPredefined (holds.isOf.symm ▸ areOther)
  have refers := refersToTypes_addPredefined holds.isOf named
  replace holds := holds.of_addsLabels named
  generalize table.addPredefined = table at holds refers
  have provides := holds.provides
  replace refers : table.addTypeBuiltins.RefersToTypes dialect :=
    ⟨refers.defaultType, refers.boolType⟩
  replace holds := holds.of_addsLabels (addsLabels_addTypeBuiltins table)
  generalize table.addTypeBuiltins = table at holds refers provides
  have placed : table.AddsLabels table.addPlaceholders :=
    .addPlaceholders (holds.isOf.symm ▸ areOther)
  exact ⟨holds.of_addsLabels placed, refers.addPlaceholders placed,
    provides.of_addsLabels (sameProvided_addPlaceholders table) holds placed⟩

/-- The function of a label, with its types given by their names, if it is listed. -/
def described? (dialect : Dialect) (table : NameTable) (label : String) : Option BuiltinSignature :=
  (dialect.listed? label).map fun function => {
    name := table.builtinNamed label
    parameters := function.parameters.map table.typeNamed
    returns := function.returns.map table.typeNamed
    function := function }

namespace HoldsBuiltins

variable (holds : table.HoldsBuiltins dialect) (provides : table.Provides dialect)
  (operation : TypeOperation) {type : String} (isType : type ∈ dialect.typeLabels)

include holds

/-- The name of a label refers to the function of this label. -/
theorem builtin?_builtinNamed (label : String) :
    table.builtin? (table.builtinNamed label) = .ok (table.described? dialect label) := by
  have inTable : (table.builtinNamed label).index < table.size := by
    by_cases isNamed : table.builtinNamed label = .empty
    · rw [isNamed]
      exact holds.size_pos
    · exact (Array.getElem?_eq_some_iff.mp (holds.isAt_builtinNamed isNamed).labelled).1
  rw [holds.builtin?_eq inTable, holds.lookup_builtinNamed]
  rfl

theorem builtin?_iff (name : Handle) (signature : BuiltinSignature) :
    table.builtin? name = .ok (some signature) ↔
      ∃ label, table.described? dialect label = some signature ∧ name = table.builtinNamed label := by
  constructor
  · intro answered
    obtain ⟨label, function, listed, rfl, same⟩ :=
      (holds.lookup_builtins_iff name signature).mp (lookup_of_builtin? answered)
    refine ⟨label, ?_, rfl⟩
    rw [described?, listed, same]
    rfl
  · rintro ⟨label, described, rfl⟩
    rw [holds.builtin?_builtinNamed, described]

include provides

theorem negation_eq : table.negation =
    .ok (dialect.negation?.bind fun function => table.described? dialect function.name) := by
  rw [negation, provides.negation?]
  cases dialect.negation? with
  | none => rfl
  | some function => exact holds.builtin?_builtinNamed function.name

include isType

/-- What is provided for a type is found by its name. -/
theorem builtinsOf_typeNamed :
    table.builtinsOf (table.typeNamed type) = .ok (some (table.builtinsForType type)) := by
  obtain ⟨position, isAt⟩ := List.mem_iff_getElem?.mp isType
  have inTable := (Array.getElem?_eq_some_iff.mp (holds.named type isType)).1
  have found := holds.positions position type isAt
  have provided : table.typeBuiltins[position]? = some (table.builtinsForType type) := by
    rw [provides.typeBuiltins, List.getElem?_map, isAt]
    rfl
  rw [builtinsOf, require_of_lt inTable]
  show (if table.types.isEmpty then _ else _ : Except Fault (Option TypeBuiltins)) = _
  split at found
  · rename_i isUntyped
    cases found
    rw [if_pos isUntyped]
    exact congrArg Except.ok provided
  · rename_i isTyped
    rw [if_neg isTyped, found]
    exact congrArg Except.ok provided

theorem operationOn?_typeNamed : table.operationOn? operation (table.typeNamed type) =
    .ok ((dialect.operation? operation type).bind fun function =>
      table.described? dialect function.name) := by
  have isOne : operation ∈ TypeOperation.all := by cases operation <;> decide
  have listed : (table.builtinsForType type).operations.lookup operation =
      (dialect.operation? operation type).map fun function => table.builtinNamed function.name := by
    rw [← holds.isOf, ← List.lookup_filterMap (fun operation =>
      (table.dialect.operation? operation type).map fun function =>
        table.builtinNamed function.name) isOne, builtinsForType]
    simp only [Option.map_map]
    rfl
  rw [operationOn?, holds.builtinsOf_typeNamed provides isType]
  simp only [bind, Except.bind, Option.bind_some, listed]
  cases dialect.operation? operation type with
  | none => rfl
  | some function => exact holds.builtin?_builtinNamed function.name

theorem hashOf_typeNamed :
    table.hashOf (table.typeNamed type) = .ok (table.builtinNamed (dialect.hashName type)) := by
  rw [hashOf, holds.builtinsOf_typeNamed provides isType, ← holds.isOf]
  rfl

end HoldsBuiltins

/-- Whether a table says what its dialect says. -/
structure Mirrors (dialect : Dialect) (table : NameTable) : Prop
    extends table.RefersToTypes dialect where
  /-- The types are the names of their labels. -/
  isType_iff : ∀ name, table.isType name = true ↔
    ∃ label ∈ dialect.typeLabels, name = table.typeNamed label
  typeLabel : ∀ label ∈ dialect.typeLabels, table.label (table.typeNamed label) = .ok label
  /-- In dialects without labels for types the empty name is the only one. -/
  untyped : dialect.typeLabels = [""] → table.typeNamed "" = .empty
  /-- The functions are the names of the labels that are listed. -/
  answers : ∀ name : Handle, name.index < table.size → ∃ builtin?, table.builtin? name = .ok builtin?
  builtin?_iff : ∀ name signature, table.builtin? name = .ok (some signature) ↔
    ∃ label, table.described? dialect label = some signature ∧ name = table.builtinNamed label
  builtinLabel : ∀ label signature, table.described? dialect label = some signature →
    table.label (table.builtinNamed label) = .ok label
  /-- Each type has the functions that the dialect has for it, as far as they are listed. -/
  operationOn? : ∀ operation, ∀ type ∈ dialect.typeLabels,
    table.operationOn? operation (table.typeNamed type) =
      .ok ((dialect.operation? operation type).bind fun function =>
        table.described? dialect function.name)
  hashOf : ∀ type ∈ dialect.typeLabels,
    table.hashOf (table.typeNamed type) = .ok (table.builtinNamed (dialect.hashName type))
  negation : table.negation =
    .ok (dialect.negation?.bind fun function => table.described? dialect function.name)

/-- The table of a dialect says what the dialect says. -/
theorem mirrors_ofDialect (plain : dialect.IsPlain) : (ofDialect dialect).Mirrors dialect := by
  obtain ⟨holds, refers, provides⟩ := holdsBuiltins_ofDialect plain
  refine {
    toRefersToTypes := refers
    isType_iff := holds.isType_iff
    typeLabel := fun label isType => label_of_entry (holds.named label isType)
    untyped := holds.unnamed
    answers := fun name inTable => ⟨_, holds.builtin?_eq inTable⟩
    builtin?_iff := holds.builtin?_iff
    builtinLabel := fun label signature described => ?_
    operationOn? := fun operation type isType => holds.operationOn?_typeNamed provides operation isType
    hashOf := fun type isType => holds.hashOf_typeNamed provides isType
    negation := holds.negation_eq provides }
  obtain ⟨function, listed, _⟩ := Option.map_eq_some_iff.mp described
  exact label_of_entry (holds.isAt_of_listed listed).labelled

/-- A dialect with two types, in which programs can refer to two functions out of three. -/
def twoTypes : DialectTables where
  types := ["bool", "word"]
  defaultType := "word"
  boolType := "bool"
  functions :=
    [{ name := "drop", parameters := ["word"], returns := [] },
      { name := "hidden", parameters := ["bool"], returns := [] },
      { name := "not", parameters := ["bool"], returns := ["bool"] }]
  names? := some ["", "drop", "not", "verbatim"]
  negation? := some "not"
  operations operation := if operation = .discard then [("bool", "hidden"), ("word", "drop")] else []
  hashes := []
  version? := none

theorem isPlain_twoTypes : twoTypes.toDialect.IsPlain where
  types := by decide
  builtinNames := by decide +kernel
  named label function known := of_decide_eq_true (List.find?_some known :)
  unmarked := by decide +kernel
  verbatim := by decide +kernel
  defaultType := by decide
  boolType := by decide

/-- Values of the type `word` can be discarded, and those of the type `bool` only by a function that no
program can refer to. -/
theorem mirrors_twoTypes :
    let table := ofDialect twoTypes.toDialect
    table.Mirrors twoTypes.toDialect ∧ table.operationOn? .discard ⟨1⟩ = .ok none ∧
      table.operationOn? .discard ⟨2⟩ =
        .ok (some ⟨⟨4⟩, [⟨2⟩], [], { name := "drop", parameters := ["word"], returns := [] }⟩) := by
  intro table
  have mirrors : table.Mirrors twoTypes.toDialect := mirrors_ofDialect isPlain_twoTypes
  have bool : table.typeNamed "bool" = ⟨1⟩ := by decide +kernel
  have word : table.typeNamed "word" = ⟨2⟩ := by decide +kernel
  have drop : table.builtinNamed "drop" = ⟨4⟩ := by decide +kernel
  refine ⟨mirrors, ?_, ?_⟩
  · rw [← bool, mirrors.operationOn? .discard "bool" (by decide)]
    decide +kernel
  · rw [← word, ← drop, mirrors.operationOn? .discard "word" (by decide)]
    decide +kernel

end NameTable

end YulCheck
