import YulCheck.Proofs.Name.Consistent

/-! # Tables that are faithful to their dialect

The table of a dialect lists all functions by their names, and is consistent. It stays so whatever
programs add to it, and whatever labels are generated in it.
-/

namespace YulCheck.NameTable

variable {dialect : Dialect} {unified : Handle → Prop} {table after : NameTable}
  {name base : Handle} {label : String} {function : Builtin}

/-! ### Functions by their names -/

/-- Whether a name has a label of its own and is a function in a table. -/
structure IsListed (table : NameTable) (name : Handle) (label : String) : Prop where
  labelled : table.entries[name.index]? = some (.labelled label)
  described : (table.builtins.lookup name).isSome = true

theorem IsListed.of_grows (listed : table.IsListed name label) (grows : table.Grows after) :
    after.IsListed name label := by
  have inTable := (Array.getElem?_eq_some_iff.mp listed.labelled).1
  exact ⟨(grows.entries _ inTable).trans listed.labelled,
    (grows.builtins name inTable) ▸ listed.described⟩

theorem IsListed.describe (listed : table.IsListed name label) (other : Handle)
    (function : Builtin) : (table.describe other function).IsListed name label where
  labelled := listed.labelled
  described := by
    rw [NameTable.describe, List.lookup_cons]
    split
    · rfl
    · exact listed.described

/-- Whether a consistent table lists all functions of a dialect. -/
structure KnowsFunctions (dialect : Dialect) (unified : Handle → Prop) (table : NameTable) : Prop
    extends table.IsConsistent dialect unified where
  finds : ∀ label function, dialect.builtin? label = some function → function.isVerbatim = false →
    ∃ name, table.builtinRange.contains name = true ∧ table.IsListed name label
  /-- The empty name is not in the range of the functions. -/
  positive : 0 < table.builtinRange.first

/-- A label of a name among those of the dialect is found. -/
theorem builtinNamed_ne_empty (positive : 0 < table.builtinRange.first)
    (inRange : table.builtinRange.contains name = true)
    (labelled : table.entries[name.index]? = some (.labelled label)) :
    table.builtinNamed label ≠ .empty := by
  have bounds := HandleRange.contains_iff.mp inRange
  rw [builtinNamed]
  cases found : (List.range (table.builtinRange.stop - table.builtinRange.first)).find? fun offset =>
      table.rootLabel? ⟨table.builtinRange.first + offset⟩ = some label with
  | none =>
    have isOne := List.find?_eq_none.mp found (name.index - table.builtinRange.first)
      (List.mem_range.mpr (by omega))
    have isName : (⟨table.builtinRange.first + (name.index - table.builtinRange.first)⟩ : Handle) =
        name := congrArg Handle.mk (by omega)
    rw [isName, decide_eq_true_iff, rootLabel?_eq_some_iff, root_of_labelled labelled] at isOne
    exact absurd labelled isOne
  | some offset =>
    intro isEmpty
    have zero : table.builtinRange.first + offset = 0 := congrArg Handle.index isEmpty
    omega

namespace KnowsFunctions

/-- What is listed stays listed when a table grows. -/
theorem of_grows (knows : table.KnowsFunctions dialect unified) (grows : table.Grows after)
    (consistent : after.IsConsistent dialect unified) : after.KnowsFunctions dialect unified where
  toIsConsistent := consistent
  finds label function known isOther := by
    obtain ⟨name, inRange, listed⟩ := knows.finds label function known isOther
    exact ⟨name, grows.builtinRange ▸ inRange, listed.of_grows grows⟩
  positive := grows.builtinRange ▸ knows.positive

theorem of_same (knows : table.KnowsFunctions dialect unified)
    (entries : after.entries = table.entries) (owners : after.owners = table.owners)
    (builtins : after.builtins = table.builtins) (verbatims : after.verbatims = table.verbatims)
    (verbatim : after.predefined.verbatim = table.predefined.verbatim)
    (builtinRange : after.builtinRange = table.builtinRange) :
    after.KnowsFunctions dialect unified where
  toIsConsistent := knows.toIsConsistent.of_same entries owners builtins verbatims verbatim
  finds label function known isOther := by
    obtain ⟨name, inRange, labelled, described⟩ := knows.finds label function known isOther
    exact ⟨name, builtinRange ▸ inRange, entries ▸ labelled, builtins ▸ described⟩
  positive := builtinRange ▸ knows.positive

theorem define (knows : table.KnowsFunctions dialect unified) (catalogued : dialect.IsCatalogued)
    (orderly : table.IsOrderly) (isOf : table.dialect = dialect) (label : String) :
    (table.define label).2.KnowsFunctions dialect unified := by
  refine knows.of_grows (grows_define table label)
    (knows.toIsConsistent.define catalogued orderly isOf fun function known isOther isNew => ?_)
  obtain ⟨name, inRange, listed⟩ := knows.finds label function known isOther
  exact absurd isNew (builtinNamed_ne_empty knows.positive inRange listed.labelled)

end KnowsFunctions

/-! ### The types of a dialect -/

theorem isOrderly_blank (dialect : Dialect) : ((blank dialect).append "").2.IsOrderly where
  first := rfl
  back index base isAlias := absurd isAlias ((isPlain_blank dialect).labelled index base)
  owners := (isPlain_blank dialect).owners
  verbatim := ⟨"", rfl⟩
  verbatims := nofun
  builtins _ inRange := absurd (HandleRange.contains_iff.mp inRange).2 (Nat.not_lt_zero _)

theorem isConsistent_blank (dialect : Dialect) (isFree : dialect.builtin? "" = none) :
    ((blank dialect).append "").2.IsConsistent dialect fun _ => False := by
  have entries : ((blank dialect).append "").2.entries = #[.labelled ""] := rfl
  have only {name : Handle} {label : String}
      (labelled : ((blank dialect).append "").2.entries[name.index]? = some (.labelled label)) :
      name = .empty ∧ label = "" := by
    rw [entries, List.getElem?_toArray, List.getElem?_singleton] at labelled
    split at labelled
    · rename_i isFirst
      cases labelled
      exact ⟨congrArg Handle.mk isFirst, rfl⟩
    · cases labelled
  refine ⟨fun name label labelled function known => ?_, ?_, fun name label labelled => ?_⟩
  · obtain ⟨_, rfl⟩ := only labelled
    rw [isFree] at known
    cases known
  · rw [(isPlain_blank dialect).builtins]
    exact List.forall_mem_nil _
  · obtain ⟨rfl, rfl⟩ := only labelled
    rw [show ((blank dialect).append "").2.owners = [("", .empty)] from rfl, List.lookup_cons,
      beq_self_eq_true]
    exact .inl rfl

/-- Types may change. -/
theorem IsOrderly.retype (orderly : table.IsOrderly) (types : List (TypeHandle × String))
    (typeRange : HandleRange) : { table with types, typeRange }.IsOrderly where
  first := orderly.first
  back := orderly.back
  owners := orderly.owners
  verbatim := orderly.verbatim
  verbatims entry listed := (orderly.verbatims entry listed).imp id
    fun described => ⟨described.isAlias, described.root, described.function⟩
  builtins name inRange := (orderly.builtins name inRange).imp id
    fun described => ⟨described.isAlias, described.root, described.function⟩

/-- A type without a function of its name may be added. -/
theorem isConsistent_addType (catalogued : dialect.IsCatalogued) (isOf : table.dialect = dialect)
    (isFree : dialect.builtin? label = none) (orderly : table.IsOrderly)
    (consistent : table.IsConsistent dialect unified) :
    (table.addType label).dialect = dialect ∧ (table.addType label).IsOrderly ∧
      (table.addType label).IsConsistent dialect unified := by
  rw [addType]
  split
  · exact ⟨isOf, orderly.retype _ _, consistent.of_same rfl rfl rfl rfl rfl⟩
  · have defined : (table.define label).2.IsConsistent dialect unified :=
      consistent.define catalogued orderly isOf fun function known =>
        absurd (known.symm.trans isFree) (Option.some_ne_none _)
    exact ⟨(grows_define table label).dialect.trans isOf, (orderly.define label).1.retype _ _,
      defined.of_same rfl rfl rfl rfl rfl⟩

theorem isConsistent_addTypes (catalogued : dialect.IsCatalogued) (regular : dialect.IsRegular) :
    ((blank dialect).append "").2.addTypes.IsConsistent dialect fun _ => False := by
  have foldl (labels : List String) {table : NameTable} (areTypes : labels ⊆ dialect.types)
      (isOf : table.dialect = dialect) (orderly : table.IsOrderly)
      (consistent : table.IsConsistent dialect fun _ => False) :
      (labels.foldl addType table).IsConsistent dialect fun _ => False := by
    induction labels generalizing table with
    | nil => exact consistent
    | cons label rest ih =>
      rw [List.cons_subset] at areTypes
      have free := regular.free label (List.mem_cons_of_mem _ areTypes.1)
      obtain ⟨isOfLater, orderlyLater, consistentLater⟩ :=
        isConsistent_addType catalogued isOf free orderly consistent
      exact ih areTypes.2 isOfLater orderlyLater consistentLater
  have added := foldl dialect.types (List.Subset.refl _) rfl (isOrderly_blank dialect)
    (isConsistent_blank dialect catalogued.unnamed)
  exact added.of_same rfl rfl rfl rfl rfl

/-! ### The functions of a dialect -/

/-- Whether the functions with the labels `done` are in a table behind its first names, and no
others; `start` is the number of these. -/
structure ListsFunctions (dialect : Dialect) (start : Nat) (done : List String)
    (table : NameTable) : Prop
    extends table.IsWhole, table.IsConsistent dialect fun _ => False where
  isOf : table.dialect = dialect
  /-- As long as functions are added, none of them is found. -/
  range : table.builtinRange = ⟨start, start⟩
  behind : start ≤ table.size
  listed : ∀ label ∈ done, ∀ function, dialect.builtin? label = some function →
    ∃ name : Handle, start ≤ name.index ∧ table.IsListed name label
  claimed : ∀ entry ∈ table.owners, (dialect.builtin? entry.1).isSome = true → entry.1 ∈ done

theorem builtinNamed_of_isEmpty {start : Nat} (range : table.builtinRange = ⟨start, start⟩)
    (label : String) : table.builtinNamed label = .empty := by
  rw [builtinNamed, range, Nat.sub_self]
  rfl

theorem define_of_function (known : table.dialect.builtin? label = some function)
    (isOther : function.isVerbatim = false) (isNew : table.builtinNamed label = .empty) :
    table.define label = table.append label := by
  rw [Builtin.isVerbatim] at isOther
  rw [define, known]
  dsimp only
  rw [isOther, if_neg Bool.false_ne_true, if_pos (Handle.isEmpty_iff.mpr isNew)]

theorem addBuiltin_of_free (isFree : table.dialect.builtin? label = none) :
    table.addBuiltin label = (table.define label).2 := by
  rw [addBuiltin]
  dsimp only
  rw [(grows_define table label).dialect, isFree]

theorem addBuiltin_of_function (known : table.dialect.builtin? label = some function) :
    table.addBuiltin label = (table.define label).2.describe (table.define label).1 function := by
  rw [addBuiltin]
  dsimp only
  rw [(grows_define table label).dialect, known]

namespace ListsFunctions

variable {start : Nat} {done : List String}

/-- The table with a label that no function has, if it is defined. -/
theorem defineFree (lists : table.ListsFunctions dialect start done) (catalogued : dialect.IsCatalogued)
    (isFree : dialect.builtin? label = none) :
    (table.define label).2.ListsFunctions dialect start (label :: done) := by
  have grows := grows_define table label
  have claimed : ∀ entry ∈ (table.define label).2.owners,
      (dialect.builtin? entry.1).isSome = true → entry.1 ∈ label :: done := by
    have isFree : table.dialect.builtin? label = none := lists.isOf ▸ isFree
    have added := adds_define table label
    generalize (table.define label).2 = after at added
    intro entry owned isFunction
    cases added with
    | same => exact List.mem_cons_of_mem _ (lists.claimed entry owned isFunction)
    | label =>
      rcases mem_owners_append owned with owned | rfl
      · exact List.mem_cons_of_mem _ (lists.claimed entry owned isFunction)
      · exact List.mem_cons_self
    | verbatim known =>
      rw [isFree] at known
      cases known
  refine {
    toIsWhole := lists.toIsWhole.define label
    toIsConsistent := lists.toIsConsistent.define catalogued lists.toIsOrderly lists.isOf
      fun function known => absurd (known.symm.trans isFree) (Option.some_ne_none _)
    isOf := grows.dialect.trans lists.isOf
    range := grows.builtinRange.trans lists.range
    behind := Nat.le_trans lists.behind grows.size
    listed := fun other isDone function known => ?_
    claimed := claimed }
  rcases List.mem_cons.mp isDone with rfl | isDone
  · rw [isFree] at known
    cases known
  · obtain ⟨name, isBehind, listed⟩ := lists.listed other isDone function known
    exact ⟨name, isBehind, listed.of_grows grows⟩

/-- The table with one more function. -/
theorem describe (lists : table.ListsFunctions dialect start done) (catalogued : dialect.IsCatalogued)
    (known : dialect.builtin? label = some function) (isOther : function.isVerbatim = false)
    (isNew : label ∉ done) :
    ((table.append label).2.describe ⟨table.size⟩ function).ListsFunctions dialect start
      (label :: done) := by
  have grows := grows_append table label
  have defined : table.define label = table.append label :=
    define_of_function (lists.isOf ▸ known) isOther (builtinNamed_of_isEmpty lists.range label)
  have noOwner : table.owners.lookup label = none := by
    cases owned : table.owners.lookup label with
    | none => rfl
    | some owner =>
      refine absurd (lists.claimed _ (List.mem_of_lookup_eq_some owned) ?_) isNew
      rw [known]
      rfl
  have appended := lists.toIsConsistent.append lists.back (fun other same => by
    obtain rfl := Option.some.inj (known.symm.trans same)
    exact isOther) noOwner
  have named := catalogued.named label function known
  have labelled := table.getElem?_append_size label
  refine {
    toIsWhole := (defined ▸ lists.toIsWhole.define label :
      (table.append label).2.IsWhole).describe _ _
    toIsConsistent := appended.describe ⟨named.symm ▸ known, fun _ => named.symm ▸ labelled, ?_⟩
    isOf := lists.isOf
    range := lists.range
    behind := Nat.le_trans lists.behind grows.size
    listed := fun other isDone otherFunction otherKnown => ?_
    claimed := fun entry owned isFunction => ?_ }
  · rw [isOther]
    nofun
  · rcases List.mem_cons.mp isDone with rfl | isDone
    · refine ⟨⟨table.size⟩, lists.behind, labelled, ?_⟩
      rw [NameTable.describe, List.lookup_cons_self]
      rfl
    · obtain ⟨name, isBehind, listed⟩ := lists.listed other isDone otherFunction otherKnown
      exact ⟨name, isBehind, (listed.of_grows grows).describe _ _⟩
  · rcases mem_owners_append owned with owned | rfl
    · exact List.mem_cons_of_mem _ (lists.claimed entry owned isFunction)
    · exact List.mem_cons_self

theorem addBuiltin (lists : table.ListsFunctions dialect start done) (catalogued : dialect.IsCatalogued)
    (isMember : label ∈ dialect.builtinNames) (isNew : label ∉ done) :
    (table.addBuiltin label).ListsFunctions dialect start (label :: done) := by
  cases known : dialect.builtin? label with
  | none =>
    rw [addBuiltin_of_free (lists.isOf ▸ known)]
    exact lists.defineFree catalogued known
  | some function =>
    have isOther := catalogued.members label isMember function known
    rw [addBuiltin_of_function (lists.isOf ▸ known), define_of_function (lists.isOf ▸ known) isOther
      (builtinNamed_of_isEmpty lists.range label)]
    exact lists.describe catalogued known isOther isNew

theorem foldl_addBuiltin {labels : List String} (lists : table.ListsFunctions dialect start done)
    (catalogued : dialect.IsCatalogued) (areMembers : labels ⊆ dialect.builtinNames)
    (areNew : ∀ label ∈ labels, label ∉ done) (distinct : labels.Nodup) :
    (labels.foldl NameTable.addBuiltin table).ListsFunctions dialect start
      (labels.reverse ++ done) := by
  induction labels generalizing table done with
  | nil => exact lists
  | cons label rest ih =>
    rw [List.cons_subset] at areMembers
    rw [List.forall_mem_cons] at areNew
    obtain ⟨isNew, distinct⟩ := List.nodup_cons.mp distinct
    rw [List.reverse_cons, List.append_assoc]
    refine ih (lists.addBuiltin catalogued areMembers.1 areNew.1) areMembers.2 ?_ distinct
    intro other member isDone
    rcases List.mem_cons.mp isDone with rfl | isDone
    · exact isNew member
    · exact areNew.2 other member isDone

end ListsFunctions

/-- The table with the base of the `verbatim` family lists no function. -/
theorem listsFunctions_withVerbatim (catalogued : dialect.IsCatalogued)
    (regular : dialect.IsRegular) :
    let table := ((blank dialect).append "").2.addTypes
    table.withVerbatim.ListsFunctions dialect table.size [] := by
  obtain ⟨plain, owned⟩ := isPlain_addTypes regular
  have whole := isWhole_withVerbatim plain (fun entry listed => lt_of_mem_types regular listed)
    (Nat.le_refl _)
  have isOf := (knowsTypes_addTypes regular).isOf
  have consistent := isConsistent_addTypes catalogued regular
  dsimp only
  generalize ((blank dialect).append "").2.addTypes = table at *
  let ranged : NameTable := { table with builtinRange := ⟨table.size, table.size⟩ }
  have isFree (label : String) (isType : label ∈ "" :: dialect.types) :
      dialect.builtin? label = none := by
    rcases List.mem_cons.mp isType with rfl | isType
    · exact catalogued.unnamed
    · exact regular.free label (List.mem_cons_of_mem _ isType)
  have isFreeBase : dialect.builtin? Dialect.verbatimBase = none :=
    regular.free _ List.mem_cons_self
  have noOwner : ranged.owners.lookup Dialect.verbatimBase = none := by
    rw [Option.eq_none_iff_forall_ne_some]
    intro owner found
    rcases List.mem_cons.mp (owned _ (List.mem_of_lookup_eq_some found)) with isEmpty | isType
    · exact (by decide : Dialect.verbatimBase ≠ "") isEmpty
    · exact regular.base isType
  have back : RefersBack table.entries :=
    fun index base isAlias => absurd isAlias (plain.labelled index base)
  have started : ranged.IsConsistent dialect fun _ => False :=
    consistent.of_same rfl rfl rfl rfl rfl
  have based := started.append back
    (fun function known => absurd (known.symm.trans isFreeBase) (Option.some_ne_none _)) noOwner
  refine {
    toIsWhole := whole
    toIsConsistent := ⟨based.outside, ?_, based.owned⟩
    isOf := isOf
    range := rfl
    behind := ?_
    listed := nofun
    claimed := fun entry isOwned isFunction => ?_ }
  · rw [show table.withVerbatim.builtins = [] from plain.builtins]
    exact List.forall_mem_nil _
  · exact Nat.le_trans (Nat.le_succ table.size) (Nat.le_of_eq (table.size_append _).symm)
  · have isNone : dialect.builtin? entry.1 = none := by
      rcases mem_owners_append isOwned with isOwned | rfl
      · exact isFree _ (owned entry isOwned)
      · exact isFreeBase
    rw [isNone] at isFunction
    cases isFunction

/-! ### The table of a dialect -/

/-- Whether a table with names only knows all functions of its dialect: the tables between that of
all functions and that of the dialect. -/
structure IsPrepared (dialect : Dialect) (table : NameTable) : Prop
    extends table.IsWhole, table.KnowsFunctions dialect fun _ => False where
  isOf : table.dialect = dialect

namespace IsPrepared

theorem addBuiltins (catalogued : dialect.IsCatalogued) (regular : dialect.IsRegular) :
    ((blank dialect).append "").2.addTypes.addBuiltins.IsPrepared dialect := by
  obtain ⟨plain, owned⟩ := isPlain_addTypes regular
  have whole := (isWhole_addBuiltins regular).1
  have isOf := (knowsTypes_addTypes regular).isOf
  have added := addBuiltins_eq regular isOf owned
  have lists := listsFunctions_withVerbatim catalogued regular
  generalize ((blank dialect).append "").2.addTypes = table at *
  have all : table.withFunctions.ListsFunctions dialect table.size
      ((table.dialect.builtinNames.filter (!·.isEmpty)).reverse ++ []) := by
    refine lists.foldl_addBuiltin catalogued ?_ (fun _ _ => List.not_mem_nil) ?_ <;> rw [isOf]
    · exact List.filter_subset_self _
    · exact catalogued.distinct.filter _
  rw [added] at whole ⊢
  refine {
    toIsWhole := whole
    toIsConsistent := all.toIsConsistent.of_same rfl rfl rfl rfl rfl
    finds := fun label function known isOther => ?_
    positive := plain.size_pos
    isOf := all.isOf }
  have isNamed : (!label.isEmpty) = true := by
    rw [Bool.not_eq_true', Bool.eq_false_iff, Ne, String.isEmpty_iff]
    rintro rfl
    rw [catalogued.unnamed] at known
    cases known
  have member : label ∈ (table.dialect.builtinNames.filter (!·.isEmpty)).reverse ++ [] := by
    rw [List.append_nil, List.mem_reverse, List.mem_filter, isOf]
    exact ⟨catalogued.listed label function known isOther, isNamed⟩
  obtain ⟨name, isBehind, listed⟩ := all.listed label member function known
  have inTable := (Array.getElem?_eq_some_iff.mp listed.labelled).1
  exact ⟨name, HandleRange.contains_iff.mpr ⟨isBehind, inTable⟩, listed.labelled, listed.described⟩

theorem define (prepared : table.IsPrepared dialect) (catalogued : dialect.IsCatalogued)
    (label : String) : (table.define label).2.IsPrepared dialect where
  toIsWhole := prepared.toIsWhole.define label
  toKnowsFunctions :=
    prepared.toKnowsFunctions.define catalogued prepared.toIsOrderly prepared.isOf label
  isOf := (grows_define table label).dialect.trans prepared.isOf

theorem withBuiltins (prepared : table.IsPrepared dialect) (catalogued : dialect.IsCatalogued)
    (labels : List String) : (table.withBuiltins labels).IsPrepared dialect := by
  induction labels generalizing table with
  | nil => exact prepared
  | cons label rest ih =>
    refine ih ?_
    show (table.builtinOrDefine label).2.IsPrepared dialect
    rw [builtinOrDefine]
    split
    · exact prepared
    · exact prepared.define catalogued label

/-- The names that the library refers to may change, apart from the base of the `verbatim` family. -/
theorem predefine (prepared : table.IsPrepared dialect) {predefined : PredefinedNames}
    (verbatim : predefined.verbatim = table.predefined.verbatim) :
    { table with predefined }.IsPrepared dialect where
  toIsWhole := prepared.toIsWhole.predefine verbatim
  toKnowsFunctions := prepared.toKnowsFunctions.of_same rfl rfl rfl rfl verbatim rfl
  isOf := prepared.isOf

theorem addTypeBuiltins (prepared : table.IsPrepared dialect) :
    table.addTypeBuiltins.IsPrepared dialect where
  toIsWhole := prepared.toIsWhole.of_same rfl rfl rfl rfl (fun _ isDescribed => isDescribed) rfl rfl
    prepared.builtinRange
  toKnowsFunctions := prepared.toKnowsFunctions.of_same rfl rfl rfl rfl rfl rfl
  isOf := prepared.isOf

theorem ofDialect (catalogued : dialect.IsCatalogued) (regular : dialect.IsRegular) :
    (NameTable.ofDialect dialect).IsPrepared dialect := by
  have functions := addBuiltins catalogued regular
  rw [NameTable.ofDialect]
  generalize ((blank dialect).append "").2.addTypes.addBuiltins = table at *
  obtain ⟨predefined, same, verbatim, _⟩ := table.addPredefined_eq
  have named := (functions.withBuiltins catalogued predefinedLabels).predefine verbatim
  rw [← same] at named
  have provided := named.addTypeBuiltins
  generalize table.addPredefined.addTypeBuiltins = table at *
  have zero := provided.define catalogued "@ 0"
  have one := zero.define catalogued "@ 1"
  have thirtyTwo := one.define catalogued "@ 32"
  rw [addPlaceholders]
  exact thirtyTwo.predefine rfl

end IsPrepared

/-! ### Faithful tables -/

/-- Whether a table is ready for programs and knows all functions of its dialect, and whether all
names of the dialect have labels. -/
structure IsFaithful (dialect : Dialect) (unified : Handle → Prop) (table : NameTable) : Prop
    extends table.IsReady dialect, table.KnowsFunctions dialect unified where
  ofDialect : ∀ name : Handle, name.index < table.builtinRange.stop → table.IsNamed name

/-- Whether a generation gave a name the label of another name. -/
def UnifiedBy (table after : NameTable) (name : Handle) : Prop :=
  table.needsLabel name = .ok true ∧
    ∃ label, after.label name = .ok label ∧ after.named label ≠ name

namespace IsFaithful

theorem of_ofDialect (catalogued : dialect.IsCatalogued) (regular : dialect.IsRegular) :
    (NameTable.ofDialect dialect).IsFaithful dialect fun _ => False where
  toIsReady := .ofDialect regular
  toKnowsFunctions := (IsPrepared.ofDialect catalogued regular).toKnowsFunctions
  ofDialect name inRange := by
    have whole := (isWhole_ofDialect regular).1
    exact whole.named name (Nat.lt_of_lt_of_le inRange whole.builtinRange)

/-- The empty name is no function. -/
theorem ne_empty_of_builtin? {builtin : BuiltinSignature} (faithful : table.IsFaithful dialect unified)
    (known : table.builtin? name = .ok (some builtin)) : name ≠ .empty := by
  rintro rfl
  have isFirst : table.root .empty = .empty := root_of_labelled faithful.first
  rw [builtin?_of_lt (lt_of_builtin? known), isFirst] at known
  split at known
  · rename_i inRange
    have positive := Nat.lt_of_lt_of_le faithful.positive (HandleRange.contains_iff.mp inRange).1
    exact absurd positive (Nat.not_lt_zero _)
  · cases known

/-- What is listed with a label among the names of the dialect is the function of that name. -/
theorem exists_builtin?_of_isListed (faithful : table.IsFaithful dialect unified)
    (inRange : table.builtinRange.contains name = true) (listed : table.IsListed name label) :
    ∃ builtin, table.builtin? name = .ok (some builtin) ∧ builtin.function.name = label := by
  obtain ⟨builtin, described⟩ := Option.isSome_iff_exists.mp listed.described
  have inTable := (Array.getElem?_eq_some_iff.mp listed.labelled).1
  refine ⟨builtin, ?_, ?_⟩
  · rw [builtin?_of_lt inTable, root_of_labelled listed.labelled, if_pos inRange, described]
  · have isName := faithful.describes _ (List.mem_of_lookup_eq_some described)
    cases isVerbatim : builtin.function.isVerbatim with
    | false =>
      have same := listed.labelled.symm.trans (isName.listed isVerbatim)
      cases same
      rfl
    | true =>
      obtain ⟨base, isAlias⟩ := (isName.family isVerbatim).1.isAlias
      have same := listed.labelled.symm.trans isAlias
      cases same

/-- What the dialect says stays the same when a table grows. -/
theorem of_grows (faithful : table.IsFaithful dialect unified) (grows : table.Grows after)
    (ready : after.IsReady dialect) (consistent : after.IsConsistent dialect unified) :
    after.IsFaithful dialect unified where
  toIsReady := ready
  toKnowsFunctions := faithful.toKnowsFunctions.of_grows grows consistent
  ofDialect name inRange := by
    rw [grows.builtinRange] at inRange
    exact grows.isNamed faithful.back (faithful.ofDialect name inRange)

theorem define (faithful : table.IsFaithful dialect unified) (catalogued : dialect.IsCatalogued)
    (regular : dialect.IsRegular) (label : String) :
    (table.define label).2.IsFaithful dialect unified :=
  faithful.of_grows (grows_define table label) (faithful.toIsReady.define regular label)
    (faithful.toKnowsFunctions.define catalogued faithful.toIsOrderly faithful.isOf
      label).toIsConsistent

theorem derive (faithful : table.IsFaithful dialect unified)
    (derived : table.derive base = .ok (name, after)) : after.IsFaithful dialect unified := by
  refine faithful.of_grows (grows_derive derived) (faithful.toIsReady.derive derived) ?_
  obtain rfl := congrArg Prod.snd (derive_eq_ok derived).2
  exact faithful.toIsConsistent.appendAlias faithful.back base

/-- The number of ghosts does not matter. -/
theorem count (faithful : table.IsFaithful dialect unified) (ghostCount : Nat) :
    { table with ghostCount }.IsFaithful dialect unified := by
  have grows : table.Grows { table with ghostCount } :=
    ⟨rfl, rfl, rfl, rfl, rfl, Nat.le_refl _, fun _ _ => rfl, fun _ _ => rfl⟩
  exact faithful.of_grows grows (faithful.toIsReady.count ghostCount)
    (faithful.toIsConsistent.of_same rfl rfl rfl rfl rfl)

theorem defineGhost (faithful : table.IsFaithful dialect unified)
    (catalogued : dialect.IsCatalogued) (regular : dialect.IsRegular) :
    table.defineGhost.2.IsFaithful dialect unified :=
  (faithful.count (table.ghostCount + 1)).define catalogued regular (ghostLabel table.ghostCount)

end IsFaithful

end YulCheck.NameTable
