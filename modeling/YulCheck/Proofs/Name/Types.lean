import YulCheck.Name.Labels
import YulCheck.Proofs.Dialect.Types
import YulCheck.Proofs.Name.Growth

/-! # The types that name tables know

Every table of a dialect knows the types of the dialect, and the functions in it have no other ones,
however many names programs add to it.
-/

namespace YulCheck.NameTable

variable {dialect : Dialect} {table after : NameTable} {name : Handle} {function : Builtin}

/-! ### Tables of labels -/

/-- Whether there is nothing in a table but labels: the tables that the types are added to. -/
structure IsPlain (table : NameTable) : Prop where
  first : table.entries[0]? = some (.labelled "")
  labelled : ∀ (index : Nat) (base : Handle), table.entries[index]? ≠ some (Entry.alias base)
  owners : ∀ entry ∈ table.owners, table.entries[entry.2.index]? = some (.labelled entry.1)
  builtins : table.builtins = []
  verbatims : table.verbatims = []

namespace IsPlain

theorem size_pos (plain : table.IsPlain) : 0 < table.size :=
  (Array.getElem?_eq_some_iff.mp plain.first).1

theorem exists_label (plain : table.IsPlain) {name : Handle} (inTable : name.index < table.size) :
    ∃ label, table.entries[name.index]? = some (.labelled label) := by
  have entry : table.entries[name.index]? = some table.entries[name.index] :=
    Array.getElem?_eq_getElem inTable
  rcases known : table.entries[name.index] with label | base
  · rw [known] at entry
    exact ⟨label, entry⟩
  · rw [known] at entry
    exact absurd entry (plain.labelled name.index base)

theorem lt_of_owned (plain : table.IsPlain) {entry : String × Handle}
    (owned : entry ∈ table.owners) : entry.2.index < table.size :=
  (Array.getElem?_eq_some_iff.mp (plain.owners entry owned)).1

end IsPlain

theorem getElem?_append_size (table : NameTable) (label : String) :
    (table.append label).2.entries[table.size]? = some (.labelled label) := by
  show (table.entries.push _)[table.entries.size]? = _
  rw [Array.getElem?_push_size]

/-- The names that own a label after one more label is in the table. -/
theorem mem_owners_append {label : String} {entry : String × Handle}
    (owned : entry ∈ (table.append label).2.owners) :
    entry ∈ table.owners ∨ entry = (label, ⟨table.size⟩) := by
  have unfolded : (table.append label).2.owners =
      if (table.owners.lookup label).isSome then table.owners
      else (label, ⟨table.size⟩) :: table.owners := rfl
  rw [unfolded] at owned
  split at owned
  · exact .inl owned
  · exact (List.mem_cons.mp owned).symm

theorem isPlain_append (plain : table.IsPlain) (label : String) :
    (table.append label).2.IsPlain where
  first := ((grows_append table label).entries 0 plain.size_pos).trans plain.first
  labelled index base := by
    show (table.entries.push _)[index]? ≠ _
    rw [Array.getElem?_push]
    split
    · nofun
    · exact plain.labelled index base
  owners entry owned := by
    rcases mem_owners_append owned with owned | rfl
    · rw [(grows_append table label).entries _ (plain.lt_of_owned owned)]
      exact plain.owners entry owned
    · exact table.getElem?_append_size label
  builtins := plain.builtins
  verbatims := plain.verbatims

theorem isPlain_blank (dialect : Dialect) : ((blank dialect).append "").2.IsPlain where
  first := rfl
  labelled index base := by
    show (#[].push (Entry.labelled ""))[index]? ≠ _
    rw [Array.getElem?_push]
    split <;> nofun
  owners entry owned := by
    obtain rfl := List.mem_singleton.mp owned
    rfl
  builtins := rfl
  verbatims := rfl

/-! ### The tables that types are added to -/

/-- Whether some of the types of a dialect are added to a table. -/
structure ListsTypes (dialect : Dialect) (labels : List String) (table : NameTable) : Prop
    extends table.IsPlain where
  isOf : table.dialect = dialect
  listed : ∀ label ∈ labels, ∃ type, (type, label) ∈ table.types
  owned : ∀ entry ∈ table.owners, entry.1 ∈ "" :: dialect.types
  /-- Types have names other than the empty one. -/
  named : ∀ entry ∈ table.types, 1 ≤ entry.1.index ∧ entry.1.index < table.size
  atMostOne : table.typeRange.first ≤ 1

theorem listsTypes_blank (dialect : Dialect) :
    ((blank dialect).append "").2.ListsTypes dialect [] where
  toIsPlain := isPlain_blank dialect
  isOf := rfl
  listed := nofun
  owned entry member := by
    obtain rfl := List.mem_singleton.mp member
    exact List.mem_cons_self
  named := nofun
  atMostOne := Nat.zero_le 1

/-- A named type that is added is known. -/
theorem ListsTypes.insert {labels : List String} {label : String}
    (lists : table.ListsTypes dialect labels) (named : 1 ≤ name.index)
    (inTable : name.index < table.size) :
    { table with
      types := table.types ++ [(name, label)]
      typeRange := { table.typeRange with first := 1 } }.ListsTypes dialect (label :: labels) where
  first := lists.toIsPlain.first
  labelled := lists.labelled
  owners := lists.owners
  builtins := lists.builtins
  verbatims := lists.verbatims
  isOf := lists.isOf
  listed := by
    rw [List.forall_mem_cons]
    refine ⟨⟨name, List.mem_append_right _ List.mem_cons_self⟩, fun other isOther => ?_⟩
    obtain ⟨type, member⟩ := lists.listed other isOther
    exact ⟨type, List.mem_append_left _ member⟩
  owned := lists.owned
  named entry member := by
    rcases List.mem_append.mp member with member | isLast
    · exact lists.named entry member
    · obtain rfl := List.mem_singleton.mp isLast
      exact ⟨named, inTable⟩
  atMostOne := Nat.le_refl 1

theorem ListsTypes.append {labels : List String} {label : String}
    (lists : table.ListsTypes dialect labels) (isType : label ∈ dialect.types) :
    (table.append label).2.ListsTypes dialect labels where
  toIsPlain := isPlain_append lists.toIsPlain label
  isOf := lists.isOf
  listed := lists.listed
  owned entry member := by
    rcases mem_owners_append member with member | rfl
    · exact lists.owned entry member
    · exact List.mem_cons_of_mem _ isType
  named entry member := by
    have bounds := lists.named entry member
    rw [size_append]
    omega
  atMostOne := lists.atMostOne

theorem listsTypes_addType (regular : dialect.IsRegular) {labels : List String} {label : String}
    (lists : table.ListsTypes dialect labels) (isType : label ∈ dialect.types)
    (hasLabel : label ≠ "") : (table.addType label).ListsTypes dialect (label :: labels) := by
  have isFree : table.dialect.builtin? label = none :=
    lists.isOf ▸ regular.free label (List.mem_cons_of_mem _ isType)
  rw [addType, if_neg fun isEmpty => hasLabel (String.isEmpty_iff.mp isEmpty)]
  rcases define_of_free isFree hasLabel with ⟨name, owned, isNamed, defined⟩ | defined
  · rw [defined]
    refine lists.insert ?_ (lists.toIsPlain.lt_of_owned owned)
    have notZero : name.index ≠ 0 := fun isZero => isNamed (congrArg Handle.mk isZero)
    omega
  · rw [defined]
    apply (lists.append isType).insert lists.toIsPlain.size_pos
    rw [size_append]
    exact Nat.lt_succ_self table.size

theorem listsTypes_foldl (regular : dialect.IsRegular) {labels before : List String}
    (lists : table.ListsTypes dialect before) (areTypes : ∀ label ∈ labels, label ∈ dialect.types)
    (haveLabels : "" ∉ labels) :
    (labels.foldl addType table).ListsTypes dialect (labels.reverse ++ before) := by
  induction labels generalizing table before with
  | nil => exact lists
  | cons label rest ih =>
    rw [List.forall_mem_cons] at areTypes
    have hasLabel : label ≠ "" := fun isEmpty => haveLabels (isEmpty ▸ List.mem_cons_self)
    have added := listsTypes_addType regular lists areTypes.1 hasLabel
    rw [List.reverse_cons, List.append_assoc]
    exact ih added areTypes.2 fun member => haveLabels (List.mem_cons_of_mem _ member)

/-- All types of a dialect without the empty one are listed. -/
theorem listsTypes_types (regular : dialect.IsRegular) (haveLabels : "" ∉ dialect.types) :
    (dialect.types.foldl addType ((blank dialect).append "").2).ListsTypes dialect
      dialect.types.reverse := by
  have lists := listsTypes_foldl regular (listsTypes_blank dialect) (fun _ isType => isType) haveLabels
  rwa [List.append_nil] at lists

/-! ### Types that tables know -/

/-- Whether a table knows the types of its dialect, and has only functions with such types. -/
structure KnowsTypes (dialect : Dialect) (table : NameTable) : Prop where
  isOf : table.dialect = dialect
  areTypes : ∀ label ∈ dialect.types, table.isType (table.typeNamed label) = true
  functions : ∀ entry ∈ table.builtins, ∀ type ∈ entry.2.parameters ++ entry.2.returns,
    table.isType type = true

/-- A listed type that is in the range of types is found. -/
theorem isType_typeNamed {label : String} (listed : ∃ type, (type, label) ∈ table.types)
    (inRange : ∀ entry ∈ table.types, table.isType entry.1 = true) :
    table.isType (table.typeNamed label) = true := by
  obtain ⟨type, member⟩ := listed
  rw [typeNamed]
  cases found : table.types.find? (·.2 = label) with
  | none => exact absurd (decide_eq_true rfl) (List.find?_eq_none.mp found _ member)
  | some entry => exact inRange entry (List.mem_of_find?_eq_some found)

/-- A table without functions knows the types that are listed in it. -/
theorem knowsTypes_of_listed (isOf : table.dialect = dialect) (noFunctions : table.builtins = [])
    (listed : ∀ label ∈ dialect.types, ∃ type, (type, label) ∈ table.types)
    (inRange : ∀ entry ∈ table.types, table.isType entry.1 = true) :
    table.KnowsTypes dialect where
  isOf := isOf
  areTypes label isType := isType_typeNamed (listed label isType) inRange
  functions entry member := by
    rw [noFunctions] at member
    cases member

/-- The empty type is the name that every table starts with. -/
theorem addTypes_of_untyped (untyped : dialect.types = [""]) :
    ((blank dialect).append "").2.addTypes =
      { ((blank dialect).append "").2 with types := [(.empty, "")], typeRange := ⟨0, 1⟩ } := by
  have onlyEmpty : ((blank dialect).append "").2.dialect.types = [""] := untyped
  rw [addTypes, onlyEmpty]
  rfl

/-- There are nothing but labels in a table with all types, and only types own some. -/
theorem isPlain_addTypes (regular : dialect.IsRegular) :
    ((blank dialect).append "").2.addTypes.IsPlain ∧
      ∀ entry ∈ ((blank dialect).append "").2.addTypes.owners, entry.1 ∈ "" :: dialect.types := by
  by_cases hasEmpty : "" ∈ dialect.types
  · rw [addTypes_of_untyped (regular.untyped hasEmpty)]
    have plain := isPlain_blank dialect
    refine ⟨⟨plain.first, plain.labelled, plain.owners, plain.builtins, plain.verbatims⟩, ?_⟩
    exact (listsTypes_blank dialect).owned
  · have lists := listsTypes_types regular hasEmpty
    exact ⟨⟨lists.first, lists.labelled, lists.owners, lists.builtins, lists.verbatims⟩,
      lists.owned⟩

theorem knowsTypes_addTypes (regular : dialect.IsRegular) :
    ((blank dialect).append "").2.addTypes.KnowsTypes dialect := by
  by_cases hasEmpty : "" ∈ dialect.types
  · have untyped := regular.untyped hasEmpty
    rw [addTypes_of_untyped untyped]
    refine knowsTypes_of_listed rfl rfl (fun label isType => ?_) fun entry member => ?_
    · rw [untyped] at isType
      obtain rfl := List.mem_singleton.mp isType
      exact ⟨.empty, List.mem_cons_self⟩
    · obtain rfl := List.mem_singleton.mp member
      rfl
  · have lists := listsTypes_types regular hasEmpty
    refine knowsTypes_of_listed lists.isOf lists.builtins (fun label isType => ?_)
      fun entry member => ?_
    · exact lists.listed label (List.mem_reverse.mpr isType)
    · have bounds := lists.named entry member
      exact HandleRange.contains_iff.mpr ⟨Nat.le_trans lists.atMostOne bounds.1, bounds.2⟩

/-! ### Tables that grow -/

namespace KnowsTypes

/-- Everything else may change. -/
theorem of_same (knows : table.KnowsTypes dialect) (sameDialect : after.dialect = table.dialect)
    (sameTypes : after.types = table.types) (sameRange : after.typeRange = table.typeRange)
    (sameFunctions : after.builtins = table.builtins) : after.KnowsTypes dialect where
  isOf := sameDialect.trans knows.isOf
  areTypes label isType := by
    rw [NameTable.isType, typeNamed, sameRange, sameTypes]
    exact knows.areTypes label isType
  functions entry member type isOne := by
    rw [NameTable.isType, sameRange]
    exact knows.functions entry (sameFunctions ▸ member) type isOne

theorem predefine (knows : table.KnowsTypes dialect) (predefined : PredefinedNames) :
    { table with predefined }.KnowsTypes dialect := knows.of_same rfl rfl rfl rfl

/-- A function with types of the dialect may be added. -/
theorem describe (knows : table.KnowsTypes dialect) (name : Handle)
    (hasTypes : function.HasTypes dialect.types) :
    (table.describe name function).KnowsTypes dialect where
  isOf := knows.isOf
  areTypes := knows.areTypes
  functions entry member type isOne := by
    rcases List.mem_cons.mp member with rfl | member
    · have ofLabel : type ∈ (function.parameters ++ function.returns).map table.typeNamed := by
        rw [List.map_append]
        exact isOne
      obtain ⟨label, isLabel, rfl⟩ := List.mem_map.mp ofLabel
      exact knows.areTypes label (hasTypes label isLabel)
    · exact knows.functions entry member type isOne

theorem define (regular : dialect.IsRegular) (knows : table.KnowsTypes dialect) (label : String) :
    (table.define label).2.KnowsTypes dialect := by
  have defined := defines_define table label
  revert defined
  cases table.define label with
  | mk name after =>
    intro defined
    cases defined with
    | empty | verbatim | builtin | owner => exact knows
    | append => exact knows.of_same rfl rfl rfl rfl
    | appendVerbatim known =>
      rw [knows.isOf] at known
      have appended : (table.appendAlias table.predefined.verbatim).2.KnowsTypes dialect :=
        knows.of_same rfl rfl rfl rfl
      have described := appended.describe ⟨table.size⟩ (regular.functions label _ known)
      exact described.of_same rfl rfl rfl rfl

theorem addBuiltin (regular : dialect.IsRegular) (knows : table.KnowsTypes dialect)
    (label : String) : (table.addBuiltin label).KnowsTypes dialect := by
  have defined := knows.define regular label
  rw [NameTable.addBuiltin]
  dsimp only
  split
  · rename_i function known
    rw [defined.isOf] at known
    exact defined.describe _ (regular.functions label function known)
  · exact defined

theorem addBuiltins (regular : dialect.IsRegular) (knows : table.KnowsTypes dialect) :
    table.addBuiltins.KnowsTypes dialect := by
  have foldl (labels : List String) {table : NameTable} (knows : table.KnowsTypes dialect) :
      (labels.foldl NameTable.addBuiltin table).KnowsTypes dialect := by
    induction labels generalizing table with
    | nil => exact knows
    | cons label rest ih => exact ih (knows.addBuiltin regular label)
  have started : { table with builtinRange := ⟨table.size, table.size⟩ }.KnowsTypes dialect :=
    knows.of_same rfl rfl rfl rfl
  have based := started.define regular "@ verbatim"
  rw [NameTable.addBuiltins]
  refine of_same (foldl _ ?_) rfl rfl rfl rfl
  exact based.of_same rfl rfl rfl rfl

theorem builtinOrDefine (regular : dialect.IsRegular) (knows : table.KnowsTypes dialect)
    (label : String) : (table.builtinOrDefine label).2.KnowsTypes dialect := by
  rw [NameTable.builtinOrDefine]
  split
  · exact knows
  · exact knows.define regular label

theorem withBuiltins (regular : dialect.IsRegular) (knows : table.KnowsTypes dialect)
    (labels : List String) : (table.withBuiltins labels).KnowsTypes dialect := by
  induction labels generalizing table with
  | nil => exact knows
  | cons label rest ih => exact ih (knows.builtinOrDefine regular label)

theorem addPredefined (regular : dialect.IsRegular) (knows : table.KnowsTypes dialect) :
    table.addPredefined.KnowsTypes dialect := by
  obtain ⟨predefined, same, _⟩ := table.addPredefined_eq
  rw [same]
  exact (knows.withBuiltins regular predefinedLabels).predefine predefined

theorem addPlaceholders (regular : dialect.IsRegular) (knows : table.KnowsTypes dialect) :
    table.addPlaceholders.KnowsTypes dialect := by
  have zero := knows.define regular "@ 0"
  have one := zero.define regular "@ 1"
  have thirtyTwo := one.define regular "@ 32"
  rw [NameTable.addPlaceholders]
  exact thirtyTwo.of_same rfl rfl rfl rfl

theorem addTypeBuiltins (knows : table.KnowsTypes dialect) :
    table.addTypeBuiltins.KnowsTypes dialect := knows.of_same rfl rfl rfl rfl

theorem ofDialect (regular : dialect.IsRegular) :
    (NameTable.ofDialect dialect).KnowsTypes dialect :=
  ((((knowsTypes_addTypes regular).addBuiltins regular).addPredefined regular).addTypeBuiltins
    ).addPlaceholders regular

theorem derive (knows : table.KnowsTypes dialect) {base : Handle}
    (derived : table.derive base = .ok (name, after)) : after.KnowsTypes dialect := by
  obtain rfl := congrArg Prod.snd (derive_eq_ok derived).2
  exact knows.of_same rfl rfl rfl rfl

theorem defineGhost (regular : dialect.IsRegular) (knows : table.KnowsTypes dialect) :
    table.defineGhost.2.KnowsTypes dialect := by
  have counted : { table with ghostCount := table.ghostCount + 1 }.KnowsTypes dialect :=
    knows.of_same rfl rfl rfl rfl
  exact counted.define regular _

/-! ### Labels for aliases -/

/-- Labels are put on names only. -/
theorem label {reserved : List String} {labelling chosen : Labelling}
    (knows : labelling.table.KnowsTypes dialect)
    (labelled : labelling.label reserved name = .ok chosen) : chosen.table.KnowsTypes dialect := by
  obtain ⟨table, used, before⟩ := labelling
  rw [Labelling.label] at labelled
  obtain ⟨base, _, labelled⟩ := Except.bind_eq_ok_iff.mp labelled
  dsimp only at labelled
  split at labelled
  · cases labelled
    exact knows
  · cases labelled
    exact knows.of_same rfl rfl rfl rfl

theorem foldlM_label {reserved : List String} {names : List Handle}
    {labelling chosen : Labelling} (knows : labelling.table.KnowsTypes dialect)
    (labelled : names.foldlM (Labelling.label reserved) labelling = .ok chosen) :
    chosen.table.KnowsTypes dialect := by
  induction names generalizing labelling with
  | nil =>
    cases labelled
    exact knows
  | cons name rest ih =>
    rw [List.foldlM_cons] at labelled
    obtain ⟨middle, first, labelled⟩ := Except.bind_eq_ok_iff.mp labelled
    exact ih (knows.label first) labelled

theorem foldl_assign (knows : table.KnowsTypes dialect) (chosen : List (Handle × String)) :
    (chosen.foldl (fun table (name, label) => table.assign name label) table).KnowsTypes
      dialect := by
  induction chosen generalizing table with
  | nil => exact knows
  | cons first rest ih => exact ih (knows.of_same rfl rfl rfl rfl)

theorem labelAliases (knows : table.KnowsTypes dialect) {block : Block} {reserved : List String}
    (labelled : table.labelAliases block reserved = .ok after) : after.KnowsTypes dialect := by
  rw [NameTable.labelAliases] at labelled
  obtain ⟨used, _, labelled⟩ := Except.bind_eq_ok_iff.mp labelled
  obtain ⟨names, _, labelled⟩ := Except.bind_eq_ok_iff.mp labelled
  obtain ⟨labelling, all, labelled⟩ := Except.bind_eq_ok_iff.mp labelled
  cases labelled
  refine (foldlM_label ?_ all).foldl_assign labelling.chosen
  exact knows

end KnowsTypes

/-! ### All tables of a dialect -/

/-- The name tables of a dialect that programs can have. -/
inductive Reachable (dialect : Dialect) : NameTable → Prop
  | ofDialect : Reachable dialect (ofDialect dialect)
  | define {table : NameTable} (before : Reachable dialect table) (label : String) :
    Reachable dialect (table.define label).2
  | derive {table after : NameTable} (before : Reachable dialect table) {base name : Handle}
    (derived : table.derive base = .ok (name, after)) : Reachable dialect after
  | defineGhost {table : NameTable} (before : Reachable dialect table) :
    Reachable dialect table.defineGhost.2
  | labelAliases {table after : NameTable} (before : Reachable dialect table) {block : Block}
    {reserved : List String} (labelled : table.labelAliases block reserved = .ok after) :
    Reachable dialect after

theorem Reachable.knowsTypes (regular : dialect.IsRegular)
    (reachable : table.Reachable dialect) : table.KnowsTypes dialect := by
  induction reachable with
  | ofDialect => exact KnowsTypes.ofDialect regular
  | define before label ih => exact ih.define regular label
  | derive before derived ih => exact ih.derive derived
  | defineGhost before ih => exact ih.defineGhost regular
  | labelAliases before labelled ih => exact ih.labelAliases labelled

end YulCheck.NameTable
