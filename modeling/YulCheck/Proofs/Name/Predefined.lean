import YulCheck.Proofs.Name.Labelling
import YulCheck.Proofs.Name.Owned

/-! # The name of the function `tstore`

A dialect may have the function `tstore` or not. If it has, under this name, then the name by which the
library refers to it has its label, in every table that programs can have: it is no alias. Dialects may
have all kinds of other functions and types, so nothing else is known about their tables. While the
names of a dialect are added, all aliases are of the `verbatim` family, so none of them leads to the
label; from then on, labels are given to aliases only.
-/

namespace YulCheck.NameTable

variable {dialect : Dialect} {table after : NameTable} {name base : Handle} {label other : String}

/-! ### Names without a label -/

/-- Whether a name of a table is an alias, or has another label. -/
def LacksLabel (table : NameTable) (label : String) (name : Handle) : Prop :=
  ∃ entry, table.entries[name.index]? = some entry ∧ entry ≠ .labelled label

theorem LacksLabel.of_grows (lacks : table.LacksLabel label name) (grows : table.Grows after) :
    after.LacksLabel label name := by
  obtain ⟨entry, isEntry, isOther⟩ := lacks
  exact ⟨entry, (grows.entries _ (Array.getElem?_eq_some_iff.mp isEntry).1).trans isEntry, isOther⟩

theorem lacksLabel_of_alias (isAlias : table.entries[name.index]? = some (.alias base)) :
    table.LacksLabel label name :=
  ⟨_, isAlias, nofun⟩

theorem lacksLabel_of_labelled (labelled : table.entries[name.index]? = some (.labelled other))
    (isOther : other ≠ label) : table.LacksLabel label name :=
  ⟨_, labelled, fun same => isOther (Entry.labelled.inj same)⟩

theorem lacksLabel_of_rootLabel? (atRoot : table.rootLabel? name = some other)
    (isOther : other ≠ label) : table.LacksLabel label name := by
  rw [rootLabel?_eq_some_iff] at atRoot
  rcases entry : table.entries[name.index]? with _ | ⟨own | base⟩
  · rw [root_of_outside entry, entry] at atRoot
    cases atRoot
  · rw [root_of_labelled entry] at atRoot
    exact lacksLabel_of_labelled atRoot isOther
  · exact lacksLabel_of_alias entry

/-! ### Labels without aliases -/

/-- Whether no alias in a table refers to a name with a label, and no function of the `verbatim` family
will. -/
structure Spares (table : NameTable) (label : String) : Prop where
  base : table.LacksLabel label table.predefined.verbatim
  aliases : ∀ (index : Nat) (base : Handle), table.entries[index]? = some (Entry.alias base) →
    table.LacksLabel label base
  owners : ∀ entry ∈ table.owners, table.entries[entry.2.index]? = some (.labelled entry.1)
  verbatims : ∀ entry ∈ table.verbatims, table.LacksLabel label entry.2

/-- A chain of aliases does not lead to a label that no alias refers to. -/
theorem followAliases_eq_self {entries : Array Entry}
    (aliases : ∀ (index : Nat) (base : Handle), entries[index]? = some (Entry.alias base) →
      entries[base.index]? ≠ some (.labelled label))
    {steps : Nat} (ends : entries[(followAliases entries steps name).index]? = some (.labelled label)) :
    followAliases entries steps name = name := by
  induction steps generalizing name with
  | zero => rfl
  | succ steps ih =>
    rw [followAliases] at ends ⊢
    split
    · rename_i base isAlias
      rw [isAlias] at ends
      have isLast : followAliases entries steps base = base := ih ends
      have labelled : entries[(followAliases entries steps base).index]? = some (.labelled label) := ends
      rw [isLast] at labelled
      exact absurd labelled (aliases _ base isAlias)
    · rfl

namespace Spares

theorem of_same (spares : table.Spares label) (entries : after.entries = table.entries)
    (owners : after.owners = table.owners) (verbatims : after.verbatims = table.verbatims)
    (verbatim : after.predefined.verbatim = table.predefined.verbatim) : after.Spares label := by
  have same (name : Handle) (lacks : table.LacksLabel label name) : after.LacksLabel label name := by
    rw [LacksLabel, entries]
    exact lacks
  refine ⟨verbatim ▸ same _ spares.base, fun index base isAlias => ?_, ?_, ?_⟩
  · exact same base (spares.aliases index base (entries ▸ isAlias))
  · rw [owners, entries]
    exact spares.owners
  · rw [verbatims]
    exact fun entry listed => same _ (spares.verbatims entry listed)

theorem size_pos (spares : table.Spares label) : 0 < table.size := by
  obtain ⟨_, isEntry, _⟩ := spares.base
  exact Nat.zero_lt_of_lt (Array.getElem?_eq_some_iff.mp isEntry).1

theorem owners_of_grows (spares : table.Spares label) (grows : table.Grows after)
    {entry : String × Handle} (owned : entry ∈ table.owners) :
    after.entries[entry.2.index]? = some (.labelled entry.1) := by
  have labelled := spares.owners entry owned
  exact (grows.entries _ (Array.getElem?_eq_some_iff.mp labelled).1).trans labelled

theorem append (spares : table.Spares label) (other : String) : (table.append other).2.Spares label := by
  have grows := grows_append table other
  refine ⟨spares.base.of_grows grows, fun index base isAlias => ?_, fun entry owned => ?_,
    fun entry listed => (spares.verbatims entry listed).of_grows grows⟩
  · rw [NameTable.append, Array.getElem?_push] at isAlias
    split at isAlias
    · cases isAlias
    · exact (spares.aliases index base isAlias).of_grows grows
  · rcases mem_owners_append owned with owned | rfl
    · exact spares.owners_of_grows grows owned
    · exact table.getElem?_append_size other

/-- A new function of the `verbatim` family is an alias of its base. -/
theorem appendVerbatim (spares : table.Spares label) (function : Builtin) :
    (table.appendVerbatim function).2.Spares label := by
  have grows := grows_appendVerbatim table function
  have isLast : (table.appendVerbatim function).2.entries[table.size]? =
      some (.alias table.predefined.verbatim) := Array.getElem?_push_size
  refine ⟨spares.base.of_grows grows, fun index base isAlias => ?_,
    fun entry owned => spares.owners_of_grows grows owned, fun entry listed => ?_⟩
  · rw [show (table.appendVerbatim function).2.entries =
      table.entries.push (.alias table.predefined.verbatim) from rfl, Array.getElem?_push] at isAlias
    split at isAlias
    · cases isAlias
      exact spares.base.of_grows grows
    · exact (spares.aliases index base isAlias).of_grows grows
  · rcases List.mem_cons.mp listed with rfl | listed
    · exact lacksLabel_of_alias isLast
    · exact (spares.verbatims entry listed).of_grows grows

theorem define (spares : table.Spares label) (other : String) : (table.define other).2.Spares label := by
  have added := adds_define table other
  generalize (table.define other).2 = after at added
  cases added with
  | same => exact spares
  | label => exact spares.append other
  | verbatim => exact spares.appendVerbatim _

/-- What has another label, or is found by one, does not have the label. -/
theorem lacksLabel_define (spares : table.Spares label) (hasLabel : other ≠ "")
    (isOther : other ≠ label) :
    (table.define other).2.LacksLabel label (table.define other).1 := by
  have defined := defines_define table other
  generalize table.define other = result at defined
  cases defined with
  | empty isEmpty => exact absurd isEmpty hasLabel
  | verbatim listed => exact spares.verbatims _ listed
  | builtin isNamed => exact lacksLabel_of_rootLabel? (builtinNamed_spec isNamed).2 isOther
  | owner owned => exact lacksLabel_of_labelled (spares.owners _ owned) isOther
  | append => exact lacksLabel_of_labelled (table.getElem?_append_size other) isOther
  | appendVerbatim => exact lacksLabel_of_alias Array.getElem?_push_size

/-- A name at whose root the label is has it itself. -/
theorem labelled_of_rootLabel? (spares : table.Spares label)
    (atRoot : table.rootLabel? name = some label) :
    table.entries[name.index]? = some (.labelled label) := by
  rw [rootLabel?_eq_some_iff] at atRoot
  have isRoot : table.root name = name := by
    refine followAliases_eq_self (fun index base isAlias labelled => ?_) atRoot
    obtain ⟨entry, isEntry, isOther⟩ := spares.aliases index base isAlias
    exact isOther (Option.some.inj (isEntry.symm.trans labelled))
  rwa [isRoot] at atRoot

/-! ### The table of a dialect -/

theorem addType (spares : table.Spares label) (type : String) : (table.addType type).Spares label := by
  rw [NameTable.addType]
  split
  · exact spares.of_same rfl rfl rfl rfl
  · exact (spares.define type).of_same rfl rfl rfl rfl

theorem addTypes (spares : table.Spares label) : table.addTypes.Spares label := by
  have foldl (types : List String) {table : NameTable} (spares : table.Spares label) :
      (types.foldl NameTable.addType table).Spares label := by
    induction types generalizing table with
    | nil => exact spares
    | cons type rest ih => exact ih (spares.addType type)
  exact (foldl table.dialect.types spares).of_same rfl rfl rfl rfl

theorem addBuiltin (spares : table.Spares label) (other : String) :
    (table.addBuiltin other).Spares label := by
  rw [NameTable.addBuiltin]
  dsimp only
  split
  · exact (spares.define other).of_same rfl rfl rfl rfl
  · exact spares.define other

theorem foldl_addBuiltin (spares : table.Spares label) (labels : List String) :
    (labels.foldl NameTable.addBuiltin table).Spares label := by
  induction labels generalizing table with
  | nil => exact spares
  | cons other rest ih => exact ih (spares.addBuiltin other)

theorem addBuiltins (spares : table.Spares label) (isOther : "@ verbatim" ≠ label) :
    table.addBuiltins.Spares label := by
  let ranged : NameTable := { table with builtinRange := ⟨table.size, table.size⟩ }
  have ranges : ranged.Spares label := spares.of_same rfl rfl rfl rfl
  have defined := ranges.define "@ verbatim"
  have base := ranges.lacksLabel_define (by decide) isOther
  rw [NameTable.addBuiltins]
  dsimp only
  generalize ranged.define "@ verbatim" = verbatim at defined base
  have based : { verbatim.2 with
      predefined := { verbatim.2.predefined with verbatim := verbatim.1 } }.Spares label :=
    ⟨base, defined.aliases, defined.owners, defined.verbatims⟩
  exact (based.foldl_addBuiltin _).of_same rfl rfl rfl rfl

theorem builtinOrDefine (spares : table.Spares label) (other : String) :
    (table.builtinOrDefine other).2.Spares label := by
  rw [NameTable.builtinOrDefine]
  split
  · exact spares
  · exact spares.define other

theorem withBuiltins (spares : table.Spares label) (labels : List String) :
    (table.withBuiltins labels).Spares label := by
  induction labels generalizing table with
  | nil => exact spares
  | cons other rest ih => exact ih (spares.builtinOrDefine other)

end Spares

theorem spares_blank (dialect : Dialect) (hasLabel : "" ≠ label) :
    ((blank dialect).append "").2.Spares label where
  base := lacksLabel_of_labelled (rfl : _ = some (Entry.labelled "")) hasLabel
  aliases index base isAlias := absurd isAlias ((isPlain_blank dialect).labelled index base)
  owners := (isPlain_blank dialect).owners
  verbatims := nofun

/-- Whether a name is the empty one or has a label of its own. -/
def IsLabelledBy (table : NameTable) (name : Handle) (label : String) : Prop :=
  name = .empty ∨ table.entries[name.index]? = some (.labelled label)

theorem IsLabelledBy.of_grows (isLabelled : table.IsLabelledBy name label) (grows : table.Grows after) :
    after.IsLabelledBy name label := by
  refine isLabelled.imp id fun labelled => ?_
  exact (grows.entries _ (Array.getElem?_eq_some_iff.mp labelled).1).trans labelled

/-- What a label outside of the `verbatim` family names has this label. -/
theorem Spares.isLabelledBy_define (spares : table.Spares label) (hasLabel : label ≠ "")
    (isOther : ∀ function, table.dialect.builtin? label = some function →
      function.isVerbatim = false) :
    (table.define label).2.IsLabelledBy (table.define label).1 label := by
  cases known : table.dialect.builtin? label with
  | some function =>
    have notVerbatim : ¬Verbatim.startsWith Verbatim.stem function.name = true :=
      Bool.not_eq_true _ ▸ isOther function known
    rw [NameTable.define, known]
    dsimp only
    rw [if_neg notVerbatim]
    split
    · exact .inr (table.getElem?_append_size label)
    · rename_i isNamed
      have isNamed : table.builtinNamed label ≠ .empty :=
        fun isEmpty => isNamed (Handle.isEmpty_iff.mpr isEmpty)
      exact .inr (spares.labelled_of_rootLabel? (builtinNamed_spec isNamed).2)
  | none =>
    rcases define_of_free known hasLabel with ⟨name, owned, _, defined⟩ | defined
    · rw [defined]
      exact .inr (spares.owners _ owned)
    · rw [defined]
      exact .inr (table.getElem?_append_size label)

/-- What the library refers to by a label is a function that is listed by it, or an ordinary name. -/
theorem Spares.isLabelledBy_builtinOrDefine (spares : table.Spares label) (hasLabel : label ≠ "")
    (isOther : ∀ function, table.dialect.builtin? label = some function →
      function.isVerbatim = false) :
    (table.builtinOrDefine label).2.IsLabelledBy (table.builtinOrDefine label).1 label := by
  rw [NameTable.builtinOrDefine]
  split
  · by_cases isNamed : table.builtinNamed label = .empty
    · exact .inl isNamed
    · exact .inr (spares.labelled_of_rootLabel? (builtinNamed_spec isNamed).2)
  · exact spares.isLabelledBy_define hasLabel isOther

/-- The name of `tstore` is the fourth one that the library refers to. -/
theorem exists_tstore_addPredefined (table : NameTable) :
    ∃ before predefined, before = table.withBuiltins ["dataoffset", "datasize", "selfdestruct"] ∧
      table.addPredefined = { (before.builtinOrDefine "tstore").2.withBuiltins
        ["memoryguard", "eq", "add", "sub"] with predefined } ∧
      predefined.tstore = (before.builtinOrDefine "tstore").1 := by
  refine ⟨_, table.addPredefined.predefined, rfl, ?_⟩
  rw [addPredefined, withBuiltins, withBuiltins]
  dsimp only [List.foldl_cons, List.foldl_nil]
  -- The names are taken apart one by one, so that no comparison has to look into them.
  rcases table.builtinOrDefine "dataoffset" with ⟨dataoffset, behindDataoffset⟩
  rcases behindDataoffset.builtinOrDefine "datasize" with ⟨datasize, behindDatasize⟩
  rcases behindDatasize.builtinOrDefine "selfdestruct" with ⟨selfdestruct, behindSelfdestruct⟩
  rcases behindSelfdestruct.builtinOrDefine "tstore" with ⟨tstore, behindTstore⟩
  rcases behindTstore.builtinOrDefine "memoryguard" with ⟨memoryguard, behindMemoryguard⟩
  rcases behindMemoryguard.builtinOrDefine "eq" with ⟨eq, behindEq⟩
  rcases behindEq.builtinOrDefine "add" with ⟨add, behindAdd⟩
  exact ⟨rfl, rfl⟩

/-- Whether the name of `tstore` has its label or is empty, and the empty name is none of the functions. -/
structure RefersToTstore (table : NameTable) : Prop where
  positive : 0 < table.builtinRange.first
  isLabelled : table.IsLabelledBy table.predefined.tstore "tstore"

theorem RefersToTstore.of_grows (refers : table.RefersToTstore) (grows : table.Grows after) :
    after.RefersToTstore where
  positive := grows.builtinRange ▸ refers.positive
  isLabelled := grows.predefined ▸ refers.isLabelled.of_grows grows

theorem Spares.refersToTstore (spares : table.Spares "tstore") (positive : 0 < table.builtinRange.first)
    (isOther : ∀ function, table.dialect.builtin? "tstore" = some function →
      function.isVerbatim = false) : table.addPredefined.RefersToTstore := by
  obtain ⟨before, predefined, isBefore, same, isName⟩ := table.exists_tstore_addPredefined
  have grows : table.Grows before := isBefore ▸ grows_withBuiltins table _
  have sparesBefore : before.Spares "tstore" := isBefore ▸ spares.withBuiltins _
  have isLabelled := sparesBefore.isLabelledBy_builtinOrDefine (by decide)
    (grows.dialect.symm ▸ isOther)
  have growsLater := grows_withBuiltins (before.builtinOrDefine "tstore").2
    ["memoryguard", "eq", "add", "sub"]
  have range := ((grows.trans (grows_builtinOrDefine before "tstore")).trans growsLater).builtinRange
  have isLabelledLater := isLabelled.of_grows growsLater
  rw [← isName] at isLabelledLater
  rw [same]
  generalize (before.builtinOrDefine "tstore").2.withBuiltins _ = last at range isLabelledLater
  rw [← range] at positive
  exact ⟨positive, isLabelledLater⟩

theorem dialect_addBuiltins (table : NameTable) : table.addBuiltins.dialect = table.dialect := by
  have foldl (labels : List String) {table : NameTable} :
      (labels.foldl addBuiltin table).dialect = table.dialect := by
    induction labels generalizing table with
    | nil => rfl
    | cons label rest ih =>
      refine ih.trans ?_
      rw [addBuiltin]
      dsimp only
      split <;> exact (grows_define table label).dialect
  rw [addBuiltins]
  exact (foldl _).trans (grows_define { table with builtinRange := ⟨table.size, table.size⟩ }
    "@ verbatim").dialect

/-- In the table of a dialect the name of `tstore` has its label, or it is empty. -/
theorem refersToTstore_ofDialect (isNamed : ∀ function, dialect.builtin? "tstore" = some function →
    function.name = "tstore") : (ofDialect dialect).RefersToTstore := by
  have isOther : ∀ function, dialect.builtin? "tstore" = some function →
      function.isVerbatim = false := by
    intro function known
    rw [Builtin.isVerbatim, isNamed function known]
    decide
  have typed := (spares_blank dialect (by decide : "" ≠ "tstore")).addTypes
  have isOf : ((blank dialect).append "").2.addTypes.dialect = dialect := dialect_addTypes _
  rw [ofDialect]
  generalize ((blank dialect).append "").2.addTypes = table at typed isOf
  have spares := typed.addBuiltins (by decide)
  have positive : 0 < table.addBuiltins.builtinRange.first := typed.size_pos
  have refers := spares.refersToTstore positive (by rw [dialect_addBuiltins, isOf]; exact isOther)
  generalize table.addBuiltins.addPredefined = predefined at refers
  have provided : predefined.addTypeBuiltins.RefersToTstore := ⟨refers.positive, refers.isLabelled⟩
  generalize predefined.addTypeBuiltins = provides at provided
  have grows := ((grows_define provides "@ 0").trans (grows_define _ "@ 1")).trans
    (grows_define _ "@ 32")
  have placed := provided.of_grows grows
  exact ⟨placed.positive, placed.isLabelled⟩

/-! ### Generations of labels -/

/-- Whether the names with labels keep them, as the library keeps the names that it refers to. -/
structure KeepsLabels (table after : NameTable) : Prop where
  predefined : after.predefined = table.predefined
  builtinRange : after.builtinRange = table.builtinRange
  labelled : ∀ (index : Nat) (label : String), table.entries[index]? = some (.labelled label) →
    after.entries[index]? = some (.labelled label)

theorem KeepsLabels.refl (table : NameTable) : table.KeepsLabels table := ⟨rfl, rfl, fun _ _ => id⟩

/-- The entries of aliases may change, and owners may be added. -/
theorem KeepsLabels.change (keeps : table.KeepsLabels after)
    (isAlias : ∃ base, table.entries[name.index]? = some (.alias base)) (entry : Entry)
    (owners : List (String × Handle)) :
    table.KeepsLabels
      { after with entries := after.entries.setIfInBounds name.index entry, owners } where
  predefined := keeps.predefined
  builtinRange := keeps.builtinRange
  labelled index label labelled := by
    obtain ⟨base, isAlias⟩ := isAlias
    have isOther : name.index ≠ index := by
      rintro rfl
      cases isAlias.symm.trans labelled
    exact (Array.getElem?_setIfInBounds_ne isOther).trans (keeps.labelled index label labelled)

/-- Whether a generation under way has changed aliases only, and will. -/
structure Labelling.KeepsLabels (table : NameTable) (labelling : Labelling) : Prop
    extends table.KeepsLabels labelling.table where
  chosen : ∀ entry ∈ labelling.chosen, ∃ base, table.entries[entry.1.index]? = some (.alias base)

theorem Labelling.KeepsLabels.step {labelling next : Labelling} {reserved : List String}
    (keeps : labelling.KeepsLabels table)
    (isAlias : ∃ base, table.entries[name.index]? = some (.alias base))
    (labelled : labelling.label reserved name = .ok next) : next.KeepsLabels table := by
  obtain ⟨middle, used, before⟩ := labelling
  rw [Labelling.label] at labelled
  obtain ⟨base, _, labelled⟩ := Except.bind_eq_ok_iff.mp labelled
  dsimp only at labelled
  split at labelled
  · cases labelled
    refine ⟨keeps.toKeepsLabels, ?_⟩
    rw [List.forall_mem_append, List.forall_mem_singleton]
    exact ⟨keeps.chosen, isAlias⟩
  · cases labelled
    exact ⟨keeps.toKeepsLabels.change isAlias _ middle.owners, keeps.chosen⟩

theorem Labelling.KeepsLabels.foldlM {labelling last : Labelling} {reserved : List String}
    {names : List Handle} (keeps : labelling.KeepsLabels table)
    (areAliases : ∀ name ∈ names, ∃ base, table.entries[name.index]? = some (.alias base))
    (labelled : names.foldlM (Labelling.label reserved) labelling = .ok last) :
    last.KeepsLabels table := by
  induction names generalizing labelling with
  | nil =>
    cases labelled
    exact keeps
  | cons name rest ih =>
    rw [List.forall_mem_cons] at areAliases
    rw [List.foldlM_cons] at labelled
    obtain ⟨next, first, labelled⟩ := Except.bind_eq_ok_iff.mp labelled
    exact ih (keeps.step areAliases.1 first) areAliases.2 labelled

theorem KeepsLabels.foldl_assign {chosen : List (Handle × String)} (keeps : table.KeepsLabels after)
    (areAliases : ∀ entry ∈ chosen, ∃ base, table.entries[entry.1.index]? = some (.alias base)) :
    table.KeepsLabels (chosen.foldl (fun table (name, label) => table.assign name label) after) := by
  induction chosen generalizing after with
  | nil => exact keeps
  | cons first rest ih =>
    rw [List.forall_mem_cons] at areAliases
    exact ih (keeps.change areAliases.1 _ _) areAliases.2

/-- Labels are generated for aliases only, whatever the table is. -/
theorem keepsLabels_labelAliases {block : Block} {reserved : List String}
    (labelled : table.labelAliases block reserved = .ok after) : table.KeepsLabels after := by
  rw [labelAliases] at labelled
  obtain ⟨used, listed, labelled⟩ := Except.bind_eq_ok_iff.mp labelled
  obtain ⟨aliases, filtered, labelled⟩ := Except.bind_eq_ok_iff.mp labelled
  obtain ⟨labelling, all, labelled⟩ := Except.bind_eq_ok_iff.mp labelled
  cases labelled
  obtain ⟨names, same, awaits, _⟩ := (listsUsed_of_usedLabels listed).exists_aliases
  obtain rfl := Except.ok.inj (same.symm.trans filtered)
  have areAliases : ∀ name ∈ names, ∃ base, table.entries[name.index]? = some (.alias base) :=
    fun name member => ((awaits name).mp member).2.2.isAlias
  have started : Labelling.KeepsLabels table ⟨table, used, []⟩ :=
    ⟨.refl table, List.forall_mem_nil _⟩
  have keeps := started.foldlM areAliases all
  exact keeps.toKeepsLabels.foldl_assign keeps.chosen

/-! ### All tables of a dialect -/

/-- The name of `tstore` keeps its label, whatever programs add and whatever labels are generated. -/
theorem Reachable.refersToTstore (reachable : table.Reachable dialect)
    (isNamed : ∀ function, dialect.builtin? "tstore" = some function → function.name = "tstore") :
    table.RefersToTstore := by
  induction reachable with
  | ofDialect => exact refersToTstore_ofDialect isNamed
  | define _ label ih => exact ih.of_grows (grows_define _ label)
  | derive _ derived ih => exact ih.of_grows (grows_derive derived)
  | defineGhost _ ih => exact ih.of_grows (grows_defineGhost _)
  | labelAliases _ labelled ih =>
    have keeps := keepsLabels_labelAliases labelled
    refine ⟨keeps.builtinRange ▸ ih.positive, ?_⟩
    rw [keeps.predefined]
    exact ih.isLabelled.imp id (keeps.labelled _ "tstore")

/-- Whether the function `tstore`, if there is one, has a label and is no alias. -/
def NamesTstore (table : NameTable) : Prop :=
  ∀ builtin, table.builtin? table.predefined.tstore = .ok (some builtin) →
    table.entries[table.predefined.tstore.index]? = some (.labelled "tstore")

theorem Reachable.namesTstore (reachable : table.Reachable dialect)
    (isNamed : ∀ function, dialect.builtin? "tstore" = some function → function.name = "tstore") :
    table.NamesTstore := by
  obtain ⟨positive, isLabelled⟩ := reachable.refersToTstore isNamed
  intro builtin known
  refine isLabelled.resolve_left fun isEmpty => ?_
  -- The empty name is none of the functions.
  rw [isEmpty, builtin?_of_lt (lt_of_builtin? known)] at known
  have outside : ¬table.builtinRange.contains .empty = true :=
    fun inRange => Nat.not_lt_of_le (HandleRange.contains_iff.mp inRange).1 positive
  rw [show table.root .empty = .empty from rfl, if_neg outside] at known
  cases known

end YulCheck.NameTable
