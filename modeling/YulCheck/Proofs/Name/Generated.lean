import YulCheck.Proofs.Name.Faithful

/-! # Tables with generated labels

What a generation of labels changes about the answers of a table, and what it does not: names with a
label keep it, functions and the `verbatim` family are what they were, and the label by which a name is
shown comes from the one by which it was shown. A faithful table remains faithful.
-/

namespace YulCheck.NameTable

variable {dialect : Dialect} {unified : Handle → Prop} {table after : NameTable} {name : Handle}
  {block : Block} {labels : List (Handle × String)} {used reserved : List String}

/-! ### The `verbatim` family -/

/-- Labels do not move names into the `verbatim` family, nor out of it. -/
theorem Awaited.root_eq_verbatim_iff (awaited : table.Awaited labels) (orderly : table.IsOrderly)
    (name : Handle) :
    (table.assignAll labels).root name = table.predefined.verbatim ↔
      table.root name = table.predefined.verbatim := by
  let Keeps (middle : NameTable) : Prop := middle.predefined = table.predefined ∧
    (middle.root name = table.predefined.verbatim ↔ table.root name = table.predefined.verbatim)
  have keeps : Keeps (table.assignAll labels) := by
    refine awaited.induct Keeps orderly ⟨rfl, Iff.rfl⟩ fun middle isOrderly before entry _ awaits => ?_
    refine ⟨before.1, Iff.trans ?_ before.2⟩
    rcases root_assign isOrderly.back awaits.lt entry.2 name with same | ⟨atName, sameRoot⟩
    · rw [same]
    · -- The chain ended outside of the family before, and ends at a name with a label now.
      obtain ⟨base, labelled⟩ := isOrderly.verbatim
      rw [atName, sameRoot, ← before.1]
      refine iff_of_false (fun isBase => ?_) awaits.isOther
      exact awaits.ne_of_labelled labelled (congrArg Handle.index isBase.symm)
  exact keeps.2

namespace Generates

variable (generates : table.Generates block reserved used labels after)

include generates

/-! ### What stays the same -/

theorem exists_eq : ∃ entries owners, after = { table with entries, owners } ∧
    entries.size = table.size := by
  rw [generates.outcome]
  exact exists_assignAll_eq table labels

theorem size_eq : after.size = table.size := by
  rw [generates.outcome, size_assignAll]

/-- Names that do not await a label keep their entries. -/
theorem getElem?_of_not_awaits (hasLabel : ¬table.AwaitsLabel name) :
    after.entries[name.index]? = table.entries[name.index]? := by
  rw [generates.outcome]
  refine getElem?_assignAll_of_ne fun entry member same => hasLabel ?_
  have isName : entry.1 = name := congrArg Handle.mk same
  exact isName ▸ generates.awaited.awaits entry member

theorem isAlias_of_not_awaits (inTable : name.index < table.size)
    (hasLabel : ¬table.AwaitsLabel name) : after.isAlias name = table.isAlias name := by
  rw [isAlias_of_lt inTable, isAlias_of_lt (generates.size_eq.symm ▸ inTable), hasAlias, hasAlias,
    generates.getElem?_of_not_awaits hasLabel]

theorem getElem?_of_labelled {label : String}
    (labelled : table.entries[name.index]? = some (.labelled label)) :
    after.entries[name.index]? = some (.labelled label) := by
  rw [generates.getElem?_of_not_awaits (IsNamed.not_awaits (.inl ⟨label, labelled⟩))]
  exact labelled

theorem label_of_member {entry : Handle × String} (member : entry ∈ labels) :
    after.label entry.1 = .ok entry.2 := by
  rw [generates.outcome]
  exact label_of_entry (generates.awaited.getElem?_assignAll member)

/-- A label was given, or it was there before. -/
theorem entry_cases {label : String}
    (labelled : after.entries[name.index]? = some (.labelled label)) :
    (name, label) ∈ labels ∨ table.entries[name.index]? = some (.labelled label) := by
  by_cases member : name ∈ labels.map (·.1)
  · obtain ⟨entry, isEntry, rfl⟩ := List.mem_map.mp member
    have given := generates.awaited.getElem?_assignAll isEntry
    rw [← generates.outcome, labelled] at given
    cases given
    exact .inl isEntry
  · refine .inr (Eq.trans ?_ labelled)
    rw [generates.outcome]
    refine (getElem?_assignAll_of_ne fun entry isEntry sameIndex => member ?_).symm
    exact List.mem_map.mpr ⟨entry, isEntry, congrArg Handle.mk sameIndex⟩

section Orderly

variable (orderly : table.IsOrderly)

include orderly

theorem isOrderly : after.IsOrderly := by
  rw [generates.outcome]
  exact generates.awaited.isOrderly orderly

theorem isNamed (named : table.IsNamed name) : after.IsNamed name := by
  rw [generates.outcome]
  exact generates.awaited.isNamed orderly named

theorem isVerbatim (inTable : name.index < table.size) :
    after.isVerbatim name = table.isVerbatim name := by
  obtain ⟨entries, owners, same, size⟩ := generates.exists_eq
  have predefined : after.predefined = table.predefined := by rw [same]
  rw [isVerbatim_of_lt inTable, isVerbatim_of_lt (generates.size_eq.symm ▸ inTable), predefined]
  congr 1
  rw [decide_eq_decide, generates.outcome]
  exact generates.awaited.root_eq_verbatim_iff orderly name

/-- Aliases that await no label are of the `verbatim` family. -/
theorem root_of_not_awaits (hasLabel : ¬table.AwaitsLabel name) : after.root name = table.root name := by
  by_cases isVerbatim : table.root name = table.predefined.verbatim
  · rw [isVerbatim, generates.outcome]
    exact (generates.awaited.root_eq_verbatim_iff orderly name).mpr isVerbatim
  · have entry := generates.getElem?_of_not_awaits hasLabel
    rcases known : table.entries[name.index]? with _ | ⟨label | base⟩
    · rw [root_of_outside known, root_of_outside (entry.trans known)]
    · rw [root_of_labelled known, root_of_labelled (entry.trans known)]
    · exact absurd ⟨⟨base, known⟩, isVerbatim⟩ hasLabel

/-- The label at the end of every chain of aliases comes from the one that was there. -/
theorem keepsBases : table.KeepsBases after := by
  intro name base atRoot
  have inTable : name.index < table.size := by
    by_contra outside
    have isNone := Array.getElem?_eq_none (Nat.le_of_not_lt outside)
    rw [rootLabel?, root_of_outside isNone, isNone] at atRoot
    cases atRoot
  obtain ⟨label, labelled⟩ :=
    (generates.isOrderly orderly).exists_label_root (generates.size_eq.symm ▸ inTable)
  refine ⟨label, rootLabel?_eq_some_iff.mpr labelled, ?_⟩
  have sameRoot : table.root (after.root name) = table.root name := by
    rw [generates.outcome]
    exact generates.awaited.root_root orderly name
  generalize after.root name = last at labelled sameRoot
  rw [rootLabel?_eq_some_iff, ← sameRoot, ← rootLabel?_eq_some_iff] at atRoot
  by_cases member : last ∈ labels.map (·.1)
  · -- The chain now ends at a name with a new label, which comes from the end of its old chain.
    obtain ⟨entry, isEntry, rfl⟩ := List.mem_map.mp member
    obtain ⟨first, atFirst, comes⟩ := generates.fresh.comes entry isEntry
    have given := generates.awaited.getElem?_assignAll isEntry
    rw [← generates.outcome, labelled] at given
    cases given
    obtain rfl := Option.some.inj (atFirst.symm.trans atRoot)
    exact comes
  · have before : table.entries[last.index]? = some (.labelled label) := by
      rw [← labelled, generates.outcome]
      refine (getElem?_assignAll_of_ne fun entry isEntry sameIndex => member ?_).symm
      exact List.mem_map.mpr ⟨entry, isEntry, congrArg Handle.mk sameIndex⟩
    rw [rootLabel?_eq_some_iff, root_of_labelled before, before] at atRoot
    cases atRoot
    exact .base

end Orderly

section Consistent

variable (orderly : table.IsOrderly) (consistent : table.IsConsistent dialect unified)

include orderly consistent

/-- Functions are what they were. -/
theorem builtin? (inTable : name.index < table.size) :
    after.builtin? name = table.builtin? name := by
  obtain ⟨entries, owners, same, size⟩ := generates.exists_eq
  have builtins : after.builtins = table.builtins := by rw [same]
  have range : after.builtinRange = table.builtinRange := by rw [same]
  rw [builtin?_of_lt inTable, builtin?_of_lt (generates.size_eq.symm ▸ inTable), builtins, range]
  cases known : table.builtins.lookup name with
  | none => rw [ite_self, ite_self]
  | some signature =>
    rw [generates.root_of_not_awaits orderly (consistent.isNamed known).not_awaits]

/-- Names that do not await a label keep the one that they have. -/
theorem label_of_not_awaits (inTable : name.index < table.size)
    (hasLabel : ¬table.AwaitsLabel name) : after.label name = table.label name := by
  rw [NameTable.label, NameTable.label, require_of_lt inTable,
    require_of_lt (generates.size_eq.symm ▸ inTable), generates.getElem?_of_not_awaits hasLabel,
    generates.isVerbatim orderly inTable, generates.builtin? orderly consistent inTable]

end Consistent

/-! ### Faithful tables -/

section Faithful

variable (faithful : table.IsFaithful dialect unified)

include faithful

/-- The names that receive a label are the names in the block that await one. -/
theorem mem_names_iff :
    name ∈ labels.map (·.1) ↔ name ∈ block.names ∧ table.AwaitsLabel name := by
  constructor
  · intro member
    obtain ⟨entry, isEntry, rfl⟩ := List.mem_map.mp member
    exact ⟨(generates.inBlock entry isEntry).1, generates.awaited.awaits entry isEntry⟩
  · rintro ⟨inBlock, awaits⟩
    refine generates.complete name inBlock ?_ awaits
    by_contra ofDialect
    exact (faithful.ofDialect name (Nat.lt_of_not_le ofDialect)).not_awaits awaits

/-- No label that is given is of the `verbatim` family: neither is the label that it comes from, and
numbers do not lead there. -/
theorem isVerbatim_of_member (catalogued : dialect.IsCatalogued) {entry : Handle × String}
    (member : entry ∈ labels) :
    ∀ function, dialect.builtin? entry.2 = some function → function.isVerbatim = false := by
  obtain ⟨base, atRoot, comes⟩ := generates.fresh.comes entry member
  let Outside (label : String) : Prop :=
    ∀ function, dialect.builtin? label = some function → function.isVerbatim = false
  have ofBase : Outside base := faithful.outside _ base (rootLabel?_eq_some_iff.mp atRoot)
  have ofLabel : Outside entry.2 :=
    comes.keeps ofBase fun label number _ => catalogued.numbered label number
  exact ofLabel

theorem isConsistent (catalogued : dialect.IsCatalogued) :
    after.IsConsistent dialect fun name => unified name ∨ table.UnifiedBy after name := by
  have orderly := faithful.toIsOrderly
  obtain ⟨entries, owners, same, _⟩ := generates.exists_eq
  refine ⟨fun name label labelled => ?_, fun entry listed => ?_, fun name label labelled => ?_⟩
  · rcases generates.entry_cases labelled with member | before
    · exact generates.isVerbatim_of_member faithful catalogued member
    · exact faithful.outside name label before
  · have builtins : after.builtins = table.builtins := by rw [same]
    have verbatims : after.verbatims = table.verbatims := by rw [same]
    refine (faithful.describes entry (builtins ▸ listed)).mono
      (fun label => generates.getElem?_of_labelled) (fun described => ?_) (verbatims ▸ id)
    rw [generates.outcome]
    exact generates.awaited.isDescribed orderly described
  · rcases generates.entry_cases labelled with member | before
    · -- A label that was given has an owner: the name itself, or another one.
      have owned : ((table.assignAll labels).owners.lookup label).isSome = true :=
        owned_assignAll member
      rw [← generates.outcome] at owned
      obtain ⟨owner, isOwner⟩ := Option.isSome_iff_exists.mp owned
      by_cases isSame : owner = name
      · exact .inl (isSame ▸ isOwner)
      · refine .inr (.inr ⟨?_, label, generates.label_of_member member, ?_⟩)
        · have awaits := generates.awaited.awaits _ member
          exact needsLabel_eq_iff.mpr ⟨awaits.lt, iff_of_true rfl awaits⟩
        · rw [named, isOwner]
          exact isSame
    · refine (faithful.owned name label before).imp (fun owned => ?_) .inl
      rw [generates.outcome]
      exact lookup_assignAll owned labels

theorem isFaithful (catalogued : dialect.IsCatalogued) :
    after.IsFaithful dialect fun name => unified name ∨ table.UnifiedBy after name where
  toIsReady := by
    rw [generates.outcome]
    exact faithful.toIsReady.assignAll generates.awaited
  toIsConsistent := generates.isConsistent faithful catalogued
  finds label function known isOther := by
    obtain ⟨name, inRange, listed⟩ := faithful.finds label function known isOther
    obtain ⟨entries, owners, same, _⟩ := generates.exists_eq
    have range : after.builtinRange = table.builtinRange := by rw [same]
    have builtins : after.builtins = table.builtins := by rw [same]
    exact ⟨name, range ▸ inRange, generates.getElem?_of_labelled listed.labelled,
      builtins ▸ listed.described⟩
  positive := by
    obtain ⟨entries, owners, same, _⟩ := generates.exists_eq
    rw [same]
    exact faithful.positive
  ofDialect name inRange := by
    obtain ⟨entries, owners, same, _⟩ := generates.exists_eq
    have range : after.builtinRange = table.builtinRange := by rw [same]
    exact generates.isNamed faithful.toIsOrderly (faithful.ofDialect name (range ▸ inRange))

end Faithful

end Generates

/-! ### Histories -/

/-- The name tables of a dialect that programs can have, with the names that got the label of another
name in a generation of labels. -/
inductive History (dialect : Dialect) : NameTable → (Handle → Prop) → Prop
  | ofDialect : History dialect (ofDialect dialect) fun _ => False
  | define {table : NameTable} {unified : Handle → Prop} (before : History dialect table unified)
    (label : String) : History dialect (table.define label).2 unified
  | derive {table after : NameTable} {unified : Handle → Prop}
    (before : History dialect table unified) {base name : Handle}
    (derived : table.derive base = .ok (name, after)) : History dialect after unified
  | defineGhost {table : NameTable} {unified : Handle → Prop}
    (before : History dialect table unified) : History dialect table.defineGhost.2 unified
  | labelAliases {table after : NameTable} {unified : Handle → Prop}
    (before : History dialect table unified) {block : Block} {reserved : List String}
    (labelled : table.labelAliases block reserved = .ok after) :
    History dialect after fun name => unified name ∨ table.UnifiedBy after name

/-- Every table that programs can have has a history. -/
theorem reachable_iff_exists_history :
    table.Reachable dialect ↔ ∃ unified, History dialect table unified := by
  constructor
  · intro reachable
    induction reachable with
    | ofDialect => exact ⟨_, .ofDialect⟩
    | define before label ih =>
      obtain ⟨unified, history⟩ := ih
      exact ⟨unified, history.define label⟩
    | derive before derived ih =>
      obtain ⟨unified, history⟩ := ih
      exact ⟨unified, history.derive derived⟩
    | defineGhost before ih =>
      obtain ⟨unified, history⟩ := ih
      exact ⟨unified, history.defineGhost⟩
    | labelAliases before labelled ih =>
      obtain ⟨unified, history⟩ := ih
      exact ⟨_, history.labelAliases labelled⟩
  · rintro ⟨unified, history⟩
    induction history with
    | ofDialect => exact .ofDialect
    | define before label ih => exact ih.define label
    | derive before derived ih => exact ih.derive derived
    | defineGhost before ih => exact ih.defineGhost
    | labelAliases before labelled ih => exact ih.labelAliases labelled

theorem History.isFaithful (catalogued : dialect.IsCatalogued) (regular : dialect.IsRegular)
    (history : History dialect table unified) : table.IsFaithful dialect unified := by
  induction history with
  | ofDialect => exact .of_ofDialect catalogued regular
  | define before label ih => exact ih.define catalogued regular label
  | derive before derived ih => exact ih.derive derived
  | defineGhost before ih => exact ih.defineGhost catalogued regular
  | labelAliases before labelled ih =>
    obtain ⟨used, labels, generates⟩ := exists_generates ih.toIsOrderly labelled
    exact generates.isFaithful ih catalogued

/-- All tables that programs can have are faithful to their dialect. -/
theorem Reachable.exists_isFaithful (catalogued : dialect.IsCatalogued)
    (regular : dialect.IsRegular) (reachable : table.Reachable dialect) :
    ∃ unified, table.IsFaithful dialect unified := by
  obtain ⟨unified, history⟩ := reachable_iff_exists_history.mp reachable
  exact ⟨unified, history.isFaithful catalogued regular⟩

end YulCheck.NameTable
