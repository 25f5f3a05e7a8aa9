import YulCheck.Proofs.Name.Ready

/-! # Names with answers

The questions that checking asks about names have answers in tables that are ready: every name that
`define` returns has a label, and so have all types. A name that was derived from one outside of the
`verbatim` family is shown by the label at the end of its chain of aliases. All answers stay what they
are while the table grows.
-/

namespace YulCheck.NameTable

variable {dialect : Dialect} {table after : NameTable} {name base : Handle}

/-- Whether a name has a label. -/
def HasLabel (table : NameTable) (name : Handle) : Prop := ∃ label, table.label name = .ok label

/-- Whether messages can show a name. -/
def IsShown (table : NameTable) (name : Handle) : Prop :=
  ∃ label, table.shownLabel name = .ok label

/-! ### Names with labels -/

theorem HasLabel.lt (hasLabel : table.HasLabel name) : name.index < table.size := by
  obtain ⟨label, answered⟩ := hasLabel
  by_cases inTable : name.index < table.size
  · exact inTable
  · rw [NameTable.label, require, contains, decide_eq_false inTable] at answered
    cases answered

theorem shownLabel_of_lt (inTable : name.index < table.size) :
    table.shownLabel name =
      if (table.hasAlias name && !decide (table.root name = table.predefined.verbatim)) = true then
        table.baseLabel name
      else table.label name := by
  rw [shownLabel, isAlias_of_lt inTable, isVerbatim_of_lt inTable]
  rfl

/-- A name with a label is shown by it. -/
theorem shownLabel_of_label {label : String} (labelled : table.label name = .ok label) :
    table.shownLabel name = .ok label := by
  have inTable := HasLabel.lt ⟨label, labelled⟩
  rw [shownLabel_of_lt inTable]
  split
  · rename_i isDerived
    rw [Bool.and_eq_true, Bool.not_eq_true', decide_eq_false_iff_not] at isDerived
    rw [label_of_alias inTable isDerived.1, if_neg isDerived.2] at labelled
    cases labelled
  · exact labelled

theorem HasLabel.isShown (hasLabel : table.HasLabel name) : table.IsShown name :=
  hasLabel.imp fun _ => shownLabel_of_label

theorem IsShown.lt (isShown : table.IsShown name) : name.index < table.size := by
  obtain ⟨label, answered⟩ := isShown
  obtain ⟨isAlias, first, _⟩ := Except.bind_eq_ok_iff.mp answered
  exact (lt_of_isAlias first).1

/-- Named names have labels, those of the `verbatim` family by their functions. -/
theorem IsNamed.hasLabel (named : table.IsNamed name)
    (inRange : table.builtinRange.contains table.predefined.verbatim = true) :
    table.HasLabel name := by
  have inTable := named.lt
  rcases named with ⟨label, labelled⟩ | described
  · exact ⟨label, label_of_entry labelled⟩
  · obtain ⟨signature, known⟩ := Option.isSome_iff_exists.mp described.function
    obtain ⟨base, isAlias⟩ := described.isAlias
    have hasAlias : table.hasAlias name = true := by rw [hasAlias, isAlias]
    refine ⟨signature.function.name, ?_⟩
    rw [label_of_alias inTable hasAlias, if_pos described.root, builtin?_of_lt inTable,
      described.root, if_pos inRange, known]
    rfl

/-- The name at the end of a chain of aliases has a label. -/
theorem IsOrderly.exists_label_root (orderly : table.IsOrderly) (inTable : name.index < table.size) :
    ∃ label, table.entries[(table.root name).index]? = some (.labelled label) := by
  have rootInTable : (table.root name).index < table.size :=
    Nat.lt_of_le_of_lt (followAliases_le orderly.back name.index name) inTable
  have entry : table.entries[(table.root name).index]? =
      some table.entries[(table.root name).index] := Array.getElem?_eq_getElem rootInTable
  rcases known : table.entries[(table.root name).index] with label | base
  · rw [known] at entry
    exact ⟨label, entry⟩
  · rw [known] at entry
    exact absurd entry (followAliases_ne_alias orderly.back (Nat.le_refl _) base)

theorem baseLabel_of_root (inTable : name.index < table.size) {label : String}
    (labelled : table.entries[(table.root name).index]? = some (.labelled label)) :
    table.baseLabel name = .ok label := by
  rw [baseLabel, base_of_lt inTable]
  exact label_of_entry labelled

/-- Outside of the `verbatim` family names are shown by the labels at the ends of their chains. -/
theorem shownLabel_of_root (inTable : name.index < table.size)
    (isOther : table.root name ≠ table.predefined.verbatim) {label : String}
    (labelled : table.entries[(table.root name).index]? = some (.labelled label)) :
    table.shownLabel name = .ok label := by
  rw [shownLabel_of_lt inTable]
  split
  · exact baseLabel_of_root inTable labelled
  · rename_i isPlain
    rw [decide_eq_false isOther, Bool.not_false, Bool.and_true, Bool.not_eq_true] at isPlain
    have isRoot : table.root name = name := by
      have enough (count : Nat) : followAliases table.entries count name = name := by
        cases count with
        | zero => rfl
        | succ steps =>
          rw [followAliases]
          split
          · rename_i isAlias
            rw [hasAlias, isAlias] at isPlain
            cases isPlain
          · rfl
      exact enough name.index
    rw [isRoot] at labelled
    exact label_of_entry labelled

theorem IsOrderly.isShown (orderly : table.IsOrderly) (inTable : name.index < table.size)
    (isOther : table.root name ≠ table.predefined.verbatim) : table.IsShown name := by
  obtain ⟨label, labelled⟩ := orderly.exists_label_root inTable
  exact ⟨label, shownLabel_of_root inTable isOther labelled⟩

/-! ### Answers of tables that grow -/

namespace Grows

theorem hasAlias (grows : table.Grows after) (inTable : name.index < table.size) :
    after.hasAlias name = table.hasAlias name := by
  rw [NameTable.hasAlias, NameTable.hasAlias, grows.entries _ inTable]

theorem isAlias (grows : table.Grows after) (inTable : name.index < table.size) :
    after.isAlias name = table.isAlias name := by
  rw [isAlias_of_lt inTable, isAlias_of_lt (Nat.lt_of_lt_of_le inTable grows.size),
    grows.hasAlias inTable]

theorem isVerbatim (grows : table.Grows after) (back : RefersBack table.entries)
    (inTable : name.index < table.size) : after.isVerbatim name = table.isVerbatim name := by
  rw [isVerbatim_of_lt inTable, isVerbatim_of_lt (Nat.lt_of_lt_of_le inTable grows.size),
    grows.root back inTable, grows.predefined]

theorem builtin? (grows : table.Grows after) (back : RefersBack table.entries)
    (inTable : name.index < table.size) : after.builtin? name = table.builtin? name := by
  rw [builtin?_of_lt inTable, builtin?_of_lt (Nat.lt_of_lt_of_le inTable grows.size),
    grows.root back inTable, grows.builtinRange, grows.builtins name inTable]

theorem label (grows : table.Grows after) (back : RefersBack table.entries)
    (inTable : name.index < table.size) : after.label name = table.label name := by
  have inAfter := Nat.lt_of_lt_of_le inTable grows.size
  rw [NameTable.label, NameTable.label, require_of_lt inTable, require_of_lt inAfter,
    grows.entries _ inTable, grows.isVerbatim back inTable, grows.builtin? back inTable]

theorem shownLabel (grows : table.Grows after) (back : RefersBack table.entries)
    (inTable : name.index < table.size) : after.shownLabel name = table.shownLabel name := by
  have rootInTable : (table.root name).index < table.size :=
    Nat.lt_of_le_of_lt (followAliases_le back name.index name) inTable
  have baseLabel : after.baseLabel name = table.baseLabel name := by
    rw [NameTable.baseLabel, NameTable.baseLabel, base_of_lt inTable,
      base_of_lt (Nat.lt_of_lt_of_le inTable grows.size), grows.root back inTable]
    exact grows.label back rootInTable
  rw [NameTable.shownLabel, NameTable.shownLabel, grows.isAlias inTable,
    grows.isVerbatim back inTable, grows.label back inTable, baseLabel]

theorem hasLabel (grows : table.Grows after) (back : RefersBack table.entries)
    (hasLabel : table.HasLabel name) : after.HasLabel name := by
  rw [HasLabel, grows.label back hasLabel.lt]
  exact hasLabel

theorem isShown (grows : table.Grows after) (back : RefersBack table.entries)
    (isShown : table.IsShown name) : after.IsShown name := by
  rw [IsShown, grows.shownLabel back isShown.lt]
  exact isShown

end Grows

/-! ### Tables that are ready -/

namespace IsReady

theorem hasLabel_of_named (ready : table.IsReady dialect) (named : table.IsNamed name) :
    table.HasLabel name := named.hasLabel ready.inRange

theorem hasLabel_of_isType (ready : table.IsReady dialect) (isType : table.isType name = true) :
    table.HasLabel name := ready.hasLabel_of_named (ready.ofType name isType)

/-- The types of the functions of the dialect have labels. -/
theorem hasLabel_of_builtin? (ready : table.IsReady dialect) {builtin : BuiltinSignature}
    (answered : table.builtin? name = .ok (some builtin)) {type : TypeHandle}
    (isOne : type ∈ builtin.parameters ++ builtin.returns) : table.HasLabel type :=
  ready.hasLabel_of_isType (ready.functions _ (mem_builtins_of_builtin? answered) type isOne)

/-- What is found among the types has a label. -/
theorem hasLabel_typeNamed (ready : table.IsReady dialect) {label : String}
    (isNamed : table.typeNamed label ≠ .empty) : table.HasLabel (table.typeNamed label) := by
  rw [typeNamed] at isNamed ⊢
  cases found : table.types.find? (·.2 = label) with
  | none =>
    rw [found] at isNamed
    exact absurd rfl isNamed
  | some entry => exact ready.hasLabel_of_named (ready.listed entry (List.mem_of_find?_eq_some found))

/-- A name that is derived from one outside of the `verbatim` family can be shown. -/
theorem isShown_of_derive (ready : table.IsReady dialect)
    (derived : table.derive base = .ok (name, after)) {isVerbatim : Bool}
    (family : table.isVerbatim base = .ok isVerbatim) (isOther : ¬isVerbatim = true) :
    after.IsShown name := by
  obtain ⟨inTable, appended⟩ := derive_eq_ok derived
  have orderly := ready.toIsOrderly.derive derived
  have root := ready.toIsOrderly.root_appendAlias inTable
  have size := table.size_appendAlias base
  rw [isVerbatim_of_lt inTable] at family
  obtain rfl := Except.ok.inj family
  obtain ⟨rfl, rfl⟩ := Prod.mk.inj appended
  apply orderly.isShown (size ▸ Nat.lt_succ_self table.size)
  intro same
  exact isOther (decide_eq_true (root.symm.trans same))

end IsReady

end YulCheck.NameTable
