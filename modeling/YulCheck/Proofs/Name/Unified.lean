import YulCheck.Proofs.Name.Fresh

/-! # Labels that several names have

A generation of labels may give an alias the label of a name that is not in the block: the alias
becomes that name. Once both of them are in one block, they have the same label there. Nothing else
leads to names with the same label: two names in a block with the same label had it before, and one of
them was unified by an earlier generation.
-/

namespace YulCheck.NameTable

variable {dialect : Dialect} {unified : Handle → Prop} {table after : NameTable}
  {name left right : Handle} {block : Block} {labels : List (Handle × String)}
  {used reserved : List String} {label : String}

/-! ### Consistent tables -/

/-- A label is that of an entry, or that of a function of the `verbatim` family. -/
theorem label_cases (answered : table.label name = .ok label) :
    table.entries[name.index]? = some (.labelled label) ∨
      (∃ base, table.entries[name.index]? = some (.alias base)) ∧
        ∃ signature, table.builtins.lookup name = some signature ∧
          signature.function.name = label := by
  have inTable : name.index < table.size := HasLabel.lt ⟨label, answered⟩
  rcases entry : table.entries[name.index]? with _ | ⟨own | base⟩
  · rw [Array.getElem?_eq_none_iff] at entry
    exact absurd inTable (Nat.not_lt_of_le entry)
  · rw [label_of_entry entry] at answered
    cases answered
    exact .inl rfl
  · refine .inr ⟨⟨base, rfl⟩, ?_⟩
    rw [label_of_alias inTable (hasAlias_iff.mpr ⟨base, entry⟩), builtin?_of_lt inTable] at answered
    split at answered
    · split at answered
      · cases known : table.builtins.lookup name with
        | none =>
          rw [known] at answered
          cases answered
        | some signature =>
          rw [known] at answered
          exact ⟨signature, rfl, Except.ok.inj answered⟩
      · cases answered
    · cases answered

/-- The function of an alias is of the `verbatim` family, and the alias is listed under its arity. -/
theorem IsConsistent.verbatims_of_alias (consistent : table.IsConsistent dialect unified)
    {base : Handle} (isAlias : table.entries[name.index]? = some (.alias base))
    {signature : BuiltinSignature} (known : table.builtins.lookup name = some signature) :
    dialect.builtin? signature.function.name = some signature.function ∧
      signature.function.isVerbatim = true ∧
      table.verbatims.lookup signature.function.arity = some name := by
  have isName := consistent.describes _ (List.mem_of_lookup_eq_some known)
  have isVerbatim : signature.function.isVerbatim = true := by
    by_contra isOther
    have labelled := isName.listed (Bool.eq_false_iff.mpr isOther)
    rw [isAlias] at labelled
    cases labelled
  exact ⟨isName.known, isVerbatim, (isName.family isVerbatim).2⟩

/-- Names with the same label are the same, unless one of them was unified. -/
theorem IsConsistent.eq_of_label (consistent : table.IsConsistent dialect unified)
    (leftLabel : table.label left = .ok label) (rightLabel : table.label right = .ok label) :
    left = right ∨ unified left ∨ unified right := by
  rcases label_cases leftLabel with leftOwn | ⟨⟨leftBase, leftAlias⟩, leftSignature, leftKnown, rfl⟩
  · rcases label_cases rightLabel with
      rightOwn | ⟨⟨rightBase, rightAlias⟩, signature, rightKnown, rfl⟩
    · rcases consistent.owned left label leftOwn with leftOwns | isUnified
      · rcases consistent.owned right label rightOwn with rightOwns | isUnified
        · exact .inl (Option.some.inj (leftOwns.symm.trans rightOwns))
        · exact .inr (.inr isUnified)
      · exact .inr (.inl isUnified)
    · obtain ⟨known, isVerbatim, _⟩ := consistent.verbatims_of_alias rightAlias rightKnown
      have isOther := consistent.outside left _ leftOwn _ known
      rw [isVerbatim] at isOther
      cases isOther
  · obtain ⟨leftFunction, isVerbatim, leftListed⟩ :=
      consistent.verbatims_of_alias leftAlias leftKnown
    rcases label_cases rightLabel with
      rightOwn | ⟨⟨rightBase, rightAlias⟩, rightSignature, rightKnown, same⟩
    · have isOther := consistent.outside right _ rightOwn _ leftFunction
      rw [isVerbatim] at isOther
      cases isOther
    · obtain ⟨rightFunction, _, rightListed⟩ :=
        consistent.verbatims_of_alias rightAlias rightKnown
      rw [same, leftFunction] at rightFunction
      rw [← Option.some.inj rightFunction, leftListed] at rightListed
      exact .inl (Option.some.inj rightListed)

/-! ### Histories -/

section Bundled

variable {kind : BundledDialect} {version : EvmVersion}

/-- If two names in a block have the same label after a generation of labels for the block, they had
it before, and an earlier generation gave one of them the label of another name. -/
theorem History.unified_of_same_label (history : History (kind.build version) table unified)
    (labelled : table.labelAliases block reserved = .ok after) (leftIn : left ∈ block.names)
    (rightIn : right ∈ block.names) (isOther : left ≠ right)
    (same : after.label left = after.label right) :
    (∃ label, table.label left = .ok label ∧ table.label right = .ok label) ∧
      (unified left ∨ unified right) := by
  have catalogued := kind.isCatalogued_build version
  have faithful := history.isFaithful catalogued (kind.isRegular_build version)
  obtain ⟨used, labels, generates⟩ := exists_generates faithful.toIsOrderly labelled
  rcases generates.label_cases faithful leftIn with
    ⟨label, member, leftLabel⟩ | ⟨_, label, _, leftBefore, leftLabel⟩
  · have isSame := generates.eq_of_label faithful member rightIn (same ▸ leftLabel)
    exact absurd isSame.symm isOther
  · rcases generates.label_cases faithful rightIn with
      ⟨_, member, rightLabel⟩ | ⟨_, _, _, rightBefore, rightLabel⟩
    · exact absurd (generates.eq_of_label faithful member leftIn (same.trans rightLabel)) isOther
    · rw [leftLabel, rightLabel] at same
      obtain rfl := Except.ok.inj same
      refine ⟨⟨label, leftBefore, rightBefore⟩, ?_⟩
      exact (faithful.toIsConsistent.eq_of_label leftBefore rightBefore).resolve_left isOther

/-- The table with names `x` and `x_1`, and an alias of `x`. -/
def unifiedSample : NameTable :=
  ((((ofDialect .generic).define "x").2.define "x_1").2.appendAlias ⟨24⟩).2

theorem history_unifiedSample :
    History (BundledDialect.generic.build .default) unifiedSample fun _ => False := by
  have inTable : 24 < (((ofDialect .generic).define "x").2.define "x_1").2.size := by
    decide +kernel
  have derived : (((ofDialect .generic).define "x").2.define "x_1").2.derive ⟨24⟩ =
      .ok ((((ofDialect .generic).define "x").2.define "x_1").2.appendAlias ⟨24⟩) := by
    rw [derive, require_of_lt inTable]
    rfl
  exact ((History.ofDialect.define "x").define "x_1").derive derived

/-- If labels are generated for `x` and its alias, then for `x_1` and the alias, the last two have the
same label. -/
theorem exists_unified_sample : ∃ middle after,
    unifiedSample.labelAliases (sampleBlock [⟨24⟩, ⟨26⟩]) [] = .ok middle ∧
      middle.labelAliases (sampleBlock [⟨25⟩, ⟨26⟩]) [] = .ok after ∧
      after.label ⟨25⟩ = .ok "x_1" ∧ after.label ⟨26⟩ = .ok "x_1" := by
  have computed : (do
      let middle ← unifiedSample.labelAliases (sampleBlock [⟨24⟩, ⟨26⟩]) []
      let after ← middle.labelAliases (sampleBlock [⟨25⟩, ⟨26⟩]) []
      let left ← after.label ⟨25⟩
      let right ← after.label ⟨26⟩
      return (left, right)) = .ok ("x_1", "x_1") := by
    decide +kernel
  obtain ⟨middle, first, computed⟩ := Except.bind_eq_ok_iff.mp computed
  obtain ⟨after, second, computed⟩ := Except.bind_eq_ok_iff.mp computed
  obtain ⟨left, leftLabel, computed⟩ := Except.bind_eq_ok_iff.mp computed
  obtain ⟨right, rightLabel, computed⟩ := Except.bind_eq_ok_iff.mp computed
  cases computed
  exact ⟨middle, after, first, second, leftLabel, rightLabel⟩

/-- Labels do not tell apart all names in a block, since earlier generations may have unified some. -/
theorem not_labels_distinct :
    ¬∀ (kind : BundledDialect) (version : EvmVersion) (table after : NameTable) (block : Block)
      (reserved : List String), table.Reachable (kind.build version) →
        table.labelAliases block reserved = .ok after →
          ∀ left ∈ block.names, ∀ right ∈ block.names, left ≠ right →
            after.label left ≠ after.label right := by
  intro distinct
  obtain ⟨middle, after, first, second, leftLabel, rightLabel⟩ := exists_unified_sample
  have reachable : unifiedSample.Reachable (BundledDialect.generic.build .default) :=
    reachable_iff_exists_history.mpr ⟨_, history_unifiedSample⟩
  refine distinct .generic .default middle after (sampleBlock [⟨25⟩, ⟨26⟩]) []
    (reachable.labelAliases first) second ⟨25⟩ (by decide) ⟨26⟩ (by decide) (by decide) ?_
  rw [leftLabel, rightLabel]

/-- The two names with the same label in the sample had it before, since the first generation unified
one of them. -/
theorem unified_of_same_label_sample : ∃ middle after,
    unifiedSample.labelAliases (sampleBlock [⟨24⟩, ⟨26⟩]) [] = .ok middle ∧
      middle.labelAliases (sampleBlock [⟨25⟩, ⟨26⟩]) [] = .ok after ∧
      after.label ⟨25⟩ = after.label ⟨26⟩ ∧
      (∃ label, middle.label ⟨25⟩ = .ok label ∧ middle.label ⟨26⟩ = .ok label) ∧
      (unifiedSample.UnifiedBy middle ⟨25⟩ ∨ unifiedSample.UnifiedBy middle ⟨26⟩) := by
  obtain ⟨middle, after, first, second, leftLabel, rightLabel⟩ := exists_unified_sample
  have same := leftLabel.trans rightLabel.symm
  obtain ⟨before, isUnified⟩ := (history_unifiedSample.labelAliases first).unified_of_same_label
    second (by decide) (by decide) (by decide) same
  refine ⟨middle, after, first, second, same, before, ?_⟩
  simpa using isUnified

end Bundled

end YulCheck.NameTable
