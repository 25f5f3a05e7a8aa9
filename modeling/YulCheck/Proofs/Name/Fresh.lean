import YulCheck.Dialect.Bundled
import YulCheck.Proofs.Name.Generated

/-! # Fresh labels

After a generation of labels all names in the block have labels. Those that were generated are neither
reserved, nor labels of the dialect, nor names of its functions, nor labels of other names in the
block. Two names in the block can only have the same label if they had it before.
-/

namespace YulCheck.NameTable

variable {dialect : Dialect} {unified : Handle → Prop} {table after : NameTable}
  {name other left right : Handle} {block : Block} {labels : List (Handle × String)}
  {used reserved : List String} {label : String}

/-! ### The names in a block -/

namespace Generates

variable (generates : table.Generates block reserved used labels after)
  (faithful : table.IsFaithful dialect unified)

include generates faithful

/-- A name in the block receives a label, or has one that is taken. -/
theorem label_cases (inBlock : name ∈ block.names) :
    (∃ label, (name, label) ∈ labels ∧ after.label name = .ok label) ∨
      ¬table.AwaitsLabel name ∧
        ∃ label ∈ used, table.label name = .ok label ∧ after.label name = .ok label := by
  by_cases awaits : table.AwaitsLabel name
  · obtain ⟨entry, member, rfl⟩ :=
      List.mem_map.mp ((generates.mem_names_iff faithful).mpr ⟨inBlock, awaits⟩)
    exact .inl ⟨entry.2, member, generates.label_of_member member⟩
  · obtain ⟨label, isUsed, isLabel⟩ := generates.lists.ofProgram name inBlock awaits
    refine .inr ⟨awaits, label, isUsed, isLabel, ?_⟩
    rw [generates.label_of_not_awaits faithful.toIsOrderly faithful.toIsConsistent
      (generates.lists.inTable name inBlock) awaits]
    exact isLabel

theorem hasLabel (inBlock : name ∈ block.names) : after.HasLabel name := by
  rcases generates.label_cases faithful inBlock with
    ⟨label, _, isLabel⟩ | ⟨_, label, _, _, isLabel⟩ <;> exact ⟨label, isLabel⟩

/-- No other name in the block has a label that was generated. -/
theorem eq_of_label (member : (name, label) ∈ labels) (inBlock : other ∈ block.names)
    (same : after.label other = .ok label) : other = name := by
  rcases generates.label_cases faithful inBlock with
    ⟨given, isGiven, isLabel⟩ | ⟨_, kept, isUsed, _, isLabel⟩
  · obtain rfl := Except.ok.inj (isLabel.symm.trans same)
    exact congrArg Prod.fst
      (List.inj_on_of_nodup_map generates.fresh.distinct isGiven member rfl)
  · obtain rfl := Except.ok.inj (isLabel.symm.trans same)
    exact absurd (List.mem_append_left _ isUsed) (generates.fresh.isFree _ member)

/-- No name of the dialect has a label that was generated. -/
theorem label_ne_of_ofDialect (member : (name, label) ∈ labels)
    (ofDialect : other.index < table.builtinRange.stop) : after.label other ≠ .ok label := by
  intro same
  obtain ⟨kept, isUsed, isLabel⟩ := generates.lists.ofDialect other.index ofDialect
  have named := faithful.ofDialect other ofDialect
  rw [generates.label_of_not_awaits faithful.toIsOrderly faithful.toIsConsistent named.lt
    named.not_awaits, isLabel] at same
  obtain rfl := Except.ok.inj same
  exact generates.fresh.isFree _ member (List.mem_append_left _ isUsed)

/-- No function has a label that was generated as its name. -/
theorem builtin?_eq_none (catalogued : dialect.IsCatalogued) (member : (name, label) ∈ labels) :
    dialect.builtin? label = none := by
  rw [Option.eq_none_iff_forall_ne_some]
  intro function known
  have isOther := generates.isVerbatim_of_member faithful catalogued member function known
  obtain ⟨builtin, inRange, labelled, _⟩ := faithful.finds label function known isOther
  exact generates.label_ne_of_ofDialect faithful member (HandleRange.contains_iff.mp inRange).2
    (label_of_entry (generates.getElem?_of_labelled labelled))

end Generates

/-! ### Generations of labels -/

section Bundled

variable {kind : BundledDialect} {version : EvmVersion}

/-- After a generation of labels for a block every name in it has a label. A name that was an alias
before, and not of the `verbatim` family, has one that is not reserved, that no name of the dialect
has, that is not the name of a function, and that no other name in the block has. -/
theorem generated_labels_fresh (reachable : table.Reachable (kind.build version))
    (labelled : table.labelAliases block reserved = .ok after) :
    (∀ name ∈ block.names, ∃ label, after.label name = .ok label) ∧
      ∀ name ∈ block.names, table.isAlias name = .ok true → table.isVerbatim name = .ok false →
        ∃ label, after.label name = .ok label ∧ label ∉ reserved ∧
          (∀ other : Handle, other.index < after.builtinRange.stop →
            after.label other ≠ .ok label) ∧
          (kind.build version).builtin? label = none ∧
          ∀ other ∈ block.names, other ≠ name → after.label other ≠ .ok label := by
  have catalogued := kind.isCatalogued_build version
  obtain ⟨unified, faithful⟩ :=
    reachable.exists_isFaithful catalogued (kind.isRegular_build version)
  obtain ⟨used, labels, generates⟩ := exists_generates faithful.toIsOrderly labelled
  constructor
  · exact fun name inBlock => generates.hasLabel faithful inBlock
  · intro name inBlock isAlias isVerbatim
    have awaits : table.AwaitsLabel name := awaitsLabel_iff.mpr ⟨isAlias, isVerbatim⟩
    rcases generates.label_cases faithful inBlock with
      ⟨label, member, isLabel⟩ | ⟨notAwaits, _⟩
    · refine ⟨label, isLabel, fun isReserved => ?_, fun other ofDialect => ?_,
        generates.builtin?_eq_none faithful catalogued member, fun other otherIn isOther same => ?_⟩
      · exact generates.fresh.isFree _ member (List.mem_append_right _ isReserved)
      · obtain ⟨entries, owners, rfl, _⟩ := generates.exists_eq
        exact generates.label_ne_of_ofDialect faithful member ofDialect
      · exact isOther (generates.eq_of_label faithful member otherIn same)
    · exact absurd awaits notAwaits

/-- The program that declares variables of the type `u256` with the given names. -/
def sampleBlock (names : List Handle) : Block :=
  .mk 1 .none [.declaration .none (names.map fun name => ⟨name.index, .none, name, ⟨8⟩⟩) none]

/-- The table with a name `x` and an alias of it. -/
def aliasSample : NameTable :=
  (((ofDialect .generic).define "x").2.appendAlias ⟨24⟩).2

theorem derive_aliasSample :
    ((ofDialect .generic).define "x").2.derive ⟨24⟩ =
      .ok (((ofDialect .generic).define "x").2.appendAlias ⟨24⟩) := by
  have inTable : 24 < ((ofDialect .generic).define "x").2.size := by decide +kernel
  rw [derive, require_of_lt inTable]
  rfl

theorem reachable_aliasSample : aliasSample.Reachable (BundledDialect.generic.build .default) :=
  (Reachable.ofDialect.define "x").derive derive_aliasSample

theorem exists_labelAliases_sample : ∃ after,
    aliasSample.labelAliases (sampleBlock [⟨25⟩]) ["x"] = .ok after := by
  have succeeds : (aliasSample.labelAliases (sampleBlock [⟨25⟩]) ["x"]).isOk = true := by
    decide +kernel
  cases labelled : aliasSample.labelAliases (sampleBlock [⟨25⟩]) ["x"] with
  | error fault =>
    rw [labelled] at succeeds
    cases succeeds
  | ok after => exact ⟨after, rfl⟩

/-- The alias in the sample program receives a label that is fresh. -/
theorem exists_fresh_label_sample : ∃ after label,
    aliasSample.labelAliases (sampleBlock [⟨25⟩]) ["x"] = .ok after ∧
      aliasSample.isAlias ⟨25⟩ = .ok true ∧ aliasSample.isVerbatim ⟨25⟩ = .ok false ∧
      ⟨25⟩ ∈ (sampleBlock [⟨25⟩]).names ∧ after.label ⟨25⟩ = .ok label ∧ label ∉ ["x"] := by
  obtain ⟨after, labelled⟩ := exists_labelAliases_sample
  have isAlias : aliasSample.isAlias ⟨25⟩ = .ok true := by decide +kernel
  have isVerbatim : aliasSample.isVerbatim ⟨25⟩ = .ok false := by decide +kernel
  have inBlock : ⟨25⟩ ∈ (sampleBlock [⟨25⟩]).names := by decide
  obtain ⟨label, isLabel, notReserved, _⟩ :=
    (generated_labels_fresh reachable_aliasSample labelled).2 ⟨25⟩ inBlock isAlias isVerbatim
  exact ⟨after, label, labelled, isAlias, isVerbatim, inBlock, isLabel, notReserved⟩

end Bundled

end YulCheck.NameTable
