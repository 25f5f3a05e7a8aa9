import YulCheck.Proofs.Name.Unified

/-! # The labels that are chosen

A generation of labels succeeds for all blocks whose aliases of the `verbatim` family have functions.
In the order of their handles, every alias gets the first candidate of the label that it is shown by
which is neither used nor reserved by then. It owns that label from then on, or becomes the name that
owned it before, and that name is not in the block.

A generation leaves no name in the block without a label. So labels can be generated for it again,
whatever is reserved then, and nothing changes.
-/

namespace YulCheck.NameTable

variable {dialect : Dialect} {unified : Handle → Prop} {table after : NameTable} {name : Handle}
  {names : List Handle} {block : Block} {labels : List (Handle × String)}
  {used reserved : List String} {label : String}

/-- Labels can be generated for names in a faithful table if those that do not await a label have
one. -/
theorem IsFaithful.canLabel (faithful : table.IsFaithful dialect unified)
    (inTable : ∀ name ∈ names, name.index < table.size)
    (hasLabel : ∀ name ∈ names, ¬table.AwaitsLabel name → table.HasLabel name) :
    table.CanLabel names where
  ofDialect index inRange := faithful.hasLabel_of_named (faithful.ofDialect ⟨index⟩ inRange)
  inTable := inTable
  ofProgram := hasLabel

/-! ### Owners of the labels -/

/-- What a generation of labels for a block does about a name that gets a label. -/
structure Gets (table : NameTable) (block : Block) (after : NameTable) (name : Handle)
    (label : String) : Prop where
  answered : after.label name = .ok label
  owns : table.owners.lookup label = none → after.named label = name
  /-- Another name owns the label already, and is not in the block. -/
  shares : ∀ owner, table.owners.lookup label = some owner →
    after.named label = owner ∧ owner ∉ block.names

theorem Generates.gets (generates : table.Generates block reserved used labels after)
    (orderly : table.IsOrderly) (member : (name, label) ∈ labels) :
    table.Gets block after name label where
  answered := generates.label_of_member member
  owns isNew := by
    rw [named, generates.outcome, lookup_assignAll_of_new generates.fresh.distinct member isNew]
    rfl
  shares owner isOwner := by
    refine ⟨?_, fun inBlock => ?_⟩
    · rw [named, generates.outcome, lookup_assignAll isOwner]
      rfl
    · -- The label would be used, and would not have been chosen.
      have labelled := orderly.owners _ (List.mem_of_lookup_eq_some isOwner)
      have notAwaits : ¬table.AwaitsLabel owner := IsNamed.not_awaits (.inl ⟨label, labelled⟩)
      obtain ⟨own, isUsed, isOwn⟩ := generates.lists.ofProgram owner inBlock notAwaits
      obtain rfl := Except.ok.inj (isOwn.symm.trans (label_of_entry labelled))
      exact generates.fresh.isFree _ member (List.mem_append_left _ isUsed)

/-! ### Generations of labels -/

section Bundled

variable {kind : BundledDialect} {version : EvmVersion}

/-- Labels can be generated for every block of names in the table, if its aliases of the `verbatim`
family have functions. The aliases outside of the family get labels in the order of their handles:
each of them the first candidate of its base that is neither used nor reserved. -/
theorem aliases_get_first_free (reachable : table.Reachable (kind.build version))
    (inTable : ∀ name ∈ block.names, name.index < table.size)
    (described : ∀ name ∈ block.names, table.isAlias name = .ok true →
      table.isVerbatim name = .ok true → ∃ signature, table.builtin? name = .ok (some signature))
    (reserved : List String) :
    ∃ used labels after, table.usedLabels block.names = .ok used ∧
      table.labelAliases block reserved = .ok after ∧
      (∀ name, name ∈ labels.map (·.1) ↔ name ∈ block.names ∧
        table.isAlias name = .ok true ∧ table.isVerbatim name = .ok false) ∧
      (labels.map (·.1)).Pairwise (· < ·) ∧ table.Picks used reserved labels ∧
      ∀ name label, (name, label) ∈ labels → table.Gets block after name label := by
  obtain ⟨unified, faithful⟩ :=
    reachable.exists_isFaithful (kind.isCatalogued_build version) (kind.isRegular_build version)
  have canLabel : table.CanLabel block.names :=
    faithful.canLabel inTable fun name inBlock notAwaits =>
      hasLabel_of_not_awaits (inTable name inBlock) notAwaits (described name inBlock)
  obtain ⟨used, listed⟩ := canLabel.exists_usedLabels
  obtain ⟨labels, after, labelled, generates⟩ :=
    exists_labelAliases_of_used faithful.toIsOrderly listed reserved
  refine ⟨used, labels, after, listed, labelled, fun name => ?_, generates.ascending, generates.picks,
    fun name label member => generates.gets faithful.toIsOrderly member⟩
  rw [generates.mem_names_iff faithful, awaitsLabel_iff]

/-- The table with names `x` and `x_1`, an alias of `x`, and an alias of that alias. -/
def chainSample : NameTable := (unifiedSample.appendAlias ⟨26⟩).2

theorem reachable_chainSample : chainSample.Reachable (BundledDialect.generic.build .default) := by
  have inTable : 26 < unifiedSample.size := by decide +kernel
  have derived : unifiedSample.derive ⟨26⟩ = .ok (unifiedSample.appendAlias ⟨26⟩) := by
    rw [derive, require_of_lt inTable]
    rfl
  exact (reachable_iff_exists_history.mpr ⟨_, history_unifiedSample⟩).derive derived

/-- The program that declares `x`, its alias, and the alias of that. -/
def chainBlock : Block := sampleBlock [⟨24⟩, ⟨26⟩, ⟨27⟩]

theorem exists_labelAliases_chain : ∃ after, chainSample.labelAliases chainBlock [] = .ok after ∧
    after.label ⟨26⟩ = .ok "x_1" ∧ after.label ⟨27⟩ = .ok "x_1_1" := by
  have computed : (do
      let after ← chainSample.labelAliases chainBlock []
      return (← after.label ⟨26⟩, ← after.label ⟨27⟩)) = .ok ("x_1", "x_1_1") := by
    decide +kernel
  obtain ⟨after, labelled, computed⟩ := Except.bind_eq_ok_iff.mp computed
  obtain ⟨first, firstLabel, computed⟩ := Except.bind_eq_ok_iff.mp computed
  obtain ⟨second, secondLabel, computed⟩ := Except.bind_eq_ok_iff.mp computed
  cases computed
  exact ⟨after, labelled, firstLabel, secondLabel⟩

/-- In the sample the first alias becomes `x_1`, which is not in the block. The second one is an alias
of `x_1` from then on, and gets the next candidate of that label. -/
theorem aliases_get_first_free_chain :
    (∀ name ∈ chainBlock.names, name.index < chainSample.size) ∧
      (∀ name ∈ chainBlock.names, chainSample.isVerbatim name = .ok false) ∧
      ∃ used labels after, chainSample.usedLabels chainBlock.names = .ok used ∧
        chainSample.labelAliases chainBlock [] = .ok after ∧ chainSample.Picks used [] labels ∧
        (⟨26⟩, "x_1") ∈ labels ∧ after.named "x_1" = ⟨25⟩ ∧ ⟨25⟩ ∉ chainBlock.names ∧
        (⟨27⟩, "x_1_1") ∈ labels ∧ after.named "x_1_1" = ⟨27⟩ := by
  have inTable : ∀ name ∈ chainBlock.names, name.index < chainSample.size := by decide +kernel
  have isOther : ∀ name ∈ chainBlock.names, chainSample.isVerbatim name = .ok false := by
    decide +kernel
  refine ⟨inTable, isOther, ?_⟩
  obtain ⟨used, labels, after, listed, labelled, isIn, _, picks, gets⟩ :=
    aliases_get_first_free reachable_chainSample inTable
      (fun name inBlock _ isVerbatim => nomatch isVerbatim.symm.trans (isOther name inBlock)) []
  obtain ⟨last, same, firstLabel, secondLabel⟩ := exists_labelAliases_chain
  obtain rfl := Except.ok.inj (labelled.symm.trans same)
  have member {name : Handle} {label : String} (inBlock : name ∈ chainBlock.names)
      (isAlias : chainSample.isAlias name = .ok true)
      (isLabel : after.label name = .ok label) : (name, label) ∈ labels := by
    obtain ⟨entry, isEntry, rfl⟩ :=
      List.mem_map.mp ((isIn name).mpr ⟨inBlock, isAlias, isOther name inBlock⟩)
    obtain rfl := Except.ok.inj (isLabel.symm.trans (gets entry.1 entry.2 isEntry).answered)
    exact isEntry
  have first := member (by decide) (by decide +kernel) firstLabel
  have second := member (by decide) (by decide +kernel) secondLabel
  obtain ⟨owner, isOutside⟩ := (gets _ _ first).shares ⟨25⟩ (by decide +kernel)
  exact ⟨used, labels, after, listed, labelled, picks, first, owner, isOutside, second,
    (gets _ _ second).owns (by decide +kernel)⟩

/-! ### Generations that are repeated -/

/-- After a generation of labels for a block, another one for it succeeds, whatever is reserved, and
changes nothing. -/
theorem labelAliases_again (reachable : table.Reachable (kind.build version))
    (labelled : table.labelAliases block reserved = .ok after) (others : List String) :
    after.labelAliases block others = .ok after := by
  have catalogued := kind.isCatalogued_build version
  obtain ⟨unified, faithful⟩ :=
    reachable.exists_isFaithful catalogued (kind.isRegular_build version)
  obtain ⟨used, labels, generates⟩ := exists_generates faithful.toIsOrderly labelled
  have faithfulLater := generates.isFaithful faithful catalogued
  have hasLabel : ∀ name ∈ block.names, after.HasLabel name :=
    fun name inBlock => generates.hasLabel faithful inBlock
  have canLabel : after.CanLabel block.names :=
    faithfulLater.canLabel (fun name inBlock => (hasLabel name inBlock).lt)
      fun name inBlock _ => hasLabel name inBlock
  obtain ⟨usedLater, listed⟩ := canLabel.exists_usedLabels
  obtain ⟨labelsLater, last, labelledLater, again⟩ :=
    exists_labelAliases_of_used faithfulLater.toIsOrderly listed others
  have isNone : labelsLater = [] := by
    rw [List.eq_nil_iff_forall_not_mem]
    intro entry member
    exact (again.awaited.awaits entry member).not_hasLabel
      (hasLabel entry.1 (again.inBlock entry member).1)
  rw [labelledLater, again.outcome, isNone]
  rfl

theorem labelAliases_again_chain : ∃ after,
    chainSample.labelAliases chainBlock [] = .ok after ∧
      after.labelAliases chainBlock ["x", "x_1"] = .ok after := by
  obtain ⟨after, labelled, _⟩ := exists_labelAliases_chain
  exact ⟨after, labelled, labelAliases_again reachable_chainSample labelled ["x", "x_1"]⟩

end Bundled

end YulCheck.NameTable
