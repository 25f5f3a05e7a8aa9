import YulCheck.Proofs.Build.Numbers
import YulCheck.Proofs.Mirror.Relabels
import YulCheck.Proofs.Name.Kept

/-! # Builders and generated labels

Labels can be generated for the names of a builder at any time. All that was built before remains fit
for checking, and all that is built later is.
-/

namespace YulCheck

variable {kind : BundledDialect} {version : EvmVersion}

/-- A generation of labels keeps what is built. -/
theorem NameTable.Reachable.keepsBuilt_of_labelAliases {table after : NameTable} {block : Block}
    {reserved : List String} (reachable : table.Reachable (kind.build version))
    (labelled : table.labelAliases block reserved = .ok after) : table.KeepsBuilt after := by
  have keeps := reachable.keepsAnswers_of_labelAliases labelled
  have relabels := reachable.relabels (kind.isCatalogued_build version) (kind.isRegular_build version)
    labelled
  refine ⟨fun name hasLabel => ?_, fun name isShown => ?_, fun name hasLabel => ?_⟩
  · obtain ⟨label, isLabel⟩ := hasLabel
    exact ⟨label, keeps.label name label isLabel⟩
  · obtain ⟨label, shown⟩ := isShown
    obtain ⟨other, shownNow, _⟩ := relabels.shown name label shown
    exact ⟨other, shownNow⟩
  · exact keeps.builtin? name hasLabel.lt

namespace Builder

/-- The builders that there can be if labels are generated as well. -/
inductive Arises (dialect : Dialect) : Builder → Prop
  | start : Arises dialect ⟨{ table := .ofDialect dialect }, [], [], []⟩
  | step {builder after : Builder} (before : Arises dialect builder) (step : builder.Step after) :
    Arises dialect after
  /-- Labels are generated for the aliases in any block. -/
  | label {builder : Builder} (before : Arises dialect builder) {block : Block}
    {reserved : List String} {table : NameTable}
    (labelled : builder.elaboration.table.labelAliases block reserved = .ok table) :
    Arises dialect { builder with elaboration := { builder.elaboration with table } }

/-- Whether programs can have the names of a builder, and all its nodes are fit for checking. -/
structure IsFit (dialect : Dialect) (builder : Builder) : Prop where
  reachable : builder.elaboration.table.Reachable dialect
  sound : builder.IsSound dialect
  numbered : builder.IsNumbered

namespace IsFit

variable {dialect : Dialect} {builder after : Builder}

/-- Programs can have all names that a builder goes on to. -/
theorem reachable_step (regular : dialect.IsRegular) (fit : builder.IsFit dialect)
    (step : builder.Step after) : after.elaboration.table.Reachable dialect := by
  cases step with
  | locate | restart => exact fit.reachable
  | define label => exact fit.reachable.define label
  | derive derived => exact fit.reachable.derive derived
  | defineGhost => exact fit.reachable.defineGhost
  | make makes isSplit =>
    exact (fit.sound.yields regular makes isSplit).isExtended.reaches fit.reachable

theorem step (regular : dialect.IsRegular) (fit : builder.IsFit dialect)
    (step : builder.Step after) : after.IsFit dialect :=
  ⟨fit.reachable_step regular step, fit.sound.step regular step,
    fit.numbered.step regular fit.sound step⟩

theorem label (fit : builder.IsFit (kind.build version)) {block : Block} {reserved : List String}
    {table : NameTable}
    (labelled : builder.elaboration.table.labelAliases block reserved = .ok table) :
    IsFit (kind.build version)
      { builder with elaboration := { builder.elaboration with table } } := by
  have reachable := fit.reachable.labelAliases labelled
  have keeps := fit.reachable.keepsBuilt_of_labelAliases labelled
  obtain ⟨unified, faithful⟩ :=
    reachable.exists_isFaithful (kind.isCatalogued_build version) (kind.isRegular_build version)
  exact ⟨reachable, fit.sound.of_keeps keeps faithful.toIsReady (fit.sound.isShown_of_keeps keeps),
    fit.numbered.distinct, fit.numbered.below, fit.numbered.earlier⟩

end IsFit

theorem Arises.isFit {builder : Builder} (arises : builder.Arises (kind.build version)) :
    builder.IsFit (kind.build version) := by
  have regular := kind.isRegular_build version
  induction arises with
  | start => exact ⟨.ofDialect, isSound_start regular, List.nodup_nil, nofun, nofun⟩
  | step _ step ih => exact ih.step regular step
  | label _ labelled ih => exact ih.label labelled

end Builder

/-! ### Blocks of builders -/

/-- Whether a builder for a dialect made a block, and has the names of a table now. Labels may have
been generated before and after. -/
def NameTable.HasMade (dialect : Dialect) (table : NameTable) (block : Block) : Prop :=
  ∃ builder : Builder, builder.Arises dialect ∧ builder.elaboration.table = table ∧
    .block block ∈ builder.nodes ++ builder.earlier

namespace NameTable.HasMade

variable {table : NameTable} {block : Block}

theorem isReady (hasMade : table.HasMade (kind.build version) block) :
    table.IsReady (kind.build version) := by
  obtain ⟨builder, arises, isTable, _⟩ := hasMade
  exact isTable ▸ arises.isFit.sound.ready

theorem isBuilt (hasMade : table.HasMade (kind.build version) block) :
    block.IsBuilt table ∧ block.owners.Nodup := by
  obtain ⟨builder, arises, isTable, isMade⟩ := hasMade
  exact isTable ▸ arises.isFit.sound.of_mem isMade

theorem nodup_numbers (hasMade : table.HasMade (kind.build version) block) : block.numbers.Nodup := by
  obtain ⟨builder, arises, _, isMade⟩ := hasMade
  exact arises.isFit.numbered.of_mem isMade

end NameTable.HasMade

end YulCheck
