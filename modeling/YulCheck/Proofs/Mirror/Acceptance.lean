import YulCheck.Proofs.Judgement.Acceptance
import YulCheck.Proofs.Mirror.Statements
import YulCheck.Proofs.Name.Fresh

/-! # Accepted programs with generated labels

A program that is found to be correct is found to be correct after labels were generated, for itself or
for any other program: the run is the same, so it comes to the same diagnostics and facts.
-/

namespace YulCheck.Workspace

open Walk

variable {workspace : Workspace} {block : Block} {dataNames : List String} {outcome : Outcome}
  {names : NameTable}

/-- A program is found to be correct if and only if the run over it passes. -/
theorem analyze_eq_ok_iff_passes :
    workspace.analyze none () block dataNames = .ok (outcome, ()) ∧ outcome.isCorrect = true ↔
      let checker := workspace.checker dataNames
      ∃ after, (checker.setting.checkProgram (checker.place block) block).Passes
          (checker.start workspace.reporter {} ()) () after ∧
        outcome = ⟨true, after.facts, after.reporter.diagnostics.toList⟩ := by
  constructor
  · rintro ⟨analyzed, isCorrect⟩
    rw [analyze] at analyzed
    obtain ⟨analysis, analyzedBlock, concluded⟩ := Except.bind_eq_ok_iff.mp analyzed
    cases concluded
    obtain ⟨after, passes, rfl⟩ := Checker.analyze_eq_ok_iff_passes.mp ⟨analyzedBlock, isCorrect⟩
    exact ⟨after, passes, rfl⟩
  · rintro ⟨after, passes, rfl⟩
    obtain ⟨analyzedBlock, _⟩ := Checker.analyze_eq_ok_iff_passes.mpr ⟨after, passes, rfl⟩
    refine ⟨?_, rfl⟩
    rw [analyze, analyzedBlock]
    rfl

/-- A program that is found to be correct is found to be correct after a generation of labels, for
itself or another program. The same is found out about it, and the same is reported. -/
theorem analyze_of_labelAliases {kind : BundledDialect} {version : EvmVersion} {other : Block}
    {reserved : List String} (reachable : workspace.names.Reachable (kind.build version))
    (analyzed : workspace.analyze none () block dataNames = .ok (outcome, ()))
    (isCorrect : outcome.isCorrect = true)
    (labelled : workspace.names.labelAliases other reserved = .ok names) :
    { workspace with names }.analyze none () block dataNames = .ok (outcome, ()) := by
  have regular := kind.isRegular_build version
  have catalogued : workspace.names.dialect.IsCatalogued := by
    rw [(reachable.knowsTypes regular).isOf]
    exact kind.isCatalogued_build version
  have relabels := reachable.relabels (kind.isCatalogued_build version) regular labelled
  obtain ⟨after, passes, rfl⟩ := analyze_eq_ok_iff_passes.mp ⟨analyzed, isCorrect⟩
  have passesAgain := Setting.mirrored_checkProgram relabels catalogued block _ _ _ rfl passes
  let relabelled : Workspace := { workspace with names }
  have again : relabelled.analyze none () block dataNames = .ok (_, ()) ∧ _ :=
    analyze_eq_ok_iff_passes.mpr ⟨after, passesAgain, rfl⟩
  exact again.1

/-- A workspace whose programs can use a name `x` and an alias of it. -/
def aliasSample : Workspace := ⟨{ dialect := .generic }, NameTable.aliasSample⟩

/-- The program that declares the alias is still correct when the alias has got a label. -/
theorem analyze_aliasSample : ∃ names outcome,
    NameTable.aliasSample.labelAliases (NameTable.sampleBlock [⟨25⟩]) ["x"] = .ok names ∧
      aliasSample.analyze none () (NameTable.sampleBlock [⟨25⟩]) [] = .ok (outcome, ()) ∧
      outcome.isCorrect = true ∧
      { aliasSample with names }.analyze none () (NameTable.sampleBlock [⟨25⟩]) [] =
        .ok (outcome, ()) := by
  obtain ⟨names, labelled⟩ := NameTable.exists_labelAliases_sample
  have accepted : (aliasSample.analyze none () (NameTable.sampleBlock [⟨25⟩]) []).map
      (·.1.isCorrect) = .ok true := by decide +kernel
  cases analyzed : aliasSample.analyze none () (NameTable.sampleBlock [⟨25⟩]) [] with
  | error fault =>
    rw [analyzed] at accepted
    cases accepted
  | ok result =>
    rw [analyzed] at accepted
    have isCorrect := Except.ok.inj accepted
    exact ⟨names, result.1, labelled, rfl, isCorrect,
      analyze_of_labelAliases NameTable.reachable_aliasSample analyzed isCorrect labelled⟩

end YulCheck.Workspace
