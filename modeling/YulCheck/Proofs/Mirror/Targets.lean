import YulCheck.Proofs.Mirror.Statements
import YulCheck.Workspace

/-! # Programs for newer targets

A program that is accepted for a target is accepted for every newer one, also where more data objects
are known. A newer target has all instructions of the older one, and warns of no others that the
program can call. So the run is the same. The dialect does not matter, as long as it does not have the
function `tstore` under another name: by its name an older target finds out that it lacks the function.
No bundled dialect does.
-/

namespace YulCheck

open Walk

/-- The setting for another target, where other data objects are known. -/
def Setting.withTarget (setting : Setting) (version : EvmVersion) (dataNames : List String) :
    Setting := { setting with version, dataNames }

/-- The checker for another target, where other data objects are known. -/
def Checker.withTarget (checker : Checker) (version : EvmVersion) (dataNames : List String) :
    Checker := { checker with setting := checker.setting.withTarget version dataNames }

/-- What a run hands back, with the checker for another target. -/
def Analysis.withTarget {σ : Type} (analysis : Analysis σ) (version : EvmVersion)
    (dataNames : List String) : Analysis σ :=
  { analysis with checker := analysis.checker.withTarget version dataNames }

theorem NameTable.KeepsFunction.refl (table : NameTable) (name : Handle) :
    table.KeepsFunction table name := ⟨rfl, rfl, fun _ answered => answered, rfl⟩

namespace Setting

variable {setting : Setting} {version : EvmVersion} {dataNames : List String}

theorem Admits.refl (setting : Setting) : setting.Admits .refl setting.names where
  same := ⟨_, _, rfl⟩
  isNamed _ _ named := named
  isFree _ _ isFree := isFree
  isOther _ _ isOther := isOther
  isFunction name _ _ _ := ⟨rfl, .refl setting.names name⟩

/-- A program that is accepted is accepted for a newer target and with more data objects, and the run is
the same. -/
theorem mirrored_withTarget (names : setting.names.NamesTstore) (older : setting.version ≤ version)
    (areKnown : setting.dataNames ⊆ dataNames) (place : Place) (block : Block) (errors : Nat) :
    (setting.checkProgram place block).MirroredBy errors
      ((setting.withTarget version dataNames).checkProgram place block) := by
  intro state result last count passes
  have admits : setting.AdmitsIn .refl (setting.withTarget version dataNames) :=
    ⟨.refl setting, older, areKnown, fun _ => .inr names⟩
  have mirrored := (renamed_checkProgram_of_admitsIn admits fun _ _ => trivial) state result last count
    state.knowsOnly_refl passes
  rw [Renaming.refl, RunState.rename_id, RunState.rename_id, Block.rename_id] at mirrored
  exact mirrored.2

end Setting

namespace Checker

variable {checker : Checker} {dialect : Dialect} {version : EvmVersion} {dataNames : List String}
  {reporter : Reporter} {facts : Facts} {block : Block} {analysis : Analysis Unit}

/-- Of the names it only matters what `tstore` is called. -/
theorem analyze_newer (names : checker.setting.names.NamesTstore)
    (older : checker.setting.version ≤ version) (areKnown : checker.setting.dataNames ⊆ dataNames)
    (analyzed : checker.analyze none reporter facts () block = .ok analysis)
    (isCorrect : analysis.isCorrect = true) :
    (checker.withTarget version dataNames).analyze none reporter facts () block =
      .ok (analysis.withTarget version dataNames) := by
  obtain ⟨after, passes, rfl⟩ := analyze_eq_ok_iff_passes.mp ⟨analyzed, isCorrect⟩
  have mirrored := Setting.mirrored_withTarget names older areKnown _ block _ _ _ _ rfl passes
  exact (analyze_eq_ok_iff_passes.mpr ⟨after, mirrored, rfl⟩).1

/-- A program that is found to be correct is found to be correct for every newer target, where the same
and other data objects are known. The same is found out about it, and the same is reported. -/
theorem analyze_withTarget (reachable : checker.setting.names.Reachable dialect)
    (isNamed : ∀ function, dialect.builtin? "tstore" = some function → function.name = "tstore")
    (older : checker.setting.version ≤ version) (areKnown : checker.setting.dataNames ⊆ dataNames)
    (analyzed : checker.analyze none reporter facts () block = .ok analysis)
    (isCorrect : analysis.isCorrect = true) :
    (checker.withTarget version dataNames).analyze none reporter facts () block =
      .ok (analysis.withTarget version dataNames) :=
  analyze_newer (reachable.namesTstore isNamed) older areKnown analyzed isCorrect

/-- The program `sstore(chainid(), datasize("D"))`, which is accepted for the version that introduced
`chainid`, is accepted for a newer one. -/
theorem analyze_withTarget_chainid :
    let names := NameTable.ofDialect (BundledDialect.build (.evm .objects) .cancun)
    let checker : Checker := { setting := ⟨names, .istanbul, ["D"]⟩ }
    let called (name id : Nat) (arguments : List Expression) : Expression :=
      .call (id + 1) .none ⟨id, .none, ⟨name⟩⟩ arguments
    let block : Block := .mk 8 .none [.expression .none (called 82 6 [called 19 1 [],
      called 27 4 [.literal ⟨3, .none, .string, .unlimited "D", .empty⟩]])]
    ∃ analysis,
      checker.analyze none default {} () block = .ok analysis ∧ analysis.isCorrect = true ∧
      (checker.withTarget .prague ["C", "D"]).analyze none default {} () block =
        .ok (analysis.withTarget .prague ["C", "D"]) := by
  intro names checker called block
  have accepted : (checker.analyze none default {} () block).map (·.isCorrect) = .ok true := by
    decide +kernel
  obtain ⟨analysis, analyzed, isCorrect⟩ := Except.map_eq_ok_iff.mp accepted
  have reachable : checker.setting.names.Reachable (BundledDialect.build (.evm .objects) .cancun) :=
    .ofDialect
  have isNamed := (BundledDialect.isCatalogued_build (.evm .objects) .cancun).named "tstore"
  exact ⟨analysis, analyzed, isCorrect,
    analyze_withTarget reachable isNamed (by decide) (by decide) analyzed isCorrect⟩

/-- Each dialect that comes with the compiler names `tstore` so, whichever target it was made for. -/
theorem analyze_withTarget_of_bundled {kind : BundledDialect} {dialectVersion : EvmVersion}
    (reachable : checker.setting.names.Reachable (kind.build dialectVersion))
    (older : checker.setting.version ≤ version) (areKnown : checker.setting.dataNames ⊆ dataNames)
    (analyzed : checker.analyze none reporter facts () block = .ok analysis)
    (isCorrect : analysis.isCorrect = true) :
    (checker.withTarget version dataNames).analyze none reporter facts () block =
      .ok (analysis.withTarget version dataNames) := by
  have isNamed := (kind.isCatalogued_build dialectVersion).named "tstore"
  exact analyze_newer (reachable.namesTstore isNamed) older areKnown analyzed isCorrect

end Checker

end YulCheck
