import YulCheck.Proofs.Mirror.Relabels
import YulCheck.Proofs.Rename.Statements

/-! # Programs with generated labels

Checking a program is mirrored by checking it with a table that differs by labels only: no name has to
become another one.
-/

namespace YulCheck

open Walk

/-- Whether another walk passes wherever a walk does, while there is the given number of errors. -/
def Walk.MirroredBy {α : Type} (first : Walk α) (errors : Nat) (second : Walk α) : Prop :=
  ∀ state result after, state.reporter.errorCount = errors → first.Passes state result after →
    second.Passes state result after

/-- The renaming by which all names stay. -/
def Renaming.refl : Renaming where
  domain := Set.univ
  change name := name
  injective := fun _ _ _ _ same => same

theorem RunState.knowsOnly_refl {σ : Type} (state : RunState σ) :
    state.KnowsOnly Renaming.refl.domain :=
  ⟨fun _ _ _ _ => trivial, fun _ _ => trivial⟩

namespace Setting

variable {setting : Setting} {after : NameTable} {place : Place} {errors : Nat}

/-- What may be declared may still be declared. -/
theorem NameIsFree.withNames (relabels : setting.names.Relabels after)
    (catalogued : setting.names.dialect.IsCatalogued) {name : Handle}
    (isFree : setting.NameIsFree name) : (setting.withNames after).NameIsFree name := by
  obtain ⟨base, shown, declarable⟩ := nameIsFree_iff.mp isFree
  obtain ⟨label, shownAfter, comes⟩ := relabels.shown name base shown
  obtain ⟨entries, owners, rfl⟩ := relabels.same
  exact nameIsFree_iff.mpr ⟨label, shownAfter, declarable.of_comesFrom catalogued comes⟩

/-- A table that differs by labels admits all names as they are. -/
theorem admits_of_relabels (relabels : setting.names.Relabels after)
    (catalogued : setting.names.dialect.IsCatalogued) : setting.Admits .refl after where
  same := relabels.same
  isNamed _ _ named := named
  isFree _ _ isFree := isFree.withNames relabels catalogued
  isOther name _ isOther := relabels.builtin? name none isOther
  isFunction name _ builtin known := by
    obtain ⟨isAlias, label⟩ := relabels.ofBuiltin name builtin known
    have found := (relabels.builtin? name _ known).trans known.symm
    exact ⟨rfl, found, isAlias, relabels.isVerbatim name, label⟩

/-- A program that is accepted is accepted with other labels, and the run is the same. -/
theorem mirrored_checkProgram (relabels : setting.names.Relabels after)
    (catalogued : setting.names.dialect.IsCatalogued) (block : Block) :
    (setting.checkProgram place block).MirroredBy errors
      ((setting.withNames after).checkProgram place block) := by
  intro state result last count passes
  have admits := admits_of_relabels relabels catalogued
  have renamed := (renamed_checkProgram admits fun _ _ => trivial) state result last count
    state.knowsOnly_refl passes
  rw [Renaming.refl, RunState.rename_id, RunState.rename_id, Block.rename_id] at renamed
  exact renamed.2

end Setting

end YulCheck
