import YulCheck.Proofs.Judgement.Acceptance
import YulCheck.Proofs.Judgement.Passing
import YulCheck.Proofs.Mirror.Relabels
import YulCheck.Proofs.Rename.Statements

/-! # Accepted programs under other names

A program that is found to be correct is found to be correct under other names as well: what the
checker hands back is the same, but for the names in the scopes and of the variables that it leaves.
-/

namespace YulCheck

/-- Whether a program may declare a name that is no function of the dialect. -/
structure NameTable.CanDeclare (table : NameTable) (name : Handle) : Prop where
  isNamed : name.isEmpty = false
  isOther : table.builtin? name = .ok none
  isFree : ∃ label, table.shownLabel name = .ok label ∧ Setting.IsDeclarable table.dialect label

/-- Whether names can be replaced by other ones: different names by different ones, functions of the
dialect by themselves and all others by names that may be declared. -/
structure NameTable.CanRename (table : NameTable) (names : List Handle) (change : Handle → Handle) :
    Prop where
  injective : Set.InjOn change {name | name ∈ names}
  functions : ∀ name ∈ names, ∀ builtin, table.builtin? name = .ok (some builtin) →
    change name = name
  others : ∀ name ∈ names, (∀ builtin, table.builtin? name ≠ .ok (some builtin)) →
    table.CanDeclare (change name)

namespace NameTable.CanRename

variable {setting : Setting} {names : List Handle} {change : Handle → Handle}

/-- A name stays, or it becomes one that may be declared. -/
theorem eq_or_canDeclare {table : NameTable} (canRename : table.CanRename names change) {name : Handle}
    (member : name ∈ names) :
    change name = name ∨ table.CanDeclare (change name) := by
  by_cases isFunction : ∃ builtin, table.builtin? name = .ok (some builtin)
  · obtain ⟨builtin, known⟩ := isFunction
    exact .inl (canRename.functions name member builtin known)
  · exact .inr (canRename.others name member fun builtin known => isFunction ⟨builtin, known⟩)

/-- The other names as a renaming. -/
def toRenaming {table : NameTable} (canRename : table.CanRename names change) : Renaming :=
  ⟨{name | name ∈ names}, change, canRename.injective⟩

theorem admits (canRename : setting.names.CanRename names change) :
    setting.Admits canRename.toRenaming setting.names where
  same := ⟨_, _, rfl⟩
  isNamed name member named := by
    change (change name).isEmpty = false
    rcases canRename.eq_or_canDeclare member with same | canDeclare
    · rw [same, named]
    · exact canDeclare.isNamed
  isFree name member isFree := by
    change setting.NameIsFree (change name)
    rcases canRename.eq_or_canDeclare member with same | canDeclare
    · rwa [same]
    · exact Setting.nameIsFree_iff.mpr canDeclare.isFree
  isOther name member isOther := by
    change setting.names.builtin? (change name) = .ok none
    rcases canRename.eq_or_canDeclare member with same | canDeclare
    · rw [same, isOther]
    · exact canDeclare.isOther
  isFunction name member builtin known :=
    ⟨canRename.functions name member builtin known, rfl, rfl, fun _ answered => answered, rfl⟩

end NameTable.CanRename

/-- A checker that knows its variables under other names. -/
def Checker.rename (checker : Checker) (change : Handle → Handle) : Checker :=
  { checker with active := checker.active.map fun entry => (entry.1, change entry.2) }

/-- What a run hands back, with other names in the scopes and in the checker. -/
def Analysis.rename {σ : Type} (analysis : Analysis σ) (change : Handle → Handle) : Analysis σ :=
  { analysis with
    facts := analysis.facts.rename change
    checker := analysis.checker.rename change }

namespace Checker

open Walk

variable {setting : Setting} {reporter : Reporter} {block : Block} {analysis : Analysis Unit}
  {change : Handle → Handle}

@[simp]
theorem rename_start (checker : Checker) (reporter : Reporter) :
    (checker.start reporter {} ()).rename change = (checker.rename change).start reporter {} () := by
  rw [RunState.rename, Facts.rename, start, ScopeForest.empty_rename]
  rfl

/-- A program that is found to be correct is found to be correct under other names, with the same types,
effects and diagnostics, and with the other names in its scopes. -/
theorem analyze_rename (canRename : setting.names.CanRename block.names change)
    (analyzed : { setting : Checker }.analyze none reporter {} () block = .ok analysis)
    (isCorrect : analysis.isCorrect = true) :
    { setting : Checker }.analyze none reporter {} () (block.rename change) =
      .ok (analysis.rename change) := by
  let checker : Checker := { setting }
  let start := checker.start reporter {} ()
  have areKnown : ∀ name ∈ block.occurrences, name ∈ block.names :=
    fun name occurs => AscendingList.mem_ofList.mpr occurs
  have knowsNone : start.KnowsOnly canRename.toRenaming.domain :=
    ⟨fun _ isScope => absurd isScope (Array.not_mem_empty _),
      fun _ isActive => absurd isActive List.not_mem_nil⟩
  obtain ⟨after, passes, rfl⟩ := analyze_eq_ok_iff_passes.mp ⟨analyzed, isCorrect⟩
  have renamed := (Setting.renamed_checkProgram canRename.admits areKnown start () after rfl knowsNone
    passes).2
  have sameStart : start.rename change = start := checker.rename_start reporter
  have samePlace : checker.place (block.rename change) = checker.place block := by
    rw [place, place, Block.id_rename]
  rw [← samePlace] at renamed
  have passesRenamed : (checker.setting.checkProgram (checker.place (block.rename change))
      (block.rename change)).Passes start () (after.rename change) := sameStart ▸ renamed
  exact (analyze_eq_ok_iff_passes.mpr ⟨after.rename change, passesRenamed, rfl⟩).1

/-- The sample program with the names of its function and its variable exchanged. -/
theorem analyze_swapped :
    let change := Equiv.swap (⟨24⟩ : Handle) ⟨25⟩
    let program := Workspace.sampleProgram
    let checker := Workspace.sample.checker []
    ∃ analysis,
      checker.setting.names.CanRename program.names change ∧
      checker.analyze none default {} () program = .ok analysis ∧ analysis.isCorrect = true ∧
      checker.analyze none default {} () (program.rename change) = .ok (analysis.rename change) := by
  intro change program checker
  have canDeclare : checker.setting.names.CanDeclare ⟨24⟩ ∧ checker.setting.names.CanDeclare ⟨25⟩ :=
    ⟨⟨rfl, by decide +kernel, "f", by decide +kernel, by decide, by decide, by decide⟩,
      ⟨rfl, by decide +kernel, "x", by decide +kernel, by decide, by decide, by decide⟩⟩
  have names : program.names = [⟨24⟩, ⟨25⟩] := by decide
  have canRename : checker.setting.names.CanRename program.names change := by
    have noFunction : ∀ name ∈ [⟨24⟩, ⟨25⟩], checker.setting.names.builtin? name = .ok none :=
      List.forall_mem_cons.mpr
        ⟨canDeclare.1.isOther, List.forall_mem_singleton.mpr canDeclare.2.isOther⟩
    rw [names]
    refine ⟨change.injective.injOn, fun name member builtin known => ?_, ?_⟩
    · cases (noFunction name member).symm.trans known
    · exact List.forall_mem_cons.mpr
        ⟨fun _ => canDeclare.2, List.forall_mem_singleton.mpr fun _ => canDeclare.1⟩
  have accepted : (checker.analyze none default {} () program).map (·.isCorrect) = .ok true := by
    decide +kernel
  obtain ⟨analysis, analyzed, isCorrect⟩ := Except.map_eq_ok_iff.mp accepted
  exact ⟨analysis, canRename, analyzed, isCorrect, analyze_rename canRename analyzed isCorrect⟩

end Checker

end YulCheck
