import YulCheck.Proofs.Build.Generations
import YulCheck.Proofs.Hoist.Judgements
import YulCheck.Proofs.Judgement.Effects
import YulCheck.Proofs.Safety.Analysis

/-! # Functions are hoisted

A program in another order of its functions gets the same verdict, and if it is correct, then its
expressions have the same types and it has the same effects.
-/

namespace YulCheck

open Walk

namespace Setting

variable {setting : Setting} {dialect : Dialect} {block last : Block}

/-! ### Programs that can be checked -/

/-- Whether checking a block comes to a verdict. -/
structure CanCheck (setting : Setting) (dialect : Dialect) (block : Block) : Prop where
  ready : setting.names.IsReady dialect
  built : block.IsBuilt setting.names
  distinct : block.owners.Nodup

namespace CanCheck

theorem of_hasMade {kind : BundledDialect} {version : EvmVersion}
    (hasMade : setting.names.HasMade (kind.build version) block) :
    setting.CanCheck (kind.build version) block := by
  obtain ⟨built, distinct⟩ := hasMade.isBuilt
  exact ⟨hasMade.isReady, built, distinct⟩

theorem of_reorders (canCheck : setting.CanCheck dialect block) (reorders : block.Reorders last) :
    setting.CanCheck dialect last :=
  ⟨canCheck.ready, reorders.isBuilt canCheck.built,
    reorders.perm_owners.nodup_iff.mp canCheck.distinct⟩

theorem exists_analysis (canCheck : setting.CanCheck dialect block) (reporter : Reporter) :
    ∃ analysis, { setting : Checker }.analyze none reporter {} () block = .ok analysis := by
  have noneActive : ∀ entry ∈ ({ setting : Checker }).active, entry.1 < ({} : Facts).scopes.size :=
    nofun
  exact Checker.exists_analysis { setting } canCheck.ready nofun canCheck.built canCheck.distinct
    reporter () noneActive

end CanCheck

/-- What checking a block comes to: the rules decide on the verdict, and for a correct program the notes
about it and the effects of all that it evaluates are left. -/
theorem finds_of_analyze (typed : setting.HasTypedBuiltins) (distinct : block.owners.Nodup)
    {reporter : Reporter} {analysis : Analysis Unit}
    (analyzed : { setting : Checker }.analyze none reporter {} () block = .ok analysis) :
    (analysis.isCorrect = true ↔ setting.IsSound block) ∧
      (analysis.isCorrect = true →
        analysis.facts.expressionTypes = (setting.notes block).reverse ∧
        analysis.facts.sideEffects = setting.effectsOf block.evaluated) := by
  let checker : Checker := { setting }
  have noneActive : ∀ entry ∈ (checker.start reporter {} ()).active,
      entry.1 < (checker.start reporter {} ()).facts.scopes.size := nofun
  have analyzed : checker.analyze none reporter {} () block = .ok analysis := analyzed
  have unfolded := analyzed
  rw [Checker.analyze] at unfolded
  obtain ⟨⟨ended, after⟩, ran, _⟩ := Except.bind_eq_ok_iff.mp unfolded
  rcases setting.notes_or_rejects_checkProgram typed block distinct rfl noneActive ran with
    ⟨sound, rfl, quiet, noted⟩ | ⟨unsound, more⟩
  · have passes : (setting.checkProgram (checker.place block) block).Passes
        (checker.start reporter {} ()) () after := ⟨ran, quiet⟩
    obtain ⟨accepted, isCorrect⟩ : checker.analyze none reporter {} () block =
        .ok (checker.accept after) ∧ (checker.accept after).isCorrect = true :=
      Checker.analyze_eq_ok_iff_passes.mpr ⟨after, passes, rfl⟩
    cases analyzed.symm.trans accepted
    refine ⟨iff_of_true isCorrect sound, fun _ => ⟨?_, ?_⟩⟩
    · exact noted.trans (List.append_nil _)
    · exact (sideEffects_of_checkProgram passes).trans (SideEffects.pure_join _)
  · have incorrect : ¬analysis.isCorrect = true := by
      intro isCorrect
      obtain ⟨_, passes, _⟩ := Checker.analyze_eq_ok_iff_passes.mp ⟨analyzed, isCorrect⟩
      cases passes.ran.symm.trans ran
      exact Nat.ne_of_gt more passes.quiet
    exact ⟨iff_of_false incorrect unsound, fun isCorrect => absurd isCorrect incorrect⟩

/-! ### Programs in another order -/

/-- A reordered program has the same effects. -/
theorem effectsOf_evaluated_of_reorders (setting : Setting) (reorders : block.Reorders last)
    (once : block.DeclaresOnce) :
    setting.effectsOf block.evaluated = setting.effectsOf last.evaluated := by
  have judged := (setting.perm_judge_block reorders once [] false false).filterMap (·.expression?)
  rw [List.filterMap_map, List.filterMap_map] at judged
  rw [← block.filterMap_points [] false false, ← last.filterMap_points [] false false]
  exact setting.effectsOf_of_perm judged

end Setting

/-- Whether a run comes to the verdict of another one and, if that is that the program is correct, finds
out the same types of expressions and the same effects. -/
structure Analysis.FindsSame {σ : Type} (analysis other : Analysis σ) : Prop where
  verdict : other.isCorrect = analysis.isCorrect
  types : analysis.isCorrect = true →
    ∀ node, other.facts.typesOf? node = analysis.facts.typesOf? node
  effects : analysis.isCorrect = true → other.facts.sideEffects = analysis.facts.sideEffects

namespace Checker

/-- Two runs over programs that differ by the order of functions find out the same. -/
theorem findsSame_of_reorders {setting : Setting} {block last : Block} (typed : setting.HasTypedBuiltins)
    (distinct : block.owners.Nodup) (numbered : block.numbers.Nodup)
    (reorders : block.Reorders last) {reporter : Reporter} {analysis reordered : Analysis Unit}
    (analyzed : { setting : Checker }.analyze none reporter {} () block = .ok analysis)
    (analyzedLast : { setting : Checker }.analyze none reporter {} () last = .ok reordered) :
    analysis.FindsSame reordered := by
  have distinctLast := reorders.perm_owners.nodup_iff.mp distinct
  obtain ⟨isSound, leaves⟩ := Setting.finds_of_analyze typed distinct analyzed
  obtain ⟨lastIsSound, lastLeaves⟩ := Setting.finds_of_analyze typed distinctLast analyzedLast
  have sameVerdict : reordered.isCorrect = true ↔ analysis.isCorrect = true :=
    lastIsSound.trans ((setting.isSound_iff_of_reorders reorders).symm.trans isSound.symm)
  refine ⟨Bool.eq_iff_iff.mpr sameVerdict, fun isCorrect node => ?_, fun isCorrect => ?_⟩
  · obtain ⟨types, _⟩ := leaves isCorrect
    obtain ⟨lastTypes, _⟩ := lastLeaves (sameVerdict.mpr isCorrect)
    have sameNotes := setting.perm_notes reorders (isSound.mp isCorrect).declaresOnce
    rw [← setting.map_fst_notes] at numbered
    rw [Facts.typesOf?, Facts.typesOf?, types, lastTypes, List.lookup_reverse numbered,
      List.lookup_reverse ((sameNotes.map _).nodup_iff.mp numbered)]
    exact (List.lookup_of_perm sameNotes numbered node).symm
  · rw [(leaves isCorrect).2, (lastLeaves (sameVerdict.mpr isCorrect)).2]
    exact (setting.effectsOf_evaluated_of_reorders reorders (isSound.mp isCorrect).declaresOnce).symm

/-- The order of functions among the statements of a program does not matter: the verdict is the same,
and for a correct program the types of all expressions and the effects are the same. Programs that a
builder for a bundled dialect made come to a verdict in both orders. -/
theorem analyze_of_reorders {setting : Setting} {block last : Block} (reorders : block.Reorders last)
    (reporter : Reporter) :
    (setting.HasTypedBuiltins → block.owners.Nodup → block.numbers.Nodup →
      ∀ analysis reordered, { setting : Checker }.analyze none reporter {} () block = .ok analysis →
        { setting : Checker }.analyze none reporter {} () last = .ok reordered →
          analysis.FindsSame reordered) ∧
    ∀ (kind : BundledDialect) version, setting.names.HasMade (kind.build version) block →
      ∃ analysis reordered,
        { setting : Checker }.analyze none reporter {} () block = .ok analysis ∧
        { setting : Checker }.analyze none reporter {} () last = .ok reordered ∧
        analysis.FindsSame reordered := by
  refine ⟨fun typed distinct numbered _ _ analyzed analyzedLast =>
    findsSame_of_reorders typed distinct numbered reorders analyzed analyzedLast,
    fun kind version hasMade => ?_⟩
  have canCheck : setting.CanCheck (kind.build version) block := .of_hasMade hasMade
  obtain ⟨analysis, analyzed⟩ := canCheck.exists_analysis reporter
  obtain ⟨reordered, analyzedLast⟩ := (canCheck.of_reorders reorders).exists_analysis reporter
  have typed := canCheck.ready.toKnowsTypes.hasTypedBuiltins
  exact ⟨analysis, reordered, analyzed, analyzedLast, findsSame_of_reorders typed canCheck.distinct
    hasMade.nodup_numbers reorders analyzed analyzedLast⟩

/-- A program that calls a function before its definition, and the program with the definition in front
of the call. -/
theorem analyze_calling_before_definition :
    let named := (NameTable.ofDialect .generic).define "f"
    let call : Statement := .expression .none (.call 3 .none ⟨2, .none, named.1⟩ [])
    let function : Statement := .function 1 .none named.1 [] [] (.mk 0 .none [])
    let checker : Checker := { setting := .ofNames named.2 [] }
    ∃ analysis reordered,
      checker.analyze none default {} () (.mk 4 .none [call, function]) = .ok analysis ∧
      checker.analyze none default {} () (.mk 4 .none [function, call]) = .ok reordered ∧
      analysis.isCorrect = true ∧ reordered.isCorrect = true ∧
      reordered.facts.typesOf? 3 = analysis.facts.typesOf? 3 := by
  intro named call function checker
  let block : Block := .mk 4 .none [call, function]
  have started : Builder.Arises (BundledDialect.generic.build .default) _ := .start
  have bodied := started.step (.make (.block []) (.refl _))
  have defined := bodied.step (.make (.function (by decide : "f" ≠ "") [] [] _) (.refl _))
  have called := defined.step (.make (.call (by decide : "f" ≠ "") []) (.refl _))
  have stated := called.step (.make (.effect _) (.refl _))
  have made := stated.step (.make (.block [_, _]) (.refl _))
  have hasMade : checker.setting.names.HasMade (BundledDialect.generic.build .default) block :=
    ⟨_, made, rfl, List.mem_cons_self⟩
  have reorders : block.Reorders (.mk 4 .none [function, call]) :=
    .mk (.cons (.same call) (.cons (.same function) .nil)) (.swap function call []) rfl
  obtain ⟨analysis, reordered, analyzed, analyzedLast, same⟩ :=
    (analyze_of_reorders reorders default).2 .generic .default hasMade
  have accepted : (checker.analyze none default {} () block).map (·.isCorrect) = .ok true := by
    decide +kernel
  obtain ⟨_, found, isCorrect⟩ := Except.map_eq_ok_iff.mp accepted
  cases analyzed.symm.trans found
  exact ⟨analysis, reordered, analyzed, analyzedLast, isCorrect, same.verdict.trans isCorrect,
    same.types isCorrect 3⟩

end Checker

end YulCheck
