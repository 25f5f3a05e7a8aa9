import YulCheck.Proofs.Judgement.Statements
import YulCheck.Proofs.Lexical.Resolution
import YulCheck.Proofs.Name.Types
import YulCheck.Workspace

/-! # Which programs are accepted

A program is correct for a workspace if, and only if, all rules hold of it. The run over it comes to
the verdict of a walk that carries its environments with it, and that walk decides the rules one by
one. The types of the expressions of a correct program are noted in the order of their evaluation.
-/

namespace YulCheck

open Walk

namespace Setting

variable (setting : Setting) {σ : Type}

/-! ### Programs as points -/

/-- The rules for a program are those for its declarations and for the statements in it, one by
one. -/
theorem isSound_iff (block : Block) :
    setting.IsSound block ↔
      block.DeclaresOnce ∧ ∀ point ∈ block.points [] false false, setting.PointIsSound point := by
  constructor
  · rintro ⟨once, statements, expressions⟩
    refine ⟨once, fun point member => ⟨statements point member, fun value evaluates => ?_⟩⟩
    intro node isNode
    exact expressions (point.environment, node)
      (Block.mem_expressions_iff.mpr ⟨point, member, value, evaluates, isNode, rfl⟩)
  · rintro ⟨once, points⟩
    refine ⟨once, fun point member => (points point member).statement, ?_⟩
    rintro ⟨environment, node⟩ isEntry
    obtain ⟨point, member, value, evaluates, isNode, rfl⟩ :=
      Block.mem_expressions_iff.mp isEntry
    exact (points point member).expression value evaluates node isNode

/-- What is noted about the expressions of a program. -/
def notes (block : Block) : List (NodeId × List TypeHandle) :=
  block.expressions.map fun (environment, expression) => setting.noteOf environment expression

theorem flatMap_notesAt (block : Block) :
    (block.points [] false false).flatMap setting.notesAt = setting.notes block := by
  rw [notes, Block.expressions, List.map_flatMap]
  congr 1
  funext point
  rw [notesAt, List.map_map]
  rfl

/-! ### Runs over programs -/

/-- A run over a program without a host either finds that all rules hold, reports no error and adds
the notes about the program, or it finds that some rule does not hold, and reports an error. -/
theorem notes_or_rejects_checkProgram (typed : setting.HasTypedBuiltins) (block : Block)
    (distinct : block.owners.Nodup) {state after : RunState σ} {outcome : Except Failure Unit}
    (outermost : state.around = []) (earlier : ∀ entry ∈ state.active, entry.1 < state.facts.scopes.size)
    (ran : (setting.checkProgram ⟨block.id, false, false⟩ block).run none state =
      .ok (outcome, after)) :
    (setting.IsSound block ∧ outcome = .ok () ∧
        after.reporter.errorCount = state.reporter.errorCount ∧
        after.facts.expressionTypes =
          (setting.notes block).reverse ++ state.facts.expressionTypes) ∨
      (¬setting.IsSound block ∧ state.reporter.errorCount < after.reporter.errorCount) := by
  rw [checkProgram, run_bind, Run.bind_apply] at ran
  by_cases once : block.DeclaresOnce
  · obtain ⟨facts, scoping, entered⟩ :=
      setting.run_enterDeclarations ⟨block.id, false, false⟩ none state outermost distinct once
    have unchanged := (setting.notes_of_enterDeclarations _ entered).1
    have comes := LexicalWalk.verdict_of_agrees
      (setting.agrees_lexicalBlock none ⟨block.id, false, false⟩ block distinct once earlier scoping)
    have decides : setting.DecidesPoints state.reporter.errorCount
        (setting.lexicalBlock [] ⟨block.id, false, false⟩ block) (block.points [] false false) :=
      decides_lexicalBlock typed [] ⟨block.id, false, false⟩ block
    rw [entered] at ran
    change (setting.checkBlock _ block).run none _ = _ at ran
    rw [DecidesPoints, LexicalWalk.Decides, setting.flatMap_notesAt] at decides
    rw [erase_lexicalBlock] at comes
    rw [setting.isSound_iff]
    cases verdict : (setting.lexicalBlock [] ⟨block.id, false, false⟩ block).verdict
        state.reporter.errorCount with
    | accepted result notes =>
      rw [verdict] at comes decides
      obtain ⟨points, _, rfl⟩ := decides
      obtain ⟨final, expected, quiet, noted⟩ := comes
      rw [expected] at ran
      cases ran
      exact .inl ⟨⟨once, points⟩, rfl, quiet, noted.trans (congrArg (_ ++ ·) unchanged)⟩
    | rejected =>
      rw [verdict] at comes decides
      exact .inr ⟨fun sound => decides sound.2, comes outcome after ran⟩
    | broken fault =>
      rw [verdict] at comes
      rw [comes] at ran
      cases ran
  · refine .inr ⟨fun sound => once sound.declaresOnce, ?_⟩
    rcases entered : (setting.enterDeclarations ⟨block.id, false, false⟩ block).run none state with
      fault | ⟨failure | isEntered, middle⟩
    · rw [entered] at ran
      cases ran
    · have more := setting.errorCount_of_enterDeclarations _ distinct once entered
      rw [entered] at ran
      cases ran
      exact more.1
    · have more := setting.errorCount_of_enterDeclarations _ distinct once entered
      rw [entered] at ran
      cases isEntered with
      | true => exact absurd rfl more.2
      | false =>
        cases ran
        exact more.1

/-- A run over a program without a host either finds that all rules hold, and reports no error, or
that some rule does not hold, and reports one. -/
theorem decides_checkProgram (typed : setting.HasTypedBuiltins) (block : Block)
    (distinct : block.owners.Nodup) {state after : RunState σ} {outcome : Except Failure Unit}
    (outermost : state.around = []) (earlier : ∀ entry ∈ state.active, entry.1 < state.facts.scopes.size)
    (ran : (setting.checkProgram ⟨block.id, false, false⟩ block).run none state =
      .ok (outcome, after)) :
    (setting.IsSound block ∧ outcome = .ok () ∧
        after.reporter.errorCount = state.reporter.errorCount ∧
        ∃ before, after.facts.expressionTypes = (setting.notes block).reverse ++ before) ∨
      (¬setting.IsSound block ∧ state.reporter.errorCount < after.reporter.errorCount) := by
  rcases setting.notes_or_rejects_checkProgram typed block distinct outermost earlier ran with
    ⟨sound, ok, quiet, noted⟩ | rejected
  · exact .inl ⟨sound, ok, quiet, _, noted⟩
  · exact .inr rejected

end Setting

/-! ### Workspaces -/

variable {workspace : Workspace} {block : Block} {dataNames : List String} {outcome : Outcome}

/-- Whether a workspace has a name table that its programs can have. -/
def Workspace.IsReachable (workspace : Workspace) : Prop :=
  workspace.names.Reachable (workspace.settings.dialect.build workspace.settings.version)

theorem Workspace.isReachable_of_names {settings : Settings} {names : NameTable}
    (reachable : names.Reachable (settings.dialect.build settings.version)) :
    (⟨settings, names⟩ : Workspace).IsReachable := reachable

/-- The functions that a table knows have only types that it knows. -/
theorem NameTable.KnowsTypes.hasTypedBuiltins {setting : Setting} {dialect : Dialect}
    (knows : setting.names.KnowsTypes dialect) : setting.HasTypedBuiltins :=
  fun _ _ found type isParameter => knows.functions _ (NameTable.mem_builtins_of_builtin? found) type
    (List.mem_append_left _ isParameter)

/-- The functions of the dialect have only types of the dialect. -/
theorem Workspace.IsReachable.hasTypedBuiltins (reachable : workspace.IsReachable)
    (dataNames : List String) : (workspace.checker dataNames).setting.HasTypedBuiltins := by
  have knows := NameTable.Reachable.knowsTypes
    (BundledDialect.isRegular_build workspace.settings.dialect workspace.settings.version) reachable
  exact knows.hasTypedBuiltins

namespace Workspace

/-- What a run in a workspace finds out about a program. -/
theorem exists_run_of_analyze (analyzed : workspace.analyze none () block dataNames =
    .ok (outcome, ())) :
    let start := (workspace.checker dataNames).start workspace.reporter {} ()
    ∃ ended after, ((workspace.checker dataNames).setting.checkProgram ⟨block.id, false, false⟩
        block).run none start = .ok (ended, after) ∧ outcome.facts = after.facts ∧
      (outcome.isCorrect = true ↔
        ended = .ok () ∧ after.reporter.errorCount = start.reporter.errorCount) := by
  intro start
  rw [analyze] at analyzed
  obtain ⟨analysis, analyzedBlock, ended⟩ := Except.bind_eq_ok_iff.mp analyzed
  cases ended
  rw [Checker.analyze] at analyzedBlock
  obtain ⟨⟨ended, after⟩, ran, concluded⟩ := Except.bind_eq_ok_iff.mp analyzedBlock
  refine ⟨ended, after, ran, ?_⟩
  cases ended with
  | error failure =>
    dsimp only at concluded
    split at concluded
    · cases concluded
    · cases concluded
      exact ⟨rfl, iff_of_false nofun fun both => nomatch both.1⟩
  | ok =>
    cases concluded
    refine ⟨rfl, ?_⟩
    show (!false && decide _) = true ↔ _
    rw [Bool.not_false, Bool.true_and, decide_eq_true_iff]
    exact ⟨fun quiet => ⟨rfl, quiet⟩, fun both => both.2⟩

/-- A program is found to be correct if and only if all rules hold of it: no name is declared twice
in a frame, and the rules for statements and expressions hold at all points of the program. -/
theorem isCorrect_iff_isSound (reachable : workspace.IsReachable)
    (distinct : block.owners.Nodup)
    (analyzed : workspace.analyze none () block dataNames = .ok (outcome, ())) :
    outcome.isCorrect = true ↔ (workspace.checker dataNames).setting.IsSound block := by
  obtain ⟨ended, after, ran, _, correct⟩ := exists_run_of_analyze analyzed
  rcases Setting.decides_checkProgram _ (reachable.hasTypedBuiltins dataNames) block distinct
    rfl (fun _ isActive => absurd isActive List.not_mem_nil) ran with
    ⟨sound, ok, quiet, _⟩ | ⟨unsound, more⟩
  · exact iff_of_true (correct.mpr ⟨ok, quiet⟩) sound
  · refine iff_of_false (fun isCorrect => ?_) unsound
    have quiet := (correct.mp isCorrect).2
    omega

/-- A workspace for a program with a function `f` and a variable `x`. -/
def sample : Workspace :=
  ⟨{ dialect := .generic }, (((NameTable.ofDialect .generic).define "f").2.define "x").2⟩

/-- The program `function f(x) {}`, `let x := 1`, `f(x)` in the sample workspace. -/
def sampleProgram : Block :=
  let declared (id : NodeId) : Variable := ⟨id, .none, ⟨25⟩, ⟨8⟩⟩
  .mk 1 .none
    [.function 2 .none ⟨24⟩ [declared 3] [] (.mk 4 .none []),
      .declaration .none [declared 6] (some (.literal ⟨5, .none, .number, .ofNumeral "1", ⟨8⟩⟩)),
      .expression .none (.call 7 .none ⟨8, .none, ⟨24⟩⟩ [.identifier ⟨9, .none, ⟨25⟩⟩])]

theorem isReachable_sample : sample.IsReachable :=
  isReachable_of_names ((NameTable.Reachable.ofDialect.define "f").define "x")

theorem exists_analyze_sample : ∃ outcome,
    sample.analyze none () sampleProgram [] = .ok (outcome, ()) ∧ outcome.isCorrect = true := by
  have accepted : (sample.analyze none () sampleProgram []).map (·.1.isCorrect) = .ok true := by
    decide +kernel
  obtain ⟨result, analyzed, isCorrect⟩ := Except.map_eq_ok_iff.mp accepted
  exact ⟨result.1, analyzed, isCorrect⟩

/-- All rules hold of the sample program, since it is found to be correct. -/
theorem isSound_sampleProgram : ∃ outcome,
    sample.IsReachable ∧ sampleProgram.owners.Nodup ∧
      sample.analyze none () sampleProgram [] = .ok (outcome, ()) ∧
      (sample.checker []).setting.IsSound sampleProgram := by
  have distinct : sampleProgram.owners.Nodup := by decide
  obtain ⟨outcome, analyzed, isCorrect⟩ := exists_analyze_sample
  exact ⟨outcome, isReachable_sample, distinct, analyzed,
    (isCorrect_iff_isSound isReachable_sample distinct analyzed).mp isCorrect⟩

end Workspace

end YulCheck
