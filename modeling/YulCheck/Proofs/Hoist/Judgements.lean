import YulCheck.Proofs.Hoist.Alike
import YulCheck.Proofs.Judgement.Evaluated

/-! # Judgements about reordered programs

What is judged about the statements of a program does not depend on the order of its functions: the
rules that hold, the notes about expressions and the expressions themselves are the same in another
order.
-/

namespace YulCheck

/-- What is judged about a statement at its point. -/
structure Judgement where
  /-- Whether the rules hold of the statement. -/
  isSound : Prop
  notes : List (NodeId × List TypeHandle)
  /-- The expression that the statement evaluates. -/
  expression? : Option Expression

namespace Setting

variable (setting : Setting) {environment other : Environment} (inLoop inFunction : Bool)

/-- What is judged about a statement at its point. -/
def judge (point : Point) : Judgement :=
  ⟨setting.PointIsSound point, setting.notesAt point, point.statement.expression?⟩

/-! ### Single statements -/

theorem pointIsSound_iff (point : Point) :
    setting.PointIsSound point ↔ setting.StatementIsSound point ∧
      ∀ value, point.statement.expression? = some value →
        setting.ExpressionIsSound point.environment value :=
  ⟨fun sound => ⟨sound.statement, sound.expression⟩, fun both => ⟨both.1, both.2⟩⟩

/-- The judgement about a statement depends on its rules and on what it evaluates. -/
theorem judge_eq {point last : Point}
    (statement : setting.StatementIsSound point ↔ setting.StatementIsSound last)
    (expression : point.statement.expression? = last.statement.expression?)
    (alike : point.statement.expression? = none ∨
      point.environment.Alike false last.environment) :
    setting.judge point = setting.judge last := by
  have notes : setting.notesAt point = setting.notesAt last := by
    rw [notesAt, notesAt, ← expression]
    rcases alike with isNone | alike
    · rw [isNone]
      rfl
    · congr 1
      funext node
      rw [noteOf, noteOf, setting.typesOf_of_alike alike]
  have sound : setting.PointIsSound point ↔ setting.PointIsSound last := by
    rw [pointIsSound_iff, pointIsSound_iff, statement, ← expression]
    refine and_congr_right fun _ => forall₂_congr fun value evaluates => ?_
    rcases alike with isNone | alike
    · rw [isNone] at evaluates
      cases evaluates
    · rw [ExpressionIsSound, ExpressionIsSound, setting.nodeIsSound_of_alike alike]
  rw [judge, judge, notes, expression, propext sound]

/-- A function is judged alike in all environments, other statements in those that are alike. -/
theorem judge_of_alike {statement : Statement} (alike : environment.Alike statement.isFunction other) :
    setting.judge ⟨environment, inLoop, inFunction, statement⟩ =
      setting.judge ⟨other, inLoop, inFunction, statement⟩ := by
  cases statement with
  | function => exact setting.judge_eq Iff.rfl rfl (.inl rfl)
  | assignment span targets value =>
    refine setting.judge_eq ?_ rfl (.inr alike)
    have same : (fun target : Identifier => variableType? environment target.name) =
        fun target => variableType? other target.name :=
      funext fun target => variableType?_of_alike alike target.name
    simp only [StatementIsSound, setting.typesOf_of_alike alike, same]
  | _ =>
    refine setting.judge_eq ?_ rfl (.inr alike)
    simp only [StatementIsSound, setting.typesOf_of_alike alike]

variable {setting} in
theorem CasesAreSound.of_caseLiterals {type : TypeHandle} {cases others : List Case}
    (same : caseLiterals cases = caseLiterals others) (sound : setting.CasesAreSound type cases) :
    setting.CasesAreSound type others :=
  ⟨same ▸ sound.literals, same ▸ sound.distinct⟩

theorem caseLiterals_of_reorder {cases others : List Case} (reorder : CasesReorder cases others) :
    caseLiterals cases = caseLiterals others := by
  cases reorder with
  | nil => rfl
  | @cons span value body other cases others first rest =>
    have same := caseLiterals_of_reorder rest
    rw [caseLiterals, caseLiterals] at same ⊢
    rw [List.filterMap_cons, List.filterMap_cons, same]
    rfl

/-- The blocks in a statement do not matter for the judgement about it. -/
theorem judge_of_reorders {statement last : Statement} (reorders : statement.Reorders last) :
    setting.judge ⟨environment, inLoop, inFunction, statement⟩ =
      setting.judge ⟨environment, inLoop, inFunction, last⟩ := by
  cases reorders with
  | same => rfl
  | function => exact setting.judge_eq Iff.rfl rfl (.inl rfl)
  | conditional | loop | block => exact setting.judge_eq Iff.rfl rfl (.inr (.refl _))
  | switch inside =>
    refine setting.judge_eq ?_ rfl (.inr (.refl _))
    have same := caseLiterals_of_reorder inside
    exact exists_congr fun type => and_congr_right fun _ =>
      ⟨.of_caseLiterals same, .of_caseLiterals same.symm⟩

/-! ### Environments that are alike -/

mutual

/-- A block is judged alike in environments that are alike. -/
theorem judge_points_block {environment other : Environment}
    (alike : environment.Alike false other) (inLoop inFunction : Bool) (block : Block) :
    (block.points environment inLoop inFunction).map setting.judge =
      (block.points other inLoop inFunction).map setting.judge := by
  cases block with
  | mk id span statements =>
    rw [Block.points, Block.points]
    exact judge_points_statements alike inLoop inFunction statements [] statements

theorem judge_points_statements {environment other : Environment}
    (alike : environment.Alike false other) (inLoop inFunction : Bool)
    (all before statements : List Statement) :
    (statementPoints environment inLoop inFunction all before statements).map setting.judge =
      (statementPoints other inLoop inFunction all before statements).map setting.judge := by
  cases statements with
  | nil => rfl
  | cons statement rest =>
    rw [statementPoints, statementPoints, List.map_append, List.map_append,
      judge_points_statement inLoop inFunction statement (alike.cons_block all before).of_false,
      judge_points_statements alike inLoop inFunction all (statement :: before) rest]

/-- A function is judged alike where functions have the same names, with its body. -/
theorem judge_points_statement {environment other : Environment} (inLoop inFunction : Bool)
    (statement : Statement) (alike : environment.Alike statement.isFunction other) :
    (statement.points environment inLoop inFunction).map setting.judge =
      (statement.points other inLoop inFunction).map setting.judge := by
  have single := setting.judge_of_alike inLoop inFunction alike
  cases statement with
  | function id span name parameters returns body =>
    rw [Statement.points, Statement.points, List.map_cons, List.map_cons, single,
      judge_points_block (alike.cons_function parameters returns) false true body]
  | conditional span condition body =>
    rw [Statement.points, Statement.points, List.map_cons, List.map_cons, single,
      judge_points_block alike inLoop inFunction body]
  | «switch» span scrutinee cases =>
    rw [Statement.points, Statement.points, List.map_cons, List.map_cons, single,
      judge_points_cases alike inLoop inFunction cases]
  | loop id span pre condition post body =>
    have behind := alike.cons_block pre.statements pre.statements.reverse
    rw [Statement.points, Statement.points]
    simp only [List.map_append, List.map_cons]
    rw [judge_points_block alike false inFunction pre, setting.judge_of_alike inLoop inFunction behind,
      judge_points_block behind true inFunction body,
      judge_points_block behind false inFunction post]
  | block block =>
    rw [Statement.points, Statement.points]
    exact judge_points_block alike inLoop inFunction block
  | _ =>
    rw [Statement.points, Statement.points, List.map_singleton, List.map_singleton, single]

theorem judge_points_cases {environment other : Environment}
    (alike : environment.Alike false other) (inLoop inFunction : Bool) (cases : List Case) :
    (casePoints environment inLoop inFunction cases).map setting.judge =
      (casePoints other inLoop inFunction cases).map setting.judge := by
  cases cases with
  | nil => rfl
  | cons first rest =>
    obtain ⟨span, value?, body⟩ := first
    rw [casePoints, casePoints, List.map_append, List.map_append,
      judge_points_block alike inLoop inFunction body,
      judge_points_cases alike inLoop inFunction rest]

end

/-! ### Blocks in another order -/

section Block

variable {all others : List Statement}

/-- The functions of a block may be judged first, wherever they are. -/
theorem perm_judge_functions (distinct : (Frame.block all []).names.Nodup) (outer : Environment)
    {before statements : List Statement} (inside : before ⊆ all) (rest : statements ⊆ all) :
    ((statementPoints outer inLoop inFunction all before statements).map setting.judge).Perm
      (((statements.filter (·.isFunction)).flatMap fun statement =>
          (statement.points (.block all [] :: outer) inLoop inFunction).map setting.judge) ++
        (statementPoints outer inLoop inFunction all (before.filter (!·.isFunction))
          (statements.filter (!·.isFunction))).map setting.judge) := by
  induction statements generalizing before with
  | nil => exact .refl _
  | cons statement statements ih =>
    obtain ⟨isHere, areHere⟩ := List.cons_subset.mp rest
    have later := ih (List.cons_subset.mpr ⟨isHere, inside⟩) areHere
    rw [statementPoints, List.map_append]
    cases isFunction : statement.isFunction with
    | true =>
      have alike : Environment.Alike true (.block all before :: outer) (.block all [] :: outer) :=
        .block_of_subset (.refl _) distinct (.refl _) inside (List.nil_subset _)
      have same := setting.judge_points_statement inLoop inFunction statement
        (isFunction ▸ alike : Environment.Alike statement.isFunction _ _)
      have isDropped (list : List Statement) :
          (statement :: list).filter (!·.isFunction) = list.filter (!·.isFunction) :=
        List.filter_cons_of_neg (by rw [isFunction]; exact Bool.false_ne_true)
      rw [isDropped] at later ⊢
      rw [List.filter_cons_of_pos isFunction, List.flatMap_cons, List.append_assoc, ← same]
      exact later.append_left _
    | false =>
      have alike : Environment.Alike false (.block all before :: outer)
          (.block all (before.filter (!·.isFunction)) :: outer) :=
        .block (.refl _) distinct (.refl _) fun name => (Frame.isComplete_filter all before name).symm
      have same := setting.judge_points_statement inLoop inFunction statement
        (isFunction ▸ alike : Environment.Alike statement.isFunction _ _)
      have isKept (list : List Statement) :
          (statement :: list).filter (!·.isFunction) = statement :: list.filter (!·.isFunction) :=
        List.filter_cons_of_pos (by rw [isFunction]; rfl)
      rw [isKept] at later ⊢
      rw [List.filter_cons_of_neg (by rw [isFunction]; exact Bool.false_ne_true), statementPoints,
        List.map_append, same]
      exact (later.append_left _).trans (List.perm_append_comm_assoc _ _ _)

variable (isPermuted : all.Perm others) (distinct : (Frame.block all []).names.Nodup)

include isPermuted distinct

/-- All names of a block are there from its start, in any order. -/
theorem alike_block_of_perm (outer : Environment) (before : List Statement) :
    Environment.Alike false (.block all before :: outer) (.block others before :: outer) :=
  .block ((isPermuted.filterMap _).append (isPermuted.flatMap_right _)) distinct (.refl _) fun _ => rfl

theorem judge_statements_of_perm (outer : Environment) (before statements : List Statement) :
    (statementPoints outer inLoop inFunction all before statements).map setting.judge =
      (statementPoints outer inLoop inFunction others before statements).map setting.judge := by
  induction statements generalizing before with
  | nil => rfl
  | cons statement rest ih =>
    have alike := alike_block_of_perm isPermuted distinct outer before
    rw [statementPoints, statementPoints, List.map_append, List.map_append,
      setting.judge_points_statement inLoop inFunction statement alike.of_false, ih]

/-- Functions may be at any place of a block. -/
theorem perm_judge_of_perm (keepsOrder : all.filter (!·.isFunction) = others.filter (!·.isFunction))
    (outer : Environment) :
    ((statementPoints outer inLoop inFunction all [] all).map setting.judge).Perm
      ((statementPoints outer inLoop inFunction others [] others).map setting.judge) := by
  have names : (Frame.block all []).names.Perm (Frame.block others []).names :=
    ((isPermuted.filterMap _).append (isPermuted.flatMap_right _)).map _
  have otherDistinct := names.nodup_iff.mp distinct
  refine (setting.perm_judge_functions inLoop inFunction distinct outer (List.nil_subset _)
    (List.Subset.refl _)).trans (.trans ?_ (setting.perm_judge_functions inLoop inFunction
      otherDistinct outer (List.nil_subset _) (List.Subset.refl _)).symm)
  rw [setting.judge_statements_of_perm inLoop inFunction isPermuted distinct, keepsOrder]
  refine List.Perm.append_right _ ?_
  have same (statement : Statement) :
      (statement.points (.block all [] :: outer) inLoop inFunction).map setting.judge =
        (statement.points (.block others [] :: outer) inLoop inFunction).map setting.judge :=
    setting.judge_points_statement inLoop inFunction statement
      (alike_block_of_perm isPermuted distinct outer []).of_false
  rw [funext same]
  exact (isPermuted.filter _).flatMap_right _

end Block

/-! ### Programs in another order -/

mutual

/-- What is judged about a reordered block is the same, in another order. -/
theorem perm_judge_block {block last : Block} (reorders : block.Reorders last)
    (once : ∀ entry ∈ block.frames, entry.2.names.Nodup) (environment : Environment)
    (inLoop inFunction : Bool) :
    ((block.points environment inLoop inFunction).map setting.judge).Perm
      ((last.points environment inLoop inFunction).map setting.judge) := by
  cases reorders with
  | @mk id span statements parts others inside isPermuted keepsOrder =>
    rw [Block.frames, List.forall_mem_cons] at once
    obtain ⟨distinct, once⟩ := once
    have names := (inside.perm_bindings (.refl _) [] []).map (·.1)
    rw [Block.points, Block.points]
    refine (perm_judge_statements inside once inside .nil distinct environment inLoop inFunction).trans ?_
    exact setting.perm_judge_of_perm inLoop inFunction isPermuted (names.nodup_iff.mp distinct)
      keepsOrder environment

theorem perm_judge_statements {statements parts : List Statement}
    (reorder : StatementsReorder statements parts)
    (once : ∀ entry ∈ statementFrames statements, entry.2.names.Nodup)
    {all allParts before partsBefore : List Statement} (allReorder : StatementsReorder all allParts)
    (beforeReorder : StatementsReorder before partsBefore)
    (distinct : (Frame.block all []).names.Nodup) (outer : Environment) (inLoop inFunction : Bool) :
    ((statementPoints outer inLoop inFunction all before statements).map setting.judge).Perm
      ((statementPoints outer inLoop inFunction allParts partsBefore parts).map setting.judge) := by
  cases reorder with
  | nil => exact .refl _
  | @cons statement part _ _ first rest =>
    rw [statementFrames, List.forall_mem_append] at once
    have alike : Environment.Alike false (.block all before :: outer)
        (.block allParts partsBefore :: outer) :=
      .block (allReorder.perm_bindings (.refl _) _ _) distinct (.refl _) fun name =>
        beforeReorder.isComplete all allParts name
    rw [statementPoints, statementPoints, List.map_append, List.map_append,
      ← setting.judge_points_statement inLoop inFunction part alike.of_false]
    exact (perm_judge_statement first once.1 _ inLoop inFunction).append
      (perm_judge_statements rest once.2 allReorder (.cons first beforeReorder) distinct outer inLoop
        inFunction)

theorem perm_judge_statement {statement last : Statement} (reorders : statement.Reorders last)
    (once : ∀ entry ∈ statement.frames, entry.2.names.Nodup) (environment : Environment)
    (inLoop inFunction : Bool) :
    ((statement.points environment inLoop inFunction).map setting.judge).Perm
      ((last.points environment inLoop inFunction).map setting.judge) := by
  have single : setting.judge ⟨environment, inLoop, inFunction, statement⟩ =
      setting.judge ⟨environment, inLoop, inFunction, last⟩ :=
    setting.judge_of_reorders inLoop inFunction reorders
  cases reorders with
  | same => exact .refl _
  | function inside =>
    rw [Statement.frames, List.forall_mem_cons] at once
    rw [Statement.points, Statement.points, List.map_cons, List.map_cons, single]
    exact (perm_judge_block inside once.2 _ false true).cons _
  | conditional inside =>
    rw [Statement.points, Statement.points, List.map_cons, List.map_cons, single]
    exact (perm_judge_block inside once _ inLoop inFunction).cons _
  | switch inside =>
    rw [Statement.points, Statement.points, List.map_cons, List.map_cons, single]
    exact (perm_judge_cases inside once _ inLoop inFunction).cons _
  | @loop id span pre otherPre condition post otherPost body otherBody insidePre insidePost
      insideBody =>
    rw [Statement.frames, List.forall_mem_append, List.forall_mem_append] at once
    obtain ⟨⟨oncePre, onceBody⟩, oncePost⟩ := once
    have alike := insidePre.alike_behind oncePre environment
    have single : setting.judge ⟨.block pre.statements pre.statements.reverse :: environment,
          inLoop, inFunction, .loop id span pre condition post body⟩ =
        setting.judge ⟨.block otherPre.statements otherPre.statements.reverse :: environment,
          inLoop, inFunction, .loop id span otherPre condition otherPost otherBody⟩ :=
      (setting.judge_of_reorders inLoop inFunction (.loop insidePre insidePost insideBody)).trans
        (setting.judge_of_alike inLoop inFunction alike)
    rw [Statement.points, Statement.points]
    simp only [List.map_append, List.map_cons]
    rw [single, ← setting.judge_points_block alike true inFunction,
      ← setting.judge_points_block alike false inFunction]
    refine .append (.append ?_ (.cons _ ?_)) ?_
    · exact perm_judge_block insidePre oncePre environment false inFunction
    · exact perm_judge_block insideBody onceBody _ true inFunction
    · exact perm_judge_block insidePost oncePost _ false inFunction
  | block inside => exact perm_judge_block inside once environment inLoop inFunction

theorem perm_judge_cases {cases others : List Case} (reorder : CasesReorder cases others)
    (once : ∀ entry ∈ caseFrames cases, entry.2.names.Nodup) (environment : Environment)
    (inLoop inFunction : Bool) :
    ((casePoints environment inLoop inFunction cases).map setting.judge).Perm
      ((casePoints environment inLoop inFunction others).map setting.judge) := by
  cases reorder with
  | nil => exact .refl _
  | cons first rest =>
    rw [caseFrames, List.forall_mem_append] at once
    rw [casePoints, casePoints, List.map_append, List.map_append]
    exact (perm_judge_block first once.1 environment inLoop inFunction).append
      (perm_judge_cases rest once.2 environment inLoop inFunction)

end

section Reordered

variable {block last : Block} (reorders : block.Reorders last)

include reorders

/-- The rules hold of a program if and only if they hold of it in another order. -/
theorem isSound_iff_of_reorders : setting.IsSound block ↔ setting.IsSound last := by
  rw [isSound_iff, isSound_iff, ← reorders.declaresOnce_iff]
  refine and_congr_right fun once => ?_
  have judged := setting.perm_judge_block reorders once [] false false
  have every (block : Block) :
      (∀ point ∈ block.points [] false false, setting.PointIsSound point) ↔
        ∀ judgement ∈ (block.points [] false false).map setting.judge, judgement.isSound := by
    rw [List.forall_mem_map]
    exact Iff.rfl
  rw [every, every]
  exact forall_congr' fun judgement => imp_congr_left judged.mem_iff

variable (once : block.DeclaresOnce)

include once

/-- The same is noted about the expressions of a reordered program, in another order. -/
theorem perm_notes : (setting.notes block).Perm (setting.notes last) := by
  have noted := (setting.perm_judge_block reorders once [] false false).flatMap_right (·.notes)
  rw [List.flatMap_map, List.flatMap_map] at noted
  rw [← setting.flatMap_notesAt, ← setting.flatMap_notesAt]
  exact noted

end Reordered

end Setting

end YulCheck
