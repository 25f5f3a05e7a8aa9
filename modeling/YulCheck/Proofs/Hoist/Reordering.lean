import YulCheck.Proofs.Build.Tree
import YulCheck.Proofs.Scope.Growth
import YulCheck.Proofs.Scope.Layout

/-! # Programs in another order

A reordering of a program moves function definitions inside of their blocks, at any depth. All other
statements of a block stay in their order. The program keeps its frames and all that checking relies
on.
-/

namespace YulCheck

/-- Whether a statement defines a function. -/
def Statement.isFunction : Statement → Bool
  | .function .. => true
  | _ => false

mutual

/-- Whether a block is another one with functions in other places: after the blocks inside of its
statements were reordered, its statements are permuted, those that define no functions in their
order. -/
inductive Block.Reorders : Block → Block → Prop
  | mk {id : NodeId} {span : Span} {statements parts others : List Statement}
    (inside : StatementsReorder statements parts) (isPermuted : parts.Perm others)
    (keepsOrder : parts.filter (!·.isFunction) = others.filter (!·.isFunction)) :
    Block.Reorders (.mk id span statements) (.mk id span others)

/-- Whether statements are other ones, one by one, with functions in other places inside of them. -/
inductive StatementsReorder : List Statement → List Statement → Prop
  | nil : StatementsReorder [] []
  | cons {statement part : Statement} {statements parts : List Statement}
    (first : statement.Reorders part) (rest : StatementsReorder statements parts) :
    StatementsReorder (statement :: statements) (part :: parts)

/-- Whether a statement is another one with functions in other places inside of it. -/
inductive Statement.Reorders : Statement → Statement → Prop
  | same (statement : Statement) : Statement.Reorders statement statement
  | function {id : NodeId} {span : Span} {name : Handle} {parameters returns : List Variable}
    {body other : Block} (inside : body.Reorders other) :
    Statement.Reorders (.function id span name parameters returns body)
      (.function id span name parameters returns other)
  | conditional {span : Span} {condition : Expression} {body other : Block}
    (inside : body.Reorders other) :
    Statement.Reorders (.conditional span condition body) (.conditional span condition other)
  | switch {span : Span} {scrutinee : Expression} {cases others : List Case}
    (inside : CasesReorder cases others) :
    Statement.Reorders (.switch span scrutinee cases) (.switch span scrutinee others)
  | loop {id : NodeId} {span : Span} {pre otherPre : Block} {condition : Expression}
    {post otherPost body otherBody : Block} (insidePre : pre.Reorders otherPre)
    (insidePost : post.Reorders otherPost) (insideBody : body.Reorders otherBody) :
    Statement.Reorders (.loop id span pre condition post body)
      (.loop id span otherPre condition otherPost otherBody)
  | block {block other : Block} (inside : block.Reorders other) :
    Statement.Reorders (.block block) (.block other)

/-- Whether the cases of a switch are other ones with functions in other places inside of them. -/
inductive CasesReorder : List Case → List Case → Prop
  | nil : CasesReorder [] []
  | cons {span : Span} {value : Option Literal} {body other : Block} {cases others : List Case}
    (first : body.Reorders other) (rest : CasesReorder cases others) :
    CasesReorder (.mk span value body :: cases) (.mk span value other :: others)

end

/-! ### What statements declare -/

namespace Statement.Reorders

variable {statement other : Statement}

theorem locals (reorders : statement.Reorders other) : other.locals = statement.locals := by
  cases reorders <;> rfl

theorem function? (reorders : statement.Reorders other) : other.function? = statement.function? := by
  cases reorders <;> rfl

theorem isFunction (reorders : statement.Reorders other) :
    other.isFunction = statement.isFunction := by
  cases reorders <;> rfl

end Statement.Reorders

namespace StatementsReorder

theorem filterMap_function? {statements parts : List Statement}
    (reorder : StatementsReorder statements parts) :
    parts.filterMap (·.function?) = statements.filterMap (·.function?) := by
  cases reorder with
  | nil => rfl
  | cons first rest =>
    rw [List.filterMap_cons, List.filterMap_cons, first.function?, filterMap_function? rest]

theorem flatMap_locals {statements parts : List Statement}
    (reorder : StatementsReorder statements parts) :
    (parts.flatMap fun statement => statement.locals.map (·.binding)) =
      statements.flatMap fun statement => statement.locals.map (·.binding) := by
  cases reorder with
  | nil => rfl
  | cons first rest =>
    rw [List.flatMap_cons, List.flatMap_cons, first.locals, flatMap_locals rest]

/-- The frame of a block declares the same names in another order. -/
theorem perm_bindings {statements parts others : List Statement}
    (reorder : StatementsReorder statements parts) (isPermuted : parts.Perm others)
    (before otherBefore : List Statement) :
    (Frame.block statements before).bindings.Perm (Frame.block others otherBefore).bindings := by
  rw [Frame.bindings, ← reorder.filterMap_function?, ← reorder.flatMap_locals]
  exact (isPermuted.filterMap _).append (isPermuted.flatMap_right _)

end StatementsReorder

/-! ### Frames -/

/-- The node that opens a frame, and whether the frame declares no name twice. -/
def frameHead (entry : ScopeOwner × Frame) : ScopeOwner × Prop := (entry.1, entry.2.names.Nodup)

theorem statementFrames_eq_flatMap (statements : List Statement) :
    statementFrames statements = statements.flatMap (·.frames) := by
  induction statements with
  | nil => rfl
  | cons statement rest ih => rw [statementFrames, List.flatMap_cons, ih]

mutual

/-- A reordered block has the same frames in another order. -/
theorem Block.Reorders.perm_frames {block other : Block} (reorders : block.Reorders other) :
    (block.frames.map frameHead).Perm (other.frames.map frameHead) := by
  cases reorders with
  | @mk id _ statements parts others inside isPermuted _ =>
    have names := (inside.perm_bindings isPermuted [] []).map (·.1)
    have head : frameHead (.block id, .block statements []) =
        frameHead (.block id, .block others []) :=
      congrArg (Prod.mk _) (propext names.nodup_iff)
    rw [Block.frames, Block.frames, List.map_cons, List.map_cons, head]
    refine ((inside.perm_frames).trans ?_).cons _
    rw [statementFrames_eq_flatMap, statementFrames_eq_flatMap]
    exact (isPermuted.flatMap_right _).map _

theorem StatementsReorder.perm_frames {statements parts : List Statement}
    (reorder : StatementsReorder statements parts) :
    ((statementFrames statements).map frameHead).Perm ((statementFrames parts).map frameHead) := by
  cases reorder with
  | nil => exact .refl _
  | cons first rest =>
    rw [statementFrames, statementFrames, List.map_append, List.map_append]
    exact first.perm_frames.append rest.perm_frames

theorem Statement.Reorders.perm_frames {statement other : Statement}
    (reorders : statement.Reorders other) :
    (statement.frames.map frameHead).Perm (other.frames.map frameHead) := by
  cases reorders with
  | same => exact .refl _
  | function inside => exact inside.perm_frames.cons _
  | conditional inside | block inside => exact inside.perm_frames
  | switch inside => exact inside.perm_frames
  | loop insidePre insidePost insideBody =>
    simp only [Statement.frames, List.map_append]
    exact (insidePre.perm_frames.append insideBody.perm_frames).append insidePost.perm_frames

theorem CasesReorder.perm_frames {cases others : List Case} (reorder : CasesReorder cases others) :
    ((caseFrames cases).map frameHead).Perm ((caseFrames others).map frameHead) := by
  cases reorder with
  | nil => exact .refl _
  | cons first rest =>
    rw [caseFrames, caseFrames, List.map_append, List.map_append]
    exact first.perm_frames.append rest.perm_frames

end

namespace Block.Reorders

variable {block other : Block}

theorem perm_owners (reorders : block.Reorders other) : block.owners.Perm other.owners := by
  have owners := reorders.perm_frames.map (·.1)
  rw [List.map_map, List.map_map] at owners
  exact owners

theorem declaresOnce_iff (reorders : block.Reorders other) :
    block.DeclaresOnce ↔ other.DeclaresOnce := by
  have every (block : Block) : block.DeclaresOnce ↔ ∀ head ∈ block.frames.map frameHead, head.2 := by
    rw [List.forall_mem_map]
    exact Iff.rfl
  rw [every, every]
  exact forall_congr' fun head => imp_congr_left reorders.perm_frames.mem_iff

end Block.Reorders

/-! ### What checking relies on -/

section Built

variable {table : NameTable}

mutual

theorem Block.Reorders.isBuilt {block other : Block} (reorders : block.Reorders other)
    (built : block.IsBuilt table) : other.IsBuilt table := by
  cases reorders with
  | mk inside isPermuted _ =>
    rw [Block.IsBuilt, statementsBuilt_iff] at built ⊢
    have parts := inside.isBuilt built
    exact fun statement member => parts statement (isPermuted.mem_iff.mpr member)

theorem StatementsReorder.isBuilt {statements parts : List Statement}
    (reorder : StatementsReorder statements parts)
    (built : ∀ statement ∈ statements, statement.IsBuilt table) :
    ∀ statement ∈ parts, statement.IsBuilt table := by
  cases reorder with
  | nil => exact built
  | cons first rest =>
    rw [List.forall_mem_cons] at built ⊢
    exact ⟨first.isBuilt built.1, rest.isBuilt built.2⟩

theorem Statement.Reorders.isBuilt {statement other : Statement} (reorders : statement.Reorders other)
    (built : statement.IsBuilt table) : other.IsBuilt table := by
  cases reorders with
  | same => exact built
  | function inside =>
    rw [Statement.IsBuilt] at built ⊢
    obtain ⟨named, locals, isBody⟩ := built
    exact ⟨named, locals, inside.isBuilt isBody⟩
  | conditional inside =>
    rw [Statement.IsBuilt] at built ⊢
    exact ⟨built.1, inside.isBuilt built.2⟩
  | switch inside =>
    rw [Statement.IsBuilt] at built ⊢
    exact ⟨built.1, inside.isBuilt built.2⟩
  | loop insidePre insidePost insideBody =>
    rw [Statement.IsBuilt] at built ⊢
    obtain ⟨isPre, isCondition, isPost, isBody⟩ := built
    exact ⟨insidePre.isBuilt isPre, isCondition, insidePost.isBuilt isPost,
      insideBody.isBuilt isBody⟩
  | block inside =>
    rw [Statement.IsBuilt] at built ⊢
    exact inside.isBuilt built

theorem CasesReorder.isBuilt {cases others : List Case} (reorder : CasesReorder cases others)
    (built : CasesBuilt table cases) : CasesBuilt table others := by
  cases reorder with
  | nil => exact built
  | cons first rest =>
    rw [CasesBuilt] at built ⊢
    obtain ⟨isValue, isBody, areCases⟩ := built
    exact ⟨isValue, first.isBuilt isBody, rest.isBuilt areCases⟩

end

end Built

end YulCheck
