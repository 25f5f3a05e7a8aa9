import YulCheck.Proofs.Hoist.Reordering
import YulCheck.Proofs.Judgement.Statements

/-! # Environments that say the same

Two environments are alike if every name refers to the same in both. The rules for a statement, and
what is noted about its expression, are the same in environments that are alike. A function sees less of
the environment around it: it makes no difference to its body which declarations are complete.
-/

namespace YulCheck

/-! ### Complete declarations -/

namespace Frame

variable {all before : List Statement}

/-- A name of a function is not among those of complete declarations. -/
theorem isComplete_of_function (distinct : (block all before).names.Nodup) (inside : before ⊆ all)
    {name : Handle} {parameters returns : List TypeHandle}
    (found : (block all before).binding? name = some (.function parameters returns)) :
    (block all before).isComplete name = false := by
  rw [Bool.eq_false_iff]
  intro isComplete
  rw [Frame.isComplete, List.any_eq_true] at isComplete
  obtain ⟨statement, isBefore, declares⟩ := isComplete
  obtain ⟨declared, isLocal, same⟩ := List.any_eq_true.mp declares
  obtain rfl := of_decide_eq_true same
  have bound : (declared.name, .variable declared.type) ∈ (block all before).bindings :=
    List.mem_append_right _ (List.mem_flatMap.mpr
      ⟨statement, inside isBefore, List.mem_map_of_mem isLocal⟩)
  cases found.symm.trans (List.lookup_of_mem distinct bound)

/-- Functions complete nothing in their block. -/
theorem isComplete_filter (all before : List Statement) (name : Handle) :
    (block all (before.filter (!·.isFunction))).isComplete name =
      (block all before).isComplete name := by
  rw [isComplete, isComplete, List.any_filter]
  congr 1
  funext statement
  cases statement <;> rfl

end Frame

/-- Statements complete the same declarations before and after the blocks in them are reordered. -/
theorem StatementsReorder.isComplete {before otherBefore : List Statement}
    (reorder : StatementsReorder before otherBefore) (all others : List Statement) (name : Handle) :
    (Frame.block all before).isComplete name = (Frame.block others otherBefore).isComplete name := by
  cases reorder with
  | nil => rfl
  | cons first rest =>
    have same := rest.isComplete all others name
    rw [Frame.isComplete, Frame.isComplete] at same ⊢
    rw [List.any_cons, List.any_cons, same, first.locals]

/-! ### Environments -/

namespace Environment

/-- Whether all names refer to the same in two environments. The flag tells whether a function was
left on the way to them, so that variables are hidden. -/
def Alike (leftFunction : Bool) (environment other : Environment) : Prop :=
  ∀ name, lookupFrom name leftFunction environment = lookupFrom name leftFunction other

/-- Behind a function only functions are visible. -/
theorem lookupFrom_true (name : Handle) (leftFunction : Bool) (environment : Environment) :
    lookupFrom name true environment =
      (lookupFrom name leftFunction environment).filter fun found => !found.binding.isVariable := by
  induction environment generalizing leftFunction with
  | nil => rfl
  | cons frame outer ih =>
    rw [lookupFrom, lookupFrom]
    cases frame.binding? name with
    | none => exact ih (leftFunction || frame.isFunction)
    | some binding => cases binding <;> cases leftFunction <;> rfl

namespace Alike

variable {leftFunction : Bool} {environment other : Environment}

theorem refl (environment : Environment) : environment.Alike leftFunction environment :=
  fun _ => rfl

theorem symm (alike : environment.Alike leftFunction other) : other.Alike leftFunction environment :=
  fun name => (alike name).symm

/-- Environments that are alike are so behind a function. -/
theorem leave (alike : environment.Alike leftFunction other) : environment.Alike true other := by
  intro name
  rw [lookupFrom_true name leftFunction, lookupFrom_true name leftFunction, alike name]

theorem of_false (alike : environment.Alike false other) : environment.Alike leftFunction other := by
  cases leftFunction with
  | false => exact alike
  | true => exact alike.leave

theorem cons_block (alike : environment.Alike leftFunction other) (all before : List Statement) :
    Alike leftFunction (.block all before :: environment) (.block all before :: other) := by
  intro name
  rw [lookupFrom, lookupFrom, Frame.isFunction, Bool.or_false, alike name]

/-- The body of a function sees no variables of the environment. -/
theorem cons_function (alike : environment.Alike true other) (parameters returns : List Variable) :
    Alike false (.function parameters returns :: environment)
      (.function parameters returns :: other) := by
  intro name
  rw [lookupFrom, lookupFrom, Frame.isFunction, Bool.or_true, alike name]

section Block

variable {all others before otherBefore : List Statement}
  (isPermuted : (Frame.block all before).bindings.Perm (Frame.block others otherBefore).bindings)
  (distinct : (Frame.block all before).names.Nodup)

include isPermuted distinct

/-- The order of the statements of a block does not matter where the same declarations are
complete. -/
theorem block (alike : environment.Alike false other)
    (isComplete : ∀ name, (Frame.block all before).isComplete name =
      (Frame.block others otherBefore).isComplete name) :
    Alike false (.block all before :: environment) (.block others otherBefore :: other) := by
  intro name
  have outer := alike name
  rw [lookupFrom, lookupFrom, Frame.binding?, Frame.binding?,
    List.lookup_of_perm isPermuted distinct, isComplete]
  cases (Frame.block others otherBefore).bindings.lookup name with
  | none => exact outer
  | some binding => rfl

/-- Behind a function it makes no difference which declarations of a block are complete. -/
theorem block_of_subset (alike : environment.Alike true other) (inside : before ⊆ all)
    (otherInside : otherBefore ⊆ others) :
    Alike true (.block all before :: environment) (.block others otherBefore :: other) := by
  intro name
  have outer := alike name
  have same : (Frame.block all before).binding? name =
      (Frame.block others otherBefore).binding? name :=
    List.lookup_of_perm isPermuted distinct name
  have otherDistinct : (Frame.block others otherBefore).names.Nodup :=
    (isPermuted.map _).nodup_iff.mp distinct
  rw [lookupFrom, lookupFrom]
  cases found : (Frame.block all before).binding? name with
  | none =>
    rw [← same, found]
    exact outer
  | some binding =>
    rw [← same, found]
    cases binding with
    | «variable» => rfl
    | function =>
      rw [Frame.isComplete_of_function distinct inside found,
        Frame.isComplete_of_function otherDistinct otherInside (same ▸ found)]

end Block

end Alike

end Environment

/-- Behind all statements of a block their order does not matter. -/
theorem Block.Reorders.alike_behind {block other : Block} (reorders : block.Reorders other)
    (once : block.DeclaresOnce) (outer : Environment) :
    Environment.Alike false (.block block.statements block.statements.reverse :: outer)
      (.block other.statements other.statements.reverse :: outer) := by
  cases reorders with
  | @mk id span statements parts others inside isPermuted _ =>
    rw [DeclaresOnce, Block.frames, List.forall_mem_cons] at once
    refine .block (inside.perm_bindings isPermuted _ _) once.1 (.refl _) fun name => ?_
    have same := inside.isComplete statements others name
    rw [Frame.isComplete, Frame.isComplete] at same ⊢
    rw [Block.statements, Block.statements, List.any_reverse, List.any_reverse, same]
    exact isPermuted.any_eq

/-! ### Rules in environments that are alike -/

namespace Setting

variable (setting : Setting) {environment other : Environment}

theorem variableType?_of_alike (alike : environment.Alike false other) (name : Handle) :
    variableType? environment name = variableType? other name := by
  have same : environment.lookup? name = other.lookup? name := alike name
  rw [variableType?, variableType?, same]

theorem signature?_of_alike (alike : environment.Alike false other) (name : Handle) :
    setting.signature? environment name = setting.signature? other name := by
  have same : environment.lookup? name = other.lookup? name := alike name
  rw [signature?, signature?, same]

theorem typesOf_of_alike (alike : environment.Alike false other) :
    setting.typesOf environment = setting.typesOf other := by
  funext expression
  cases expression with
  | literal => rfl
  | identifier use => rw [typesOf, typesOf, variableType?_of_alike alike]
  | call id span callee arguments => rw [typesOf, typesOf, setting.signature?_of_alike alike]

variable {setting} in
theorem CallIsSound.of_alike (alike : environment.Alike false other) {function : Handle}
    {arguments : List Expression} (sound : setting.CallIsSound environment function arguments) :
    setting.CallIsSound other function arguments := by
  obtain ⟨available, signature, literals⟩ := sound
  rw [setting.signature?_of_alike alike, setting.typesOf_of_alike alike] at signature
  exact ⟨available, signature, literals⟩

theorem nodeIsSound_of_alike (alike : environment.Alike false other) :
    setting.NodeIsSound environment = setting.NodeIsSound other := by
  funext node
  cases node with
  | literal => rfl
  | identifier use => rw [NodeIsSound, NodeIsSound, variableType?_of_alike alike]
  | call => exact propext ⟨.of_alike alike, .of_alike alike.symm⟩

end Setting

end YulCheck
