import YulCheck.Proofs.Build.Builder
import YulCheck.Proofs.Judgement.Evaluated

/-! # Numbers of expressions

Every call of a builder makes one expression at most, which gets a new number. So no two expressions of
a program that is built have the same number.
-/

namespace YulCheck

/-! ### Numbers of nodes -/

theorem expressionNumbers_append (first second : List Expression) :
    expressionNumbers (first ++ second) = expressionNumbers first ++ expressionNumbers second := by
  rw [expressionNumbers, List.flatMap_append, List.map_append]
  rfl

theorem expressionNumbers_cons (first : Expression) (rest : List Expression) :
    expressionNumbers (first :: rest) = expressionNumbers [first] ++ expressionNumbers rest :=
  expressionNumbers_append [first] rest

/-- Arguments are numbered from right to left. -/
theorem perm_map_argumentNodes (arguments : List Expression) :
    ((argumentNodes arguments).map (·.id)).Perm (expressionNumbers arguments) := by
  induction arguments with
  | nil => exact .refl _
  | cons argument rest ih =>
    rw [argumentNodes, List.map_append, expressionNumbers, List.flatMap_cons, List.map_append]
    exact List.perm_append_comm.trans (ih.append_left _)

/-- Literals keep their numbers where they become text of any length. -/
theorem expressionNumbers_unbindArguments (required : Nat → Option LiteralKind) (index : Nat)
    (arguments : List Expression) :
    expressionNumbers (Elaborate.unbindArguments required index arguments) =
      expressionNumbers arguments := by
  induction arguments generalizing index with
  | nil => rfl
  | cons argument rest ih =>
    cases argument with
    | literal constant =>
      rw [Elaborate.unbindArguments, expressionNumbers_cons, ih, expressionNumbers_cons (.literal _)]
      split <;> rfl
    | identifier | call =>
      rw [Elaborate.unbindArguments, expressionNumbers_cons, ih, ← expressionNumbers_cons]
      all_goals
        intro _ same
        cases same

theorem statementsEvaluated_eq_flatMap (statements : List Statement) :
    statementsEvaluated statements = statements.flatMap (·.evaluated) := by
  induction statements with
  | nil => rfl
  | cons statement rest ih => rw [statementsEvaluated, ih, List.flatMap_cons]

theorem casesEvaluated_eq_flatMap (cases : List Case) :
    casesEvaluated cases = cases.flatMap fun case => casesEvaluated [case] := by
  induction cases with
  | nil => rfl
  | cons first rest ih =>
    obtain ⟨span, value?, body⟩ := first
    rw [casesEvaluated, ih, List.flatMap_cons, casesEvaluated, casesEvaluated, List.append_nil]

namespace Node

/-- The numbers of the expressions in a node, and that of a literal. -/
def numbers : Node → List NodeId
  | literal constant => [constant.id]
  | expression value => expressionNumbers [value]
  | case choice => expressionNumbers (casesEvaluated [choice])
  | block body => body.numbers
  | statement single => expressionNumbers single.evaluated

/-- The numbers in nodes of one kind are those of all that they evaluate. -/
theorem flatMap_numbers {α : Type} {make : α → Node} {evaluated : α → List Expression}
    (each : ∀ part, (make part).numbers = expressionNumbers (evaluated part)) (parts : List α) :
    (parts.map make).flatMap numbers = expressionNumbers (parts.flatMap evaluated) := by
  rw [List.flatMap_map, funext each, expressionNumbers, List.flatMap_assoc, List.map_flatMap]
  rfl

end Node

/-! ### Calls of a builder -/

theorem Elaboration.nextId_typeLabel (state : Elaboration) (label : String) :
    ((Elaborate.typeLabel label).run state).2.nextId = state.nextId := by
  rw [Elaborate.run_typeLabel]
  split
  · rfl
  · split <;> rfl

/-- A literal gets the next number. -/
theorem Elaborate.id_literal {written : Source.Literal} (spelled : written.IsSpelled)
    (state : Elaboration) :
    ((literal none written).run state).1.id = state.nextId ∧
      ((literal none written).run state).2.nextId = state.nextId + 1 := by
  cases written with
  | number text label =>
    have same := state.nextId_typeLabel (label.getD "")
    exact ⟨same, congrArg (· + 1) same⟩
  | boolean flag label =>
    cases label with
    | none => exact ⟨rfl, rfl⟩
    | some label =>
      have same := state.nextId_typeLabel label
      exact ⟨same, congrArg (· + 1) same⟩
  | string text => exact ⟨rfl, rfl⟩
  | value | located => cases spelled

/-- A call of a builder makes at most one expression, with a new number. -/
theorem Makes.adds_numbers {names : List Handle} {used : List Node} {make : Elaborate Node}
    (makes : Makes names used make) (state : Elaboration) :
    state.Adds id (make.run state).2 (used.flatMap (·.numbers)) (make.run state).1.numbers := by
  cases makes with
  | literal spelled =>
    obtain ⟨isNext, next⟩ := Elaborate.id_literal spelled state
    refine .inr ⟨state.nextId, Nat.le_refl _, Nat.lt_of_lt_of_eq (Nat.lt_succ_self _) next.symm, ?_⟩
    exact (congrArg (fun id => [id]) isNext) ▸ .refl _
  | identifier => exact .inr ⟨state.nextId, Nat.le_refl _, Nat.lt_succ_self _, .refl _⟩
  | call _ arguments =>
    -- The first new number is that of the called name.
    refine .inr ⟨state.nextId + 1, Nat.le_succ _, Nat.lt_succ_self _, List.Perm.subperm ?_⟩
    show (List.map _ ((argumentNodes (Elaborate.unbindArguments _ 0 arguments) ++ [_]) ++ [])).Perm _
    rw [List.append_nil, List.map_append, Node.flatMap_numbers fun _ => rfl]
    refine List.perm_append_comm.trans (.cons _ ?_)
    rw [List.flatMap_singleton', ← expressionNumbers_unbindArguments _ 0 arguments]
    exact perm_map_argumentNodes _
  | constant | effect | assignment | function | nested =>
    exact .of_eq (List.flatMap_singleton _ _).symm
  | declaration locals value? | redeclaration _ value? =>
    cases value? with
    | none => exact .of_eq rfl
    | some value => exact .of_eq (List.flatMap_singleton _ _).symm
  | conditional condition body =>
    apply Elaboration.Adds.of_eq
    show _ = expressionNumbers [condition] ++ (expressionNumbers body.evaluated ++ [])
    rw [List.append_nil, ← expressionNumbers_cons]
    rfl
  | case value? body =>
    refine .inl (List.Sublist.subperm ?_)
    show (expressionNumbers (body.evaluated ++ [])).Sublist _
    rw [List.append_nil, List.flatMap_append, List.flatMap_singleton]
    exact List.sublist_append_right _ _
  | switch scrutinee cases =>
    apply Elaboration.Adds.of_eq
    rw [List.flatMap_cons, Node.flatMap_numbers fun _ => rfl, ← casesEvaluated_eq_flatMap]
    exact expressionNumbers_cons _ _
  | loop pre condition post body =>
    apply Elaboration.Adds.of_perm
    show (expressionNumbers (pre.evaluated ++ condition :: body.evaluated ++ post.evaluated)).Perm
      (expressionNumbers pre.evaluated ++ (expressionNumbers [condition] ++
        (expressionNumbers post.evaluated ++ (expressionNumbers body.evaluated ++ []))))
    rw [List.append_nil, expressionNumbers_append, expressionNumbers_append,
      expressionNumbers_cons condition body.evaluated, List.append_assoc, List.append_assoc]
    exact (List.perm_append_comm.append_left _).append_left _
  | «break» | «continue» | leave => exact .of_eq rfl
  | block statements =>
    apply Elaboration.Adds.of_eq
    rw [Node.flatMap_numbers fun _ => rfl, ← statementsEvaluated_eq_flatMap]
    rfl

/-! ### All builders -/

namespace Builder

/-- Whether no two expressions of a builder have the same number. -/
structure IsNumbered (builder : Builder) : Prop where
  distinct : (builder.nodes.flatMap (·.numbers)).Nodup
  below : ∀ id ∈ builder.nodes.flatMap (·.numbers), id < builder.elaboration.nextId
  earlier : ∀ node ∈ builder.earlier, node.numbers.Nodup

namespace IsNumbered

variable {builder : Builder}

theorem of_mem (numbered : builder.IsNumbered) {node : Node}
    (isMade : node ∈ builder.nodes ++ builder.earlier) : node.numbers.Nodup := by
  rcases List.mem_append.mp isMade with isUnused | isEarlier
  · exact (List.nodup_flatMap.mp numbered.distinct).1 node isUnused
  · exact numbered.earlier node isEarlier

/-- A call takes the nodes that it uses away, and adds at most one number that is new. -/
theorem extend (numbered : builder.IsNumbered) {used unused : List Node} {make : Elaborate Node}
    (makes : Makes builder.names used make) (isSplit : builder.nodes.Perm (used ++ unused))
    (nextId : builder.elaboration.nextId ≤ (make.run builder.elaboration).2.nextId) :
    (builder.extend make unused).IsNumbered := by
  have numbers : (builder.nodes.flatMap (·.numbers)).Perm
      (used.flatMap (·.numbers) ++ unused.flatMap (·.numbers)) := by
    rw [← List.flatMap_append]
    exact isSplit.flatMap_right _
  have apart := (makes.adds_numbers builder.elaboration).nodup (numbers.nodup_iff.mp numbered.distinct)
    (fun id member => numbered.below id (numbers.mem_iff.mpr member)) nextId
  have every : ((make.run builder.elaboration).1 :: unused).flatMap (·.numbers) =
      (make.run builder.elaboration).1.numbers ++ unused.flatMap (·.numbers) := List.flatMap_cons
  rw [← every] at apart
  exact ⟨apart.1, apart.2, numbered.earlier⟩

theorem step {dialect : Dialect} {after : Builder} (regular : dialect.IsRegular)
    (sound : builder.IsSound dialect) (numbered : builder.IsNumbered) (step : builder.Step after) :
    after.IsNumbered := by
  cases step with
  | locate | define | derive | defineGhost =>
    exact ⟨numbered.distinct, numbered.below, numbered.earlier⟩
  | make makes isSplit =>
    exact numbered.extend makes isSplit (sound.yields regular makes isSplit).isExtended.nextId
  | restart => exact ⟨List.nodup_nil, nofun, fun node isMade => numbered.of_mem isMade⟩

end IsNumbered

end Builder

end YulCheck
