import YulCheck.Proofs.Judgement.Acceptance

/-! # The types that are recorded

After a program was found to be correct, the facts about it hold the types of every expression in it:
those that the expression has by itself, which fit the use of its values.
-/

namespace YulCheck

/-! ### Nodes of nodes -/

theorem Expression.mem_nodes_self (expression : Expression) : expression ∈ expression.nodes := by
  cases expression with
  | literal | identifier =>
    rw [nodes]
    exact List.mem_cons_self
  | call =>
    rw [nodes]
    exact List.mem_append_right _ List.mem_cons_self

theorem nodes_subset_argumentNodes {argument : Expression} {arguments : List Expression}
    (member : argument ∈ arguments) : argument.nodes ⊆ argumentNodes arguments := by
  induction arguments with
  | nil => cases member
  | cons first rest ih =>
    rw [argumentNodes]
    rcases List.mem_cons.mp member with rfl | member
    · exact List.subset_append_right _ _
    · exact List.subset_append_of_subset_left _ (ih member)

mutual

/-- The nodes of a node of an expression are nodes of the expression. -/
theorem Expression.nodes_subset {node expression : Expression} (isNode : node ∈ expression.nodes) :
    node.nodes ⊆ expression.nodes := by
  cases expression with
  | literal constant =>
    rw [Expression.nodes] at isNode
    obtain rfl := List.mem_singleton.mp isNode
    exact List.Subset.refl _
  | identifier use =>
    rw [Expression.nodes] at isNode
    obtain rfl := List.mem_singleton.mp isNode
    exact List.Subset.refl _
  | call id span callee arguments =>
    rw [Expression.nodes] at isNode
    rcases List.mem_append.mp isNode with isNode | isLast
    · rw [Expression.nodes.eq_def (.call id span callee arguments)]
      exact List.subset_append_of_subset_left _ (nodes_subset_of_argument isNode)
    · obtain rfl := List.mem_singleton.mp isLast
      exact List.Subset.refl _

theorem nodes_subset_of_argument {node : Expression} {arguments : List Expression}
    (isNode : node ∈ argumentNodes arguments) : node.nodes ⊆ argumentNodes arguments := by
  cases arguments with
  | nil =>
    rw [argumentNodes] at isNode
    cases isNode
  | cons first rest =>
    rw [argumentNodes] at isNode ⊢
    rcases List.mem_append.mp isNode with isNode | isNode
    · exact List.subset_append_of_subset_left _ (nodes_subset_of_argument isNode)
    · exact List.subset_append_of_subset_right _ (Expression.nodes_subset isNode)

end

/-- The arguments of a call in a program are expressions of the program. -/
theorem Block.mem_expressions_of_argument {block : Block} {environment : Environment} {id : NodeId}
    {span : Span} {callee : Identifier} {arguments : List Expression}
    (isCall : (environment, .call id span callee arguments) ∈ block.expressions)
    {argument : Expression} (isArgument : argument ∈ arguments) :
    (environment, argument) ∈ block.expressions := by
  obtain ⟨point, member, value, evaluates, isNode, same⟩ := mem_expressions_iff.mp isCall
  refine mem_expressions_iff.mpr ⟨point, member, value, evaluates, ?_, same⟩
  apply Expression.nodes_subset isNode
  rw [Expression.nodes]
  apply List.mem_append_left
  exact nodes_subset_argumentNodes isArgument argument.mem_nodes_self

/-- What a statement evaluates is an expression of the program. -/
theorem Block.mem_expressions_of_point {block : Block} {point : Point} {value : Expression}
    (member : point ∈ block.points [] false false)
    (evaluates : point.statement.expression? = some value) :
    (point.environment, value) ∈ block.expressions :=
  mem_expressions_iff.mpr ⟨point, member, value, evaluates, value.mem_nodes_self, rfl⟩

namespace Setting

/-! ### Recorded types -/

/-- Whether the recorded types of a statement's expression fit the statement. -/
def FitsStatement (recorded : Expression → Option (List TypeHandle)) (boolType : TypeHandle)
    (point : Point) : Prop :=
  match point.statement with
  | .expression _ value => recorded value = some []
  | .declaration _ locals value? =>
    ∀ value, value? = some value → recorded value = some (locals.map (·.type))
  | .assignment _ targets value =>
    ∃ types, recorded value = some types ∧
      targets.map (fun target => variableType? point.environment target.name) = types.map some
  | .conditional _ condition _ | .loop _ _ _ condition _ _ => recorded condition = some [boolType]
  | .switch _ scrutinee cases =>
    ∃ type, recorded scrutinee = some [type] ∧ ∀ literal ∈ caseLiterals cases, literal.type = type
  | .function .. | .break _ | .continue _ | .leave _ | .block _ => True

/-- Whether the recorded types of an expression are those that it has, and those of its arguments
fit the parameters of what it calls. -/
def FitsExpression (setting : Setting) (recorded : Expression → Option (List TypeHandle))
    (environment : Environment) : Expression → Prop
  | .literal constant => recorded (.literal constant) = some [constant.type]
  | .identifier use =>
    ∃ type, variableType? environment use.name = some type ∧
      recorded (.identifier use) = some [type]
  | .call id span callee arguments =>
    ∃ parameters returns, setting.signature? environment callee.name = some (parameters, returns) ∧
      recorded (.call id span callee arguments) = some returns ∧
      arguments.map recorded = parameters.map fun type => some [type]

/-- Whether the recorded types are a typing of a program. -/
structure IsTyping (setting : Setting) (recorded : Expression → Option (List TypeHandle))
    (block : Block) : Prop where
  expressions : ∀ entry ∈ block.expressions, setting.FitsExpression recorded entry.1 entry.2
  statements : ∀ point ∈ block.points [] false false,
    FitsStatement recorded setting.names.predefined.boolType point

variable {setting : Setting} {recorded : Expression → Option (List TypeHandle)} {block : Block}

/-- If the types of all expressions of a correct program are recorded, they are a typing of it. -/
theorem IsSound.isTyping (sound : setting.IsSound block)
    (complete : ∀ entry ∈ block.expressions,
      recorded entry.2 = some (setting.typesOf entry.1 entry.2)) :
    setting.IsTyping recorded block where
  expressions := by
    rintro ⟨environment, expression⟩ isEntry
    have entry := complete _ isEntry
    have node := sound.expressions _ isEntry
    cases expression with
    | literal constant => exact entry
    | identifier use =>
      obtain ⟨type, known⟩ := Option.isSome_iff_exists.mp node
      dsimp only at entry
      rw [typesOf, known] at entry
      exact ⟨type, known, entry⟩
    | call id span callee arguments =>
      obtain ⟨parameters, returns, known, same⟩ := node.signature
      dsimp only at entry
      rw [typesOf, known] at entry
      refine ⟨parameters, returns, known, entry, ?_⟩
      have argumentEntries : arguments.map recorded =
          (arguments.map (setting.typesOf environment)).map some := by
        rw [List.map_map]
        exact List.map_congr_left fun argument isArgument =>
          complete _ (Block.mem_expressions_of_argument isEntry isArgument)
      rw [argumentEntries, same, List.map_map]
      rfl
  statements := by
    intro point member
    have rule := sound.statements point member
    have entry : ∀ value, point.statement.expression? = some value →
        recorded value = some (setting.typesOf point.environment value) :=
      fun value evaluates => complete _ (Block.mem_expressions_of_point member evaluates)
    obtain ⟨environment, inLoop, inFunction, statement⟩ := point
    cases statement with
    | function | «break» | «continue» | leave | block => trivial
    | expression span value => exact (entry value rfl).trans (congrArg some rule)
    | declaration span locals value? =>
      intro value evaluates
      exact (entry value evaluates).trans (congrArg some (rule.2 value evaluates))
    | assignment span targets value => exact ⟨_, entry value rfl, rule.2⟩
    | conditional span condition body => exact (entry condition rfl).trans (congrArg some rule)
    | loop id span pre condition post body =>
      exact (entry condition rfl).trans (congrArg some rule)
    | switch span scrutinee cases =>
      obtain ⟨type, same, casesAreSound⟩ := rule
      refine ⟨type, (entry scrutinee rfl).trans (congrArg some same), fun literal isValue => ?_⟩
      exact (casesAreSound.literals literal isValue).2

end Setting

/-- The facts after a run hold what was noted in it, if every expression has a number of its own. -/
theorem Facts.typesOf?_of_notes {setting : Setting} {block : Block} {facts : Facts}
    {before : List (NodeId × List TypeHandle)}
    (distinct : (block.expressions.map (·.2.id)).Nodup)
    (noted : facts.expressionTypes = (setting.notes block).reverse ++ before) :
    ∀ entry ∈ block.expressions,
      facts.typesOf? entry.2.id = some (setting.typesOf entry.1 entry.2) := by
  intro entry isEntry
  have keys : ((setting.notes block).map (·.1)).Nodup := by
    rw [Setting.notes, List.map_map]
    exact distinct
  have isNoted : (entry.2.id, setting.typesOf entry.1 entry.2) ∈ setting.notes block :=
    List.mem_map_of_mem isEntry
  rw [typesOf?, noted, List.lookup_append, List.lookup_reverse keys, List.lookup_of_mem keys isNoted]
  rfl

namespace Workspace

variable {workspace : Workspace} {block : Block} {dataNames : List String} {outcome : Outcome}

/-- The recorded types of a correct program are a typing of it: every expression has an entry, with
the types that it has, and they fit its use. -/
theorem isTyping_of_isCorrect (reachable : workspace.IsReachable) (distinct : block.owners.Nodup)
    (distinctExpressions : (block.expressions.map (·.2.id)).Nodup)
    (analyzed : workspace.analyze none () block dataNames = .ok (outcome, ()))
    (isCorrect : outcome.isCorrect = true) :
    (workspace.checker dataNames).setting.IsTyping
      (fun expression => outcome.facts.typesOf? expression.id) block := by
  obtain ⟨ended, after, ran, same, correct⟩ := exists_run_of_analyze analyzed
  rcases Setting.decides_checkProgram _ (reachable.hasTypedBuiltins dataNames) block distinct
    rfl (fun _ isActive => absurd isActive List.not_mem_nil) ran with
    ⟨sound, _, _, before, noted⟩ | ⟨_, more⟩
  · rw [same]
    exact sound.isTyping (Facts.typesOf?_of_notes distinctExpressions noted)
  · have quiet := (correct.mp isCorrect).2
    omega

/-- The recorded types of the sample program are a typing of it. -/
theorem isTyping_sampleProgram : ∃ outcome,
    sample.analyze none () sampleProgram [] = .ok (outcome, ()) ∧ outcome.isCorrect = true ∧
      (sample.checker []).setting.IsTyping
        (fun expression => outcome.facts.typesOf? expression.id) sampleProgram := by
  obtain ⟨outcome, analyzed, isCorrect⟩ := exists_analyze_sample
  exact ⟨outcome, analyzed, isCorrect,
    isTyping_of_isCorrect isReachable_sample (by decide) (by decide) analyzed isCorrect⟩

end Workspace

end YulCheck
