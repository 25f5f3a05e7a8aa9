import YulCheck.Tree.Names

/-! # Where names occur

A name is mentioned in a program if it is declared, assigned to, read or called somewhere in it. The
collected names of a block are those that are mentioned in it.
-/

namespace YulCheck

/-- Whether a name is mentioned in an expression. -/
inductive Expression.Mentions : Expression → Handle → Prop
  | identifier (use : Identifier) : Mentions (.identifier use) use.name
  | callee (id : NodeId) (span : Span) (callee : Identifier) (arguments : List Expression) :
    Mentions (.call id span callee arguments) callee.name
  | argument {id : NodeId} {span : Span} {callee : Identifier} {arguments : List Expression}
    {argument : Expression} {name : Handle} (isArgument : argument ∈ arguments)
    (mentions : argument.Mentions name) : Mentions (.call id span callee arguments) name

mutual

/-- Whether a name is mentioned in a block. -/
inductive Block.Mentions : Block → Handle → Prop
  | statement {id : NodeId} {span : Span} {statements : List Statement} {statement : Statement}
    {name : Handle} (member : statement ∈ statements) (mentions : statement.Mentions name) :
    Block.Mentions (.mk id span statements) name

/-- Whether a name is mentioned in a statement, as a name of one of the kinds that a statement can have
or in a part of it. -/
inductive Statement.Mentions : Statement → Handle → Prop
  | variable {span : Span} {locals : List Variable} {value? : Option Expression}
    {declared : Variable} (isLocal : declared ∈ locals) :
    Statement.Mentions (.declaration span locals value?) declared.name
  | function (id : NodeId) (span : Span) (name : Handle) (parameters returns : List Variable)
    (body : Block) : Statement.Mentions (.function id span name parameters returns body) name
  | parameter {id : NodeId} {span : Span} {function : Handle} {parameters returns : List Variable}
    {body : Block} {declared : Variable} (isParameter : declared ∈ parameters) :
    Statement.Mentions (.function id span function parameters returns body) declared.name
  | return {id : NodeId} {span : Span} {function : Handle} {parameters returns : List Variable}
    {body : Block} {declared : Variable} (isReturn : declared ∈ returns) :
    Statement.Mentions (.function id span function parameters returns body) declared.name
  | target {span : Span} {targets : List Identifier} {value : Expression} {target : Identifier}
    (isTarget : target ∈ targets) : Statement.Mentions (.assignment span targets value) target.name
  | effect {span : Span} {value : Expression} {name : Handle} (mentions : value.Mentions name) :
    Statement.Mentions (.expression span value) name
  | assigned {span : Span} {targets : List Identifier} {value : Expression} {name : Handle}
    (mentions : value.Mentions name) : Statement.Mentions (.assignment span targets value) name
  | initial {span : Span} {locals : List Variable} {value : Expression} {name : Handle}
    (mentions : value.Mentions name) : Statement.Mentions (.declaration span locals (some value)) name
  | functionBody {id : NodeId} {span : Span} {function : Handle}
    {parameters returns : List Variable} {body : Block} {name : Handle}
    (mentions : body.Mentions name) :
    Statement.Mentions (.function id span function parameters returns body) name
  | condition {span : Span} {condition : Expression} {body : Block} {name : Handle}
    (mentions : condition.Mentions name) : Statement.Mentions (.conditional span condition body) name
  | conditionalBody {span : Span} {condition : Expression} {body : Block} {name : Handle}
    (mentions : body.Mentions name) : Statement.Mentions (.conditional span condition body) name
  | scrutinee {span : Span} {scrutinee : Expression} {cases : List Case} {name : Handle}
    (mentions : scrutinee.Mentions name) : Statement.Mentions (.switch span scrutinee cases) name
  | case {span caseSpan : Span} {scrutinee : Expression} {cases : List Case}
    {value? : Option Literal} {body : Block} {name : Handle}
    (isCase : .mk caseSpan value? body ∈ cases) (mentions : body.Mentions name) :
    Statement.Mentions (.switch span scrutinee cases) name
  | loopPre {id : NodeId} {span : Span} {pre post body : Block} {condition : Expression}
    {name : Handle} (mentions : pre.Mentions name) :
    Statement.Mentions (.loop id span pre condition post body) name
  | loopCondition {id : NodeId} {span : Span} {pre post body : Block} {condition : Expression}
    {name : Handle} (mentions : condition.Mentions name) :
    Statement.Mentions (.loop id span pre condition post body) name
  | loopPost {id : NodeId} {span : Span} {pre post body : Block} {condition : Expression}
    {name : Handle} (mentions : post.Mentions name) :
    Statement.Mentions (.loop id span pre condition post body) name
  | loopBody {id : NodeId} {span : Span} {pre post body : Block} {condition : Expression}
    {name : Handle} (mentions : body.Mentions name) :
    Statement.Mentions (.loop id span pre condition post body) name
  | block {block : Block} {name : Handle} (mentions : block.Mentions name) :
    Statement.Mentions (.block block) name

end

variable {name : Handle}

/-! ### Expressions -/

mutual

theorem Expression.mem_occurrences_iff (expression : Expression) :
    name ∈ expression.occurrences ↔ expression.Mentions name := by
  cases expression with
  | literal constant =>
    refine iff_of_false List.not_mem_nil fun mentions => ?_
    cases mentions
  | identifier use =>
    rw [Expression.occurrences, List.mem_singleton]
    constructor
    · rintro rfl
      exact .identifier use
    · rintro ⟨⟩
      rfl
  | call id span callee arguments =>
    rw [Expression.occurrences, List.mem_cons, mem_argumentOccurrences_iff arguments]
    constructor
    · rintro (rfl | ⟨argument, isArgument, mentions⟩)
      · exact .callee id span callee arguments
      · exact .argument isArgument mentions
    · intro mentioned
      cases mentioned with
      | callee => exact .inl rfl
      | argument isArgument mentions => exact .inr ⟨_, isArgument, mentions⟩

theorem mem_argumentOccurrences_iff (arguments : List Expression) :
    name ∈ argumentOccurrences arguments ↔ ∃ argument ∈ arguments, argument.Mentions name := by
  cases arguments with
  | nil => simp only [argumentOccurrences, List.not_mem_nil, false_and, exists_false]
  | cons argument rest =>
    rw [argumentOccurrences, List.mem_append, argument.mem_occurrences_iff,
      mem_argumentOccurrences_iff rest]
    simp only [List.mem_cons, exists_eq_or_imp]

end

/-! ### Blocks -/

mutual

theorem Block.mem_occurrences_iff (block : Block) :
    name ∈ block.occurrences ↔ block.Mentions name := by
  cases block with
  | mk id span statements =>
    rw [Block.occurrences, mem_statementOccurrences_iff statements]
    constructor
    · rintro ⟨statement, member, mentions⟩
      exact .statement member mentions
    · rintro ⟨member, mentions⟩
      exact ⟨_, member, mentions⟩

theorem mem_statementOccurrences_iff (statements : List Statement) :
    name ∈ statementOccurrences statements ↔
      ∃ statement ∈ statements, statement.Mentions name := by
  cases statements with
  | nil => simp only [statementOccurrences, List.not_mem_nil, false_and, exists_false]
  | cons statement rest =>
    rw [statementOccurrences, List.mem_append, statement.mem_occurrences_iff,
      mem_statementOccurrences_iff rest]
    simp only [List.mem_cons, exists_eq_or_imp]

theorem Statement.mem_occurrences_iff (statement : Statement) :
    name ∈ statement.occurrences ↔ statement.Mentions name := by
  cases statement with
  | expression span value =>
    rw [Statement.occurrences, value.mem_occurrences_iff]
    exact ⟨.effect, fun | .effect mentions => mentions⟩
  | assignment span targets value =>
    rw [Statement.occurrences, List.mem_append, value.mem_occurrences_iff, List.mem_map]
    constructor
    · rintro (⟨target, isTarget, rfl⟩ | mentions)
      · exact .target isTarget
      · exact .assigned mentions
    · intro mentioned
      cases mentioned with
      | target isTarget => exact .inl ⟨_, isTarget, rfl⟩
      | assigned mentions => exact .inr mentions
  | declaration span locals value? =>
    rw [Statement.occurrences, List.mem_append, List.mem_map]
    cases value? with
    | none =>
      constructor
      · rintro (⟨declared, isLocal, rfl⟩ | isNone)
        · exact .variable isLocal
        · exact absurd isNone List.not_mem_nil
      · rintro ⟨isLocal⟩
        exact .inl ⟨_, isLocal, rfl⟩
    | some value =>
      rw [Option.map_some, Option.getD_some, value.mem_occurrences_iff]
      constructor
      · rintro (⟨declared, isLocal, rfl⟩ | mentions)
        · exact .variable isLocal
        · exact .initial mentions
      · intro mentioned
        cases mentioned with
        | «variable» isLocal => exact .inl ⟨_, isLocal, rfl⟩
        | initial mentions => exact .inr mentions
  | function id span function parameters returns body =>
    rw [Statement.occurrences, List.cons_append, List.mem_cons, List.mem_append, body.mem_occurrences_iff,
      List.map_append, List.mem_append, List.mem_map, List.mem_map]
    constructor
    · rintro (rfl | (⟨declared, isParameter, rfl⟩ | ⟨declared, isReturn, rfl⟩) | mentions)
      · exact .function id span name parameters returns body
      · exact .parameter isParameter
      · exact .return isReturn
      · exact .functionBody mentions
    · intro mentioned
      cases mentioned with
      | function => exact .inl rfl
      | parameter isParameter => exact .inr (.inl (.inl ⟨_, isParameter, rfl⟩))
      | «return» isReturn => exact .inr (.inl (.inr ⟨_, isReturn, rfl⟩))
      | functionBody mentions => exact .inr (.inr mentions)
  | conditional span condition body =>
    rw [Statement.occurrences, List.mem_append, condition.mem_occurrences_iff, body.mem_occurrences_iff]
    exact ⟨Or.rec .condition .conditionalBody,
      fun | .condition mentions => .inl mentions | .conditionalBody mentions => .inr mentions⟩
  | «switch» span scrutinee cases =>
    rw [Statement.occurrences, List.mem_append, scrutinee.mem_occurrences_iff, mem_caseOccurrences_iff cases]
    constructor
    · rintro (mentions | ⟨caseSpan, value?, body, isCase, mentions⟩)
      · exact .scrutinee mentions
      · exact .case isCase mentions
    · intro mentioned
      cases mentioned with
      | scrutinee mentions => exact .inl mentions
      | case isCase mentions => exact .inr ⟨_, _, _, isCase, mentions⟩
  | loop id span pre condition post body =>
    rw [Statement.occurrences, List.mem_append, List.mem_append, List.mem_append, pre.mem_occurrences_iff,
      condition.mem_occurrences_iff, post.mem_occurrences_iff, body.mem_occurrences_iff]
    constructor
    · rintro (((mentions | mentions) | mentions) | mentions)
      · exact .loopPre mentions
      · exact .loopCondition mentions
      · exact .loopPost mentions
      · exact .loopBody mentions
    · intro mentioned
      cases mentioned with
      | loopPre mentions => exact .inl (.inl (.inl mentions))
      | loopCondition mentions => exact .inl (.inl (.inr mentions))
      | loopPost mentions => exact .inl (.inr mentions)
      | loopBody mentions => exact .inr mentions
  | «break» | «continue» | leave =>
    refine iff_of_false List.not_mem_nil fun mentions => ?_
    cases mentions
  | block block =>
    rw [Statement.occurrences, block.mem_occurrences_iff]
    exact ⟨.block, fun | .block mentions => mentions⟩

theorem mem_caseOccurrences_iff (cases : List Case) :
    name ∈ caseOccurrences cases ↔
      ∃ span value? body, Case.mk span value? body ∈ cases ∧ body.Mentions name := by
  rcases cases with _ | ⟨⟨span, value?, body⟩, rest⟩
  · simp only [caseOccurrences, List.not_mem_nil, false_and, exists_false]
  · rw [caseOccurrences, List.mem_append, body.mem_occurrences_iff, mem_caseOccurrences_iff rest]
    constructor
    · rintro (mentions | ⟨otherSpan, otherValue?, other, isCase, mentions⟩)
      · exact ⟨span, value?, body, List.mem_cons_self, mentions⟩
      · exact ⟨otherSpan, otherValue?, other, List.mem_cons_of_mem _ isCase, mentions⟩
    · rintro ⟨otherSpan, otherValue?, other, isCase, mentions⟩
      rcases List.mem_cons.mp isCase with same | isLater
      · cases same
        exact .inl mentions
      · exact .inr ⟨otherSpan, otherValue?, other, isLater, mentions⟩

end

/-- The names of a block are those that are mentioned in it. -/
theorem Block.mem_names_iff (block : Block) : name ∈ block.names ↔ block.Mentions name := by
  rw [names, AscendingList.mem_ofList, block.mem_occurrences_iff]

end YulCheck
