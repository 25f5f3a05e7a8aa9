import YulCheck.Proofs.Judgement.Calls

/-! # Decisions about expressions

Checking an expression decides the rules for all of its nodes. An accepted expression has the types
that its outermost node has by itself, and these types are noted for every node, in the order of
their evaluation.
-/

namespace YulCheck.Setting

open Walk

variable (setting : Setting) (environment : Environment) {errors : Nat} {place : Place}

/-- What is noted about a node of an expression. -/
def noteOf (node : Expression) : NodeId × List TypeHandle :=
  (node.id, setting.typesOf environment node)

/-- The type of an expression that is used as a single value. -/
def typeOf (expression : Expression) : TypeHandle :=
  (setting.typesOf environment expression).head?.getD setting.defaultType

theorem typesOf_eq_singleton {expression : Expression}
    (single : (setting.typesOf environment expression).length = 1) :
    setting.typesOf environment expression = [setting.typeOf environment expression] := by
  obtain ⟨type, same⟩ := List.length_eq_one_iff.mp single
  rw [typeOf, same]
  rfl

@[simp]
theorem expressionIsSound_literal (literal : Literal) :
    setting.ExpressionIsSound environment (.literal literal) ↔ setting.LiteralIsSound literal := by
  rw [ExpressionIsSound, Expression.nodes, List.forall_mem_singleton]
  exact Iff.rfl

@[simp]
theorem expressionIsSound_identifier (use : Identifier) :
    setting.ExpressionIsSound environment (.identifier use) ↔
      (variableType? environment use.name).isSome = true := by
  rw [ExpressionIsSound, Expression.nodes, List.forall_mem_singleton]
  exact Iff.rfl

/-! ### Arguments one by one -/

/-- What is checked about an argument by itself. -/
def GivenIsSound (function : Handle) (required? : Option LiteralKind) (argument : Expression) :
    Prop :=
  match contentArgument? required? argument with
  | some literal => setting.ContentIsSound function literal ∧ literal.isValid = true
  | none =>
    setting.ArgumentIsSound function required? argument ∧
      setting.ExpressionIsSound environment argument ∧
        (setting.typesOf environment argument).length = 1

/-- What is checked about arguments one by one. -/
def GivenAreSound (function : Handle) : List (Option LiteralKind) → List Expression → Prop
  | _, [] => True
  | required, argument :: rest =>
    GivenAreSound function required.tail rest ∧
      setting.GivenIsSound environment function required.head?.join argument

variable {environment}

theorem decides_checkArgumentKind (callee : Identifier) {required? : Option LiteralKind}
    {argument : Expression} (notContent : contentArgument? required? argument = none) :
    (checkArgumentKind place callee required? argument).Decides environment errors
      (setting.ArgumentIsSound callee.name required? argument) () [] := by
  cases required? with
  | none => exact Decides.done ()
  | some kind =>
    cases argument with
    | identifier | call =>
      apply Decides.congr (decides_report_error rfl _)
      exact iff_of_false not_false fun ⟨_, same, _⟩ => by cases same
    | literal constant =>
      apply Decides.congr (decides_expect _ _ (finds_pure rfl))
      rw [decide_eq_true_iff]
      constructor
      · intro same
        refine ⟨constant, rfl, same, fun isString => ?_⟩
        have content : contentArgument? (some kind) (.literal constant) = some constant := by
          rw [contentArgument?, if_pos ⟨congrArg some isString, same.trans isString⟩]
        rw [content] at notContent
        cases notContent
      · rintro ⟨_, ⟨rfl⟩, same, _⟩
        exact same

theorem decides_singleType (expression : Expression) :
    (setting.singleType place expression (setting.typesOf environment expression)).Decides
      environment errors ((setting.typesOf environment expression).length = 1)
      (setting.typeOf environment expression) [] := by
  refine Decides.congr (Decides.and (decides_expect _ _ (finds_pure rfl)) fun _ =>
    Decides.done _) ?_
  rw [and_iff_left trivial, decide_eq_true_iff]

/-- The types of arguments are compared from left to right. -/
theorem decides_checkArgumentTypes {parameters types : List TypeHandle}
    {arguments : List Expression} (many : arguments.length = parameters.length)
    (given : types.length = arguments.length) :
    (setting.checkArgumentTypes place parameters types arguments).Decides environment errors
      (parameters = types) () [] := by
  induction arguments generalizing parameters types with
  | nil =>
    obtain rfl := List.length_eq_zero_iff.mp many.symm
    obtain rfl := List.length_eq_zero_iff.mp given
    exact (Decides.done ()).congr (by simp)
  | cons argument rest ih =>
    obtain ⟨expected, parameters, rfl⟩ := List.exists_cons_of_length_eq_add_one many.symm
    obtain ⟨type, types, rfl⟩ := List.exists_cons_of_length_eq_add_one given
    apply Decides.congr (Decides.and (setting.decides_checkSameType _ _ _) fun _ =>
      ih (Nat.succ.inj many) (Nat.succ.inj given))
    exact List.cons_eq_cons.symm

theorem decides_callTypes (parameters returns : List TypeHandle)
    (literals : List (Option LiteralKind)) (given : Nat) :
    (setting.callTypes errors ⟨some (parameters, returns), literals, false⟩ given).Decides
      environment errors True returns [] := by
  apply Decides.true_bind decides_isQuietSince
  exact Decides.true_bind (Decides.require_true _ _) (Decides.done _)

/-! ### Arguments and their types together -/

variable (environment)

/-- The string arguments that a function takes as they are have types of the dialect, as its
parameters have. -/
theorem literalIsSound_of_content {literal : Literal} (isString : literal.kind = .string)
    (isType : setting.names.isType literal.type = true) (isValid : literal.isValid = true) :
    setting.LiteralIsSound literal := by
  refine ⟨isType, ?_, isValid⟩
  rw [NameTable.admitsLiteral, isString]
  rfl

theorem givenIsSound_iff (function : Handle) {required? : Option LiteralKind}
    {argument : Expression}
    (isType : required?.isSome = true →
      setting.names.isType (setting.typeOf environment argument) = true) :
    setting.GivenIsSound environment function required? argument ↔
      setting.ArgumentIsSound function required? argument ∧
        setting.ExpressionIsSound environment argument ∧
          (setting.typesOf environment argument).length = 1 := by
  rw [GivenIsSound]
  cases content : contentArgument? required? argument with
  | none => exact Iff.rfl
  | some literal =>
    obtain ⟨rfl, rfl, isString⟩ := contentArgument?_eq_some content
    rw [expressionIsSound_literal]
    constructor
    · rintro ⟨contentIsSound, isValid⟩
      exact ⟨⟨literal, rfl, isString, fun _ => contentIsSound⟩,
        setting.literalIsSound_of_content isString (isType rfl) isValid, rfl⟩
    · rintro ⟨⟨_, ⟨rfl⟩, _, contentIsSound⟩, literalIsSound, _⟩
      exact ⟨contentIsSound rfl, literalIsSound.isValid⟩

theorem givenAreSound_iff (function : Handle) {required : List (Option LiteralKind)}
    {arguments : List Expression}
    (areTypes : required = [] ∨ ∀ argument ∈ arguments,
      setting.names.isType (setting.typeOf environment argument) = true) :
    setting.GivenAreSound environment function required arguments ↔
      setting.ArgumentsAreSound function required arguments ∧
        (∀ node ∈ argumentNodes arguments, setting.NodeIsSound environment node) ∧
          ∀ argument ∈ arguments, (setting.typesOf environment argument).length = 1 := by
  induction arguments generalizing required with
  | nil =>
    rw [GivenAreSound, ArgumentsAreSound, argumentNodes]
    simp
  | cons argument rest ih =>
    have isType : required.head?.join.isSome = true →
        setting.names.isType (setting.typeOf environment argument) = true := by
      rcases areTypes with rfl | areTypes
      · nofun
      · exact fun _ => areTypes argument List.mem_cons_self
    have areTypesRest : required.tail = [] ∨ ∀ argument ∈ rest,
        setting.names.isType (setting.typeOf environment argument) = true := by
      rcases areTypes with rfl | areTypes
      · exact .inl rfl
      · exact .inr fun other member => areTypes other (List.mem_cons_of_mem _ member)
    rw [GivenAreSound, ArgumentsAreSound, argumentNodes, ih areTypesRest,
      setting.givenIsSound_iff environment function isType, List.forall_mem_append,
      List.forall_mem_cons, ExpressionIsSound]
    tauto

/-- Whether the parameters of the functions of the dialect have types of the dialect. -/
def HasTypedBuiltins : Prop :=
  ∀ name builtin, setting.names.builtin? name = .ok (some builtin) →
    ∀ type ∈ builtin.parameters, setting.names.isType type = true

variable {setting} in
theorem HasTypedBuiltins.of_signature (typed : setting.HasTypedBuiltins) {name : Handle}
    {parameters returns : List TypeHandle}
    (signature : setting.signature? environment name = some (parameters, returns)) :
    setting.literalsOf name = [] ∨
      ∀ type ∈ parameters, setting.names.isType type = true := by
  rw [signature?] at signature
  rw [literalsOf]
  rcases found : setting.names.builtin? name with fault | _ | builtin
  · exact .inl rfl
  · exact .inl rfl
  · rw [found] at signature
    cases signature
    exact .inr (typed name builtin found)

/-- What is checked about a call, step by step, is what has to hold of its nodes. -/
theorem call_iff (typed : setting.HasTypedBuiltins) {id : NodeId} {span : Span}
    {callee : Identifier} {arguments : List Expression} {parameters returns : List TypeHandle}
    (signature : setting.signature? environment callee.name = some (parameters, returns)) :
    (∀ builtin, setting.names.builtin? callee.name = .ok (some builtin) →
        setting.IsAvailable callee.name) ∧
      arguments.length = parameters.length ∧
      setting.GivenAreSound environment callee.name (setting.literalsOf callee.name) arguments ∧
      parameters = arguments.map (setting.typeOf environment) ↔
    setting.ExpressionIsSound environment (.call id span callee arguments) := by
  have fitting : arguments.length = parameters.length ∧
      setting.GivenAreSound environment callee.name (setting.literalsOf callee.name) arguments ∧
      parameters = arguments.map (setting.typeOf environment) ↔
    setting.ArgumentsAreSound callee.name (setting.literalsOf callee.name) arguments ∧
      (∀ node ∈ argumentNodes arguments, setting.NodeIsSound environment node) ∧
      arguments.map (setting.typesOf environment) = parameters.map fun type => [type] := by
    have areTypes (same : parameters = arguments.map (setting.typeOf environment)) :
        setting.literalsOf callee.name = [] ∨ ∀ argument ∈ arguments,
          setting.names.isType (setting.typeOf environment argument) = true := by
      rcases typed.of_signature environment signature with none | all
      · exact .inl none
      · refine .inr fun argument member => all _ ?_
        rw [same]
        exact List.mem_map_of_mem member
    constructor
    · rintro ⟨_, given, same⟩
      obtain ⟨literals, nodes, single⟩ :=
        (setting.givenAreSound_iff environment callee.name (areTypes same)).mp given
      refine ⟨literals, nodes, ?_⟩
      rw [same, List.map_map]
      exact List.map_congr_left fun argument member =>
        setting.typesOf_eq_singleton environment (single argument member)
    · rintro ⟨literals, nodes, same⟩
      have lengths : arguments.length = parameters.length := by
        simpa using congrArg List.length same
      have sameTypes : parameters = arguments.map (setting.typeOf environment) := by
        have heads := congrArg (List.map fun types => types.head?.getD setting.defaultType) same
        rw [List.map_map, List.map_map] at heads
        exact (heads.trans (List.map_id parameters)).symm
      have single : ∀ argument ∈ arguments,
          (setting.typesOf environment argument).length = 1 := by
        intro argument member
        have isSingle : setting.typesOf environment argument ∈
            parameters.map fun type => [type] := same ▸ List.mem_map_of_mem member
        obtain ⟨type, _, isType⟩ := List.mem_map.mp isSingle
        rw [← isType]
        rfl
      exact ⟨lengths, (setting.givenAreSound_iff environment callee.name
        (areTypes sameTypes)).mpr ⟨literals, nodes, single⟩, sameTypes⟩
  rw [fitting, ExpressionIsSound, Expression.nodes, List.forall_mem_append,
    List.forall_mem_singleton, NodeIsSound]
  constructor
  · rintro ⟨available, literals, nodes, same⟩
    exact ⟨nodes, available, ⟨parameters, returns, signature, same⟩, literals⟩
  · rintro ⟨nodes, available, ⟨_, _, otherSignature, same⟩, literals⟩
    rw [signature] at otherSignature
    cases otherSignature
    exact ⟨available, literals, nodes, same⟩

/-! ### Expressions -/

mutual

/-- Checking an expression decides the rules for its nodes. -/
theorem decides_checkExpression (typed : setting.HasTypedBuiltins) (expression : Expression) :
    (setting.checkExpression place expression).Decides environment errors
      (setting.ExpressionIsSound environment expression)
      (setting.typesOf environment expression)
      (expression.nodes.map (setting.noteOf environment)) := by
  cases expression with
  | literal constant =>
    rw [checkExpression]
    refine Decides.congr (Decides.and (setting.decides_checkLiteral constant) fun _ =>
      Decides.bind_true (Decides.ask rfl) (Decides.done _)) ?_
    rw [and_iff_left trivial, expressionIsSound_literal]
  | identifier use =>
    rw [checkExpression]
    refine Decides.congr (Decides.and (setting.decides_checkIdentifier use) fun _ =>
      Decides.bind_true (Decides.ask rfl) (Decides.done _)) ?_
    rw [and_iff_left trivial, expressionIsSound_identifier]
  | call id span callee arguments =>
    rw [checkExpression, Expression.nodes, List.map_append]
    apply Decides.true_bind (Decides.require_true _ _)
    apply Decides.true_bind (Decides.ask rfl)
    cases signature : setting.signature? environment callee.name with
    | none =>
      refine Decides.congr (Decides.and (setting.decides_resolveCallee callee) fun resolved => ?_)
        (iff_of_false (fun both => both.2) fun sound => ?_)
      · rw [signature] at resolved
        cases resolved.2
      · have callIsSound : setting.CallIsSound environment callee.name arguments :=
          sound (.call id span callee arguments) (List.mem_append_right _ (List.mem_singleton_self _))
        obtain ⟨_, _, known, _⟩ := callIsSound.signature
        rw [signature] at known
        cases known
    | some types =>
      obtain ⟨parameters, returns⟩ := types
      have known : setting.calleeOf environment callee.name =
          ⟨some (parameters, returns), setting.literalsOf callee.name, false⟩ := by
        rw [calleeOf, signature]
      have note : setting.noteOf environment (.call id span callee arguments) = (id, returns) := by
        rw [noteOf, typesOf, signature]
        rfl
      have types : setting.typesOf environment (.call id span callee arguments) = returns := by
        rw [typesOf, signature]
        rfl
      rw [types, List.map_singleton, note]
      have together : ((∀ builtin, setting.names.builtin? callee.name = .ok (some builtin) →
            setting.IsAvailable callee.name) ∧
          (setting.signature? environment callee.name).isSome = true) ∧
          (arguments.length = parameters.length ∧
            setting.GivenAreSound environment callee.name (setting.literalsOf callee.name)
              arguments ∧ parameters = arguments.map (setting.typeOf environment)) ↔
          setting.ExpressionIsSound environment (.call id span callee arguments) := by
        rw [← setting.call_iff environment typed signature, signature]
        simp only [Option.isSome_some, and_true]
      refine Decides.congr (Decides.and (setting.decides_resolveCallee callee) fun _ => ?_) together
      rw [known]
      apply Decides.and (setting.decides_checkArgumentCount _ _ _ _ _)
      intro many
      apply Decides.bind (decides_checkArguments typed callee _ arguments)
      intro _
      exact Decides.congr (Decides.and (setting.decides_checkArgumentTypes many
        (List.length_map _)) fun _ => Decides.true_bind (setting.decides_callTypes _ _ _ _)
          (Decides.bind_true (Decides.ask rfl) (Decides.done _))) (and_iff_left trivial)

/-- Checking arguments decides the rules for them one by one. -/
theorem decides_checkArguments (typed : setting.HasTypedBuiltins) (callee : Identifier)
    (required : List (Option LiteralKind)) (arguments : List Expression) :
    (setting.checkArguments place callee required arguments).Decides environment errors
      (setting.GivenAreSound environment callee.name required arguments)
      (arguments.map (setting.typeOf environment))
      ((argumentNodes arguments).map (setting.noteOf environment)) := by
  cases arguments with
  | nil =>
    rw [checkArguments, GivenAreSound, argumentNodes]
    exact Decides.done _
  | cons argument rest =>
    rw [checkArguments, GivenAreSound, argumentNodes, List.map_append]
    apply Decides.bind (decides_checkArguments typed callee required.tail rest)
    intro _
    rw [GivenIsSound]
    dsimp only
    cases content : contentArgument? required.head?.join argument with
    | some literal =>
      obtain ⟨rfl, _, isString⟩ := contentArgument?_eq_some content
      exact Decides.bind_true (setting.decides_checkStringArgument callee.name isString)
        (Decides.done _)
    | none =>
      apply Decides.and (setting.decides_checkArgumentKind callee content)
      intro _
      apply Decides.and_quiet (decides_checkExpression typed argument)
      intro _
      exact Decides.bind_true (setting.decides_singleType argument) (Decides.done _)

end

end YulCheck.Setting
