import YulCheck.Proofs.Judgement.Expressions
import YulCheck.Proofs.Lexical.Checker

/-! # Decisions about statements

Checking a block decides the rules for all statements and all expressions in it, and notes the types
of all expressions, in the order of their evaluation.
-/

namespace YulCheck.Setting

open Walk

variable (setting : Setting) {environment : Environment} {errors : Nat} {place : Place}

/-! ### Single values -/

variable {setting} in
theorem decides_checkSingle (typed : setting.HasTypedBuiltins) (expression : Expression) :
    (setting.checkSingle place expression).Decides environment errors
      (setting.ExpressionIsSound environment expression ∧
        (setting.typesOf environment expression).length = 1)
      (setting.typeOf environment expression)
      (expression.nodes.map (setting.noteOf environment)) :=
  Decides.and_quiet (setting.decides_checkExpression environment typed expression) fun _ =>
    setting.decides_singleType expression

variable {setting} in
theorem decides_checkCondition (typed : setting.HasTypedBuiltins) (condition : Expression) :
    (setting.checkCondition place condition).Decides environment errors
      (setting.typesOf environment condition = [setting.names.predefined.boolType] ∧
        setting.ExpressionIsSound environment condition) ()
      (condition.nodes.map (setting.noteOf environment)) := by
  apply Decides.congr (Decides.and_quiet (decides_checkSingle typed condition) fun _ =>
    decides_expect _ _ (finds_bind fun _ => finds_bind fun _ => finds_pure rfl))
  rw [decide_eq_true_iff]
  constructor
  · rintro ⟨⟨sound, single⟩, isBool⟩
    rw [setting.typesOf_eq_singleton environment single, isBool]
    exact ⟨rfl, sound⟩
  · rintro ⟨isBool, sound⟩
    rw [typeOf, isBool]
    exact ⟨⟨sound, rfl⟩, rfl⟩

variable {setting} in
theorem decides_checkEffect (typed : setting.HasTypedBuiltins) (span : Span)
    (expression : Expression) :
    (setting.checkEffect place span expression).Decides environment errors
      (setting.typesOf environment expression = [] ∧
        setting.ExpressionIsSound environment expression) ()
      (expression.nodes.map (setting.noteOf environment)) := by
  apply Decides.true_bind (Decides.ask rfl)
  apply Decides.congr (Decides.and_quiet (setting.decides_checkExpression environment typed
    expression) fun _ => Decides.true_bind decides_isQuietSince
      (decides_expect _ _ (finds_pure rfl)))
  rw [Bool.not_true, Bool.false_or, List.isEmpty_iff, and_comm]

/-! ### Declarations -/

theorem decides_checkDeclaredTypes {locals : List Variable} {types : List TypeHandle}
    (many : types.length = locals.length) :
    (setting.checkDeclaredTypes place locals types).Decides environment errors
      (types = locals.map (·.type)) () [] := by
  induction locals generalizing types with
  | nil =>
    obtain rfl := List.length_eq_zero_iff.mp many
    exact (Decides.done ()).congr (by simp)
  | cons declared rest ih =>
    obtain ⟨type, types, rfl⟩ := List.exists_cons_of_length_eq_add_one many
    refine Decides.congr (Decides.and (decides_expect _ _ (finds_bind fun _ => finds_bind fun _ =>
      finds_pure rfl)) fun _ => ih (Nat.succ.inj many)) ?_
    have given : (type :: types).head?.getD setting.defaultType = type := rfl
    rw [given, decide_eq_true_iff, List.map_cons, List.cons_eq_cons, List.tail_cons, eq_comm]

variable {setting} in
theorem decides_checkInitialValue (typed : setting.HasTypedBuiltins) (span : Span)
    (locals : List Variable) (value : Expression) :
    (setting.checkInitialValue place span locals value).Decides environment errors
      (setting.typesOf environment value = locals.map (·.type) ∧
        setting.ExpressionIsSound environment value) ()
      (value.nodes.map (setting.noteOf environment)) := by
  apply Decides.congr (Decides.and_quiet (setting.decides_checkExpression environment typed value)
    fun _ => Decides.and (decides_expect _ _ (finds_bind fun _ => finds_pure rfl)) fun many =>
      setting.decides_checkDeclaredTypes (of_decide_eq_true many))
  rw [decide_eq_true_iff]
  constructor
  · rintro ⟨sound, _, same⟩
    exact ⟨same, sound⟩
  · rintro ⟨same, sound⟩
    refine ⟨sound, ?_, same⟩
    rw [same, List.length_map]

theorem decides_forM_true {visit : Variable → Walk Unit} {locals : List Variable}
    (each : ∀ declared ∈ locals, (visit declared).Decides environment errors True () []) :
    (locals.forM visit).Decides environment errors True () [] :=
  (Decides.forM each).congr (iff_of_true (fun _ _ => trivial) trivial)

theorem decides_activateVariable (declared : Variable) :
    (activateVariable place declared).Decides environment errors True () [] :=
  Decides.true_bind (Decides.ask rfl) (Decides.require_true _ _)

variable {setting} in
theorem decides_checkDeclaration (typed : setting.HasTypedBuiltins) (span : Span)
    (locals : List Variable) (value? : Option Expression) :
    (setting.checkDeclaration place span locals value?).Decides environment errors
      ((∀ declared ∈ locals, setting.VariableIsSound declared) ∧ ∀ value, value? = some value →
        setting.typesOf environment value = locals.map (·.type) ∧
          setting.ExpressionIsSound environment value) ()
      (((value?.map (·.nodes)).getD []).map (setting.noteOf environment)) := by
  apply Decides.true_bind (decides_forM_true fun declared _ =>
    Decides.true_bind (decides_consult _ _) (Decides.done ()))
  apply Decides.and (Decides.forM fun declared _ => setting.decides_checkVariable declared)
  intro _
  have activated : (locals.forM (activateVariable place)).Decides environment errors True () [] :=
    decides_forM_true fun declared _ => decides_activateVariable declared
  cases value? with
  | none => exact activated.congr (by simp)
  | some value =>
    apply Decides.congr (Decides.bind_true (decides_checkInitialValue typed span locals value)
      activated)
    constructor
    · rintro sound _ ⟨rfl⟩
      exact sound
    · intro sound
      exact sound value rfl

/-! ### Assignments -/

theorem decides_checkRepeatedTargets (span : Span) (before : List Handle)
    (targets : List Identifier) :
    (setting.checkRepeatedTargets place span before targets).Decides environment errors
      ((∀ target ∈ targets, target.name ∉ before) ∧ (targets.map (·.name)).Nodup) () [] := by
  induction targets generalizing before with
  | nil => exact (Decides.done ()).congr (by simp)
  | cons target rest ih =>
    apply Decides.congr (Decides.and (decides_expect _ _ (finds_bind fun _ => finds_pure rfl))
      fun _ => ih (target.name :: before))
    rw [Bool.not_eq_true', ← Bool.not_eq_true, List.contains_iff_mem, List.map_cons,
      List.nodup_cons, List.forall_mem_cons]
    constructor
    · rintro ⟨isNew, others, distinct⟩
      refine ⟨⟨isNew, fun other member seen => ?_⟩, fun repeated => ?_, distinct⟩
      · exact others other member (List.mem_cons_of_mem _ seen)
      · obtain ⟨other, member, same⟩ := List.mem_map.mp repeated
        exact others other member (same ▸ List.mem_cons_self)
    · rintro ⟨⟨isNew, others⟩, notRepeated, distinct⟩
      refine ⟨isNew, fun other member seen => ?_, distinct⟩
      rcases List.mem_cons.mp seen with same | seen
      · exact notRepeated (List.mem_map.mpr ⟨other, member, same⟩)
      · exact others other member seen

theorem decides_targetType (target : Identifier) :
    (setting.targetType place target).Decides environment errors
      ((variableType? environment target.name).isSome = true)
      (variableType? environment target.name) [] := by
  apply Decides.true_bind (Decides.ask rfl)
  apply Decides.true_bind (decides_lookup _)
  rw [variableType?]
  rcases environment.lookup? target.name with _ | ⟨type | ⟨parameters, returns⟩, isActive⟩
  · apply Decides.true_bind (decides_consult _ _)
    apply Decides.true_bind decides_isQuietSince
    exact Decides.congr (Decides.false_bind (decides_expect_false _ (finds_pure rfl))) (by simp)
  · apply Decides.true_bind (decides_consult _ _)
    cases isActive with
    | true =>
      refine Decides.congr (Decides.and (decides_expect _ _ ?_) fun _ => Decides.done _) (by simp)
      exact finds_bind fun _ => finds_pure rfl
    | false =>
      refine Decides.congr (Decides.false_bind (decides_expect_false _ ?_)) (by simp)
      exact finds_bind fun _ => finds_pure rfl
  · apply Decides.true_bind (decides_consult _ _)
    exact Decides.congr (Decides.false_bind (decides_report_error rfl _)) (by simp)

theorem decides_checkTargetType (target : Identifier) (given : TypeHandle) :
    (setting.checkTargetType place target given).Decides environment errors
      (variableType? environment target.name = some given) () [] := by
  apply Decides.true_bind (Decides.require_true _ _)
  apply Decides.true_bind (Decides.ask rfl)
  have untyped (type? : Option TypeHandle) : (do
      Walk.require (!(← Walk.isQuietSince errors) || type?.isSome) .targetUntyped).Decides
        environment errors True () [] :=
    Decides.true_bind decides_isQuietSince (Decides.require_true _ _)
  cases type? : variableType? environment target.name with
  | none =>
    refine Decides.congr (Decides.and (setting.decides_targetType target) fun isKnown => ?_)
      (iff_of_false (fun both => both.2) (Option.some_ne_none given).symm)
    rw [type?] at isKnown
    cases isKnown
  | some type =>
    have known : (setting.targetType place target).Decides environment errors
        ((variableType? environment target.name).isSome = true)
        (variableType? environment target.name) [] := setting.decides_targetType target
    rw [type?] at known
    apply Decides.congr (Decides.and known fun _ => Decides.bind_true (decides_expect _ _
      (finds_bind fun _ => finds_bind fun _ => finds_pure rfl)) (untyped (some type)))
    simp

theorem decides_checkTargetTypes {targets : List Identifier} {types : List TypeHandle}
    (many : types.length = targets.length) :
    (setting.checkTargetTypes place targets types).Decides environment errors
      (targets.map (fun target => variableType? environment target.name) = types.map some) ()
      [] := by
  induction targets generalizing types with
  | nil =>
    obtain rfl := List.length_eq_zero_iff.mp many
    exact (Decides.done ()).congr (by simp)
  | cons target rest ih =>
    obtain ⟨type, types, rfl⟩ := List.exists_cons_of_length_eq_add_one many
    apply Decides.congr (Decides.and (setting.decides_checkTargetType target type) fun _ =>
      ih (Nat.succ.inj many))
    rw [List.map_cons, List.map_cons, List.cons_eq_cons]

variable {setting} in
theorem decides_checkAssignment (typed : setting.HasTypedBuiltins) (span : Span)
    (targets : List Identifier) (value : Expression) :
    (setting.checkAssignment place span targets value).Decides environment errors
      (((targets.map (·.name)).Nodup ∧
          targets.map (fun target => variableType? environment target.name) =
            (setting.typesOf environment value).map some) ∧
        setting.ExpressionIsSound environment value) ()
      (value.nodes.map (setting.noteOf environment)) := by
  apply Decides.true_bind (Decides.require_true _ _)
  apply Decides.congr (Decides.and (setting.decides_checkRepeatedTargets span [] targets)
    fun _ => Decides.and_quiet (setting.decides_checkExpression environment typed value)
      fun _ => Decides.and (decides_expect _ _ (finds_bind fun _ => finds_pure rfl))
        fun many => setting.decides_checkTargetTypes (of_decide_eq_true many))
  rw [decide_eq_true_iff]
  constructor
  · rintro ⟨⟨_, distinct⟩, sound, _, same⟩
    exact ⟨⟨distinct, same⟩, sound⟩
  · rintro ⟨⟨distinct, same⟩, sound⟩
    have many := congrArg List.length same
    rw [List.length_map, List.length_map] at many
    exact ⟨⟨fun _ _ => List.not_mem_nil, distinct⟩, sound, many.symm, same⟩

/-! ### Cases -/

/-- The value of a literal, if it has one. -/
def wordOf? (literal : Literal) : Option Word := literal.value.value.toOption

theorem decides_checkCaseValue (type : TypeHandle) (before : List Word) (span : Span)
    (literal : Literal) :
    (setting.checkCaseValue place type before span literal).Decides environment errors
      ((setting.LiteralIsSound literal ∧ literal.type = type) ∧
        ∀ value, literal.value.value = .ok value → value ∉ before)
      ((wordOf? literal).toList ++ before) [] := by
  apply Decides.true_bind (Decides.ask rfl)
  have distinguished : (do
      let value ← literal.value.value
      expect place (!before.contains value) span (pure (.repeatedCase literal.format))
      return value :: before : Walk (List Word)).Decides environment errors
        (∀ value, literal.value.value = .ok value → value ∉ before)
        ((wordOf? literal).toList ++ before) [] := by
    apply Decides.lift_bind
    intro value isValue
    rw [wordOf?, isValue]
    refine Decides.congr (Decides.and (decides_expect _ _ (finds_pure rfl)) fun _ =>
      Decides.done _) ?_
    rw [and_iff_left trivial, Bool.not_eq_true', ← Bool.not_eq_true, List.contains_iff_mem]
    constructor
    · rintro isNew _ ⟨rfl⟩
      exact isNew
    · intro isNew
      exact isNew value rfl
  apply Decides.congr (Decides.and (setting.decides_checkSameType _ _ _) fun _ =>
    Decides.and (setting.decides_checkLiteral literal) fun _ =>
      Decides.true_bind decides_isQuietSince distinguished)
  constructor
  · rintro ⟨same, sound, isNew⟩
    exact ⟨⟨sound, same.symm⟩, isNew⟩
  · rintro ⟨⟨sound, same⟩, isNew⟩
    exact ⟨same.symm, sound, isNew⟩

/-- What has to hold of the remaining cases of a switch, given the values of those before. -/
structure CasesContinue (type : TypeHandle) (before : List Word) (cases : List Case) : Prop
    extends setting.CasesAreSound type cases where
  fresh : ∀ literal ∈ caseLiterals cases, ∀ value, literal.value.value = .ok value → value ∉ before

@[simp]
theorem casesContinue_nil_iff (type : TypeHandle) (cases : List Case) :
    setting.CasesContinue type [] cases ↔ setting.CasesAreSound type cases :=
  ⟨fun sound => sound.toCasesAreSound, fun sound => ⟨sound, fun _ _ _ _ => List.not_mem_nil⟩⟩

theorem casesContinue_nil (type : TypeHandle) (before : List Word) :
    setting.CasesContinue type before [] := ⟨⟨nofun, List.Pairwise.nil⟩, nofun⟩

theorem casesContinue_default (type : TypeHandle) (before : List Word) (span : Span)
    (body : Block) (rest : List Case) :
    setting.CasesContinue type before (.mk span none body :: rest) ↔
      setting.CasesContinue type before rest :=
  ⟨fun ⟨⟨literals, distinct⟩, fresh⟩ => ⟨⟨literals, distinct⟩, fresh⟩,
    fun ⟨⟨literals, distinct⟩, fresh⟩ => ⟨⟨literals, distinct⟩, fresh⟩⟩

theorem casesContinue_value (type : TypeHandle) (before : List Word) (span : Span)
    (literal : Literal) (body : Block) (rest : List Case) :
    setting.CasesContinue type before (.mk span (some literal) body :: rest) ↔
      ((setting.LiteralIsSound literal ∧ literal.type = type) ∧
        ∀ value, literal.value.value = .ok value → value ∉ before) ∧
      setting.CasesContinue type ((wordOf? literal).toList ++ before) rest := by
  have literals : caseLiterals (.mk span (some literal) body :: rest) =
      literal :: caseLiterals rest := rfl
  have isWord (value : Word) : value ∈ (wordOf? literal).toList ↔
      literal.value.value = .ok value :=
    Option.mem_toList.trans Except.toOption_eq_some_iff
  constructor
  · rintro ⟨⟨sound, distinct⟩, fresh⟩
    rw [literals] at sound distinct fresh
    rw [List.forall_mem_cons] at sound fresh
    rw [List.pairwise_cons] at distinct
    refine ⟨⟨sound.1, fresh.1⟩, ⟨sound.2, distinct.2⟩, fun other member value isValue seen => ?_⟩
    rcases List.mem_append.mp seen with isSame | seen
    · exact distinct.1 other member value ((isWord value).mp isSame) isValue
    · exact fresh.2 other member value isValue seen
  · rintro ⟨⟨first, isNew⟩, ⟨sound, distinct⟩, fresh⟩
    refine ⟨⟨?_, ?_⟩, ?_⟩
    · rw [literals, List.forall_mem_cons]
      exact ⟨first, sound⟩
    · rw [literals, List.pairwise_cons]
      refine ⟨fun other member value isValue isSame => ?_, distinct⟩
      exact fresh other member value isSame
        (List.mem_append_left _ ((isWord value).mpr isValue))
    · rw [literals, List.forall_mem_cons]
      refine ⟨isNew, fun other member value isValue seen => ?_⟩
      exact fresh other member value isValue (List.mem_append_right _ seen)

/-! ### Headers and places -/

theorem decides_checkHeader (id : NodeId) (span : Span) (name : Handle)
    (parameters returns : List Variable) :
    (setting.checkHeader place id span name parameters returns).Decides environment errors
      (setting.NameIsFree name ∧
        ∀ declared ∈ parameters ++ returns, setting.VariableIsSound declared) () [] := by
  apply Decides.true_bind (Decides.require_true _ _)
  apply Decides.and (setting.decides_checkName name span)
  intro _
  apply Decides.true_bind (Decides.ask rfl)
  apply Decides.true_bind (Decides.require_true _ _)
  exact Decides.forM fun declared _ => Decides.bind_true (setting.decides_checkVariable declared)
    (Decides.true_bind (Decides.ask rfl) (Decides.done ()))

theorem decides_enterBlock (block : Block) :
    (enterBlock place block).Decides environment errors True { place with block := block.id }
      [] := by
  apply Decides.true_bind (Decides.ask rfl)
  exact Decides.true_bind (Decides.require_true _ _) (Decides.done _)

/-! ### Points -/

/-- What has to hold of a statement at its point, with the expression that it evaluates. -/
structure PointIsSound (point : Point) : Prop where
  statement : setting.StatementIsSound point
  expression : ∀ value, point.statement.expression? = some value →
    setting.ExpressionIsSound point.environment value

/-- What is noted about the expression of a statement. -/
def notesAt (point : Point) : List (NodeId × List TypeHandle) :=
  ((point.statement.expression?.map (·.nodes)).getD []).map (setting.noteOf point.environment)

/-- Whether a walk decides the rules for the statements at points one after the other. -/
def DecidesPoints (errors : Nat) (walk : LexicalWalk Unit) (points : List Point) : Prop :=
  walk.Decides errors (∀ point ∈ points, setting.PointIsSound point) ()
    (points.flatMap setting.notesAt)

namespace DecidesPoints

variable {setting} {walk : LexicalWalk Unit} {points more : List Point}

theorem done : setting.DecidesPoints errors (pure ()) [] :=
  (LexicalWalk.Decides.done ()).congr (by simp)

theorem bind {next : Unit → LexicalWalk Unit} (first : setting.DecidesPoints errors walk points)
    (rest : setting.DecidesPoints errors (next ()) more) :
    setting.DecidesPoints errors (walk >>= next) (points ++ more) := by
  rw [DecidesPoints, List.flatMap_append]
  exact (LexicalWalk.Decides.bind first fun _ => rest).congr List.forall_mem_append.symm

/-- The walk over one statement, and then over those in it or behind it. -/
theorem cons {point : Point} {next : Unit → LexicalWalk Unit}
    (first : setting.DecidesPoints errors walk [point])
    (rest : setting.DecidesPoints errors (next ()) points) :
    setting.DecidesPoints errors (walk >>= next) (point :: points) :=
  first.bind rest

theorem true_bind {α : Type} {quiet : LexicalWalk α} {next : α → LexicalWalk Unit} {result : α}
    (first : quiet.Decides errors True result [])
    (rest : setting.DecidesPoints errors (next result) points) :
    setting.DecidesPoints errors (quiet >>= next) points :=
  (LexicalWalk.Decides.bind first fun _ => rest).congr (and_iff_right trivial)

/-- The walk over a statement that evaluates an expression. -/
theorem of_expression {point : Point} (condition : Prop) {value : Expression}
    (evaluates : point.statement.expression? = some value)
    (decides : walk.Decides errors
      (condition ∧ setting.ExpressionIsSound point.environment value) ()
      (value.nodes.map (setting.noteOf point.environment)))
    (same : condition ↔ setting.StatementIsSound point) :
    setting.DecidesPoints errors walk [point] := by
  have notes : setting.notesAt point = value.nodes.map (setting.noteOf point.environment) := by
    rw [notesAt, evaluates]
    rfl
  rw [DecidesPoints, List.flatMap_singleton, notes]
  apply decides.congr
  rw [List.forall_mem_singleton, same]
  constructor
  · rintro ⟨statement, expression⟩
    refine ⟨statement, fun other evaluated => ?_⟩
    rw [evaluates] at evaluated
    cases evaluated
    exact expression
  · rintro ⟨statement, expression⟩
    exact ⟨statement, expression value evaluates⟩

/-- The walk over a statement that evaluates nothing itself. -/
theorem of_quiet {point : Point} (quiet : point.statement.expression? = none)
    (decides : walk.Decides errors (setting.StatementIsSound point) () []) :
    setting.DecidesPoints errors walk [point] := by
  have notes : setting.notesAt point = [] := by
    rw [notesAt, quiet]
    rfl
  rw [DecidesPoints, List.flatMap_singleton, notes]
  apply decides.congr
  rw [List.forall_mem_singleton]
  constructor
  · intro statement
    refine ⟨statement, fun other evaluated => ?_⟩
    rw [quiet] at evaluated
    cases evaluated
  · exact fun sound => sound.statement

end DecidesPoints

/-- The walk over a declaration, which evaluates an expression or not. -/
theorem decidesPoints_declaration (typed : setting.HasTypedBuiltins) (inLoop inFunction : Bool)
    (span : Span) (locals : List Variable) (value? : Option Expression) :
    setting.DecidesPoints errors
      ((setting.checkDeclaration place span locals value?).within environment)
      [⟨environment, inLoop, inFunction, .declaration span locals value?⟩] := by
  cases value? with
  | none =>
    refine DecidesPoints.of_quiet rfl
      (Decides.congr (decides_checkDeclaration typed span locals none) ?_)
    exact ⟨fun ⟨declared, _⟩ => ⟨declared, nofun⟩, fun ⟨declared, _⟩ => ⟨declared, nofun⟩⟩
  | some value =>
    refine DecidesPoints.of_expression
      ((∀ declared ∈ locals, setting.VariableIsSound declared) ∧
        setting.typesOf environment value = locals.map (·.type)) rfl
      (Decides.congr (decides_checkDeclaration typed span locals (some value)) ?_) ?_
    · constructor
      · rintro ⟨declared, fits⟩
        exact ⟨⟨declared, (fits value rfl).1⟩, (fits value rfl).2⟩
      · rintro ⟨⟨declared, same⟩, sound⟩
        refine ⟨declared, ?_⟩
        rintro _ ⟨rfl⟩
        exact ⟨same, sound⟩
    · constructor
      · rintro ⟨declared, same⟩
        refine ⟨declared, ?_⟩
        rintro _ ⟨rfl⟩
        exact same
      · rintro ⟨declared, same⟩
        exact ⟨declared, same value rfl⟩

/-! ### Blocks -/

/-- A warning does not decide anything. -/
theorem decides_expect_warning {condition : Bool} {finding : Finding}
    (isWarning : finding.category.isError = false) (span : Span) :
    (expect place condition span (pure finding)).Decides environment errors True () [] := by
  cases condition with
  | true => exact Decides.done ()
  | false => exact decides_report_warning isWarning span

variable {setting}

mutual

/-- Checking a block decides the rules for the statements in it. -/
theorem decides_lexicalBlock (typed : setting.HasTypedBuiltins) (outer : Environment)
    (place : Place) (block : Block) :
    setting.DecidesPoints errors (setting.lexicalBlock outer place block)
      (block.points outer place.inLoop place.inFunction) := by
  cases block with
  | mk id span statements =>
    rw [lexicalBlock, Block.points]
    apply DecidesPoints.true_bind (decides_enterBlock (.mk id span statements))
    exact decides_lexicalStatements typed outer statements []
      { place with block := id } statements

theorem decides_lexicalStatements (typed : setting.HasTypedBuiltins) (outer : Environment)
    (all before : List Statement) (place : Place) (statements : List Statement) :
    setting.DecidesPoints errors (setting.lexicalStatements outer all before place statements)
      (statementPoints outer place.inLoop place.inFunction all before statements) := by
  cases statements with
  | nil =>
    rw [lexicalStatements, statementPoints]
    exact DecidesPoints.done
  | cons statement rest =>
    rw [lexicalStatements, statementPoints]
    exact DecidesPoints.bind (decides_lexicalStatement typed _ place statement)
      (decides_lexicalStatements typed outer all (statement :: before) place rest)

theorem decides_lexicalStatement (typed : setting.HasTypedBuiltins) (environment : Environment)
    (place : Place) (statement : Statement) :
    setting.DecidesPoints errors (setting.lexicalStatement environment place statement)
      (statement.points environment place.inLoop place.inFunction) := by
  cases statement with
  | function id span name parameters returns body =>
    rw [lexicalStatement, Statement.points]
    exact DecidesPoints.cons
      (DecidesPoints.of_quiet rfl (setting.decides_checkHeader id span name parameters returns))
      (decides_lexicalBlock typed (.function parameters returns :: environment)
        { place with inLoop := false, inFunction := true } body)
  | conditional span condition body =>
    rw [lexicalStatement, Statement.points]
    exact DecidesPoints.cons
      (DecidesPoints.of_expression _ rfl (decides_checkCondition typed condition) Iff.rfl)
      (decides_lexicalBlock typed environment place body)
  | switch span scrutinee cases =>
    rw [lexicalStatement, Statement.points]
    apply DecidesPoints.true_bind (decides_expect_warning rfl span)
    apply LexicalWalk.Decides.congr (LexicalWalk.Decides.bind (decides_checkSingle typed scrutinee)
      fun _ => decides_lexicalCases typed environment place
        (setting.typeOf environment scrutinee) [] cases)
    rw [List.forall_mem_cons, casesContinue_nil_iff]
    constructor
    · rintro ⟨⟨sound, single⟩, casesAreSound, points⟩
      refine ⟨⟨⟨setting.typeOf environment scrutinee, ?_, casesAreSound⟩, ?_⟩, points⟩
      · exact setting.typesOf_eq_singleton environment single
      · rintro _ ⟨rfl⟩
        exact sound
    · rintro ⟨⟨⟨type, single, casesAreSound⟩, sound⟩, points⟩
      have isType : setting.typeOf environment scrutinee = type := by
        rw [typeOf, single]
        rfl
      rw [isType]
      exact ⟨⟨sound scrutinee rfl, congrArg List.length single⟩, casesAreSound, points⟩
  | loop id span pre condition post body =>
    rw [lexicalStatement, Statement.points]
    dsimp only
    rw [List.append_assoc, List.cons_append]
    refine DecidesPoints.bind (decides_lexicalBlock typed environment
      { place with inLoop := false } pre) ?_
    apply DecidesPoints.true_bind (decides_enterBlock pre)
    apply DecidesPoints.cons
      (DecidesPoints.of_expression _ rfl (decides_checkCondition typed condition) Iff.rfl)
    exact DecidesPoints.bind
      (decides_lexicalBlock typed _ ⟨pre.id, true, place.inFunction⟩ body)
      (decides_lexicalBlock typed _ ⟨pre.id, false, place.inFunction⟩ post)
  | block block =>
    rw [lexicalStatement, Statement.points]
    exact decides_lexicalBlock typed environment place block
  | expression span value =>
    rw [lexicalStatement, Statement.points]
    · exact DecidesPoints.of_expression _ rfl (decides_checkEffect typed span value) Iff.rfl
    all_goals nofun
  | assignment span targets value =>
    rw [lexicalStatement, Statement.points]
    · exact DecidesPoints.of_expression _ rfl (decides_checkAssignment typed span targets value) Iff.rfl
    all_goals nofun
  | declaration span locals value? =>
    rw [lexicalStatement, Statement.points]
    · exact setting.decidesPoints_declaration typed _ _ span locals value?
    all_goals nofun
  | «break» span | «continue» span | leave span =>
    rw [lexicalStatement, Statement.points]
    · exact DecidesPoints.of_quiet rfl (decides_expect _ _ (finds_pure rfl))
    all_goals nofun

theorem decides_lexicalCases (typed : setting.HasTypedBuiltins) (environment : Environment)
    (place : Place) (type : TypeHandle) (before : List Word) (cases : List Case) :
    (setting.lexicalCases environment place type before cases).Decides errors
      (setting.CasesContinue type before cases ∧
        ∀ point ∈ casePoints environment place.inLoop place.inFunction cases,
          setting.PointIsSound point) ()
      ((casePoints environment place.inLoop place.inFunction cases).flatMap setting.notesAt) := by
  cases cases with
  | nil =>
    rw [lexicalCases, casePoints]
    apply (LexicalWalk.Decides.done ()).congr
    exact iff_of_true trivial ⟨setting.casesContinue_nil type before, nofun⟩
  | cons first rest =>
    obtain ⟨span, value?, body⟩ := first
    cases value? with
    | none =>
      rw [lexicalCases, casePoints, List.flatMap_append, List.forall_mem_append,
        casesContinue_default]
      apply LexicalWalk.Decides.congr (LexicalWalk.Decides.and (Decides.done before) fun _ =>
        LexicalWalk.Decides.bind (decides_lexicalBlock typed environment place body) fun _ =>
          decides_lexicalCases typed environment place type before rest)
      tauto
    | some literal =>
      rw [lexicalCases, casePoints, List.flatMap_append, List.forall_mem_append,
        casesContinue_value]
      apply LexicalWalk.Decides.congr (LexicalWalk.Decides.and
        (setting.decides_checkCaseValue type before span literal) fun _ =>
          LexicalWalk.Decides.bind (decides_lexicalBlock typed environment place body) fun _ =>
            decides_lexicalCases typed environment place type _ rest)
      tauto

end

end YulCheck.Setting
