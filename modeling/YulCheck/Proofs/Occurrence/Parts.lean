import YulCheck.Proofs.Rename.Statements

/-! # Checks from their parts

A program is checked by few kinds of steps: names are bound, looked up and activated, declared
variables are shown to the host, and identifiers, callees and targets are resolved. What holds of these
steps, and of one walk after another, holds of the check of every program with the names that the steps
are allowed to have.
-/

namespace YulCheck

theorem Request.IsNameless.isOwn {request : Request} (nameless : request.IsNameless) :
    request.IsOwn := by
  cases request <;> trivial

namespace Setting

/-- Rules for a property of walks by which checks have it, as long as only known names occur in them.
What the property says about a walk may depend on the number of errors at which the walk starts. -/
structure CheckRules (setting : Setting) (known : Handle → Prop) (counts : Nat → Prop)
    (holds : (α : Type) → Walk α → Prop) : Prop where
  pure {α : Type} (result : α) : holds α (pure result)
  broken {α : Type} (fault : Fault) : holds α (.broken fault)
  bind {α β : Type} {walk : Walk α} {next : α → Walk β} (first : holds α walk)
    (rest : ∀ result, holds β (next result)) : holds β (walk >>= next)
  /-- What follows when the errors are counted. -/
  counted {α : Type} {next : Nat → Walk α} (rest : ∀ errors, counts errors → holds α (next errors)) :
    holds α (Walk.ask .errorCount >>= next)
  /-- A request that is not one to the host. -/
  asked {request : Request} (isOwn : request.IsOwn) (areKnown : ∀ name ∈ request.names, known name) :
    holds request.Answer (Walk.ask request)
  declared (place : Place) {declared : Variable} (isKnown : known declared.name) :
    holds Unit (discard (consult place declared.toIdentifier .declare))
  identifier (place : Place) {identifier : Identifier} (isKnown : known identifier.name) :
    holds (List TypeHandle) (setting.checkIdentifier place identifier)
  callee (place : Place) {errors : Nat} (isCount : counts errors) {callee : Identifier}
    (isKnown : known callee.name) : holds Callee (setting.resolveCallee place errors callee)
  target (place : Place) {target : Identifier} (isKnown : known target.name) :
    holds (Option TypeHandle) (setting.targetType place target)

namespace CheckRules

open Walk

variable {setting : Setting} {known : Handle → Prop} {counts : Nat → Prop}
  {holds : (α : Type) → Walk α → Prop} (rules : setting.CheckRules known counts holds)
  {place : Place}

include rules

/-! ### Walks -/

theorem of_nameless {α : Type} {walk : Walk α} (nameless : IsNameless walk) : holds α walk := by
  induction walk with
  | done result => exact rules.pure result
  | broken fault => exact rules.broken fault
  | step request next ih =>
    have isAsked : holds request.Answer (ask request) :=
      rules.asked nameless.1.isOwn (nameless.1.names ▸ List.forall_mem_nil _)
    exact rules.bind isAsked fun answer => ih answer (nameless.2 answer)

theorem nameless_bind {α β : Type} {walk : Walk α} {next : α → Walk β}
    (nameless : IsNameless walk) (rest : ∀ result, holds β (next result)) :
    holds β (walk >>= next) :=
  rules.bind (rules.of_nameless nameless) rest

theorem bind_nameless {α β : Type} {walk : Walk α} {next : α → Walk β} (first : holds α walk)
    (rest : ∀ result, IsNameless (next result)) : holds β (walk >>= next) :=
  rules.bind first fun result => rules.of_nameless (rest result)

theorem forM {ι : Type} {elements : List ι} {visit : ι → Walk Unit}
    (each : ∀ element ∈ elements, holds Unit (visit element)) : holds Unit (elements.forM visit) := by
  induction elements with
  | nil => exact rules.pure ()
  | cons element rest ih =>
    rw [List.forall_mem_cons] at each
    exact rules.bind each.1 fun _ => ih each.2

/-! ### Expressions -/

mutual

theorem checkExpression {expression : Expression}
    (areKnown : ∀ name ∈ expression.occurrences, known name) :
    holds (List TypeHandle) (setting.checkExpression place expression) := by
  cases expression with
  | literal constant =>
    rw [Setting.checkExpression]
    refine rules.of_nameless (only_bind (nameless_checks.checkLiteral _) fun _ => ?_)
    exact only_bind (only_ask.mpr trivial) fun _ => only_pure _
  | identifier use =>
    rw [Expression.occurrences, List.forall_mem_singleton] at areKnown
    rw [Setting.checkExpression]
    exact rules.bind_nameless (rules.identifier place areKnown) fun _ =>
      only_bind (only_ask.mpr trivial) fun _ => only_pure _
  | call id span callee arguments =>
    rw [Expression.occurrences, List.forall_mem_cons] at areKnown
    rw [Setting.checkExpression]
    refine rules.nameless_bind (only_require _ _) fun _ => rules.counted fun errors isCount => ?_
    refine rules.bind (rules.callee place isCount areKnown.1) fun resolved => ?_
    refine rules.nameless_bind (nameless_checks.checkArgumentCount _ _ _) fun _ => ?_
    exact rules.bind_nameless (checkArguments areKnown.2) fun given =>
      nameless_checks.finishCall id errors resolved arguments given

theorem checkArguments {callee : Identifier} {required : List (Option LiteralKind)}
    {arguments : List Expression} (areKnown : ∀ name ∈ argumentOccurrences arguments, known name) :
    holds (List TypeHandle) (setting.checkArguments place callee required arguments) := by
  cases arguments with
  | nil =>
    rw [Setting.checkArguments]
    exact rules.pure _
  | cons argument rest =>
    rw [argumentOccurrences, List.forall_mem_append] at areKnown
    rw [Setting.checkArguments]
    refine rules.bind (checkArguments areKnown.2) fun types => ?_
    dsimp only
    split
    · exact rules.of_nameless
        (only_bind (nameless_checks.checkStringArgument _ _) fun _ => only_pure _)
    · refine rules.nameless_bind (nameless_checks.checkArgumentKind _ _ _) fun _ => ?_
      exact rules.bind_nameless (checkExpression areKnown.1) fun _ =>
        only_bind (nameless_checks.singleType _ _) fun _ => only_pure _

end

theorem checkSingle {expression : Expression}
    (areKnown : ∀ name ∈ expression.occurrences, known name) :
    holds TypeHandle (setting.checkSingle place expression) :=
  rules.bind_nameless (rules.checkExpression areKnown) fun _ => nameless_checks.singleType _ _

theorem checkCondition {condition : Expression}
    (areKnown : ∀ name ∈ condition.occurrences, known name) :
    holds Unit (setting.checkCondition place condition) :=
  rules.bind_nameless (rules.checkSingle areKnown) fun _ => nameless_checks.finishCondition _ _

/-! ### Statements -/

theorem checkEffect {span : Span} {expression : Expression}
    (areKnown : ∀ name ∈ expression.occurrences, known name) :
    holds Unit (setting.checkEffect place span expression) :=
  rules.counted fun _ _ => rules.bind_nameless (rules.checkExpression areKnown) fun _ =>
    nameless_checks.finishEffect _ _ _

theorem activateVariable {declared : Variable} (isKnown : known declared.name) :
    holds Unit (Setting.activateVariable place declared) :=
  rules.bind_nameless (rules.asked trivial (List.forall_mem_singleton.mpr isKnown)) fun _ =>
    only_require _ _

theorem checkDeclaration {span : Span} {locals : List Variable} {value? : Option Expression}
    (areLocals : ∀ declared ∈ locals, known declared.name)
    (areKnown : ∀ value ∈ value?, ∀ name ∈ value.occurrences, known name) :
    holds Unit (setting.checkDeclaration place span locals value?) := by
  have asked : holds Unit (locals.forM fun declared =>
      discard (consult place declared.toIdentifier .declare)) :=
    rules.forM fun declared isLocal => rules.declared place (areLocals declared isLocal)
  have activated : holds Unit (locals.forM (Setting.activateVariable place)) :=
    rules.forM fun declared isLocal => rules.activateVariable (areLocals declared isLocal)
  refine rules.bind asked fun _ =>
    rules.nameless_bind (only_forM fun _ _ => nameless_checks.checkVariable _) fun _ => ?_
  cases value? with
  | none => exact activated
  | some value =>
    have initial : holds Unit (setting.checkInitialValue place span locals value) :=
      rules.bind_nameless (rules.checkExpression (areKnown value rfl)) fun types =>
        nameless_checks.finishDeclaration span locals types
    exact rules.bind initial fun _ => activated

theorem checkTargetTypes {targets : List Identifier}
    (areTargets : ∀ target ∈ targets, known target.name) (types : List TypeHandle) :
    holds Unit (setting.checkTargetTypes place targets types) := by
  induction targets generalizing types with
  | nil => exact rules.pure _
  | cons target targets ih =>
    rw [List.forall_mem_cons] at areTargets
    cases types with
    | nil => exact rules.pure _
    | cons type types =>
      refine rules.bind ?_ fun _ => ih areTargets.2 types
      refine rules.nameless_bind (only_require _ _) fun _ => rules.counted fun errors _ => ?_
      exact rules.bind_nameless (rules.target place areTargets.1) fun type? =>
        nameless_checks.finishTarget target type errors type?

theorem checkAssignment {span : Span} {targets : List Identifier} {value : Expression}
    (areTargets : ∀ target ∈ targets, known target.name)
    (areKnown : ∀ name ∈ value.occurrences, known name) :
    holds Unit (setting.checkAssignment place span targets value) := by
  refine rules.nameless_bind (only_require _ _) fun _ =>
    rules.nameless_bind (nameless_checks.checkRepeatedTargets _ _ _) fun _ => ?_
  refine rules.bind (rules.checkExpression areKnown) fun types => ?_
  exact rules.nameless_bind (nameless_checks.assignmentCount _ _ _) fun _ =>
    rules.checkTargetTypes areTargets types

theorem checkHeader {id : NodeId} {span : Span} {name : Handle} {parameters returns : List Variable}
    (areKnown : ∀ declared ∈ parameters ++ returns, known declared.name) :
    holds Unit (setting.checkHeader place id span name parameters returns) := by
  refine rules.nameless_bind (only_require _ _) fun _ =>
    rules.nameless_bind (nameless_checks.checkName _ _) fun _ => ?_
  refine rules.nameless_bind (only_ask.mpr trivial) fun _ =>
    rules.nameless_bind (only_require _ _) fun _ => rules.forM fun declared isDeclared => ?_
  refine rules.nameless_bind (nameless_checks.checkVariable _) fun _ => ?_
  exact rules.bind_nameless
    (rules.asked trivial (List.forall_mem_singleton.mpr (areKnown declared isDeclared))) fun _ =>
      only_pure _

/-! ### Blocks -/

mutual

theorem checkBlock (place : Place) {block : Block} (areKnown : ∀ name ∈ block.occurrences, known name) :
    holds Unit (setting.checkBlock place block) := by
  cases block with
  | mk id span statements =>
    rw [Block.occurrences] at areKnown
    rw [Setting.checkBlock]
    exact rules.nameless_bind (only_enterBlock trivial) fun inside => checkStatements inside areKnown

theorem checkStatements (place : Place) {statements : List Statement}
    (areKnown : ∀ name ∈ statementOccurrences statements, known name) :
    holds Unit (setting.checkStatements place statements) := by
  cases statements with
  | nil =>
    rw [Setting.checkStatements]
    exact rules.pure _
  | cons statement rest =>
    rw [statementOccurrences, List.forall_mem_append] at areKnown
    rw [Setting.checkStatements]
    exact rules.bind (checkStatement place areKnown.1) fun _ => checkStatements place areKnown.2

theorem checkStatement (place : Place) {statement : Statement}
    (areKnown : ∀ name ∈ statement.occurrences, known name) :
    holds Unit (setting.checkStatement place statement) := by
  cases statement with
  | expression span expression =>
    rw [Setting.checkStatement]
    exact rules.checkEffect areKnown
  | assignment span targets value =>
    rw [Statement.occurrences, List.forall_mem_append, List.forall_mem_map] at areKnown
    rw [Setting.checkStatement]
    exact rules.checkAssignment areKnown.1 areKnown.2
  | declaration span locals value? =>
    rw [Statement.occurrences, List.forall_mem_append, List.forall_mem_map] at areKnown
    rw [Setting.checkStatement]
    refine rules.checkDeclaration areKnown.1 ?_
    rintro value ⟨rfl⟩
    exact areKnown.2
  | function id span name parameters returns body =>
    rw [Statement.occurrences, List.cons_append, List.forall_mem_cons, List.forall_mem_append,
      List.forall_mem_map] at areKnown
    rw [Setting.checkStatement]
    exact rules.bind (rules.checkHeader areKnown.2.1) fun _ => checkBlock _ areKnown.2.2
  | conditional span condition body =>
    rw [Statement.occurrences, List.forall_mem_append] at areKnown
    rw [Setting.checkStatement]
    exact rules.bind (rules.checkCondition areKnown.1) fun _ => checkBlock place areKnown.2
  | «switch» span scrutinee cases =>
    rw [Statement.occurrences, List.forall_mem_append] at areKnown
    rw [Setting.checkStatement]
    refine rules.nameless_bind (nameless_checks.expect _ _ (only_pure _)) fun _ => ?_
    exact rules.bind (rules.checkSingle areKnown.1) fun type =>
      checkCases place type [] areKnown.2
  | loop id span pre condition post body =>
    rw [Statement.occurrences, List.forall_mem_append, List.forall_mem_append,
      List.forall_mem_append] at areKnown
    obtain ⟨⟨⟨inPre, inCondition⟩, inPost⟩, inBody⟩ := areKnown
    rw [Setting.checkStatement]
    refine rules.bind (checkBlock _ inPre) fun _ =>
      rules.nameless_bind (only_enterBlock trivial) fun inside => ?_
    refine rules.bind (rules.checkCondition inCondition) fun _ => ?_
    exact rules.bind (checkBlock _ inBody) fun _ => checkBlock inside inPost
  | «break» | «continue» | leave =>
    rw [Setting.checkStatement]
    exact rules.of_nameless (nameless_checks.expect _ _ (only_pure _))
  | block block =>
    rw [Setting.checkStatement]
    exact checkBlock place areKnown

theorem checkCases (place : Place) (type : TypeHandle) (before : List Word) {cases : List Case}
    (areKnown : ∀ name ∈ caseOccurrences cases, known name) :
    holds Unit (setting.checkCases place type before cases) := by
  rcases cases with _ | ⟨⟨span, value?, body⟩, rest⟩
  · rw [Setting.checkCases]
    exact rules.pure _
  · rw [caseOccurrences, List.forall_mem_append] at areKnown
    have behind (values : List Word) : holds Unit (do
        setting.checkBlock place body
        setting.checkCases place type values rest) :=
      rules.bind (checkBlock place areKnown.1) fun _ => checkCases place type values areKnown.2
    cases value? with
    | none =>
      rw [Setting.checkCases]
      exact behind before
    | some literal =>
      rw [Setting.checkCases]
      exact rules.nameless_bind (nameless_checks.checkCaseValue _ _ _ _) behind

end

/-! ### Programs -/

theorem enterVariables {locals : List Variable}
    (areKnown : ∀ declared ∈ locals, known declared.name) :
    holds Unit (setting.enterVariables place locals) := by
  induction locals with
  | nil => exact rules.pure _
  | cons declared rest ih =>
    rw [List.forall_mem_cons] at areKnown
    refine rules.bind (rules.asked trivial (List.forall_mem_singleton.mpr areKnown.1)) fun isFree => ?_
    cases isFree with
    | true => exact ih areKnown.2
    | false => exact rules.of_nameless (only_bind (only_lift _) fun _ => only_ask.mpr trivial)

theorem enter {declaration : Declaration} (areKnown : ∀ name ∈ declaration.names, known name) :
    holds Unit (setting.enter place declaration) := by
  cases declaration with
  | scope | resume | leave => exact rules.of_nameless (only_ask.mpr trivial)
  | locals locals => exact rules.enterVariables (List.forall_mem_map.mp areKnown)
  | function span name parameters returns =>
    exact rules.bind_nameless (rules.asked trivial areKnown) fun _ =>
      nameless_checks.expect _ _ (only_bind (only_lift _) fun _ => only_pure _)

theorem enterDeclarations {block : Block} (areKnown : ∀ name ∈ block.occurrences, known name) :
    holds Bool (setting.enterDeclarations place block) := by
  refine rules.counted fun errors _ => rules.bind_nameless (rules.forM fun declaration member => ?_)
    fun _ => only_isQuietSince trivial errors
  refine rules.enter fun name isName => areKnown name (block.names_declarations ?_)
  exact List.mem_flatMap.mpr ⟨declaration, member, isName⟩

/-- The check of a program has the property if all names in the program are known. -/
theorem checkProgram {block : Block} (areKnown : ∀ name ∈ block.occurrences, known name) :
    holds Unit (setting.checkProgram place block) := by
  refine rules.bind (rules.enterDeclarations areKnown) fun isQuiet => ?_
  cases isQuiet with
  | true => exact rules.checkBlock place areKnown
  | false => exact rules.pure _

end CheckRules

end Setting

end YulCheck
