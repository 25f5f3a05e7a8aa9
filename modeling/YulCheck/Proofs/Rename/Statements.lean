import YulCheck.Check.Statement
import YulCheck.Proofs.Rename.Expressions

/-! # Statements under other names

Checking a program under other names passes where checking the program does: declarations are entered
under the other names, and every statement is checked as it was.
-/

namespace YulCheck.Setting

open Walk

variable {setting later : Setting} {renames : Renaming} {after : NameTable} {place : Place}
  {errors : Nat}

section Parts

variable (admits : setting.AdmitsIn renames later)

include admits

/-! ### Declarations and assignments -/

theorem renamed_checkDeclaredTypes (locals : List Variable) (types : List TypeHandle) :
    (setting.checkDeclaredTypes place locals types).RenamedBy renames errors
      (later.checkDeclaredTypes place (locals.map (·.rename renames.change))
        types) := by
  obtain ⟨entries, owners, version, dataNames, rfl⟩ := admits.exists_eq
  induction locals generalizing types with
  | nil => exact .pure _
  | cons declared rest ih =>
    refine (renamed_expect ?_ _).bind fun _ => ih types.tail
    exact finds_bind fun _ => finds_bind fun _ => finds_pure rfl

theorem renamed_checkInitialValue (span : Span) (locals : List Variable) {value : Expression}
    (areKnown : ∀ name ∈ value.occurrences, name ∈ renames.domain) :
    (setting.checkInitialValue place span locals value).RenamedBy renames errors
      (later.checkInitialValue place span (locals.map (·.rename renames.change))
        (value.rename renames.change)) := by
  refine (renamed_checkExpression admits areKnown).bind fun types => ?_
  rw [List.length_map]
  refine (renamed_expect (finds_bind fun _ => finds_pure rfl) _).bind fun _ => ?_
  exact renamed_checkDeclaredTypes admits locals types

omit admits in
theorem renamed_activateVariable {declared : Variable} (isKnown : declared.name ∈ renames.domain) :
    (activateVariable place declared).RenamedBy renames errors
      (activateVariable place (declared.rename renames.change)) :=
  (RenamedBy.activate isKnown _).bind fun _ => .require id

theorem renamed_checkDeclaration (span : Span) {locals : List Variable} {value? : Option Expression}
    (areLocals : ∀ declared ∈ locals, declared.name ∈ renames.domain)
    (areKnown : ∀ value ∈ value?, ∀ name ∈ value.occurrences, name ∈ renames.domain) :
    (setting.checkDeclaration place span locals value?).RenamedBy renames errors
      (later.checkDeclaration place span (locals.map (·.rename renames.change))
        (value?.map (·.rename renames.change))) := by
  have asked : (locals.forM fun declared =>
        discard (consult place declared.toIdentifier .declare)).RenamedBy renames errors
      ((locals.map (·.rename renames.change)).forM fun declared =>
        discard (consult place declared.toIdentifier .declare)) :=
    .forM_map fun _ _ => .answered_bind answers_consult answers_consult (.pure _)
  refine asked.bind fun _ => (RenamedBy.forM_map fun declared isLocal =>
    renamed_checkVariable admits (areLocals declared isLocal)).bind fun _ => ?_
  have activated : (locals.forM (activateVariable place)).RenamedBy renames errors
      ((locals.map (·.rename renames.change)).forM (activateVariable place)) :=
    .forM_map fun declared isLocal => renamed_activateVariable (areLocals declared isLocal)
  cases value? with
  | none => exact activated
  | some value =>
    exact (renamed_checkInitialValue admits span locals (areKnown value rfl)).bind fun _ => activated

omit admits in
theorem renamed_checkRepeatedTargets (span : Span) {before : List Handle}
    (areBefore : ∀ name ∈ before, name ∈ renames.domain) {targets : List Identifier}
    (areTargets : ∀ target ∈ targets, target.name ∈ renames.domain) :
    (setting.checkRepeatedTargets place span before targets).RenamedBy renames errors
      (later.checkRepeatedTargets place span (before.map renames.change)
        (targets.map (·.rename renames.change))) := by
  induction targets generalizing before with
  | nil => exact .pure _
  | cons target rest ih =>
    rw [List.forall_mem_cons] at areTargets
    have isRepeated : (before.map renames.change).contains (renames.change target.name) =
        before.contains target.name :=
      List.contains_map_of_forall fun name isBefore =>
        renames.injective (areBefore name isBefore) areTargets.1
    rw [List.map_cons, checkRepeatedTargets, checkRepeatedTargets, Identifier.rename, isRepeated]
    refine (renamed_expect (finds_bind fun _ => finds_pure rfl) _).bind fun _ => ?_
    exact ih (List.forall_mem_cons.mpr ⟨areTargets.1, areBefore⟩) areTargets.2

theorem renamed_targetType {target : Identifier} (isKnown : target.name ∈ renames.domain) :
    (setting.targetType place target).RenamedBy renames errors
      (later.targetType place (target.rename renames.change)) := by
  refine .answered_bind answers_errorCount answers_errorCount ?_
  refine (RenamedBy.lookup isKnown _).bind fun found? => ?_
  rcases found? with _ | ⟨type | ⟨parameters, returns⟩, isActive⟩
  · obtain ⟨entries, owners, version, dataNames, rfl⟩ := admits.exists_eq
    refine .answered_bind answers_consult answers_consult ?_
    refine .answered_bind answers_isQuietSince answers_isQuietSince ?_
    exact (renamed_expect (finds_pure rfl) _).bind fun _ => .pure _
  · refine .answered_bind answers_consult answers_consult ?_
    exact (renamed_expect (finds_bind fun _ => finds_pure rfl) _).bind fun _ => .pure _
  · refine .answered_bind answers_consult answers_consult ?_
    exact .of_not_passes _ fun _ _ _ _ => not_passes_report_bind rfl

theorem renamed_checkTargetType {target : Identifier} (isKnown : target.name ∈ renames.domain)
    (given : TypeHandle) :
    (setting.checkTargetType place target given).RenamedBy renames errors
      (later.checkTargetType place (target.rename renames.change) given) := by
  refine (renamed_requireName admits isKnown).bind fun _ =>
    .answered_bind answers_errorCount answers_errorCount ?_
  refine (renamed_targetType admits isKnown).bind fun type? => ?_
  have rest : (do Walk.require (!(← isQuietSince errors) || type?.isSome) .targetUntyped :
        Walk Unit).RenamedBy renames errors
      (do Walk.require (!(← isQuietSince errors) || type?.isSome) .targetUntyped) :=
    .answered_bind answers_isQuietSince answers_isQuietSince (.require id)
  cases type? with
  | none => exact rest
  | some type =>
    refine (renamed_expect ?_ _).bind fun _ => rest
    exact finds_bind fun _ => finds_bind fun _ => finds_pure rfl

theorem renamed_checkTargetTypes {targets : List Identifier}
    (areTargets : ∀ target ∈ targets, target.name ∈ renames.domain) (types : List TypeHandle) :
    (setting.checkTargetTypes place targets types).RenamedBy renames errors
      (later.checkTargetTypes place (targets.map (·.rename renames.change))
        types) := by
  induction targets generalizing types with
  | nil => exact .pure _
  | cons target targets ih =>
    rw [List.forall_mem_cons] at areTargets
    cases types with
    | nil => exact .pure _
    | cons type types =>
      exact (renamed_checkTargetType admits areTargets.1 type).bind fun _ => ih areTargets.2 types

theorem renamed_checkAssignment (span : Span) {targets : List Identifier} {value : Expression}
    (areTargets : ∀ target ∈ targets, target.name ∈ renames.domain)
    (areKnown : ∀ name ∈ value.occurrences, name ∈ renames.domain) :
    (setting.checkAssignment place span targets value).RenamedBy renames errors
      (later.checkAssignment place span (targets.map (·.rename renames.change))
        (value.rename renames.change)) := by
  unfold checkAssignment
  rw [List.isEmpty_map, List.length_map]
  refine (RenamedBy.require id).bind fun _ => ?_
  have noneBefore : ∀ name ∈ ([] : List Handle), name ∈ renames.domain :=
    fun _ isBefore => absurd isBefore List.not_mem_nil
  refine (renamed_checkRepeatedTargets span noneBefore areTargets).bind fun _ => ?_
  refine (renamed_checkExpression admits areKnown).bind fun types => ?_
  refine (renamed_expect (finds_bind fun _ => finds_pure rfl) _).bind fun _ => ?_
  exact renamed_checkTargetTypes admits areTargets types

/-! ### Other statements -/

section Values

variable {expression : Expression}
  (areKnown : ∀ name ∈ expression.occurrences, name ∈ renames.domain)

include areKnown

theorem renamed_checkEffect (span : Span) :
    (setting.checkEffect place span expression).RenamedBy renames errors
      (later.checkEffect place span (expression.rename renames.change)) := by
  refine .answered_bind answers_errorCount answers_errorCount ?_
  refine (renamed_checkExpression admits areKnown).bind fun types => ?_
  exact .answered_bind answers_isQuietSince answers_isQuietSince (renamed_expect (finds_pure rfl) _)

theorem renamed_checkSingle :
    (setting.checkSingle place expression).RenamedBy renames errors
      (later.checkSingle place (expression.rename renames.change)) :=
  (renamed_checkExpression admits areKnown).bind fun types =>
    renamed_singleType admits expression types

theorem renamed_checkCondition :
    (setting.checkCondition place expression).RenamedBy renames errors
      (later.checkCondition place (expression.rename renames.change)) := by
  refine (renamed_checkSingle admits areKnown).bind fun type => ?_
  obtain ⟨entries, owners, version, dataNames, rfl⟩ := admits.exists_eq
  exact renamed_expect (finds_bind fun _ => finds_bind fun _ => finds_pure rfl) _

end Values

theorem renamed_checkCaseValue (type : TypeHandle) (before : List Word) (span : Span)
    (literal : Literal) :
    (setting.checkCaseValue place type before span literal).RenamedBy renames errors
      (later.checkCaseValue place type before span literal) := by
  refine .answered_bind answers_errorCount answers_errorCount ?_
  refine (renamed_checkSameType type literal.type _ _).bind fun _ => ?_
  refine (renamed_checkLiteral admits literal).bind fun _ => ?_
  refine .answered_bind answers_isQuietSince answers_isQuietSince ?_
  refine .of_nameless (only_bind (only_lift _) fun _ => ?_)
  exact only_bind (nameless_checks.expect _ _ (only_pure _)) fun _ => only_pure _

theorem renamed_checkHeader (id : NodeId) (span : Span) {name : Handle}
    {parameters returns : List Variable} (isKnown : name ∈ renames.domain)
    (areLocals : ∀ declared ∈ parameters ++ returns, declared.name ∈ renames.domain) :
    (setting.checkHeader place id span name parameters returns).RenamedBy renames errors
      (later.checkHeader place id span (renames.change name)
        (parameters.map (·.rename renames.change)) (returns.map (·.rename renames.change))) := by
  refine (renamed_requireName admits isKnown).bind fun _ =>
    (renamed_checkName admits isKnown span).bind fun _ => ?_
  refine (RenamedBy.ask_of_nameless (by trivial)).bind fun _ =>
    (RenamedBy.require fun hasScope => hasScope).bind fun _ => ?_
  rw [← List.map_append]
  refine .forM_map fun declared isLocal => ?_
  refine (renamed_checkVariable admits (areLocals declared isLocal)).bind fun _ => ?_
  exact (RenamedBy.activate (areLocals declared isLocal) _).bind fun _ => .pure _

omit admits in
theorem enterBlock_rename (block : Block) (change : Handle → Handle) :
    enterBlock place (block.rename change) = enterBlock place block := by
  cases block
  rfl

omit admits in
/-- The cases of a switch keep their values, so the default case is still the only one if it was. -/
theorem isOnlyDefault_rename (cases : List Case) (change : Handle → Handle) :
    (decide ((renameCases change cases).length = 1) &&
        (renameCases change cases).all (·.value?.isNone)) =
      (decide (cases.length = 1) && cases.all (·.value?.isNone)) := by
  have values := map_value?_renameCases change cases
  have lengths := congrArg List.length values
  have all := congrArg (List.all · Option.isNone) values
  rw [List.length_map, List.length_map] at lengths
  simp only [List.all_map] at all
  rw [lengths]
  exact congrArg (decide (cases.length = 1) && ·) all

end Parts

/-! ### Blocks -/

mutual

theorem renamed_checkBlock (admits : setting.AdmitsIn renames later) (place : Place) {block : Block}
    (areKnown : ∀ name ∈ block.occurrences, name ∈ renames.domain) :
    (setting.checkBlock place block).RenamedBy renames errors
      (later.checkBlock place (block.rename renames.change)) := by
  cases block with
  | mk id span statements =>
    rw [Block.rename, checkBlock, checkBlock]
    exact (RenamedBy.of_nameless (only_enterBlock trivial)).bind fun inside =>
      renamed_checkStatements admits inside areKnown

theorem renamed_checkStatements (admits : setting.AdmitsIn renames later) (place : Place)
    {statements : List Statement}
    (areKnown : ∀ name ∈ statementOccurrences statements, name ∈ renames.domain) :
    (setting.checkStatements place statements).RenamedBy renames errors
      (later.checkStatements place
        (renameStatements renames.change statements)) := by
  cases statements with
  | nil =>
    rw [renameStatements, checkStatements, checkStatements]
    exact .pure _
  | cons statement rest =>
    rw [statementOccurrences, List.forall_mem_append] at areKnown
    rw [renameStatements, checkStatements, checkStatements]
    exact (renamed_checkStatement admits place areKnown.1).bind fun _ =>
      renamed_checkStatements admits place areKnown.2

theorem renamed_checkStatement (admits : setting.AdmitsIn renames later) (place : Place)
    {statement : Statement}
    (areKnown : ∀ name ∈ statement.occurrences, name ∈ renames.domain) :
    (setting.checkStatement place statement).RenamedBy renames errors
      (later.checkStatement place (statement.rename renames.change)) := by
  cases statement with
  | «break» | «continue» | leave =>
    rw [Statement.rename, checkStatement, checkStatement]
    exact renamed_expect (finds_pure rfl) _
  | expression span expression =>
    rw [Statement.rename, checkStatement, checkStatement]
    exact renamed_checkEffect admits areKnown span
  | assignment span targets value =>
    rw [Statement.occurrences, List.forall_mem_append, List.forall_mem_map] at areKnown
    rw [Statement.rename, checkStatement, checkStatement]
    exact renamed_checkAssignment admits span areKnown.1 areKnown.2
  | declaration span locals value? =>
    rw [Statement.occurrences, List.forall_mem_append, List.forall_mem_map] at areKnown
    rw [Statement.rename, checkStatement, checkStatement]
    refine renamed_checkDeclaration admits span areKnown.1 fun value isValue => ?_
    cases isValue
    exact areKnown.2
  | function id span name parameters returns body =>
    rw [Statement.occurrences, List.cons_append, List.forall_mem_cons, List.forall_mem_append,
      List.forall_mem_map] at areKnown
    obtain ⟨isName, areLocals, areInside⟩ := areKnown
    rw [Statement.rename, checkStatement, checkStatement]
    exact (renamed_checkHeader admits id span isName areLocals).bind fun _ =>
      renamed_checkBlock admits _ areInside
  | conditional span condition body =>
    rw [Statement.occurrences, List.forall_mem_append] at areKnown
    rw [Statement.rename, checkStatement, checkStatement]
    exact (renamed_checkCondition admits areKnown.1).bind fun _ =>
      renamed_checkBlock admits place areKnown.2
  | «switch» span scrutinee cases =>
    rw [Statement.occurrences, List.forall_mem_append] at areKnown
    rw [Statement.rename, checkStatement, checkStatement]
    refine RenamedBy.bind ?_ fun _ => (renamed_checkSingle admits areKnown.1).bind fun type =>
      renamed_checkCases admits place type [] areKnown.2
    rw [isOnlyDefault_rename]
    exact .of_nameless (nameless_checks.expect _ _ (only_pure _))
  | loop id span pre condition post body =>
    rw [Statement.occurrences, List.forall_mem_append, List.forall_mem_append,
      List.forall_mem_append] at areKnown
    obtain ⟨⟨⟨inPre, inCondition⟩, inPost⟩, inBody⟩ := areKnown
    rw [Statement.rename, checkStatement, checkStatement, enterBlock_rename]
    refine (renamed_checkBlock admits _ inPre).bind fun _ => ?_
    refine (RenamedBy.of_nameless (only_enterBlock trivial)).bind fun inside => ?_
    refine (renamed_checkCondition admits inCondition).bind fun _ => ?_
    exact (renamed_checkBlock admits _ inBody).bind fun _ => renamed_checkBlock admits inside inPost
  | block block =>
    rw [Statement.rename, checkStatement, checkStatement]
    exact renamed_checkBlock admits place areKnown

theorem renamed_checkCases (admits : setting.AdmitsIn renames later) (place : Place)
    (type : TypeHandle) (before : List Word) {cases : List Case}
    (areKnown : ∀ name ∈ caseOccurrences cases, name ∈ renames.domain) :
    (setting.checkCases place type before cases).RenamedBy renames errors
      (later.checkCases place type before
        (renameCases renames.change cases)) := by
  rcases cases with _ | ⟨⟨span, value?, body⟩, rest⟩
  · rw [renameCases, checkCases, checkCases]
    exact .pure _
  · rw [caseOccurrences, List.forall_mem_append] at areKnown
    cases value? with
    | none =>
      rw [renameCases, checkCases, checkCases]
      exact (renamed_checkBlock admits place areKnown.1).bind fun _ =>
        renamed_checkCases admits place type before areKnown.2
    | some literal =>
      rw [renameCases, checkCases, checkCases]
      refine (renamed_checkCaseValue admits type before span literal).bind fun values => ?_
      exact (renamed_checkBlock admits place areKnown.1).bind fun _ =>
        renamed_checkCases admits place type values areKnown.2

end

/-! ### Programs -/

theorem renamed_enterVariables {locals : List Variable}
    (areLocals : ∀ declared ∈ locals, declared.name ∈ renames.domain) :
    (setting.enterVariables place locals).RenamedBy renames errors
      (later.enterVariables place (locals.map (·.rename renames.change))) := by
  induction locals with
  | nil => exact .pure _
  | cons declared rest ih =>
    rw [List.forall_mem_cons] at areLocals
    refine (RenamedBy.bindName areLocals.1 _).bind fun isFree => ?_
    cases isFree with
    | true => exact ih areLocals.2
    | false =>
      refine .of_not_passes _ fun state result last _ passes => ?_
      obtain ⟨label, _, reported⟩ := passes_lift_bind_iff.mp passes
      exact not_passes_report rfl reported

theorem renamed_enter {declaration : Declaration}
    (areKnown : ∀ name ∈ declaration.names, name ∈ renames.domain) :
    (setting.enter place declaration).RenamedBy renames errors
      (later.enter place (declaration.rename renames.change)) := by
  cases declaration with
  | scope | resume | leave => exact .ask_of_nameless (by trivial)
  | locals locals => exact renamed_enterVariables (List.forall_mem_map.mp areKnown)
  | function span name parameters returns =>
    exact (RenamedBy.bindName (List.forall_mem_singleton.mp areKnown) _).bind fun _ =>
      renamed_expect (finds_bind fun _ => finds_pure rfl) _

/-- A program that is accepted is accepted under other names in a setting that admits them, and the run
is the same under other names. -/
theorem renamed_checkProgram_of_admitsIn (admits : setting.AdmitsIn renames later) {block : Block}
    (areKnown : ∀ name ∈ block.occurrences, name ∈ renames.domain) :
    (setting.checkProgram place block).RenamedBy renames errors
      (later.checkProgram place (block.rename renames.change)) := by
  have entered : (setting.enterDeclarations place block).RenamedBy renames errors
      (later.enterDeclarations place (block.rename renames.change)) := by
    refine .answered_bind answers_errorCount answers_errorCount ?_
    rw [Block.declarations_rename]
    refine (RenamedBy.forM_map fun declaration isDeclaration => renamed_enter ?_).bind fun _ =>
      .of_nameless (only_isQuietSince trivial _)
    intro name isName
    exact areKnown name (block.names_declarations
      (List.mem_flatMap.mpr ⟨declaration, isDeclaration, isName⟩))
  refine entered.bind fun isQuiet => ?_
  cases isQuiet with
  | true => exact renamed_checkBlock admits place areKnown
  | false => exact .pure _

theorem renamed_checkProgram (admits : setting.Admits renames after) {block : Block}
    (areKnown : ∀ name ∈ block.occurrences, name ∈ renames.domain) :
    (setting.checkProgram place block).RenamedBy renames errors
      ((setting.withNames after).checkProgram place (block.rename renames.change)) :=
  renamed_checkProgram_of_admitsIn admits.withNames areKnown

end YulCheck.Setting
