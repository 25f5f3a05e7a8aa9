import YulCheck.Proofs.Mistake.Expressions

/-! # The mistakes in a statement

Which errors the parts of a statement have that are no statements themselves: declared names and types,
targets, values and conditions, and the values of cases. As with expressions, this is what checking
them reports.
-/

namespace YulCheck

/-- A list with positions starts with its first element. -/
theorem List.flatMap_zipIdx_cons {α β : Type} (mistakes : α × Nat → List β) (first : α)
    (rest : List α) :
    (first :: rest).zipIdx.flatMap mistakes =
      mistakes (first, 0) ++ rest.zipIdx.flatMap fun (element, position) =>
        mistakes (element, position + 1) := by
  rw [List.zipIdx_cons, List.flatMap_cons, List.zipIdx_succ, List.flatMap_map]

namespace Setting

variable (setting : Setting) (environment : Environment)

/-! ### Declarations -/

/-- The errors about a declared name. -/
def nameMistakes (name : Handle) (span : Span) : List Diagnostic :=
  let label := labelText (setting.names.shownLabel name)
  mistakeUnless (label.toList.getLast? != some '.') span (.endsWithDot label) ++
    (mistakeUnless (!hasConsecutiveDots label.toList) span (.consecutiveDots label) ++
      mistakeUnless (!setting.names.dialect.isReserved label) span (.reservedName label))

/-- The errors about the name and the type of a declared variable. -/
def variableMistakes (declared : Variable) : List Diagnostic :=
  setting.nameMistakes declared.name declared.span ++ setting.typeMistakes declared.type declared.span

/-- The labels of names as messages show them, one after another. -/
def labelsText (names : List Handle) : String :=
  ", ".intercalate (names.map fun name => labelText (setting.names.shownLabel name))

/-- The errors about variables of other types than the values that they get. Where there is no value,
it counts as one of the default type. -/
def initialMistakes (locals : List Variable) (types : List TypeHandle) : List Diagnostic :=
  locals.zipIdx.flatMap fun (declared, position) =>
    let given := types[position]?.getD setting.defaultType
    mistakeUnless (declared.type = given) declared.span
      (.declaredType (labelText (setting.names.label given))
        (labelText (setting.names.label declared.type)))

/-- The errors about the value of a declaration. -/
def initializerMistakes (span : Span) (locals : List Variable) (value : Expression) :
    List Diagnostic :=
  let assessed := setting.assess environment value
  assessed.mistakes ++
    (mistakeUnless (assessed.types.length = locals.length) span
        (.declarationCount (setting.labelsText (locals.map (·.name))) locals.length
          assessed.types.length) ++
      setting.initialMistakes locals assessed.types)

/-- The errors in a declaration. -/
def declarationMistakes (span : Span) (locals : List Variable) (value? : Option Expression) :
    List Diagnostic :=
  locals.flatMap setting.variableMistakes ++
    value?.toList.flatMap (setting.initializerMistakes environment span locals)

/-- The errors in the header of a function. -/
def headerMistakes (span : Span) (name : Handle) (parameters returns : List Variable) :
    List Diagnostic :=
  setting.nameMistakes name span ++ (parameters ++ returns).flatMap setting.variableMistakes

/-! ### Assignments -/

/-- The errors about targets that repeat earlier ones, of which some come before the list. -/
def repeatedMistakes (span : Span) (before : List Handle) (targets : List Identifier) :
    List Diagnostic :=
  targets.zipIdx.flatMap fun (target, position) =>
    mistakeUnless (!(before ++ (targets.take position).map (·.name)).contains target.name) span
      (.repeatedTarget (labelText (setting.names.shownLabel target.name)))

/-- The error about the assignment of a value to a target. -/
def targetMistakes (target : Identifier) (given : TypeHandle) : List Diagnostic :=
  match environment.lookup? target.name with
  | some { binding := .function .., .. } => [Finding.functionAsTarget.toDiagnostic target.span]
  | some { binding := .variable _, isActive := false } =>
    [(Finding.assignedBeforeDeclaration
      (labelText (setting.names.shownLabel target.name))).toDiagnostic target.span]
  | some { binding := .variable type, isActive := true } =>
    mistakeUnless (type = given) target.span
      (.assignedType (labelText (setting.names.label given)) (labelText (setting.names.label type)))
  | none => [Finding.targetNotFound.toDiagnostic target.span]

/-- The errors in an assignment. -/
def assignmentMistakes (span : Span) (targets : List Identifier) (value : Expression) :
    List Diagnostic :=
  let assessed := setting.assess environment value
  setting.repeatedMistakes span [] targets ++
    (assessed.mistakes ++
      (mistakeUnless (assessed.types.length = targets.length) span
          (.assignmentCount (setting.labelsText (targets.map (·.name))) targets.length
            assessed.types.length) ++
        (targets.zip assessed.types).flatMap fun (target, given) =>
          setting.targetMistakes environment target given))

/-! ### Values -/

/-- The errors in an expression that is used as a statement. -/
def effectMistakes (span : Span) (expression : Expression) : List Diagnostic :=
  let assessed := setting.assess environment expression
  assessed.mistakes ++
    mistakeUnless (!assessed.mistakes.isEmpty || assessed.types.isEmpty) span
      (.unusedValues assessed.types.length)

/-- The errors in an expression that is used as a single value. -/
def singleMistakes (expression : Expression) : List Diagnostic :=
  let assessed := setting.assess environment expression
  assessed.mistakes ++
    mistakeUnless (assessed.types.length = 1) expression.span (.valueCount assessed.types.length)

/-- The type of an expression that is used as a single value. -/
def singleTypeOf (expression : Expression) : TypeHandle :=
  setting.argumentType (setting.assess environment expression)

/-- The errors in a condition. -/
def conditionMistakes (condition : Expression) : List Diagnostic :=
  let boolType := setting.names.predefined.boolType
  let type := setting.singleTypeOf environment condition
  setting.singleMistakes environment condition ++
    mistakeUnless (type = boolType) condition.span
      (.conditionType (labelText (setting.names.label boolType)) (labelText (setting.names.label type)))

/-! ### Cases -/

/-- The errors in the literal of a case of a switch on a value of a type. -/
def wordMistakes (type : TypeHandle) (literal : Literal) : List Diagnostic :=
  setting.mismatch type literal.type literal.span ++ setting.literalMistakes literal

/-- The word of a case, if nothing is wrong about its literal. -/
def soundWord? (type : TypeHandle) (literal : Literal) : Option Word :=
  if (setting.wordMistakes type literal).isEmpty then literal.value.value.toOption else none

/-- The error about a case with a word that one of the cases before has. -/
def repetition (type : TypeHandle) (before : List Word) (span : Span) (literal : Literal) :
    List Diagnostic :=
  (setting.soundWord? type literal).toList.flatMap fun word =>
    mistakeUnless (!before.contains word) span (.repeatedCase literal.format)

/-- The word of a case, if it has a value and nothing is wrong about the literal. -/
def caseWord? (type : TypeHandle) (value? : Option Literal) : Option Word :=
  value?.bind (setting.soundWord? type)

/-- The errors in the value of a case, if it has one, given the words of the cases before. -/
def caseMistakes (type : TypeHandle) (before : List Word) (span : Span) (value? : Option Literal) :
    List Diagnostic :=
  value?.toList.flatMap fun literal =>
    setting.wordMistakes type literal ++ setting.repetition type before span literal

/-! ### Checks -/

open Walk

variable {setting : Setting} {environment : Environment} {place : Place} {errors : Nat}

theorem reports_checkName (name : Handle) (span : Span) :
    (setting.checkName place name span).Reports environment errors (setting.nameMistakes name span)
      () := by
  refine .lift_bind fun label shown => ?_
  rw [nameMistakes, shown]
  exact .seq (.expect rfl _ (.pure _)) (.seq (.expect rfl _ (.pure _)) (.expect rfl _ (.pure _)))

theorem reports_checkVariable (declared : Variable) :
    (setting.checkVariable place declared).Reports environment errors
      (setting.variableMistakes declared) () :=
  .seq (reports_checkName _ _) (reports_checkType _ _)

theorem reports_mapM_shownLabel (names : List Handle) :
    (names.mapM fun name => liftM (setting.names.shownLabel name) : Walk (List String)).Reports
      environment errors [] (names.map fun name => labelText (setting.names.shownLabel name)) := by
  induction names with
  | nil => exact .pure _
  | cons name rest ih =>
    rw [List.mapM_cons]
    refine .lift_bind fun label shown => .nil_bind ih ?_
    rw [List.map_cons, shown]
    exact .pure _

theorem reports_shownLabels (names : List Handle) :
    (setting.shownLabels names).Reports environment errors [] (setting.labelsText names) :=
  .nil_bind (reports_mapM_shownLabel names) (.pure _)

theorem reports_checkDeclaredTypes (locals : List Variable) (types : List TypeHandle) :
    (setting.checkDeclaredTypes place locals types).Reports environment errors
      (setting.initialMistakes locals types) () := by
  induction locals generalizing types errors with
  | nil => exact .pure ()
  | cons declared rest ih =>
    rw [initialMistakes, List.flatMap_zipIdx_cons]
    simp only [← List.getElem?_tail, ← List.head?_eq_getElem?]
    exact .seq (.expect rfl _ (.labels _ _ .declaredType)) (ih types.tail)

theorem reports_checkInitialValue (span : Span) (locals : List Variable) (value : Expression) :
    (setting.checkInitialValue place span locals value).Reports environment errors
      (setting.initializerMistakes environment span locals value) () := by
  refine .bind (reports_checkExpression value errors) (.seq (.expect rfl _ ?_) ?_)
  · exact .nil_bind (reports_shownLabels _) (.pure _)
  · exact reports_checkDeclaredTypes _ _

theorem reports_prepareDeclaration (span : Span) (locals : List Variable)
    (value? : Option Expression) :
    (setting.prepareDeclaration place span locals value?).Reports environment errors
      (setting.declarationMistakes environment span locals value?) () := by
  have consults : (locals.forM fun declared =>
      discard (consult place declared.toIdentifier .declare)).Reports environment errors [] () := by
    have silent : locals.flatMap (fun _ => ([] : List Diagnostic)) = [] :=
      List.flatMap_eq_nil_iff.mpr fun _ _ => rfl
    exact silent ▸ .forM fun _ _ _ => .nil_bind (reports_consult _ _) (.pure _)
  refine .nil_bind consults (.seq (.forM fun declared _ _ => reports_checkVariable declared) ?_)
  cases value? with
  | none => exact .pure ()
  | some value =>
    rw [Option.toList_some, List.flatMap_singleton]
    exact reports_checkInitialValue span locals value

theorem reports_checkDeclaration (span : Span) (locals : List Variable)
    (value? : Option Expression) :
    (setting.checkDeclaration place span locals value?).Reports environment errors
      (setting.declarationMistakes environment span locals value?) () := by
  have activates : ∀ errors,
      (locals.forM (activateVariable place)).Reports environment errors [] () := by
    have silent : locals.flatMap (fun _ => ([] : List Diagnostic)) = [] :=
      List.flatMap_eq_nil_iff.mpr fun _ _ => rfl
    exact fun errors => silent ▸ .forM fun _ _ _ => .ask_bind rfl (.require _ _)
  rw [checkDeclaration_eq]
  exact .seq_nil (reports_prepareDeclaration span locals value?) (activates _)

theorem reports_checkHeader (id : NodeId) (span : Span) (name : Handle)
    (parameters returns : List Variable) :
    (setting.checkHeader place id span name parameters returns).Reports environment errors
      (setting.headerMistakes span name parameters returns) () := by
  refine .require_bind fun _ => .seq (reports_checkName _ _) (.ask_bind rfl ?_)
  refine .require_bind fun _ => .forM fun declared _ _ => ?_
  exact .seq_nil (reports_checkVariable declared) (.ask_bind rfl (.pure _))

theorem reports_checkRepeatedTargets (span : Span) (before : List Handle)
    (targets : List Identifier) :
    (setting.checkRepeatedTargets place span before targets).Reports environment errors
      (setting.repeatedMistakes span before targets) () := by
  induction targets generalizing before errors with
  | nil => exact .pure ()
  | cons target rest ih =>
    have others : (rest.zipIdx.flatMap fun (other, position) =>
        mistakeUnless (!(before ++ ((target :: rest).take (position + 1)).map (·.name)).contains
          other.name) span (.repeatedTarget (labelText (setting.names.shownLabel other.name)))) =
        setting.repeatedMistakes span (target.name :: before) rest := by
      refine List.flatMap_congr fun ⟨other, position⟩ _ => ?_
      simp [Bool.or_left_comm]
    rw [repeatedMistakes, List.flatMap_zipIdx_cons, others]
    simp only [List.take_zero, List.map_nil, List.append_nil]
    exact .seq (.expect rfl _ (.label _ .repeatedTarget)) (ih _)

/-- A target takes values of a type, or it is what is wrong about the assignment. -/
theorem reports_targetType (target : Identifier) (given : TypeHandle) :
    (setting.targetType place target).Reports environment errors
      (if (variableType? environment target.name).isSome then []
        else setting.targetMistakes environment target given)
      (variableType? environment target.name) := by
  refine .ask_bind rfl (.ask_bind rfl ?_)
  rw [Request.reply, variableType?, targetMistakes]
  rcases environment.lookup? target.name with _ | ⟨type | ⟨parameters, returns⟩, _ | _⟩
  · refine .nil_bind (reports_consult _ _) (.nil_bind .isQuiet_now ?_)
    exact .seq_nil (.expect_false rfl _ (.pure _)) (.pure _)
  · refine .nil_bind (reports_consult _ _) (.seq_nil ?_ (.pure _))
    exact .expect_false rfl _ (.label _ .assignedBeforeDeclaration)
  · exact .nil_bind (reports_consult _ _) (.nil_bind (.pure ()) (.pure _))
  all_goals exact .nil_bind (reports_consult _ _) (.seq_nil (.report rfl _) (.pure _))

theorem targetMistakes_of_variableType? {target : Identifier} {type : TypeHandle}
    (isVariable : variableType? environment target.name = some type) (given : TypeHandle) :
    setting.targetMistakes environment target given = mistakeUnless (type = given) target.span
      (.assignedType (labelText (setting.names.label given))
        (labelText (setting.names.label type))) := by
  rw [variableType?] at isVariable
  split at isVariable
  · cases isVariable
    rename_i found
    rw [targetMistakes, found]
  · cases isVariable

theorem reports_checkTargetType (target : Identifier) (given : TypeHandle) :
    (setting.checkTargetType place target given).Reports environment errors
      (setting.targetMistakes environment target given) () := by
  refine .require_bind fun _ => .ask_bind rfl ?_
  have found := @reports_targetType setting environment place errors target given
  cases isVariable : variableType? environment target.name with
  | none =>
    rw [isVariable] at found
    exact .bind_nil found (.nil_bind (.isQuietSince _) (.require _ _))
  | some type =>
    rw [isVariable] at found
    rw [targetMistakes_of_variableType? isVariable]
    refine .nil_bind found (.seq_nil (.expect rfl _ (.labels _ _ .assignedType)) ?_)
    exact .nil_bind (.isQuietSince _) (.require _ _)

theorem reports_checkTargetTypes (targets : List Identifier) (types : List TypeHandle) :
    (setting.checkTargetTypes place targets types).Reports environment errors
      ((targets.zip types).flatMap fun (target, given) =>
        setting.targetMistakes environment target given) () := by
  induction targets generalizing types errors with
  | nil => exact .pure ()
  | cons target targets ih =>
    cases types with
    | nil => exact .pure ()
    | cons given types => exact .seq (reports_checkTargetType target given) (ih types)

theorem reports_checkAssignment (span : Span) (targets : List Identifier) (value : Expression) :
    (setting.checkAssignment place span targets value).Reports environment errors
      (setting.assignmentMistakes environment span targets value) () := by
  refine .require_bind fun _ => .seq (reports_checkRepeatedTargets span [] targets) ?_
  refine .bind (reports_checkExpression value _) (.seq (.expect rfl _ ?_) ?_)
  · exact .nil_bind (reports_shownLabels _) (.pure _)
  · exact reports_checkTargetTypes _ _

theorem reports_checkEffect (span : Span) (expression : Expression) :
    (setting.checkEffect place span expression).Reports environment errors
      (setting.effectMistakes environment span expression) () :=
  .ask_bind rfl (.bind (reports_checkExpression expression errors)
    (.nil_bind (.isQuietSince _) (.expect rfl _ (.pure _))))

theorem reports_checkSingle (expression : Expression) :
    (setting.checkSingle place expression).Reports environment errors
      (setting.singleMistakes environment expression)
      (setting.singleTypeOf environment expression) :=
  .bind (reports_checkExpression expression errors) (reports_singleType expression _)

theorem reports_checkCondition (condition : Expression) :
    (setting.checkCondition place condition).Reports environment errors
      (setting.conditionMistakes environment condition) () :=
  .bind (reports_checkSingle condition) (.expect rfl _ (.labels _ _ .conditionType))

theorem reports_checkCaseValue (type : TypeHandle) (before : List Word) (span : Span)
    (literal : Literal) :
    (setting.checkCaseValue place type before span literal).Reports environment errors
      (setting.caseMistakes type before span (some literal))
      ((setting.caseWord? type (some literal)).toList ++ before) := by
  refine .ask_bind rfl ?_
  let mismatched := setting.mismatch type literal.type literal.span
  have rest : Walk.Reports (do
      if ← Walk.isQuietSince errors then
        let value ← literal.value.value
        expect place (!before.contains value) span (Pure.pure (.repeatedCase literal.format))
        return value :: before
      else return before) environment
      (errors + mismatched.length + (setting.literalMistakes literal).length)
      (setting.repetition type before span literal)
      ((setting.soundWord? type literal).toList ++ before) := by
    rw [Nat.add_assoc, ← List.length_append]
    refine .nil_bind (.isQuietSince _) ?_
    rw [repetition, soundWord?, wordMistakes]
    cases (mismatched ++ setting.literalMistakes literal).isEmpty with
    | false => exact .pure before
    | true =>
      refine .lift_bind fun word isWord => ?_
      rw [isWord]
      show Walk.Reports _ _ _ ([word].flatMap _) _
      rw [List.flatMap_singleton]
      exact .seq_nil (.expect rfl _ (.pure _)) (.pure _)
  rw [caseMistakes, Option.toList_some, List.flatMap_singleton, wordMistakes, List.append_assoc]
  exact .seq (reports_checkSameType _ _ _) (.bind (reports_checkLiteral literal) rest)

/-- The value of a case is checked if there is one. -/
theorem reports_caseValue (type : TypeHandle) (before : List Word) (span : Span)
    (value? : Option Literal) :
    (match value? with
      | some literal => setting.checkCaseValue place type before span literal
      | none => Pure.pure before : Walk (List Word)).Reports environment errors
      (setting.caseMistakes type before span value?)
      ((setting.caseWord? type value?).toList ++ before) := by
  cases value? with
  | none => exact .pure before
  | some literal => exact reports_checkCaseValue type before span literal

end Setting

end YulCheck
