import YulCheck.Proofs.Judgement.Calls
import YulCheck.Proofs.Mistake.Reports
import YulCheck.Proofs.Told.Callees

/-! # The mistakes in an expression

Which errors an expression has, one after another, and which types its values are taken to have, read
off the expression and the environment around it. This is what checking it reports and comes to,
whatever was reported before.
-/

namespace YulCheck

/-- What is found out about an expression. -/
structure Assessment where
  /-- The errors in the expression, in the order in which they are reported. -/
  mistakes : List Diagnostic
  /-- The types that its values are taken to have. -/
  types : List TypeHandle

/-- Whether bytecode is empty. -/
def LiteralValue.isBlank : LiteralValue → Bool
  | .unlimited content => content.isEmpty
  | .word value _ => value.isZero

namespace Setting

variable (setting : Setting) (environment : Environment)

/-! ### Types, literals and identifiers -/

/-- The error about a type that the dialect does not have. -/
def typeMistakes (type : TypeHandle) (span : Span) : List Diagnostic :=
  mistakeUnless (setting.names.isType type) span
    (.unknownType (labelText (setting.names.shownLabel type)))

/-- The error about a value of another type than the one that is needed. -/
def mismatch (expected given : TypeHandle) (span : Span) : List Diagnostic :=
  mistakeUnless (expected = given) span
    (.unexpectedType (labelText (setting.names.label expected)) (labelText (setting.names.label given)))

/-- The error about a literal beyond the limits of its kind. -/
def valueMistakes (literal : Literal) : List Diagnostic :=
  match literal.kind with
  | .string =>
    mistakeUnless (literal.value.isUnlimited || literal.value.fitsWord) literal.span
      (.stringTooLong literal.format.utf8ByteSize)
  | .number => mistakeUnless literal.value.isNumeral literal.span .numberTooLarge
  | .boolean => []

/-- The errors in a literal. -/
def literalMistakes (literal : Literal) : List Diagnostic :=
  setting.typeMistakes literal.type literal.span ++ (valueMistakes literal ++
    mistakeUnless (setting.names.admitsLiteral literal.kind literal.type) literal.span
      (.literalType (labelText (setting.names.label literal.type)) literal.format))

/-- The error about the use of a name as a value. -/
def readMistakes (identifier : Identifier) : List Diagnostic :=
  let label := labelText (setting.names.shownLabel identifier.name)
  match environment.lookup? identifier.name with
  | some { binding := .variable _, isActive } =>
    mistakeUnless isActive identifier.span (.readBeforeDeclaration label)
  | some { binding := .function .., .. } => [(Finding.functionAsValue label).toDiagnostic identifier.span]
  | none => [(Finding.identifierNotFound label).toDiagnostic identifier.span]

/-- The type that a name is taken to have as a value. -/
def readType (name : Handle) : TypeHandle :=
  match environment.lookup? name with
  | some { binding := .variable type, .. } => type
  | _ => setting.defaultType

/-! ### Calls -/

/-- The error about a called name: it is a variable, or it refers to no function that can be called. -/
def calledMistakes (callee : Identifier) : List Diagnostic :=
  match setting.names.builtin? callee.name, environment.lookup? callee.name with
  | .ok none, some { binding := .variable _, .. } => [Finding.variableCalled.toDiagnostic callee.span]
  | _, _ => setting.calleeErrors environment callee

/-- The error about the number of the arguments of a call. -/
def countMistakes (callee : Identifier) (given : Nat) : List Diagnostic :=
  match setting.signature? environment callee.name with
  | some (parameters, _) =>
    mistakeUnless (given = parameters.length) callee.span
      (.argumentCount (labelText (setting.names.shownLabel callee.name)) parameters.length given)
  | none => []

/-- The error about a literal that a function takes as it is. -/
def contentMistakes (function : Handle) (literal : Literal) : List Diagnostic :=
  let predefined := setting.names.predefined
  if function = predefined.datasize || function = predefined.dataoffset then
    mistakeUnless (setting.dataNames.contains literal.format) literal.span
      (.unknownObject literal.format)
  else
    match setting.names.isVerbatim function with
    | .ok true => mistakeUnless (!literal.value.isBlank) literal.span .emptyBytecode
    | _ => []

/-- The error about an argument that is no literal of the kind that is needed. -/
def kindMistakes (callee : Identifier) : Option LiteralKind → Expression → List Diagnostic
  | some required, .literal literal =>
    mistakeUnless (literal.kind = required) literal.span (.literalKind required)
  | some _, _ => [Finding.literalExpected.toDiagnostic callee.span]
  | none, _ => []

/-- The errors about an argument, given what is found out about it. A literal that the function takes as
it is counts by its content alone. -/
def argumentMistakes (callee : Identifier) (required? : Option LiteralKind) (argument : Expression)
    (assessed : Assessment) : List Diagnostic :=
  match contentArgument? required? argument with
  | some literal => setting.contentMistakes callee.name literal
  | none =>
    kindMistakes callee required? argument ++ (assessed.mistakes ++
      mistakeUnless (assessed.types.length = 1) argument.span (.valueCount assessed.types.length))

/-- The type of an argument: the first one of its types, or else the default type. -/
def argumentType (assessed : Assessment) : TypeHandle := assessed.types.head?.getD setting.defaultType

/-- The errors about the arguments of a call, from the last one to the first. -/
def argumentsMistakes (callee : Identifier) (required : List (Option LiteralKind))
    (arguments : List (Expression × Assessment)) : List Diagnostic :=
  arguments.zipIdx.reverse.flatMap fun ((argument, assessed), position) =>
    setting.argumentMistakes callee required[position]?.join argument assessed

/-- The errors about arguments of other types than their parameters, from left to right. -/
def parameterMistakes (parameters : List TypeHandle) (arguments : List (Expression × Assessment)) :
    List Diagnostic :=
  (parameters.zip arguments).flatMap fun (parameter, argument, assessed) =>
    setting.mismatch parameter (setting.argumentType assessed) argument.span

/-- The errors in a call, given what is found out about its arguments. -/
def callMistakes (callee : Identifier) (arguments : List (Expression × Assessment)) :
    List Diagnostic :=
  let parameters := ((setting.signature? environment callee.name).map (·.1)).getD []
  setting.calledMistakes environment callee ++
    (setting.countMistakes environment callee arguments.length ++
      (setting.argumentsMistakes callee (setting.literalsOf callee.name) arguments ++
        setting.parameterMistakes parameters arguments))

/-- The types that the values of a call are taken to have: the returned ones, or after a mistake as many
times the default type. -/
def resultTypes (callee : Identifier) (mistakes : List Diagnostic) : List TypeHandle :=
  let returns := ((setting.signature? environment callee.name).map (·.2)).getD []
  if mistakes.isEmpty then returns else returns.map fun _ => setting.defaultType

mutual

/-- What is found out about an expression. -/
def assess : Expression → Assessment
  | .literal literal => ⟨setting.literalMistakes literal, [literal.type]⟩
  | .identifier identifier =>
    ⟨setting.readMistakes environment identifier, [setting.readType environment identifier.name]⟩
  | .call _ _ callee arguments =>
    let mistakes := setting.callMistakes environment callee (assessAll arguments)
    ⟨mistakes, setting.resultTypes environment callee mistakes⟩

/-- What is found out about expressions. -/
def assessAll : List Expression → List (Expression × Assessment)
  | [] => []
  | expression :: rest => (expression, assess expression) :: assessAll rest

end

theorem assessAll_eq_map (expressions : List Expression) :
    setting.assessAll environment expressions =
      expressions.map fun expression => (expression, setting.assess environment expression) := by
  induction expressions with
  | nil => rfl
  | cons expression rest ih => rw [assessAll, ih, List.map_cons]

theorem map_fst_assessAll (expressions : List Expression) :
    (setting.assessAll environment expressions).map (·.1) = expressions := by
  rw [assessAll_eq_map, List.map_map]
  exact List.map_id _

/-- The arguments behind the first one come before it. -/
theorem argumentsMistakes_cons (callee : Identifier) (required : List (Option LiteralKind))
    (argument : Expression) (assessed : Assessment) (rest : List (Expression × Assessment)) :
    setting.argumentsMistakes callee required ((argument, assessed) :: rest) =
      setting.argumentsMistakes callee required.tail rest ++
        setting.argumentMistakes callee required.head?.join argument assessed := by
  rw [argumentsMistakes, List.zipIdx_cons, List.reverse_cons, List.flatMap_append,
    List.flatMap_singleton, List.zipIdx_succ, ← List.map_reverse, List.flatMap_map,
    List.head?_eq_getElem?]
  simp only [argumentsMistakes, List.getElem?_tail]

/-! ### Checks of types, literals and identifiers -/

open Walk

variable {setting : Setting} {environment : Environment} {place : Place} {errors : Nat}

theorem reports_checkType (type : TypeHandle) (span : Span) :
    (setting.checkType place type span).Reports environment errors
      (setting.typeMistakes type span) () :=
  .expect rfl span (.label _ .unknownType)

theorem reports_checkSameType (expected given : TypeHandle) (span : Span) :
    (setting.checkSameType place expected given span).Reports environment errors
      (setting.mismatch expected given span) () :=
  .expect rfl span (.labels _ _ .unexpectedType)

theorem isEmpty_mistakeUnless (condition : Bool) (span : Span) (finding : Finding) :
    (mistakeUnless condition span finding).isEmpty = condition := by
  cases condition <;> rfl

theorem reports_checkValue (literal : Literal) :
    (checkValue place literal).Reports environment errors (valueMistakes literal)
      (valueMistakes literal).isEmpty := by
  rw [checkValue, valueMistakes]
  cases literal.kind with
  | string | number =>
    rw [isEmpty_mistakeUnless]
    exact .bind_nil (.expect rfl _ (.pure _)) (.pure _)
  | boolean => exact .lift_bind fun _ _ => .require_bind fun _ => .require_bind fun _ => .pure _

theorem reports_checkLiteral (literal : Literal) :
    (setting.checkLiteral place literal).Reports environment errors (setting.literalMistakes literal)
      [literal.type] := by
  refine .seq (reports_checkType _ _) (.bind (reports_checkValue literal) (.seq_nil ?_ ?_))
  · exact .expect rfl _ (.label _ fun label => .literalType label literal.format)
  · exact .require_bind fun _ => .pure _

theorem reports_consult (identifier : Identifier) (use : IdentifierUse) :
    (consult place identifier use).Reports environment errors [] false := .ask _

theorem reports_checkIdentifier (identifier : Identifier) :
    (setting.checkIdentifier place identifier).Reports environment errors
      (setting.readMistakes environment identifier)
      [setting.readType environment identifier.name] := by
  refine .require_bind fun _ => .ask_bind rfl (.ask_bind rfl ?_)
  rw [Request.reply, readMistakes, readType]
  rcases environment.lookup? identifier.name with _ | ⟨type | ⟨parameters, returns⟩, isActive⟩
  · refine .nil_bind (reports_consult _ _) (.nil_bind .isQuiet_now (.seq_nil ?_ (.pure _)))
    exact .expect_false rfl _ (.label _ .identifierNotFound)
  · refine .seq_nil (.expect rfl _ (.label _ .readBeforeDeclaration)) ?_
    exact .nil_bind (reports_consult _ _) (.pure _)
  · refine .lift_bind fun label shown => ?_
    rw [shown]
    exact .bind_nil (.report rfl _) (.nil_bind (reports_consult _ _) (.pure _))

/-! ### Checks of calls -/

theorem reports_warnOfUse (callee : Identifier) :
    (setting.warnOfUse place callee).Reports environment errors [] () := by
  rw [warnOfUse]
  split
  · exact .report_warning rfl _
  · split
    · exact .ask _
    · exact .pure ()

theorem reports_checkTarget (callee : Identifier) :
    (setting.checkTarget place callee).Reports environment errors
      ((setting.refusal? callee.name).map (·.toDiagnostic callee.span)).toList
      (setting.refusal? callee.name).isSome := fun _ _ => ends_checkTarget

theorem reports_resolveCallee (callee : Identifier) :
    (setting.resolveCallee place errors callee).Reports environment errors
      (setting.calledMistakes environment callee)
      (setting.calleeOf environment callee.name) := by
  refine .lift_bind fun builtin? found => ?_
  rw [calledMistakes, calleeErrors, calleeFinding?, calleeOf, signature?, literalsOf, found]
  cases builtin? with
  | some builtin =>
    refine .nil_bind (reports_warnOfUse callee) (.bind_nil (reports_checkTarget callee) ?_)
    exact .ask_bind rfl (.pure _)
  | none =>
    refine .ask_bind rfl ?_
    rw [Request.reply]
    rcases environment.lookup? callee.name with _ | ⟨type | ⟨parameters, returns⟩, isActive⟩
    · have target : (setting.checkTarget place callee).Reports environment errors _ _ :=
        reports_checkTarget callee
      dsimp only [Option.isSome_none]
      cases refused : setting.refusal? callee.name with
      | some refusal =>
        rw [refused] at target
        exact .bind_nil target (.pure _)
      | none =>
        rw [refused] at target
        refine .nil_bind target (.nil_bind (reports_consult _ _) (.nil_bind .isQuiet_now ?_))
        cases shown : setting.names.shownLabel callee.name with
        | error fault => exact fun _ _ ends => ends.elim
        | ok label =>
          refine .seq_nil (.expect_false rfl _ (.label (.ok label) .functionNotFound)) ?_
          exact .nil_bind (.isQuietSince [_]) (.require_bind fun _ => .pure _)
    · exact .bind_nil (.report rfl _) (.nil_bind (reports_consult _ _) (.pure _))
    · exact .nil_bind (reports_consult _ _) (.pure _)

theorem reports_checkArgumentCount (callee : Identifier) (given : Nat) :
    (setting.checkArgumentCount place (setting.calleeOf environment callee.name) callee
      given).Reports environment errors (setting.countMistakes environment callee given) () := by
  rw [checkArgumentCount, countMistakes, calleeOf]
  rcases setting.signature? environment callee.name with _ | ⟨parameters, returns⟩
  · exact .pure ()
  · exact .expect rfl _ (.label _ fun label => .argumentCount label parameters.length given)

theorem reports_checkContent (function : Handle) (literal : Literal) :
    (setting.checkContent place function literal).Reports environment errors
      (setting.contentMistakes function literal) () := by
  rw [checkContent, contentMistakes]
  dsimp only
  split
  · exact .expect rfl _ (.pure _)
  · refine .lift_bind fun isVerbatim verbatim => ?_
    rw [verbatim]
    cases isVerbatim with
    | false => exact .pure ()
    | true => cases literal.value <;> exact .nil_bind (.pure _) (.expect rfl _ (.pure _))

theorem reports_checkStringArgument (function : Handle) (literal : Literal) :
    (setting.checkStringArgument place function literal).Reports environment errors
      (setting.contentMistakes function literal) literal.type :=
  .seq_nil (reports_checkContent function literal)
    (.require_bind fun _ => .require_bind fun _ => .ask_bind rfl (.pure _))

theorem reports_checkArgumentKind (callee : Identifier) (required? : Option LiteralKind)
    (argument : Expression) :
    (checkArgumentKind place callee required? argument).Reports environment errors
      (kindMistakes callee required? argument) () := by
  cases required? with
  | none => exact .pure ()
  | some required =>
    cases argument with
    | literal constant => exact .expect rfl _ (.pure _)
    | identifier | call => exact .report rfl _

theorem reports_singleType (expression : Expression) (assessed : Assessment) :
    (setting.singleType place expression assessed.types).Reports environment errors
      (mistakeUnless (assessed.types.length = 1) expression.span (.valueCount assessed.types.length))
      (setting.argumentType assessed) :=
  .seq_nil (.expect rfl _ (.pure _)) (.pure _)

theorem reports_checkArgumentTypes (parameters : List TypeHandle)
    (arguments : List (Expression × Assessment)) :
    (setting.checkArgumentTypes place parameters (arguments.map (setting.argumentType ·.2))
      (arguments.map (·.1))).Reports environment errors
        (setting.parameterMistakes parameters arguments) () := by
  induction parameters generalizing arguments errors with
  | nil => exact .pure ()
  | cons parameter parameters ih =>
    cases arguments with
    | nil => exact .pure ()
    | cons first rest =>
      rw [parameterMistakes, List.zip_cons_cons, List.flatMap_cons]
      exact .seq (reports_checkSameType _ _ _) (ih rest)

theorem reports_callTypes (callee : Identifier) (mistakes : List Diagnostic) (given : Nat) :
    (setting.callTypes errors (setting.calleeOf environment callee.name) given).Reports environment
      (errors + mistakes.length) [] (setting.resultTypes environment callee mistakes) := by
  refine .nil_bind (.isQuietSince mistakes) ?_
  rw [calleeOf, resultTypes]
  cases mistakes with
  | nil => exact .require_bind fun _ => .pure _
  | cons first rest =>
    rcases setting.signature? environment callee.name with _ | ⟨parameters, returns⟩ <;>
      exact .pure _

/-- Behind its arguments a call is checked against the types of the parameters. -/
theorem reports_finishCall (id : NodeId) (callee : Identifier) (before : List Diagnostic)
    (arguments : List (Expression × Assessment)) (given : Nat) :
    let mistakes := setting.parameterMistakes
      (((setting.signature? environment callee.name).map (·.1)).getD []) arguments
    Walk.Reports (do
        if let some (parameters, _) := (setting.calleeOf environment callee.name).signature? then
          setting.checkArgumentTypes place parameters (arguments.map (setting.argumentType ·.2))
            (arguments.map (·.1))
        let types ← setting.callTypes errors (setting.calleeOf environment callee.name) given
        Walk.ask (.noteTypes id types)
        return types) environment (errors + before.length) mistakes
      (setting.resultTypes environment callee (before ++ mistakes)) := by
  intro mistakes
  have ending : Walk.Reports (do
      let types ← setting.callTypes errors (setting.calleeOf environment callee.name) given
      Walk.ask (.noteTypes id types)
      return types) environment (errors + before.length + mistakes.length) []
      (setting.resultTypes environment callee (before ++ mistakes)) := by
    rw [Nat.add_assoc, ← List.length_append]
    exact .nil_bind (reports_callTypes callee _ given) (.ask_bind rfl (.pure _))
  have same : (setting.calleeOf environment callee.name).signature? =
    setting.signature? environment callee.name := rfl
  dsimp only
  rw [same]
  subst mistakes
  cases known : setting.signature? environment callee.name with
  | none =>
    rw [known] at ending
    exact ending
  | some signature =>
    rw [known] at ending
    exact .seq_nil (reports_checkArgumentTypes signature.1 arguments) ending

/-! ### Checks of expressions -/

mutual

/-- Checking an expression reports its mistakes and comes to its types. -/
theorem reports_checkExpression (expression : Expression) (errors : Nat) :
    (setting.checkExpression place expression).Reports environment errors
      (setting.assess environment expression).mistakes
      (setting.assess environment expression).types := by
  cases expression with
  | literal constant =>
    rw [checkExpression, assess]
    exact .bind_nil (reports_checkLiteral constant) (.ask_bind rfl (.pure _))
  | identifier use =>
    rw [checkExpression, assess]
    exact .bind_nil (reports_checkIdentifier use) (.ask_bind rfl (.pure _))
  | call id span callee arguments =>
    have sameLength : (setting.assessAll environment arguments).length = arguments.length := by
      rw [assessAll_eq_map, List.length_map]
    let assessed := setting.assessAll environment arguments
    let before := setting.calledMistakes environment callee ++
      (setting.countMistakes environment callee arguments.length ++
        setting.argumentsMistakes callee (setting.literalsOf callee.name) assessed)
    have ending := @reports_finishCall setting environment place errors id callee before assessed
      (assessed.map (setting.argumentType ·.2)).length
    rw [map_fst_assessAll] at ending
    simp only [before, assessed, List.length_append, ← Nat.add_assoc, List.append_assoc] at ending
    rw [checkExpression, assess, callMistakes, sameLength]
    refine .require_bind fun _ => .ask_bind rfl ?_
    refine .bind (reports_resolveCallee callee) (.seq (reports_checkArgumentCount callee _) ?_)
    exact .bind (reports_checkArguments callee (setting.literalsOf callee.name) arguments _) ending

/-- Checking the arguments of a call reports their mistakes and comes to the type of each. -/
theorem reports_checkArguments (callee : Identifier) (required : List (Option LiteralKind))
    (arguments : List Expression) (errors : Nat) :
    (setting.checkArguments place callee required arguments).Reports environment errors
      (setting.argumentsMistakes callee required (setting.assessAll environment arguments))
      ((setting.assessAll environment arguments).map (setting.argumentType ·.2)) := by
  cases arguments with
  | nil =>
    rw [checkArguments]
    exact .pure _
  | cons argument rest =>
    rw [checkArguments, assessAll, argumentsMistakes_cons, argumentMistakes]
    refine .bind (reports_checkArguments callee required.tail rest _) ?_
    dsimp only
    cases content : contentArgument? required.head?.join argument with
    | some literal =>
      obtain ⟨rfl, _⟩ := contentArgument?_eq_some content
      rw [assess]
      exact .bind_nil (reports_checkStringArgument callee.name literal) (.pure _)
    | none =>
      refine .seq (reports_checkArgumentKind callee _ argument) ?_
      exact .bind (reports_checkExpression argument _)
        (.bind_nil (reports_singleType argument _) (.pure _))

end

end Setting

end YulCheck
