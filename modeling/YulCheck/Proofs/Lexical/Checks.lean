import YulCheck.Check.Statement
import YulCheck.Proofs.Lexical.Run

/-! # Checks that ask for no name

Types, literals, the numbers of arguments and of values, and the order of targets are checked without
asking what a name is bound to: names occur in messages only. Such a check counts errors, reports
findings and notes types, and the only warning that it does not repeat is the one about transient
storage. Whatever allows these requests allows all of the checks. Where a name has to be resolved, the
check looks it up and asks the host about it besides.
-/

namespace YulCheck

/-- Whether a problem is about which function a call refers to. -/
def Finding.concernsCallee : Finding → Bool
  | .unavailable .. | .programCounter | .functionNotFound _ => true
  | _ => false

/-- Whether a problem is about where a keyword is. -/
def Finding.concernsKeyword : Finding → Bool
  | .outsideLoop _ | .outsideFunction => true
  | _ => false

/-- Whether a problem is neither about a called function nor about a keyword. -/
def Finding.isOrdinary (finding : Finding) : Bool :=
  !finding.concernsCallee && !finding.concernsKeyword

theorem Walk.only_lift_bind {α β : Type} {allowed : Request → Prop} {value : Except Fault α}
    {next : α → Walk β} (rest : ∀ result, value = .ok result → (next result).Only allowed) :
    ((liftM value : Walk α) >>= next).Only allowed := by
  cases value with
  | error fault => trivial
  | ok result => exact rest result rfl

theorem Walk.only_isQuietSince {allowed : Request → Prop} (counts : allowed .errorCount)
    (errors : Nat) : (Walk.isQuietSince errors).Only allowed :=
  only_bind (only_ask.mpr counts) fun _ => only_pure _

namespace Setting

open Walk

variable {setting : Setting} {place : Place} {allowed : Request → Prop}

theorem only_shownLabels (names : List Handle) : (setting.shownLabels names).Only allowed := by
  refine only_bind ?_ fun _ => only_pure _
  induction names with
  | nil => exact only_pure _
  | cons name rest ih =>
    rw [List.mapM_cons]
    exact only_bind (only_lift _) fun _ => only_bind ih fun _ => only_pure _

theorem only_callTypes (counts : allowed .errorCount) (errors : Nat) (callee : Callee)
    (given : Nat) : (setting.callTypes errors callee given).Only allowed := by
  refine only_bind (only_isQuietSince counts _) fun isQuiet => ?_
  split
  · exact only_bind (only_require _ _) fun _ => only_pure _
  · exact only_pure _

theorem only_activateVariables {locals : List Variable}
    (activates : ∀ declared ∈ locals, allowed (.activate (.block place.block) declared.name)) :
    (locals.forM (activateVariable place)).Only allowed :=
  only_forM fun declared isLocal =>
    only_bind (only_ask.mpr (activates declared isLocal)) fun _ => only_require _ _

theorem only_enterBlock {block : Block} (finds : allowed (.hasScope (.block block.id))) :
    (enterBlock place block).Only allowed :=
  only_bind (only_ask.mpr finds) fun _ => only_bind (only_require _ _) fun _ => only_pure _

/-- Whether the requests are allowed by which checks are made that ask for no name, apart from those
of called functions and of keywords. -/
structure AllowsOrdinaryChecks (place : Place) (allowed : Request → Prop) : Prop where
  reportOrdinary (finding : Finding) (span : Span) (ordinary : finding.isOrdinary = true) :
    allowed (.report place (finding.toDiagnostic span))
  warnOnce (span : Span) : allowed (.warnOnce (Finding.transientStorage.toDiagnostic span))
  errorCount : allowed .errorCount
  noteTypes (expression : NodeId) (types : List TypeHandle) : allowed (.noteTypes expression types)

/-- Whether the requests are allowed by which all checks are made that ask for no name. -/
structure AllowsChecks (place : Place) (allowed : Request → Prop) : Prop extends
    AllowsOrdinaryChecks place allowed where
  report (finding : Finding) (span : Span) : allowed (.report place (finding.toDiagnostic span))
  reportOrdinary := fun finding span _ => report finding span

namespace AllowsOrdinaryChecks

variable (allows : AllowsOrdinaryChecks place allowed)

include allows

theorem expect (condition : Bool) (span : Span) {finding : Walk Finding}
    (finds : finding.Only allowed) (ordinary : finding.Yields (·.isOrdinary = true)) :
    (Setting.expect place condition span finding).Only allowed := by
  unfold Setting.expect
  split
  · exact only_pure _
  · exact only_bind_of_yields ordinary finds fun found isOrdinary =>
      only_ask.mpr (allows.reportOrdinary found span isOrdinary)

/-! ### Names, types and literals -/

theorem checkName (name : Handle) (span : Span) : (setting.checkName place name span).Only allowed := by
  refine only_bind (only_lift _) fun label => ?_
  refine only_bind (allows.expect _ _ (only_pure _) rfl) fun _ => ?_
  refine only_bind (allows.expect _ _ (only_pure _) rfl) fun _ => ?_
  exact allows.expect _ _ (only_pure _) rfl

theorem checkType (type : TypeHandle) (span : Span) :
    (setting.checkType place type span).Only allowed :=
  allows.expect _ _ (only_bind (only_lift _) fun _ => only_pure _) (yields_bind fun _ => rfl)

theorem checkVariable (declared : Variable) : (setting.checkVariable place declared).Only allowed :=
  only_bind (allows.checkName _ _) fun _ => allows.checkType _ _

theorem checkSameType (expected given : TypeHandle) (span : Span) :
    (setting.checkSameType place expected given span).Only allowed :=
  allows.expect _ _ (only_bind (only_lift _) fun _ => only_bind (only_lift _) fun _ => only_pure _)
    (yields_bind fun _ => yields_bind fun _ => rfl)

theorem checkValue (literal : Literal) : (Setting.checkValue place literal).Only allowed := by
  unfold Setting.checkValue
  split
  · exact only_bind (allows.expect _ _ (only_pure _) rfl) fun _ => only_pure _
  · exact only_bind (allows.expect _ _ (only_pure _) rfl) fun _ => only_pure _
  · refine only_bind (only_lift _) fun _ => only_bind (only_require _ _) fun _ => ?_
    exact only_bind (only_require _ _) fun _ => only_pure _

theorem checkLiteral (literal : Literal) : (setting.checkLiteral place literal).Only allowed := by
  refine only_bind (allows.checkType _ _) fun _ => only_bind (allows.checkValue _) fun _ => ?_
  refine only_bind (allows.expect _ _ ?_ (yields_bind fun _ => rfl)) fun _ => ?_
  · exact only_bind (only_lift _) fun _ => only_pure _
  · exact only_bind (only_require _ _) fun _ => only_pure _

/-- Apart from such checks, an identifier is looked up, and the host is asked about it. -/
theorem checkIdentifier {identifier : Identifier}
    (looks : allowed (.lookup place.block identifier.name))
    (consults : ∀ use, allowed (.consult place identifier use)) :
    (setting.checkIdentifier place identifier).Only allowed := by
  refine only_bind (only_require _ _) fun _ => only_bind (only_ask.mpr allows.errorCount) fun _ =>
    only_bind (only_ask.mpr looks) fun found? => ?_
  have shown : (setting.names.shownLabel identifier.name : Walk String).Only allowed := only_lift _
  split
  · refine only_bind (allows.expect _ _ (only_bind shown fun _ => only_pure _)
      (yields_bind fun _ => rfl)) fun _ => ?_
    exact only_bind (only_ask.mpr (consults _)) fun _ => only_pure _
  · refine only_bind shown fun _ => only_bind (only_ask.mpr (allows.reportOrdinary _ _ rfl)) fun _ => ?_
    exact only_bind (only_ask.mpr (consults _)) fun _ => only_pure _
  · refine only_bind (only_ask.mpr (consults _)) fun _ =>
      only_bind (only_isQuietSince allows.errorCount _) fun _ => ?_
    exact only_bind (allows.expect _ _ (only_bind shown fun _ => only_pure _)
      (yields_bind fun _ => rfl)) fun _ => only_pure _

/-! ### Calls -/

theorem warnOfUse (callee : Identifier) : (setting.warnOfUse place callee).Only allowed := by
  unfold Setting.warnOfUse
  dsimp only
  split
  · exact only_ask.mpr (allows.reportOrdinary _ _ rfl)
  · split
    · exact only_ask.mpr (allows.warnOnce _)
    · exact only_pure _

theorem checkArgumentCount (callee : Callee) (name : Identifier) (given : Nat) :
    (setting.checkArgumentCount place callee name given).Only allowed := by
  unfold Setting.checkArgumentCount
  split
  · exact allows.expect _ _ (only_bind (only_lift _) fun _ => only_pure _) (yields_bind fun _ => rfl)
  · exact only_pure _

theorem checkContent (function : Handle) (literal : Literal) :
    (setting.checkContent place function literal).Only allowed := by
  unfold Setting.checkContent
  dsimp only
  split
  · exact allows.expect _ _ (only_pure _) rfl
  · refine only_bind (only_lift _) fun isVerbatim => ?_
    split
    · split <;>
        exact only_bind (only_pure _) fun _ => allows.expect _ _ (only_pure _) rfl
    · exact only_pure _

theorem checkStringArgument (function : Handle) (literal : Literal) :
    (setting.checkStringArgument place function literal).Only allowed := by
  refine only_bind (allows.checkContent _ _) fun _ => only_bind (only_require _ _) fun _ => ?_
  refine only_bind (only_require _ _) fun _ => ?_
  exact only_bind (only_ask.mpr (allows.noteTypes _ _)) fun _ => only_pure _

theorem checkArgumentKind (callee : Identifier) (required? : Option LiteralKind)
    (argument : Expression) :
    (Setting.checkArgumentKind place callee required? argument).Only allowed := by
  unfold Setting.checkArgumentKind
  split
  · exact allows.expect _ _ (only_pure _) rfl
  · exact only_ask.mpr (allows.reportOrdinary _ _ rfl)
  · exact only_pure _

theorem singleType (expression : Expression) (types : List TypeHandle) :
    (setting.singleType place expression types).Only allowed :=
  only_bind (allows.expect _ _ (only_pure _) rfl) fun _ => only_pure _

theorem checkArgumentTypes (parameters given : List TypeHandle) (arguments : List Expression) :
    (setting.checkArgumentTypes place parameters given arguments).Only allowed := by
  induction parameters generalizing given arguments with
  | nil => exact only_pure _
  | cons expected parameters ih =>
    cases given with
    | nil => exact only_pure _
    | cons type given =>
      cases arguments with
      | nil => exact only_pure _
      | cons argument arguments =>
        exact only_bind (allows.checkSameType _ _ _) fun _ => ih given arguments

/-- After the arguments of a call only types are left to check. -/
theorem finishCall (id : NodeId) (errors : Nat) (callee : Callee) (arguments : List Expression)
    (given : List TypeHandle) :
    Walk.Only allowed (do
      if let some (parameters, _) := callee.signature? then
        setting.checkArgumentTypes place parameters given arguments
      let types ← setting.callTypes errors callee given.length
      ask (.noteTypes id types)
      return types) := by
  have rest : ∀ _ : Unit, Walk.Only allowed (do
      let types ← setting.callTypes errors callee given.length
      ask (.noteTypes id types)
      return types) := fun _ =>
    only_bind (only_callTypes allows.errorCount _ _ _) fun _ =>
      only_bind (only_ask.mpr (allows.noteTypes _ _)) fun _ => only_pure _
  dsimp only
  split
  · exact only_bind (allows.checkArgumentTypes _ _ _) rest
  · exact rest ()

/-! ### Statements -/

theorem finishCondition (condition : Expression) (type : TypeHandle) :
    (Setting.expect place (type = setting.names.predefined.boolType) condition.span do
      return .conditionType (← setting.names.label setting.names.predefined.boolType)
        (← setting.names.label type)).Only allowed :=
  allows.expect _ _ (only_bind (only_lift _) fun _ => only_bind (only_lift _) fun _ => only_pure _)
    (yields_bind fun _ => yields_bind fun _ => rfl)

theorem finishEffect (span : Span) (errors : Nat) (types : List TypeHandle) :
    Walk.Only allowed (do
      Setting.expect place (!(← Walk.isQuietSince errors) || types.isEmpty) span
        (pure (.unusedValues types.length))) :=
  only_bind (only_isQuietSince allows.errorCount _) fun _ =>
    allows.expect _ _ (only_pure _) rfl

theorem checkDeclaredTypes (locals : List Variable) (types : List TypeHandle) :
    (setting.checkDeclaredTypes place locals types).Only allowed := by
  induction locals generalizing types with
  | nil => exact only_pure _
  | cons declared rest ih =>
    refine only_bind (allows.expect _ _ ?_ (yields_bind fun _ => yields_bind fun _ => rfl))
      fun _ => ih types.tail
    exact only_bind (only_lift _) fun _ => only_bind (only_lift _) fun _ => only_pure _

/-- Behind the value of a declaration only numbers and types are left to check. -/
theorem finishDeclaration (span : Span) (locals : List Variable) (types : List TypeHandle) :
    Walk.Only allowed (do
      Setting.expect place (types.length = locals.length) span do
        return .declarationCount (← setting.shownLabels (locals.map (·.name))) locals.length
          types.length
      setting.checkDeclaredTypes place locals types) := by
  refine only_bind (allows.expect _ _ ?_ (yields_bind fun _ => rfl)) fun _ =>
    allows.checkDeclaredTypes _ _
  exact only_bind (only_shownLabels _) fun _ => only_pure _

theorem checkRepeatedTargets (span : Span) (before : List Handle) (targets : List Identifier) :
    (setting.checkRepeatedTargets place span before targets).Only allowed := by
  induction targets generalizing before with
  | nil => exact only_pure _
  | cons target rest ih =>
    refine only_bind (allows.expect _ _ ?_ (yields_bind fun _ => rfl)) fun _ => ih _
    exact only_bind (only_lift _) fun _ => only_pure _

theorem assignmentCount (span : Span) (targets : List Identifier) (types : List TypeHandle) :
    (Setting.expect place (types.length = targets.length) span do
      return .assignmentCount (← setting.shownLabels (targets.map (·.name))) targets.length
        types.length).Only allowed :=
  allows.expect _ _ (only_bind (only_shownLabels _) fun _ => only_pure _) (yields_bind fun _ => rfl)

/-- Apart from such checks, a target is looked up, and the host is asked about it. -/
theorem targetType {target : Identifier} (looks : allowed (.lookup place.block target.name))
    (consults : ∀ use, allowed (.consult place target use)) :
    (setting.targetType place target).Only allowed := by
  refine only_bind (only_ask.mpr allows.errorCount) fun _ =>
    only_bind (only_ask.mpr looks) fun found? => ?_
  split
  · refine only_bind (only_ask.mpr (consults _)) fun _ => ?_
    exact only_bind (only_ask.mpr (allows.reportOrdinary _ _ rfl)) fun _ => only_pure _
  · refine only_bind (only_ask.mpr (consults _)) fun _ =>
      only_bind (allows.expect _ _ ?_ (yields_bind fun _ => rfl)) fun _ => ?_
    · exact only_bind (only_lift _) fun _ => only_pure _
    · exact only_pure _
  · refine only_bind (only_ask.mpr (consults _)) fun _ =>
      only_bind (only_isQuietSince allows.errorCount _) fun _ => ?_
    exact only_bind (allows.expect _ _ (only_pure _) rfl) fun _ => only_pure _

/-- Behind the resolution of a target only its type is left to check. -/
theorem finishTarget (target : Identifier) (given : TypeHandle) (errors : Nat)
    (type? : Option TypeHandle) :
    Walk.Only allowed (do
      if let some type := type? then
        Setting.expect place (type = given) target.span do
          return .assignedType (← setting.names.label given) (← setting.names.label type)
      Walk.require (!(← Walk.isQuietSince errors) || type?.isSome) .targetUntyped) := by
  have rest : ∀ _ : Unit, Walk.Only allowed (do
      Walk.require (!(← Walk.isQuietSince errors) || type?.isSome) .targetUntyped) := fun _ =>
    only_bind (only_isQuietSince allows.errorCount _) fun _ => only_require _ _
  dsimp only
  split
  · refine only_bind (allows.expect _ _ ?_ (yields_bind fun _ => yields_bind fun _ => rfl)) rest
    exact only_bind (only_lift _) fun _ => only_bind (only_lift _) fun _ => only_pure _
  · exact rest ()

/-- Apart from such checks, the targets for which there is a value are looked up, and the host is asked
about them. -/
theorem checkTargetTypes (looks : ∀ name, allowed (.lookup place.block name))
    (consults : ∀ target use, allowed (.consult place target use)) (targets : List Identifier)
    (types : List TypeHandle) : (setting.checkTargetTypes place targets types).Only allowed := by
  induction targets generalizing types with
  | nil => exact only_pure _
  | cons target targets ih =>
    cases types with
    | nil => exact only_pure _
    | cons type types =>
      refine only_bind ?_ fun _ => ih types
      refine only_bind (only_require _ _) fun _ => only_bind (only_ask.mpr allows.errorCount) fun _ => ?_
      exact only_bind (allows.targetType (looks _) (consults _)) fun _ => allows.finishTarget _ _ _ _

theorem checkCaseValue (type : TypeHandle) (before : List Word) (span : Span) (literal : Literal) :
    (setting.checkCaseValue place type before span literal).Only allowed := by
  refine only_bind (only_ask.mpr allows.errorCount) fun errors =>
    only_bind (allows.checkSameType _ _ _) fun _ => only_bind (allows.checkLiteral _) fun _ => ?_
  refine only_bind (only_isQuietSince allows.errorCount _) fun isQuiet => ?_
  split
  · refine only_bind (only_lift _) fun value => ?_
    exact only_bind (allows.expect _ _ (only_pure _) rfl) fun _ => only_pure _
  · exact only_pure _

/-- Apart from such checks, the header of a function asks for its scope, and for its variables there. -/
theorem checkHeader {id : NodeId} (hasScope : allowed (.hasScope (.function id))) (span : Span)
    (name : Handle) {parameters returns : List Variable}
    (activates : ∀ declared ∈ parameters ++ returns,
      allowed (.activate (.function id) declared.name)) :
    (setting.checkHeader place id span name parameters returns).Only allowed := by
  refine only_bind (only_require _ _) fun _ => only_bind (allows.checkName _ _) fun _ => ?_
  refine only_bind (only_ask.mpr hasScope) fun _ => only_bind (only_require _ _) fun _ => ?_
  refine only_forM fun declared isDeclared => only_bind (allows.checkVariable _) fun _ => ?_
  exact only_bind (only_ask.mpr (activates declared isDeclared)) fun _ => only_pure _

end AllowsOrdinaryChecks

/-! ### Called functions and keywords -/

namespace AllowsChecks

variable (allows : AllowsChecks place allowed)

include allows

theorem expect (condition : Bool) (span : Span) {finding : Walk Finding}
    (finds : finding.Only allowed) : (Setting.expect place condition span finding).Only allowed := by
  unfold Setting.expect
  split
  · exact only_pure _
  · exact only_bind finds fun found => only_ask.mpr (allows.report found span)

theorem checkInstruction (instruction : Instruction) (span : Span) :
    (setting.checkInstruction place instruction span).Only allowed := by
  unfold Setting.checkInstruction
  split
  · exact only_bind (only_ask.mpr (allows.report _ _)) fun _ => only_pure _
  · split
    · exact only_bind (only_ask.mpr (allows.report _ _)) fun _ => only_pure _
    · exact only_pure _

theorem checkTarget (callee : Identifier) : (setting.checkTarget place callee).Only allowed := by
  refine only_bind (only_lift _) fun isAlias => only_bind (only_lift _) fun isVerbatim => ?_
  split
  · exact only_pure _
  · refine only_bind (only_lift _) fun label => ?_
    split
    · exact allows.checkInstruction _ _
    · exact only_pure _

/-- Behind the answer of the host about a callee only errors are left to report. -/
theorem finishCallee (errors : Nat) (callee : Identifier) (isExternal : Bool) :
    Walk.Only allowed (do
      Setting.expect place (isExternal || !(← Walk.isQuietSince errors)) callee.span do
        return .functionNotFound (← setting.names.shownLabel callee.name)
      Walk.require (isExternal || !(← Walk.isQuietSince errors)) .rejectionUnreported
      return (⟨none, [], isExternal⟩ : Callee)) := by
  have counted := only_isQuietSince allows.errorCount errors
  refine only_bind counted fun _ => only_bind (allows.expect _ _ ?_) fun _ => ?_
  · exact only_bind (only_lift _) fun _ => only_pure _
  · exact only_bind counted fun _ => only_bind (only_require _ _) fun _ => only_pure _

/-- Apart from such checks, a callee is looked up, the host is asked about it, and the effects of a
function of the dialect are noted. -/
theorem resolveCallee {callee : Identifier}
    (notes : ∀ builtin, setting.names.builtin? callee.name = .ok (some builtin) →
      allowed (.noteEffects builtin.function.effects))
    (looks : allowed (.lookup place.block callee.name))
    (consults : ∀ use, allowed (.consult place callee use)) (errors : Nat) :
    (setting.resolveCallee place errors callee).Only allowed := by
  refine only_lift_bind fun builtin? answered => ?_
  split
  · refine only_bind (allows.warnOfUse _) fun _ => only_bind (allows.checkTarget _) fun _ => ?_
    exact only_bind (only_ask.mpr (notes _ answered)) fun _ => only_pure _
  · refine only_bind (only_ask.mpr looks) fun found? => ?_
    split
    · refine only_bind (only_ask.mpr (allows.report _ _)) fun _ => ?_
      exact only_bind (only_ask.mpr (consults _)) fun _ => only_pure _
    · exact only_bind (only_ask.mpr (consults _)) fun _ => only_pure _
    · refine only_bind (allows.checkTarget _) fun isRefused => ?_
      split
      · exact only_pure _
      · exact only_bind (only_ask.mpr (consults _)) fun isExternal =>
          allows.finishCallee errors callee isExternal

end AllowsChecks

theorem own_checks : AllowsChecks place (·.IsOwn) where
  report _ _ := trivial
  warnOnce _ := trivial
  errorCount := trivial
  noteTypes _ _ := trivial

end Setting

end YulCheck
