import YulCheck.Proofs.Judgement.Typing
import YulCheck.Proofs.Name.Answers
import YulCheck.Proofs.Told.Errors

/-! # What is told about called functions and keywords

The errors about which function a call refers to, and those about where a keyword is, have numbers of
their own. `LexicalWalk.Tells` tells which of them a walk reports, whatever else it reports. Those about
called functions are told for the calls of an expression one by one: a call before its arguments, and
arguments from right to left.
-/

namespace YulCheck

/-! ### Numbers -/

/-- The numbers of the problems about which function a call refers to. -/
def calleeCodes : List Nat := 4619 :: 2450 :: Gate.all.map (·.code)

/-- The numbers of the problems about where a keyword is. -/
def keywordCodes : List Nat := [2592, 8149]

/-- Whether a diagnostic is about which function a call refers to. -/
def Diagnostic.concernsCallee (diagnostic : Diagnostic) : Bool :=
  calleeCodes.contains diagnostic.code

/-- Whether a diagnostic is about where a keyword is. -/
def Diagnostic.concernsKeyword (diagnostic : Diagnostic) : Bool :=
  keywordCodes.contains diagnostic.code

/-- Whether a diagnostic is about a called function or a keyword. -/
def Diagnostic.isNotable (diagnostic : Diagnostic) : Bool :=
  diagnostic.concernsCallee || diagnostic.concernsKeyword

theorem Finding.isNotable_of_isOrdinary {finding : Finding} (ordinary : finding.isOrdinary = true)
    (span : Span) : (finding.toDiagnostic span).isNotable = false := by
  cases finding with
  | unavailable | programCounter | functionNotFound | outsideLoop | outsideFunction => cases ordinary
  | _ => rfl

/-! ### Called names -/

mutual

/-- The called names in an expression, in the order in which they are resolved: that of a call comes
before those in its arguments, and these from right to left. -/
def Expression.callees : Expression → List Identifier
  | .literal _ | .identifier _ => []
  | .call _ _ callee arguments => callee :: argumentCallees arguments

/-- The called names in the arguments of a call. -/
def argumentCallees : List Expression → List Identifier
  | [] => []
  | argument :: rest => argumentCallees rest ++ argument.callees

end

/-- The name that a node calls. -/
def Expression.ownCallee? : Expression → Option Identifier
  | .call _ _ callee _ => some callee
  | .literal _ | .identifier _ => none

mutual

/-- The called names are those of the nodes that are calls. -/
theorem Expression.perm_callees (expression : Expression) :
    (expression.nodes.filterMap (·.ownCallee?)).Perm expression.callees := by
  cases expression with
  | literal | identifier => exact .nil
  | call id span callee arguments =>
    rw [Expression.nodes, Expression.callees, List.filterMap_append]
    exact List.perm_append_comm.trans ((argumentCallees_perm arguments).cons callee)

theorem argumentCallees_perm (arguments : List Expression) :
    ((argumentNodes arguments).filterMap (·.ownCallee?)).Perm (argumentCallees arguments) := by
  cases arguments with
  | nil => exact .nil
  | cons argument rest =>
    rw [argumentNodes, argumentCallees, List.filterMap_append]
    exact (argumentCallees_perm rest).append argument.perm_callees

end

/-! ### Notable errors of a walk -/

variable {α β : Type} {environment : Environment} {errors : Nat} {place : Place}

/-- Whether a walk that starts with the given number of errors reports certain notable errors, one after
another, and ends with a result that has a property. -/
def LexicalWalk.TellsFrom (errors : Nat) (walk : LexicalWalk α) (told : List Diagnostic)
    (holds : α → Prop) : Prop :=
  ∀ reported result, walk.Ends errors reported result →
    reported.filter (·.isNotable) = told ∧ holds result

/-- Whether a walk reports certain notable errors, however many errors there are. -/
def LexicalWalk.Tells (walk : LexicalWalk α) (told : List Diagnostic) (holds : α → Prop) : Prop :=
  ∀ errors, walk.TellsFrom errors told holds

namespace LexicalWalk

variable {walk : LexicalWalk α} {next : α → LexicalWalk β} {told more : List Diagnostic}
  {holds : α → Prop} {holdsLast : β → Prop}

theorem TellsFrom.bind (first : walk.TellsFrom errors told holds)
    (rest : ∀ result, holds result → (next result).Tells more holdsLast) :
    (walk >>= next).TellsFrom errors (told ++ more) holdsLast := by
  intro reported last ends
  obtain ⟨_, behind, result, rfl, ended, following⟩ := ends_bind_iff.mp ends
  obtain ⟨isFirst, held⟩ := first _ _ ended
  obtain ⟨isRest, heldLast⟩ := rest result held _ _ _ following
  exact ⟨by rw [List.filter_append, isFirst, isRest], heldLast⟩

namespace Tells

theorem pure {result : α} (held : holds result) : (pure result : LexicalWalk α).Tells [] holds := by
  rintro _ _ _ ⟨rfl, rfl⟩
  exact ⟨rfl, held⟩

theorem bind (first : walk.Tells told holds)
    (rest : ∀ result, holds result → (next result).Tells more holdsLast) :
    (walk >>= next).Tells (told ++ more) holdsLast :=
  fun errors => (first errors).bind rest

theorem nil_bind (first : walk.Tells [] holds)
    (rest : ∀ result, holds result → (next result).Tells more holdsLast) :
    (walk >>= next).Tells more holdsLast := first.bind rest

end Tells

end LexicalWalk

/-- Whether no error that a request reports is notable. -/
def Request.IsQuiet (request : Request) : Prop :=
  ∀ diagnostic ∈ request.errors, diagnostic.isNotable = false

theorem quiet_report {finding : Finding} (ordinary : finding.isOrdinary = true) (span : Span) :
    (Request.report place (finding.toDiagnostic span)).IsQuiet := by
  rw [Request.IsQuiet, Request.errors]
  split
  · exact List.forall_mem_singleton.mpr (Finding.isNotable_of_isOrdinary ordinary span)
  · exact List.forall_mem_nil _

namespace Walk

/-- Whether a walk in an environment reports certain notable errors, however many errors there are. -/
abbrev Tells (walk : Walk α) (environment : Environment) (told : List Diagnostic)
    (holds : α → Prop) : Prop :=
  (walk.within environment).Tells told holds

/-- Whether a walk in an environment that starts with the given number of errors reports certain notable
errors. -/
abbrev TellsFrom (walk : Walk α) (environment : Environment) (errors : Nat)
    (told : List Diagnostic) (holds : α → Prop) : Prop :=
  (walk.within environment).TellsFrom errors told holds

/-- A walk without notable errors tells nothing. -/
theorem tells_of_quiet {walk : Walk α} (quiet : walk.Only (·.IsQuiet)) :
    walk.Tells environment [] fun _ => True := by
  intro errors reported result ends
  refine ⟨?_, trivial⟩
  induction walk generalizing errors reported with
  | done =>
    rw [ends.1]
    rfl
  | broken => exact ends.elim
  | step request next ih =>
    obtain ⟨rest, rfl, ends⟩ := ends
    rw [List.filter_append, ih _ (quiet.2 _) _ _ ends, List.append_nil, List.filter_eq_nil_iff]
    exact fun diagnostic member => Bool.eq_false_iff.mp (quiet.1 diagnostic member)

variable {walk : Walk α} {next : α → Walk β} {told more : List Diagnostic} {holds : α → Prop}
  {holdsLast : β → Prop}

theorem TellsFrom.bind (first : walk.TellsFrom environment errors told holds)
    (rest : ∀ result, holds result → (next result).Tells environment more holdsLast) :
    (walk >>= next).TellsFrom environment errors (told ++ more) holdsLast := by
  rw [TellsFrom, LexicalWalk.within_bind]
  exact LexicalWalk.TellsFrom.bind first rest

/-- What is asked for without an error gets the answer of the environment. -/
theorem TellsFrom.ask_bind {request : Request} {next : request.Answer → Walk β}
    (silent : request.errors = [])
    (rest : (next (request.reply environment errors)).TellsFrom environment errors more holdsLast) :
    (ask request >>= next).TellsFrom environment errors more holdsLast := by
  intro reported last ends
  obtain ⟨_, behind, answer, rfl, asked, following⟩ := ends_bind_iff.mp ends
  obtain ⟨rfl, rfl⟩ := ends_ask_iff.mp asked
  rw [silent] at following ⊢
  exact rest behind last following

theorem TellsFrom.lift_bind {value : Except Fault α}
    (rest : ∀ result, value = .ok result →
      (next result).TellsFrom environment errors more holdsLast) :
    ((liftM value : Walk α) >>= next).TellsFrom environment errors more holdsLast := by
  intro reported last ends
  obtain ⟨_, behind, result, rfl, lifted, following⟩ := ends_bind_iff.mp ends
  obtain ⟨rfl, isResult⟩ := ends_lift_iff.mp lifted
  exact rest result isResult behind last following

theorem TellsFrom.quietSince_bind {next : Bool → Walk β}
    (rest : (next true).TellsFrom environment errors more holdsLast) :
    (isQuietSince errors >>= next).TellsFrom environment errors more holdsLast := by
  rw [isQuietSince, LawfulMonad.bind_assoc]
  refine .ask_bind rfl ?_
  show ((Pure.pure (decide (errors = errors)) : Walk Bool) >>= next).TellsFrom environment errors more
    holdsLast
  rw [decide_eq_true rfl]
  exact rest

theorem TellsFrom.require_bind {condition : Bool} {fault : Fault} {next : Unit → Walk β}
    (rest : (next ()).TellsFrom environment errors more holdsLast) :
    (require condition fault >>= next).TellsFrom environment errors more holdsLast := by
  intro reported last ends
  obtain ⟨_, behind, _, rfl, required, following⟩ := ends_bind_iff.mp ends
  obtain ⟨rfl, _⟩ := ends_require_iff.mp required
  exact rest behind last following

namespace Tells

theorem pure {result : α} (held : holds result) :
    (pure result : Walk α).Tells environment [] holds := LexicalWalk.Tells.pure held

theorem bind (first : walk.Tells environment told holds)
    (rest : ∀ result, holds result → (next result).Tells environment more holdsLast) :
    (walk >>= next).Tells environment (told ++ more) holdsLast :=
  fun errors => TellsFrom.bind (first errors) rest

theorem bind_nil (first : walk.Tells environment told holds)
    (rest : ∀ result, holds result → (next result).Tells environment [] holdsLast) :
    (walk >>= next).Tells environment told holdsLast := List.append_nil told ▸ first.bind rest

theorem quiet_bind (quiet : walk.Only (·.IsQuiet))
    (rest : ∀ result, (next result).Tells environment more holdsLast) :
    (walk >>= next).Tells environment more holdsLast :=
  (tells_of_quiet quiet).bind fun result _ => rest result

theorem bind_quiet (first : walk.Tells environment told holds)
    (quiet : ∀ result, (next result).Only (·.IsQuiet)) :
    (walk >>= next).Tells environment told fun _ => True :=
  first.bind_nil fun result _ => tells_of_quiet (quiet result)

end Tells

end Walk

namespace Setting

open Walk

variable {setting : Setting}

/-- Apart from those of called functions and of keywords, no check has notable errors. -/
theorem quiet_checks : AllowsOrdinaryChecks place (·.IsQuiet) where
  reportOrdinary _ span ordinary := quiet_report ordinary span
  warnOnce _ := List.forall_mem_nil _
  errorCount := List.forall_mem_nil _
  noteTypes _ _ := List.forall_mem_nil _

/-! ### Called functions -/

variable (setting : Setting)

/-- The problem with the call of an instruction, if there is one: the target does not have it, or it is
`pc`. -/
def barrier? (instruction : Instruction) : Option Finding :=
  match Gate.barring? setting.version instruction with
  | some gate => some (.unavailable gate setting.version)
  | none => if instruction = .pc then some .programCounter else none

/-- The problem with a called name that is an instruction of the default version which cannot be
called. -/
def refusal? (name : Handle) : Option Finding :=
  match setting.names.label name with
  | .ok label => ((Instruction.ofName? label).filter (·.isCallable .default)).bind setting.barrier?
  | .error _ => none

/-- The problem with a called name as such: it is an instruction that cannot be called, or it is neither
a function of the dialect nor bound. -/
def calleeFinding? (environment : Environment) (name : Handle) : Option Finding :=
  match setting.names.builtin? name with
  | .ok (some _) => setting.refusal? name
  | .ok none =>
    if (environment.lookup? name).isSome then none
    else
      match setting.refusal? name, setting.names.shownLabel name with
      | some refusal, _ => some refusal
      | none, .ok label => some (.functionNotFound label)
      | none, .error _ => none
  | .error _ => none

/-- The error about which function a call refers to, if there is one. -/
def calleeErrors (environment : Environment) (callee : Identifier) : List Diagnostic :=
  ((setting.calleeFinding? environment callee.name).map (·.toDiagnostic callee.span)).toList

variable {setting : Setting} {reported : List Diagnostic}

/-- What is reported about the call of an instruction. -/
theorem ends_checkInstruction {instruction : Instruction} {span : Span} {isRefused : Bool}
    (ends : (setting.checkInstruction place instruction span).Ends environment errors reported
      isRefused) :
    reported = ((setting.barrier? instruction).map (·.toDiagnostic span)).toList ∧
      isRefused = (setting.barrier? instruction).isSome := by
  rw [checkInstruction] at ends
  rw [barrier?]
  cases gated : Gate.barring? setting.version instruction with
  | some gate =>
    rw [gated] at ends
    obtain ⟨_, _, _, rfl, isReported, rfl, rfl⟩ := ends_bind_iff.mp ends
    obtain ⟨rfl, _⟩ := ends_ask_iff.mp isReported
    exact ⟨rfl, rfl⟩
  | none =>
    rw [gated] at ends
    dsimp only at ends ⊢
    by_cases isPc : instruction = .pc
    · rw [if_pos isPc] at ends ⊢
      obtain ⟨_, _, _, rfl, isReported, rfl, rfl⟩ := ends_bind_iff.mp ends
      obtain ⟨rfl, _⟩ := ends_ask_iff.mp isReported
      exact ⟨rfl, rfl⟩
    · rw [if_neg isPc] at ends ⊢
      exact ends

/-- What is reported about a called name that is an instruction. -/
theorem ends_checkTarget {callee : Identifier} {isRefused : Bool}
    (ends : (setting.checkTarget place callee).Ends environment errors reported isRefused) :
    reported = ((setting.refusal? callee.name).map (·.toDiagnostic callee.span)).toList ∧
      isRefused = (setting.refusal? callee.name).isSome := by
  obtain ⟨_, _, isAlias, rfl, aliased, ends⟩ := ends_bind_iff.mp ends
  obtain ⟨_, _, isVerbatim, rfl, verbatim, ends⟩ := ends_bind_iff.mp ends
  rw [ends_lift_iff] at aliased verbatim
  obtain ⟨rfl, aliased⟩ := aliased
  obtain ⟨rfl, verbatim⟩ := verbatim
  rw [List.nil_append, List.nil_append, refusal?]
  split at ends
  · -- An alias has no label until one is generated.
    rename_i isHidden
    rw [Bool.and_eq_true, Bool.not_eq_true'] at isHidden
    rw [isHidden.1] at aliased
    rw [isHidden.2] at verbatim
    obtain ⟨rfl, rfl⟩ := ends
    cases labelled : setting.names.label callee.name with
    | error fault => exact ⟨rfl, rfl⟩
    | ok label => exact absurd labelled (NameTable.label_ne_ok_of_alias aliased verbatim label)
  · obtain ⟨_, _, label, rfl, labelled, ends⟩ := ends_bind_iff.mp ends
    rw [ends_lift_iff] at labelled
    obtain ⟨rfl, labelled⟩ := labelled
    rw [labelled]
    dsimp only at ends ⊢
    split at ends
    · rename_i instruction named
      rw [named]
      exact ends_checkInstruction ends
    · rename_i unnamed
      rw [unnamed]
      exact ends

theorem concernsCallee_of_barrier {instruction : Instruction} {finding : Finding}
    (barred : setting.barrier? instruction = some finding) (span : Span) :
    (finding.toDiagnostic span).concernsCallee = true := by
  rw [barrier?] at barred
  split at barred
  · rename_i gate gated
    cases barred
    have isListed : gate.code ∈ calleeCodes :=
      List.mem_cons_of_mem _ (List.mem_cons_of_mem _
        (List.mem_map_of_mem (Gate.barring?_eq_some_iff.mp gated).1))
    exact List.contains_iff_mem.mpr isListed
  · split at barred <;> cases barred
    rfl

theorem concernsCallee_of_refusal {name : Handle} {finding : Finding}
    (refused : setting.refusal? name = some finding) (span : Span) :
    (finding.toDiagnostic span).concernsCallee = true := by
  rw [refusal?] at refused
  split at refused
  · obtain ⟨instruction, _, barred⟩ := Option.bind_eq_some_iff.mp refused
    exact concernsCallee_of_barrier barred span
  · cases refused

/-- The errors about the functions that calls refer to have numbers of their own. -/
theorem concernsCallee_of_mem_calleeErrors {callee : Identifier} {error : Diagnostic}
    (member : error ∈ setting.calleeErrors environment callee) : error.concernsCallee = true := by
  obtain ⟨finding, found, rfl⟩ := Option.map_eq_some_iff.mp (Option.mem_toList.mp member)
  rw [calleeFinding?] at found
  split at found
  · exact concernsCallee_of_refusal found _
  · split at found
    · cases found
    · cases refused : setting.refusal? callee.name with
      | some refusal =>
        rw [refused] at found
        cases found
        exact concernsCallee_of_refusal refused _
      | none =>
        rw [refused] at found
        cases shown : setting.names.shownLabel callee.name with
        | error fault =>
          rw [shown] at found
          cases found
        | ok label =>
          rw [shown] at found
          cases found
          rfl
  · cases found

theorem tells_checkTarget (callee : Identifier) :
    (setting.checkTarget place callee).Tells environment
      ((setting.refusal? callee.name).map (·.toDiagnostic callee.span)).toList fun _ => True := by
  intro errors reported isRefused ends
  refine ⟨?_, trivial⟩
  rw [(ends_checkTarget ends).1, List.filter_eq_self]
  intro error member
  obtain ⟨finding, refused, rfl⟩ := Option.map_eq_some_iff.mp (Option.mem_toList.mp member)
  rw [Diagnostic.isNotable, concernsCallee_of_refusal refused, Bool.true_or]

theorem tells_report {finding : Finding} {span : Span} (isError : finding.category.isError = true)
    (isNotable : (finding.toDiagnostic span).isNotable = true) :
    (report place finding span).Tells environment [finding.toDiagnostic span] fun _ => True := by
  intro errors reported _ ends
  obtain ⟨rfl, _⟩ := ends_ask_iff.mp ends
  have recorded : (Request.report place (finding.toDiagnostic span)).errors =
      [finding.toDiagnostic span] := if_pos isError
  rw [recorded]
  exact ⟨List.filter_eq_self.mpr (List.forall_mem_singleton.mpr isNotable), trivial⟩

/-- A name that nothing binds and that is not refused is told, since no host knows it. -/
theorem tellsFrom_finishCallee (callee : Identifier) {told : List Diagnostic}
    (isTold : ∀ label, setting.names.shownLabel callee.name = .ok label →
      told = [(Finding.functionNotFound label).toDiagnostic callee.span]) :
    Walk.TellsFrom (do
        let isExternal ← consult place callee .read
        Setting.expect place (isExternal || !(← Walk.isQuietSince errors)) callee.span do
          return .functionNotFound (← setting.names.shownLabel callee.name)
        Walk.require (isExternal || !(← Walk.isQuietSince errors)) .rejectionUnreported
        return (⟨none, [], isExternal⟩ : Callee)) environment errors told fun _ => True := by
  refine .ask_bind rfl (.quietSince_bind ?_)
  have reported : (Setting.expect place false callee.span do
      return .functionNotFound (← setting.names.shownLabel callee.name)).Tells environment told
        fun _ => True := by
    rw [Setting.expect, if_neg Bool.false_ne_true, LawfulMonad.bind_assoc]
    refine fun errors => TellsFrom.lift_bind fun label shown => ?_
    rw [isTold label shown]
    exact tells_report rfl rfl errors
  refine Tells.bind_quiet reported (fun _ => ?_) errors
  refine only_bind (only_isQuietSince (List.forall_mem_nil _) _) fun _ => ?_
  exact only_bind (only_require _ _) fun _ => only_pure _

/-- What is told about the function that a call refers to. -/
theorem tellsFrom_resolveCallee (callee : Identifier) :
    (setting.resolveCallee place errors callee).TellsFrom environment errors
      (setting.calleeErrors environment callee) fun _ => True := by
  refine .lift_bind fun builtin? found => ?_
  rw [calleeErrors, calleeFinding?, found]
  have consulted (use : IdentifierUse) : (consult place callee use).Only (·.IsQuiet) :=
    only_ask.mpr (List.forall_mem_nil _)
  cases builtin? with
  | some builtin =>
    refine Tells.quiet_bind (quiet_checks.warnOfUse callee) (fun _ =>
      .bind_quiet (tells_checkTarget callee) fun _ => ?_) errors
    exact only_bind (only_ask.mpr (List.forall_mem_nil _)) fun _ => only_pure _
  | none =>
    refine .ask_bind rfl ?_
    simp only [Request.reply]
    rcases environment.lookup? callee.name with _ | ⟨type | ⟨parameters, returns⟩, isActive⟩
    · intro reported result ends
      obtain ⟨first, rest, isRefused, rfl, checked, ends⟩ := ends_bind_iff.mp ends
      obtain ⟨rfl, rfl⟩ := ends_checkTarget checked
      cases refused : setting.refusal? callee.name with
      | some refusal =>
        rw [refused] at ends
        obtain ⟨rfl, rfl⟩ := ends
        refine ⟨List.filter_eq_self.mpr (List.forall_mem_singleton.mpr ?_), trivial⟩
        rw [Diagnostic.isNotable, concernsCallee_of_refusal refused, Bool.true_or]
      | none =>
        rw [refused] at ends
        refine tellsFrom_finishCallee callee (fun label shown => ?_) rest result ends
        rw [shown]
        rfl
    · refine tells_of_quiet (only_bind (only_ask.mpr (quiet_report rfl _)) fun _ => ?_) errors
      exact only_bind (consulted _) fun _ => only_pure _
    · exact tells_of_quiet (only_bind (consulted _) fun _ => only_pure _) errors

/-! ### Expressions -/

/-- What is told about the calls in an expression. -/
abbrev callErrors (setting : Setting) (environment : Environment) (callees : List Identifier) :
    List Diagnostic :=
  callees.flatMap (setting.calleeErrors environment)

mutual

/-- Of every call in an expression it is told which function it refers to, if that is wrong. -/
theorem tells_checkExpression (expression : Expression) :
    (setting.checkExpression place expression).Tells environment
      (setting.callErrors environment expression.callees) fun _ => True := by
  cases expression with
  | literal constant =>
    rw [checkExpression]
    refine tells_of_quiet (only_bind (quiet_checks.checkLiteral constant) fun _ => ?_)
    exact only_bind (only_ask.mpr (List.forall_mem_nil _)) fun _ => only_pure _
  | identifier use =>
    rw [checkExpression]
    refine tells_of_quiet (only_bind (quiet_checks.checkIdentifier ?_ fun _ => ?_) fun _ => ?_)
    · exact List.forall_mem_nil _
    · exact List.forall_mem_nil _
    · exact only_bind (only_ask.mpr (List.forall_mem_nil _)) fun _ => only_pure _
  | call id span callee arguments =>
    rw [checkExpression, Expression.callees, callErrors, List.flatMap_cons]
    refine fun errors => TellsFrom.require_bind (TellsFrom.ask_bind rfl ?_)
    refine TellsFrom.bind (tellsFrom_resolveCallee callee) fun resolved _ => ?_
    refine .quiet_bind (quiet_checks.checkArgumentCount _ _ _) fun _ => ?_
    exact .bind_quiet (tells_checkArguments callee resolved.literals arguments) fun given =>
      quiet_checks.finishCall id errors resolved arguments given

theorem tells_checkArguments (callee : Identifier) (required : List (Option LiteralKind))
    (arguments : List Expression) :
    (setting.checkArguments place callee required arguments).Tells environment
      (setting.callErrors environment (argumentCallees arguments)) fun _ => True := by
  cases arguments with
  | nil =>
    rw [checkArguments]
    exact .pure trivial
  | cons argument rest =>
    rw [checkArguments, argumentCallees, callErrors, List.flatMap_append]
    refine .bind (tells_checkArguments callee required.tail rest) fun types _ => ?_
    dsimp only
    split
    · rename_i literal content
      obtain ⟨rfl, _⟩ := contentArgument?_eq_some content
      exact tells_of_quiet (only_bind (quiet_checks.checkStringArgument _ _) fun _ => only_pure _)
    · refine .quiet_bind (quiet_checks.checkArgumentKind _ _ _) fun _ => ?_
      exact .bind_quiet (tells_checkExpression argument) fun _ =>
        only_bind (quiet_checks.singleType _ _) fun _ => only_pure _

end

end Setting

end YulCheck
