import YulCheck.Proofs.Lexical.Checks

/-! # Requests of single checks

What is checked inside of a statement, its expressions and literals above all, asks for names of its
own block only, and neither opens scopes nor completes declarations. It reports findings, and the only
warning that is not repeated is the one about transient storage.
-/

namespace YulCheck.Setting

open Walk

variable (setting : Setting) (place : Place)

/-- Whether a walk stays at a place. -/
abbrev Stays {α : Type} (walk : Walk α) : Prop := walk.Only (·.IsLocal place)

/-- Whether a walk stays at a place and notes no effects, since it calls nothing. -/
abbrev IsPlain {α : Type} (walk : Walk α) : Prop :=
  walk.Only fun request => request.IsLocal place ∧ request.NotesNoEffects

variable {place}

theorem IsPlain.stays {α : Type} {walk : Walk α} (plain : IsPlain place walk) : Stays place walk :=
  plain.imp fun _ both => both.1

theorem local_checks : AllowsChecks place (·.IsLocal place) where
  report := .report
  warnOnce := .warnOnce
  errorCount := .errorCount
  noteTypes := .noteTypes

theorem plain_checks :
    AllowsChecks place fun request => request.IsLocal place ∧ request.NotesNoEffects where
  report _ _ := ⟨.report _ _, trivial⟩
  warnOnce _ := ⟨.warnOnce _, trivial⟩
  errorCount := ⟨.errorCount, trivial⟩
  noteTypes _ _ := ⟨.noteTypes _ _, trivial⟩

/-! ### Expressions -/

theorem plain_consult (identifier : Identifier) (use : IdentifierUse) :
    IsPlain place (consult place identifier use) := only_ask.mpr ⟨.consult identifier use, trivial⟩

theorem plain_checkIdentifier (identifier : Identifier) :
    IsPlain place (setting.checkIdentifier place identifier) :=
  plain_checks.checkIdentifier ⟨.lookup _, trivial⟩ fun use => ⟨.consult _ use, trivial⟩

/-- Only functions of the dialect have effects that are noted. -/
theorem plain_resolveCallee {callee : Identifier}
    (notBuiltin : setting.names.builtin? callee.name = .ok none) (errors : Nat) :
    IsPlain place (setting.resolveCallee place errors callee) := by
  refine plain_checks.resolveCallee (fun builtin answered => ?_) ⟨.lookup _, trivial⟩
    (fun use => ⟨.consult _ use, trivial⟩) errors
  cases notBuiltin.symm.trans answered

theorem stays_resolveCallee (errors : Nat) (callee : Identifier) :
    Stays place (setting.resolveCallee place errors callee) :=
  local_checks.resolveCallee (fun _ _ => .noteEffects _) (.lookup _) (fun use => .consult _ use) errors

mutual

theorem stays_checkExpression (expression : Expression) :
    Stays place (setting.checkExpression place expression) := by
  cases expression with
  | literal literal =>
    rw [checkExpression]
    apply only_bind (local_checks.checkLiteral _)
    intro _
    exact only_bind (only_ask.mpr (.noteTypes _ _)) fun _ => only_pure _
  | identifier identifier =>
    rw [checkExpression]
    apply only_bind (local_checks.checkIdentifier (.lookup _) fun use => .consult _ use)
    intro _
    exact only_bind (only_ask.mpr (.noteTypes _ _)) fun _ => only_pure _
  | call id span name arguments =>
    rw [checkExpression]
    apply only_bind (only_require _ _)
    intro _
    apply only_bind (only_ask.mpr .errorCount)
    intro errors
    apply only_bind (setting.stays_resolveCallee _ _)
    intro callee
    apply only_bind (local_checks.checkArgumentCount _ _ _)
    intro _
    apply only_bind (stays_checkArguments name callee.literals arguments)
    exact fun given => local_checks.finishCall id errors callee arguments given

theorem stays_checkArguments (callee : Identifier) (required : List (Option LiteralKind))
    (arguments : List Expression) :
    Stays place (setting.checkArguments place callee required arguments) := by
  cases arguments with
  | nil =>
    rw [checkArguments]
    exact only_pure _
  | cons argument rest =>
    rw [checkArguments]
    apply only_bind (stays_checkArguments callee required.tail rest)
    intro types
    dsimp only
    split
    · exact only_bind (local_checks.checkStringArgument _ _) fun _ => only_pure _
    · apply only_bind (local_checks.checkArgumentKind _ _ _)
      intro _
      apply only_bind (stays_checkExpression argument)
      intro _
      exact only_bind (local_checks.singleType _ _) fun _ => only_pure _

end

/-! ### Statements without statements in them -/

theorem stays_checkSingle (expression : Expression) :
    Stays place (setting.checkSingle place expression) :=
  only_bind (setting.stays_checkExpression _) fun _ => local_checks.singleType _ _

theorem stays_checkCondition (condition : Expression) :
    Stays place (setting.checkCondition place condition) :=
  only_bind (setting.stays_checkSingle _) fun type => local_checks.finishCondition condition type

theorem stays_checkEffect (span : Span) (expression : Expression) :
    Stays place (setting.checkEffect place span expression) := by
  apply only_bind (only_ask.mpr .errorCount)
  intro errors
  apply only_bind (setting.stays_checkExpression _)
  exact fun types => local_checks.finishEffect span errors types

theorem stays_checkInitialValue (span : Span) (locals : List Variable) (value : Expression) :
    Stays place (setting.checkInitialValue place span locals value) :=
  only_bind (setting.stays_checkExpression _) fun types =>
    local_checks.finishDeclaration span locals types

theorem stays_checkAssignment (span : Span) (targets : List Identifier) (value : Expression) :
    Stays place (setting.checkAssignment place span targets value) := by
  apply only_bind (only_require _ _)
  intro _
  apply only_bind (local_checks.checkRepeatedTargets _ _ _)
  intro _
  apply only_bind (setting.stays_checkExpression _)
  intro types
  exact only_bind (local_checks.assignmentCount _ _ _) fun _ =>
    local_checks.checkTargetTypes .lookup .consult targets types

end YulCheck.Setting
