import YulCheck.Proofs.Lexical.Resolution

/-! # Requests of blocks

Apart from what is checked inside of statements, checking a block asks for the scopes of its nodes and
completes declarations. Whatever allows these requests allows to check all blocks.
-/

namespace YulCheck.Setting

open Walk

variable {setting : Setting} {place : Place} {allowed : Request → Prop}

/-- Whether the requests are allowed by which the statements of blocks are checked. -/
structure AllowsBlocks (allowed : Request → Prop) : Prop where
  ofLocal {place : Place} {request : Request} (isLocal : request.IsLocal place) : allowed request
  hasScope (owner : ScopeOwner) : allowed (.hasScope owner)
  activate (owner : ScopeOwner) (name : Handle) : allowed (.activate owner name)

namespace AllowsBlocks

theorem checks (allows : AllowsBlocks allowed) : AllowsChecks place allowed where
  report finding span := allows.ofLocal (.report finding span)
  warnOnce span := allows.ofLocal (@Request.IsLocal.warnOnce place span)
  errorCount := allows.ofLocal (@Request.IsLocal.errorCount place)
  noteTypes expression types := allows.ofLocal (@Request.IsLocal.noteTypes place expression types)

theorem ofStays (allows : AllowsBlocks allowed) {α : Type} {walk : Walk α}
    (stays : Stays place walk) : walk.Only allowed :=
  stays.imp fun _ isLocal => allows.ofLocal isLocal

theorem checkDeclaration (allows : AllowsBlocks allowed) (span : Span) (locals : List Variable)
    (value? : Option Expression) :
    (setting.checkDeclaration place span locals value?).Only allowed := by
  rw [checkDeclaration_eq]
  exact only_bind (allows.ofStays (setting.stays_prepareDeclaration _ _ _)) fun _ =>
    only_activateVariables fun _ _ => allows.activate _ _

mutual

theorem checkBlock (allows : AllowsBlocks allowed) (place : Place) (block : Block) :
    (setting.checkBlock place block).Only allowed := by
  obtain ⟨id, span, statements⟩ := block
  rw [Setting.checkBlock]
  exact only_bind (only_enterBlock (allows.hasScope _)) fun inside =>
    allows.checkStatements inside statements

theorem checkStatements (allows : AllowsBlocks allowed) (place : Place)
    (statements : List Statement) :
    (setting.checkStatements place statements).Only allowed := by
  cases statements with
  | nil =>
    rw [Setting.checkStatements]
    exact only_pure _
  | cons statement rest =>
    rw [Setting.checkStatements]
    exact only_bind (allows.checkStatement place statement) fun _ => allows.checkStatements place rest

theorem checkStatement (allows : AllowsBlocks allowed) (place : Place) (statement : Statement) :
    (setting.checkStatement place statement).Only allowed := by
  cases statement with
  | «break» | «continue» | leave =>
    rw [Setting.checkStatement]
    exact allows.checks.expect _ _ (only_pure _)
  | expression span expression =>
    rw [Setting.checkStatement]
    exact allows.ofStays (setting.stays_checkEffect span expression)
  | assignment span targets value =>
    rw [Setting.checkStatement]
    exact allows.ofStays (setting.stays_checkAssignment span targets value)
  | declaration span locals value? =>
    rw [Setting.checkStatement]
    exact allows.checkDeclaration span locals value?
  | function id span name parameters returns body =>
    rw [Setting.checkStatement]
    refine only_bind ?_ fun _ => allows.checkBlock _ body
    exact allows.checks.checkHeader (allows.hasScope _) span name fun _ _ => allows.activate _ _
  | conditional span condition body =>
    rw [Setting.checkStatement]
    exact only_bind (allows.ofStays (setting.stays_checkCondition condition)) fun _ =>
      allows.checkBlock place body
  | «switch» span scrutinee cases =>
    rw [Setting.checkStatement]
    refine only_bind (allows.checks.expect _ _ (only_pure _)) fun _ => ?_
    exact only_bind (allows.ofStays (setting.stays_checkSingle scrutinee)) fun type =>
      allows.checkCases place type [] cases
  | loop id span pre condition post body =>
    rw [Setting.checkStatement]
    refine only_bind (allows.checkBlock _ pre) fun _ => ?_
    refine only_bind (only_enterBlock (allows.hasScope _)) fun inside => ?_
    refine only_bind (allows.ofStays (setting.stays_checkCondition condition)) fun _ => ?_
    exact only_bind (allows.checkBlock _ body) fun _ => allows.checkBlock inside post
  | block block =>
    rw [Setting.checkStatement]
    exact allows.checkBlock place block

theorem checkCases (allows : AllowsBlocks allowed) (place : Place) (type : TypeHandle)
    (before : List Word) (cases : List Case) :
    (setting.checkCases place type before cases).Only allowed := by
  rcases cases with _ | ⟨⟨span, _ | literal, body⟩, rest⟩
  · rw [Setting.checkCases]
    exact only_pure _
  · rw [Setting.checkCases]
    refine only_bind (only_pure before) fun values => ?_
    exact only_bind (allows.checkBlock place body) fun _ => allows.checkCases place type values rest
  · rw [Setting.checkCases]
    refine only_bind (allows.checks.checkCaseValue type before span literal) fun values => ?_
    exact only_bind (allows.checkBlock place body) fun _ => allows.checkCases place type values rest

end

end AllowsBlocks

/-- Checking statements keeps the scopes that were entered. -/
theorem scopes_blocks : AllowsBlocks Request.KeepsScopes where
  ofLocal isLocal := isLocal.staysIn.keepsScopes
  hasScope _ := trivial
  activate _ _ := trivial

end YulCheck.Setting
