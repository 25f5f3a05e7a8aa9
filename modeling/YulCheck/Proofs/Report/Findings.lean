import YulCheck.Proofs.Lexical.Blocks

/-! # The findings of a program

Everything that checking a program reports is a finding at a position, and the only warning that is not
repeated is the one about transient storage.
-/

namespace YulCheck

/-- Whether a request reports nothing but findings. -/
def Request.ReportsFindings : Request → Prop
  | .report _ diagnostic => ∃ (finding : Finding) (span : Span),
    diagnostic = finding.toDiagnostic span
  | .warnOnce diagnostic => ∃ span, diagnostic = Finding.transientStorage.toDiagnostic span
  | _ => True

theorem Request.IsLocal.reportsFindings {place : Place} {request : Request}
    (isLocal : request.IsLocal place) : request.ReportsFindings := by
  cases isLocal with
  | report finding span => exact ⟨finding, span, rfl⟩
  | warnOnce span => exact ⟨span, rfl⟩
  | lookup | errorCount | consult | noteTypes | noteEffects => trivial

namespace Setting

open Walk

/-- Whether a walk reports nothing but findings. -/
abbrev ReportsFindings {α : Type} (walk : Walk α) : Prop := walk.Only Request.ReportsFindings

variable {setting : Setting} {place : Place}

theorem findings_checks : AllowsChecks place Request.ReportsFindings where
  report finding span := ⟨finding, span, rfl⟩
  warnOnce span := ⟨span, rfl⟩
  errorCount := trivial
  noteTypes _ _ := trivial

/-- Checking statements reports nothing but findings. -/
theorem findings_blocks : AllowsBlocks Request.ReportsFindings where
  ofLocal isLocal := isLocal.reportsFindings
  hasScope _ := trivial
  activate _ _ := trivial

/-! ### Programs -/

theorem findings_enterVariables (locals : List Variable) :
    ReportsFindings (setting.enterVariables place locals) := by
  induction locals with
  | nil => exact only_pure _
  | cons declared rest ih =>
    refine only_bind (only_ask.mpr trivial) fun isFree => ?_
    cases isFree with
    | true => exact ih
    | false => exact only_bind (only_lift _) fun label => only_ask.mpr (findings_checks.report _ _)

theorem findings_enter (declaration : Declaration) :
    ReportsFindings (setting.enter place declaration) := by
  cases declaration with
  | scope | resume | leave => exact only_ask.mpr trivial
  | locals locals => exact findings_enterVariables locals
  | function span name parameters returns =>
    refine only_bind (only_ask.mpr trivial) fun isFree => findings_checks.expect _ _ ?_
    exact only_bind (only_lift _) fun _ => only_pure _

theorem findings_enterDeclarations (block : Block) :
    ReportsFindings (setting.enterDeclarations place block) := by
  refine only_bind (only_ask.mpr trivial) fun errors => ?_
  refine only_bind (only_forM fun declaration _ => findings_enter declaration) fun _ => ?_
  exact only_bind (only_ask.mpr trivial) fun _ => only_pure _

/-- Everything that checking a program reports is a finding. -/
theorem findings_checkProgram (setting : Setting) (place : Place) (block : Block) :
    ReportsFindings (setting.checkProgram place block) := by
  refine only_bind (findings_enterDeclarations block) fun isQuiet => ?_
  cases isQuiet with
  | true => exact findings_blocks.checkBlock place block
  | false => exact only_pure _

end Setting

end YulCheck
