import YulCheck.Proofs.Kept.Runs
import YulCheck.Proofs.Lexical.Resolution

/-! # Programs behind kept facts

Facts about earlier programs have no influence on a check, even where nodes of the program have entries
among them: a scope is opened inside of the current one, only scopes that the program opened before are
entered again, and what is checked afterwards asks only for scopes of the program.
-/

namespace YulCheck

variable {σ : Type}

namespace Setting

open Walk

variable {setting : Setting} {place : Place} {owners : List ScopeOwner}

/-! ### What walks need -/

/-- Whether a walk needs only some nodes to have scopes. -/
abbrev NeedsOnly (owners : List ScopeOwner) {α : Type} (walk : Walk α) : Prop :=
  walk.Only (·.needs ⊆ owners)

theorem needs_ask {request : Request} (needs : request.needs ⊆ owners) :
    NeedsOnly owners (ask request) := only_ask.mpr needs

theorem needs_checks : AllowsChecks place (·.needs ⊆ owners) where
  report _ _ := List.nil_subset _
  warnOnce _ := List.nil_subset _
  errorCount := List.nil_subset _
  noteTypes _ _ := List.nil_subset _

/-- What is checked inside of a statement needs its block. -/
theorem Stays.needsOnly {α : Type} {walk : Walk α} (stays : Stays place walk)
    (isOpen : .block place.block ∈ owners) : NeedsOnly owners walk := by
  refine stays.imp fun request isLocal => ?_
  cases isLocal with
  | lookup | consult => exact List.cons_subset.mpr ⟨isOpen, List.nil_subset _⟩
  | errorCount | report | warnOnce | noteTypes | noteEffects => exact List.nil_subset _

/-- What is declared inside of the current scope needs no other one. -/
theorem needs_enter {declaration : Declaration} (isInside : declaration.IsInside) :
    NeedsOnly owners (setting.enter place declaration) := by
  cases declaration with
  | scope | resume | leave => cases isInside
  | function span name parameters returns =>
    refine only_bind (needs_ask (List.nil_subset _)) fun isFree => needs_checks.expect _ _ ?_
    exact only_bind (only_lift _) fun _ => only_pure _
  | locals locals =>
    show NeedsOnly owners (setting.enterVariables place locals)
    induction locals with
    | nil => exact only_pure _
    | cons declared rest ih =>
      refine only_bind (needs_ask (List.nil_subset _)) fun isFree => ?_
      cases isFree with
      | true => exact ih trivial
      | false => exact only_bind (only_lift _) fun label => needs_ask (List.nil_subset _)

theorem needs_checkDeclaration (isOpen : .block place.block ∈ owners) (span : Span)
    (locals : List Variable) (value? : Option Expression) :
    NeedsOnly owners (setting.checkDeclaration place span locals value?) := by
  rw [checkDeclaration_eq]
  refine only_bind ((setting.stays_prepareDeclaration _ _ _).needsOnly isOpen) fun _ => ?_
  exact only_activateVariables fun _ _ => List.cons_subset.mpr ⟨isOpen, List.nil_subset _⟩

mutual

/-- Checking a block needs only the scopes of the block. -/
theorem needs_checkBlock (place : Place) (block : Block) (known : block.frames.map (·.1) ⊆ owners) :
    NeedsOnly owners (setting.checkBlock place block) := by
  obtain ⟨id, span, statements⟩ := block
  rw [Block.frames, List.map_cons, List.cons_subset] at known
  rw [checkBlock]
  simp only [enterBlock, LawfulMonad.bind_assoc, pure_bind]
  refine only_bind (needs_ask ?_) fun _ => only_bind (only_require _ _) fun _ => ?_
  · exact List.cons_subset.mpr ⟨known.1, List.nil_subset _⟩
  · exact needs_checkStatements _ known.1 statements known.2

theorem needs_checkStatements (place : Place) (isOpen : .block place.block ∈ owners)
    (statements : List Statement) (known : (statementFrames statements).map (·.1) ⊆ owners) :
    NeedsOnly owners (setting.checkStatements place statements) := by
  cases statements with
  | nil =>
    rw [checkStatements]
    exact only_pure _
  | cons statement rest =>
    rw [statementFrames, List.map_append, List.append_subset] at known
    rw [checkStatements]
    exact only_bind (needs_checkStatement place isOpen statement known.1) fun _ =>
      needs_checkStatements place isOpen rest known.2

theorem needs_checkStatement (place : Place) (isOpen : .block place.block ∈ owners)
    (statement : Statement) (known : statement.frames.map (·.1) ⊆ owners) :
    NeedsOnly owners (setting.checkStatement place statement) := by
  cases statement with
  | «break» | «continue» | leave =>
    rw [checkStatement]
    exact needs_checks.expect _ _ (only_pure _)
  | expression span expression =>
    rw [checkStatement]
    exact (setting.stays_checkEffect span expression).needsOnly isOpen
  | assignment span targets value =>
    rw [checkStatement]
    exact (setting.stays_checkAssignment span targets value).needsOnly isOpen
  | declaration span locals value? =>
    rw [checkStatement]
    exact needs_checkDeclaration isOpen span locals value?
  | function id span name parameters returns body =>
    rw [Statement.frames, List.map_cons, List.cons_subset] at known
    rw [checkStatement]
    have needs : [ScopeOwner.function id] ⊆ owners :=
      List.cons_subset.mpr ⟨known.1, List.nil_subset _⟩
    exact only_bind (needs_checks.checkHeader needs span name fun _ _ => needs) fun _ =>
      needs_checkBlock _ body known.2
  | conditional span condition body =>
    rw [checkStatement]
    exact only_bind ((setting.stays_checkCondition condition).needsOnly isOpen) fun _ =>
      needs_checkBlock place body known
  | «switch» span scrutinee cases =>
    rw [checkStatement]
    refine only_bind (needs_checks.expect _ _ (only_pure _)) fun _ => ?_
    exact only_bind ((setting.stays_checkSingle scrutinee).needsOnly isOpen) fun type =>
      needs_checkCases place isOpen type [] cases known
  | loop id span pre condition post body =>
    rw [Statement.frames, List.map_append, List.map_append, List.append_subset,
      List.append_subset] at known
    obtain ⟨⟨ofPre, ofBody⟩, ofPost⟩ := known
    have isPre : .block pre.id ∈ owners := ofPre pre.owner_mem_owners
    rw [checkStatement]
    refine only_bind (needs_checkBlock _ pre ofPre) fun _ => ?_
    simp only [enterBlock, LawfulMonad.bind_assoc, pure_bind]
    refine only_bind (needs_ask (List.cons_subset.mpr ⟨isPre, List.nil_subset _⟩)) fun _ => ?_
    refine only_bind (only_require _ _) fun _ => ?_
    refine only_bind ((setting.stays_checkCondition condition).needsOnly isPre) fun _ => ?_
    exact only_bind (needs_checkBlock _ body ofBody) fun _ => needs_checkBlock _ post ofPost
  | block block =>
    rw [checkStatement]
    exact needs_checkBlock place block known

theorem needs_checkCases (place : Place) (isOpen : .block place.block ∈ owners) (type : TypeHandle)
    (before : List Word) (cases : List Case) (known : (caseFrames cases).map (·.1) ⊆ owners) :
    NeedsOnly owners (setting.checkCases place type before cases) := by
  rcases cases with _ | ⟨⟨span, _ | literal, body⟩, rest⟩
  · rw [checkCases]
    exact only_pure _
  · rw [caseFrames, List.map_append, List.append_subset] at known
    rw [checkCases]
    refine only_bind (only_pure before) fun values => ?_
    exact only_bind (needs_checkBlock place body known.1) fun _ =>
      needs_checkCases place isOpen type values rest known.2
  · rw [caseFrames, List.map_append, List.append_subset] at known
    rw [checkCases]
    refine only_bind (needs_checks.checkCaseValue type before span literal) fun values => ?_
    exact only_bind (needs_checkBlock place body known.1) fun _ =>
      needs_checkCases place isOpen type values rest known.2

end

/-! ### Runs over programs -/

variable {host? : Option (Host σ)} {state after : RunState σ} {kept : Facts}
  {stale : List (ScopeId × Handle)}

/-- Declarations that open their scopes one inside the other are entered as without earlier
programs. -/
theorem enterAll_behind (isStale : ∀ entry ∈ stale, entry.1 < kept.scopes.size)
    {current? : Option ScopeOwner} {declarations : List Declaration} {nestings : List Nesting}
    (nested : AreNested current? declarations nestings) (settled : state.IsSettled) :
    ((declarations.forM (setting.enter place)).run host?).IsSameBehind kept stale state := by
  have needless {walk : Walk Unit} {state : RunState σ} (needs : NeedsOnly [] walk)
      (settled : state.IsSettled) : (walk.run host?).IsSameBehind kept stale state :=
    run_behind isStale needs settled (List.forall_mem_nil _)
  induction nested generalizing state with
  | nil => exact .pure ()
  | inside isInside =>
    rw [enterAll_cons, run_bind]
    exact .bind (needless (needs_enter isInside) settled) fun _ _ _ => .pure ()
  | append _ _ ihFirst ihSecond =>
    rw [enterAll_append, run_bind]
    exact .bind (ihFirst settled) fun _ _ ran => ihSecond (isSettled_of_run ran settled)
  | scope _ ih =>
    rw [enterAll_scope, run_bind]
    refine .bind (needless (needs_ask (List.Subset.refl _)) settled) fun _ within opened => ?_
    rw [run_bind]
    have inside := isSettled_of_run opened settled
    refine .bind (ih inside) fun _ _ ran => ?_
    exact needless (needs_ask (List.Subset.refl _)) (isSettled_of_run ran inside)
  | resume first isOpened _ ihFirst ihSecond =>
    rename_i block _ _ _ _ _
    rw [enterAll_append, enterAll_resume, run_bind]
    refine .bind (ihFirst settled) fun _ middle ran => ?_
    have areOpen : middle.HasOpened [.block block] :=
      List.forall_mem_singleton.mpr ((opened_of_enterAll first ran).2 _ isOpened)
    have settledMiddle := isSettled_of_run ran settled
    rw [run_bind]
    refine .bind (run_behind isStale (needs_ask (List.Subset.refl _)) settledMiddle areOpen)
      fun _ within resumed => ?_
    rw [run_bind]
    have inside := isSettled_of_run resumed settledMiddle
    refine .bind (ihSecond inside) fun _ _ ran => ?_
    exact needless (needs_ask (List.Subset.refl _)) (isSettled_of_run ran inside)

/-- A program is checked as without earlier programs. -/
theorem checkProgram_behind (isStale : ∀ entry ∈ stale, entry.1 < kept.scopes.size)
    (settled : state.IsSettled) (block : Block) :
    ((setting.checkProgram place block).run host?).IsSameBehind kept stale state := by
  have entered : ((setting.enterDeclarations place block).run host?).IsSameBehind kept stale state := by
    rw [enterDeclarations, run_bind, run_ask]
    refine .bind rfl fun errors after answered => ?_
    cases answered
    rw [run_bind]
    exact .bind (enterAll_behind isStale (block.areNested none) settled) fun _ _ _ => rfl
  rw [checkProgram, run_bind]
  refine .bind entered fun isQuiet after ran => ?_
  have areOpen : after.HasOpened block.owners := by
    have opened := opened_of_enterAll (block.areNested none) (run_enterAll_of_enterDeclarations ran)
    exact block.map_fst_nestings none ▸ opened.2
  cases isQuiet with
  | false => exact .pure ()
  | true =>
    exact run_behind isStale (needs_checkBlock place block (List.Subset.refl _))
      (isSettled_of_run ran settled) areOpen

end Setting

end YulCheck
