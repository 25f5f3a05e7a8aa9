import YulCheck.Check.Setting
import YulCheck.Proofs.Told.Errors

/-! # What a walk reports

`LexicalWalk.Reports` tells all errors that a walk reports, in their order, and the result that it has
in the end. Nothing is claimed about a walk that breaks off. The rules follow the ways in which checks
are put together: one after another, with a look at the number of errors, or with a report where a
condition does not hold.
-/

namespace YulCheck

variable {α β : Type} {environment : Environment} {errors : Nat} {place : Place}

/-- The text of a label in messages. -/
def labelText (label : Except Fault String) : String := label.toOption.getD ""

/-- The error about a problem, unless a condition holds. -/
def mistakeUnless (condition : Bool) (span : Span) (finding : Finding) : List Diagnostic :=
  if condition then [] else [finding.toDiagnostic span]

@[simp]
theorem mistakeUnless_eq_nil_iff {condition : Bool} {span : Span} {finding : Finding} :
    mistakeUnless condition span finding = [] ↔ condition = true := by
  cases condition <;> simp [mistakeUnless]

/-- Whether a walk that starts with the given number of errors reports certain errors, one after another,
and has a certain result, if it comes to an end. -/
def LexicalWalk.Reports (walk : LexicalWalk α) (errors : Nat) (mistakes : List Diagnostic)
    (result : α) : Prop :=
  ∀ reported ended, walk.Ends errors reported ended → reported = mistakes ∧ ended = result

namespace LexicalWalk.Reports

theorem pure (result : α) : (pure result : LexicalWalk α).Reports errors [] result :=
  fun _ _ ends => ends

theorem bind {walk : LexicalWalk α} {next : α → LexicalWalk β} {mistakes more : List Diagnostic}
    {result : α} {last : β} (first : walk.Reports errors mistakes result)
    (rest : (next result).Reports (errors + mistakes.length) more last) :
    (walk >>= next).Reports errors (mistakes ++ more) last := by
  intro reported ended ends
  obtain ⟨_, behind, _, rfl, isFirst, isRest⟩ := ends_bind_iff.mp ends
  obtain ⟨rfl, rfl⟩ := first _ _ isFirst
  obtain ⟨rfl, rfl⟩ := rest _ _ isRest
  exact ⟨rfl, rfl⟩

end LexicalWalk.Reports

namespace Walk

/-- Whether a walk in an environment reports certain errors and has a certain result. -/
abbrev Reports (walk : Walk α) (environment : Environment) (errors : Nat)
    (mistakes : List Diagnostic) (result : α) : Prop :=
  (walk.within environment).Reports errors mistakes result

namespace Reports

variable {walk : Walk α} {next : α → Walk β} {mistakes more : List Diagnostic} {result : α} {last : β}

theorem pure (result : α) : (pure result : Walk α).Reports environment errors [] result :=
  LexicalWalk.Reports.pure result

theorem bind (first : walk.Reports environment errors mistakes result)
    (rest : (next result).Reports environment (errors + mistakes.length) more last) :
    (walk >>= next).Reports environment errors (mistakes ++ more) last := by
  rw [Reports, LexicalWalk.within_bind]
  exact LexicalWalk.Reports.bind first rest

/-- The first part reports nothing. -/
theorem nil_bind (first : walk.Reports environment errors [] result)
    (rest : (next result).Reports environment errors more last) :
    (walk >>= next).Reports environment errors more last := first.bind rest

/-- The second part reports nothing. -/
theorem bind_nil (first : walk.Reports environment errors mistakes result)
    (rest : (next result).Reports environment (errors + mistakes.length) [] last) :
    (walk >>= next).Reports environment errors mistakes last :=
  List.append_nil mistakes ▸ first.bind rest

/-- One check after another. -/
theorem seq {check : Walk Unit} {next : Unit → Walk β}
    (first : check.Reports environment errors mistakes ())
    (rest : (next ()).Reports environment (errors + mistakes.length) more last) :
    (check >>= next).Reports environment errors (mistakes ++ more) last := first.bind rest

/-- What comes after a check reports nothing. -/
theorem seq_nil {check : Walk Unit} {next : Unit → Walk β}
    (first : check.Reports environment errors mistakes ())
    (rest : (next ()).Reports environment (errors + mistakes.length) [] last) :
    (check >>= next).Reports environment errors mistakes last := first.bind_nil rest

theorem ask (request : Request) :
    (Walk.ask request).Reports environment errors request.errors
      (request.reply environment errors) :=
  fun _ _ ends => ends_ask_iff.mp ends

/-- What is asked for without an error gets the answer of the environment. -/
theorem ask_bind {request : Request} {next : request.Answer → Walk β} (silent : request.errors = [])
    (rest : (next (request.reply environment errors)).Reports environment errors more last) :
    (Walk.ask request >>= next).Reports environment errors more last :=
  nil_bind (silent ▸ ask request) rest

theorem lift_bind {value : Except Fault α}
    (rest : ∀ result, value = .ok result → (next result).Reports environment errors more last) :
    ((liftM value : Walk α) >>= next).Reports environment errors more last := by
  intro reported ended ends
  obtain ⟨_, behind, result, rfl, lifted, following⟩ := ends_bind_iff.mp ends
  obtain ⟨rfl, isResult⟩ := ends_lift_iff.mp lifted
  exact rest result isResult behind ended following

theorem require_bind {condition : Bool} {fault : Fault} {next : Unit → Walk β}
    (rest : condition = true → (next ()).Reports environment errors more last) :
    (require condition fault >>= next).Reports environment errors more last := by
  intro reported ended ends
  obtain ⟨_, behind, _, rfl, required, following⟩ := ends_bind_iff.mp ends
  obtain ⟨rfl, holds⟩ := ends_require_iff.mp required
  exact rest holds behind ended following

theorem require (condition : Bool) (fault : Fault) :
    (Walk.require condition fault).Reports environment errors [] () := by
  intro reported ended ends
  exact ⟨(ends_require_iff.mp ends).1, rfl⟩

/-- What was reported since a moment tells whether the number of errors is the same. -/
theorem isQuietSince (mistakes : List Diagnostic) :
    (Walk.isQuietSince errors).Reports environment (errors + mistakes.length) []
      mistakes.isEmpty := by
  have same : mistakes.isEmpty = decide (errors + mistakes.length = errors) := by
    cases mistakes with
    | nil => exact (decide_eq_true rfl).symm
    | cons first rest => exact (decide_eq_false (by rw [List.length_cons]; omega)).symm
  rw [same]
  exact .ask_bind rfl (.pure _)

/-- Nothing was reported since this moment. -/
theorem isQuiet_now :
    (Walk.isQuietSince errors).Reports environment errors [] true := isQuietSince []

/-! ### Reports -/

theorem report {finding : Finding} (isError : finding.category.isError = true) (span : Span) :
    (Setting.report place finding span).Reports environment errors [finding.toDiagnostic span] () := by
  have recorded : (Request.report place (finding.toDiagnostic span)).errors =
      [finding.toDiagnostic span] := if_pos isError
  exact recorded ▸ ask _

theorem report_warning {finding : Finding} (isWarning : finding.category.isError = false)
    (span : Span) : (Setting.report place finding span).Reports environment errors [] () := by
  have silent : (Request.report place (finding.toDiagnostic span)).errors = [] :=
    if_neg (Bool.eq_false_iff.mp isWarning)
  exact silent ▸ ask _

theorem expect_false {finding : Walk Finding} {found : Finding}
    (isError : found.category.isError = true) (span : Span)
    (finds : finding.Reports environment errors [] found) :
    (Setting.expect place false span finding).Reports environment errors [found.toDiagnostic span]
      () := finds.nil_bind (report isError span)

theorem expect {condition : Bool} {finding : Walk Finding} {found : Finding}
    (isError : found.category.isError = true) (span : Span)
    (finds : finding.Reports environment errors [] found) :
    (Setting.expect place condition span finding).Reports environment errors
      (mistakeUnless condition span found) () := by
  cases condition with
  | true => exact .pure ()
  | false => exact expect_false isError span finds

theorem expect_warning {condition : Bool} {finding : Finding}
    (isWarning : finding.category.isError = false) (span : Span) :
    (Setting.expect place condition span (Pure.pure finding)).Reports environment errors [] () := by
  cases condition with
  | true => exact .pure ()
  | false => exact (pure finding).nil_bind (report_warning isWarning span)

/-- The label in a message is the text of it. -/
theorem label (label : Except Fault String) (finding : String → Finding) :
    (liftM label >>= fun label => Pure.pure (finding label) : Walk Finding).Reports environment errors
      [] (finding (labelText label)) := by
  refine .lift_bind fun text isLabel => ?_
  rw [isLabel]
  exact .pure _

theorem labels (first second : Except Fault String) (finding : String → String → Finding) :
    (do
      let one ← liftM first
      let other ← liftM second
      Pure.pure (finding one other) : Walk Finding).Reports environment errors []
      (finding (labelText first) (labelText second)) := by
  refine .lift_bind fun text isLabel => ?_
  rw [isLabel]
  exact label second _

/-- Visits of elements one after another report what each of them reports. -/
theorem forM {elements : List β} {visit : β → Walk Unit} {mistakes : β → List Diagnostic}
    (each : ∀ element ∈ elements, ∀ errors,
      (visit element).Reports environment errors (mistakes element) ()) :
    (elements.forM visit).Reports environment errors (elements.flatMap mistakes) () := by
  induction elements generalizing errors with
  | nil => exact .pure ()
  | cons element rest ih =>
    rw [List.flatMap_cons]
    exact (each element List.mem_cons_self errors).bind
      (ih fun other member => each other (List.mem_cons_of_mem _ member))

end Reports

end Walk

end YulCheck
