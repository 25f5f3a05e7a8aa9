import YulCheck.Proofs.Host.Unstopped
import YulCheck.Proofs.Lexical.Agreement

/-! # The errors of a walk

Which errors a lexical walk reports, one after another, can be told from its environments, as long as
there is neither a host nor a limit of errors. `LexicalWalk.Ends` tells which errors come before which
result; a run that agrees with the environments reports these.
-/

namespace YulCheck

variable {σ α β : Type}

/-- The errors that a request reports. -/
def Request.errors : Request → List Diagnostic
  | .report _ diagnostic => if diagnostic.isError then [diagnostic] else []
  | _ => []

/-- The answer to a request in an environment while there is the given number of errors. No host knows
any name. -/
def Request.reply (environment : Environment) (errors : Nat) : (request : Request) → request.Answer
  | .lookup _ name => environment.lookup? name
  | .openScope _ | .resumeScope _ | .leaveScope | .report .. | .warnOnce _ | .noteTypes ..
  | .noteEffects _ => ()
  | .bind .. | .hasScope _ | .activate .. => true
  | .errorCount => errors
  | .consult .. => false

namespace LexicalWalk

/-- Whether a walk that starts with the given number of errors reports certain errors and then ends with
a result. -/
def Ends : LexicalWalk α → (errors : Nat) → (reported : List Diagnostic) → (result : α) → Prop
  | done value, _, reported, result => reported = [] ∧ result = value
  | broken _, _, _, _ => False
  | step environment request next, errors, reported, result =>
    ∃ rest, reported = request.errors ++ rest ∧
      (next (request.reply environment errors)).Ends (errors + request.errors.length) rest result

variable {errors : Nat} {reported : List Diagnostic}

/-- The errors of one walk after another. -/
theorem ends_bind_iff {walk : LexicalWalk α} {next : α → LexicalWalk β} {last : β} :
    (walk >>= next).Ends errors reported last ↔
      ∃ first rest result, reported = first ++ rest ∧ walk.Ends errors first result ∧
        (next result).Ends (errors + first.length) rest last := by
  induction walk generalizing errors reported with
  | done value =>
    constructor
    · intro ends
      exact ⟨[], reported, value, rfl, ⟨rfl, rfl⟩, ends⟩
    · rintro ⟨_, rest, _, rfl, ⟨rfl, rfl⟩, ends⟩
      exact ends
  | broken fault =>
    constructor
    · exact False.elim
    · rintro ⟨_, _, _, _, isBroken, _⟩
      exact isBroken
  | step environment request answered ih =>
    constructor
    · rintro ⟨behind, rfl, ends⟩
      obtain ⟨first, rest, result, rfl, ended, more⟩ := (ih _).mp ends
      refine ⟨request.errors ++ first, rest, result, (List.append_assoc _ _ _).symm,
        ⟨first, rfl, ended⟩, ?_⟩
      rw [List.length_append, ← Nat.add_assoc]
      exact more
    · rintro ⟨_, rest, result, rfl, ⟨first, rfl, ended⟩, more⟩
      refine ⟨first ++ rest, List.append_assoc _ _ _, (ih _).mpr ⟨first, rest, result, rfl, ended, ?_⟩⟩
      rw [List.length_append, ← Nat.add_assoc] at more
      exact more

end LexicalWalk

namespace Walk

/-- Whether a walk in an environment reports certain errors and then ends with a result. -/
abbrev Ends (walk : Walk α) (environment : Environment) (errors : Nat) (reported : List Diagnostic)
    (result : α) : Prop :=
  (walk.within environment).Ends errors reported result

variable {environment : Environment} {errors : Nat} {reported : List Diagnostic}

theorem ends_bind_iff {walk : Walk α} {next : α → Walk β} {last : β} :
    (walk >>= next).Ends environment errors reported last ↔
      ∃ first rest result, reported = first ++ rest ∧ walk.Ends environment errors first result ∧
        (next result).Ends environment (errors + first.length) rest last := by
  rw [Ends, LexicalWalk.within_bind, LexicalWalk.ends_bind_iff]

@[simp]
theorem ends_ask_iff {request : Request} {answer : request.Answer} :
    (ask request).Ends environment errors reported answer ↔
      reported = request.errors ∧ answer = request.reply environment errors := by
  constructor
  · rintro ⟨_, rfl, rfl, same⟩
    exact ⟨List.append_nil _, same⟩
  · rintro ⟨rfl, same⟩
    exact ⟨[], (List.append_nil _).symm, rfl, same⟩

@[simp]
theorem ends_lift_iff {value : Except Fault α} {result : α} :
    (liftM value : Walk α).Ends environment errors reported result ↔
      reported = [] ∧ value = .ok result := by
  cases value with
  | error fault => exact iff_of_false not_false nofun
  | ok value =>
    rw [Except.ok.injEq, eq_comm (a := value)]
    exact Iff.rfl

@[simp]
theorem ends_require_iff {condition : Bool} {fault : Fault} :
    (require condition fault).Ends environment errors reported () ↔
      reported = [] ∧ condition = true := by
  cases condition with
  | false => exact iff_of_false not_false nofun
  | true => exact and_congr_right fun _ => iff_of_true rfl rfl

end Walk

/-! ### Reports -/

/-- The numbers of the warnings about programs, and that of the note about dropped warnings. -/
def warningCodes : List Nat := [1699, 2394, 9592, 4591]

theorem Finding.code_mem_warningCodes {finding : Finding}
    (isWarning : finding.category.isError = false) : finding.code ∈ warningCodes := by
  cases finding with
  | selfdestructDeprecated | transientStorage | onlyDefaultCase => decide
  | _ => cases isWarning

/-- Whether diagnostics are the given errors, with warnings about programs between them. -/
structure ConsistsOf (errors appended : List Diagnostic) : Prop where
  errors : appended.filter (·.isError) = errors
  warnings : ∀ diagnostic ∈ appended, diagnostic.isError = false → diagnostic.code ∈ warningCodes

theorem ConsistsOf.nil : ConsistsOf [] [] := ⟨rfl, nofun⟩

theorem ConsistsOf.append {errors others appended more : List Diagnostic}
    (first : ConsistsOf errors appended) (second : ConsistsOf others more) :
    ConsistsOf (errors ++ others) (appended ++ more) where
  errors := by rw [List.filter_append, first.errors, second.errors]
  warnings := List.forall_mem_append.mpr ⟨first.warnings, second.warnings⟩

theorem ConsistsOf.length {errors appended : List Diagnostic} (consists : ConsistsOf errors appended) :
    appended.countP (·.isError) = errors.length := by
  rw [List.countP_eq_length_filter, consists.errors]

/-- A finding that is accepted is recorded if it is an error. -/
theorem Reporter.exists_consistsOf_of_report {reporter after : Reporter} {finding : Finding}
    {span : Span} (accepted : reporter.report (finding.toDiagnostic span) = (.ok (), after)) :
    ∃ appended, reporter.Appends after appended ∧
      ConsistsOf (if (finding.toDiagnostic span).isError then [finding.toDiagnostic span] else [])
        appended := by
  have reported := reporter.reported_report (finding.toDiagnostic span)
  rw [accepted] at reported
  cases reported with
  | error isError =>
    rw [if_pos isError]
    refine ⟨[_], appends_record rfl (if_pos isError).symm, ?_, ?_⟩
    · exact List.filter_eq_self.mpr (List.forall_mem_singleton.mpr isError)
    · exact List.forall_mem_singleton.mpr fun isWarning => absurd isError (isWarning ▸ Bool.false_ne_true)
  | warning isWarning =>
    have noError := Bool.eq_false_iff.mp isWarning
    rw [if_neg noError]
    refine ⟨[_], appends_record rfl (if_neg noError).symm, ?_, ?_⟩
    · exact List.filter_eq_nil_iff.mpr (List.forall_mem_singleton.mpr noError)
    · exact List.forall_mem_singleton.mpr fun _ => Finding.code_mem_warningCodes isWarning
  | noted isWarning =>
    rw [if_neg (Bool.eq_false_iff.mp isWarning)]
    refine ⟨[_], appends_record rfl rfl, rfl, ?_⟩
    exact List.forall_mem_singleton.mpr fun _ => (by decide : 4591 ∈ warningCodes)
  | dropped isWarning =>
    rw [if_neg (Bool.eq_false_iff.mp isWarning)]
    exact ⟨[], .refl _, .nil⟩

/-! ### Runs -/

namespace Run

variable {state after : RunState σ} {environment : Environment}

/-- A request that is answered the way the environment does gets the answer of the environment, and what
is appended are its errors, apart from warnings. -/
theorem reply_of_answer {request : Request} {given : request.Answer}
    (answers : environment.Answers state request) (finds : request.ReportsFindings)
    (answered : answer none request state = .ok (.ok given, after)) :
    given = request.reply environment state.reporter.errorCount ∧
      ∃ appended, state.reporter.Appends after.reporter appended ∧
        ConsistsOf request.errors appended := by
  have unchanged : ∃ appended, state.reporter.Appends state.reporter appended ∧
      ConsistsOf [] appended := ⟨[], .refl _, .nil⟩
  cases request with
  | openScope | resumeScope | leaveScope | bind => cases answers
  | hasScope owner =>
    cases answered
    exact ⟨answers, unchanged⟩
  | errorCount | noteTypes | noteEffects | consult =>
    cases answered
    exact ⟨rfl, unchanged⟩
  | lookup block name =>
    obtain ⟨scope, owned, found⟩ := answers
    rw [answer, lookup_apply, owned] at answered
    cases answered
    exact ⟨found, unchanged⟩
  | activate owner name =>
    obtain ⟨scope, owned, bound⟩ := answers
    rw [answer, activate_apply, owned] at answered
    cases answered
    exact ⟨bound, unchanged⟩
  | warnOnce diagnostic =>
    obtain ⟨span, rfl⟩ := finds
    cases answered
    refine ⟨rfl, ?_⟩
    dsimp only
    split
    · exact unchanged
    · exact Reporter.exists_consistsOf_of_report (Reporter.report_of_warning _ rfl)
  | report place diagnostic =>
    obtain ⟨finding, span, rfl⟩ := finds
    rw [answer, report_apply] at answered
    split at answered <;> cases answered
    exact ⟨rfl, Reporter.exists_consistsOf_of_report (by assumption)⟩

end Run

/-- A run that agrees with the environments of a walk and ends with a result appends the errors of the
walk, apart from warnings. -/
theorem LexicalWalk.exists_ends_of_completed {walk : LexicalWalk α} {state after : RunState σ}
    {result : α} (agrees : walk.Agrees none state)
    (finds : walk.erase.Only Request.ReportsFindings)
    (ran : walk.erase.run none state = .ok (.ok result, after)) :
    ∃ reported appended, walk.Ends state.reporter.errorCount reported result ∧
      state.reporter.Appends after.reporter appended ∧ ConsistsOf reported appended := by
  induction walk generalizing state with
  | done value =>
    cases ran
    exact ⟨[], [], ⟨rfl, rfl⟩, .refl _, .nil⟩
  | broken fault => cases ran
  | step environment request next ih =>
    obtain ⟨answers, agrees⟩ := agrees
    rw [erase, Walk.run_step] at ran
    obtain ⟨given, middle, answered, ran⟩ := Run.bind_eq_ok_ok_iff.mp ran
    obtain ⟨rfl, first, earlier, isFirst⟩ := Run.reply_of_answer answers finds.1 answered
    obtain ⟨reported, appended, ends, later, isRest⟩ := ih _ (agrees _ _ answered) (finds.2 _) ran
    rw [earlier.errorCount, isFirst.length] at ends
    exact ⟨request.errors ++ reported, first ++ appended, ⟨reported, rfl, ends⟩,
      earlier.trans later, isFirst.append isRest⟩

/-- Without a limit of errors, a run that agrees with the environments of a walk and does not break off
ends with a result, and what it appends are the errors of the walk, apart from warnings. -/
theorem LexicalWalk.exists_ends_of_run {walk : LexicalWalk α} {state after : RunState σ}
    {outcome : Except Failure α} (agrees : walk.Agrees none state)
    (finds : walk.erase.Only Request.ReportsFindings)
    (noLimit : state.reporter.errorLimit? = none)
    (ran : walk.erase.run none state = .ok (outcome, after)) :
    ∃ result reported appended, outcome = .ok result ∧
      walk.Ends state.reporter.errorCount reported result ∧
        state.reporter.Appends after.reporter appended ∧ ConsistsOf reported appended := by
  obtain ⟨result, rfl⟩ := Walk.not_stopped_of_run nofun noLimit ran
  obtain ⟨reported, appended, ends, appends, consists⟩ := exists_ends_of_completed agrees finds ran
  exact ⟨result, reported, appended, rfl, ends, appends, consists⟩

end YulCheck
