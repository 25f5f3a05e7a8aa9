import YulCheck.Check.Setting
import YulCheck.Proofs.Safety.Completes

/-! # Safe walks

A walk is safe in an environment if it comes to an end there from any number of errors, with a
property of its result. Safe walks compose, and what is looked up in them has to be answered. Where
the number of errors matters, as behind a report, the walk is said to complete from a given one.
-/

namespace YulCheck

variable {α β : Type}

namespace Walk

/-- Whether a walk comes to an end in an environment from a number of errors. -/
def Completes (walk : Walk α) (environment : Environment) (errors : Nat)
    (holds : α → Nat → Prop) : Prop :=
  (walk.within environment).Completes errors holds

/-- Whether a walk comes to an end in an environment from any number of errors. -/
def IsSafe (walk : Walk α) (environment : Environment) (holds : α → Prop) : Prop :=
  ∀ errors, walk.Completes environment errors fun result _ => holds result

variable {walk : Walk α} {next : α → Walk β} {environment : Environment} {errors : Nat}

/-! ### Walks from a number of errors -/

namespace Completes

variable {middle weaker : α → Nat → Prop} {holds : β → Nat → Prop}

theorem imp (completes : walk.Completes environment errors middle)
    (implies : ∀ result after, middle result after → weaker result after) :
    walk.Completes environment errors weaker :=
  LexicalWalk.Completes.imp completes implies

theorem le (completes : walk.Completes environment errors middle) :
    walk.Completes environment errors fun result after => errors ≤ after ∧ middle result after :=
  LexicalWalk.Completes.le completes

theorem pure {result : α} (done : middle result errors) :
    (pure result : Walk α).Completes environment errors middle := done

theorem bind (first : walk.Completes environment errors middle)
    (rest : ∀ result after, middle result after → (next result).Completes environment after holds) :
    (walk >>= next).Completes environment errors holds := by
  rw [Walk.Completes, LexicalWalk.within_bind]
  exact LexicalWalk.Completes.bind first rest

/-- The walk that asks for one thing. -/
theorem ask {request : Request} {holds : request.Answer → Nat → Prop}
    (allowed : ∀ answer after, request.Allows environment errors answer after →
      holds answer after) :
    (Walk.ask request).Completes environment errors holds := allowed

/-- What is answered does not break a walk. -/
theorem lift_bind {value : Except Fault α} {result : α} (answered : value = .ok result)
    (rest : (next result).Completes environment errors holds) :
    ((liftM value : Walk α) >>= next).Completes environment errors holds := by
  subst answered
  exact rest

/-- What is required does not break a walk if it holds. -/
theorem require {condition : Bool} {fault : Fault} {holds : Unit → Nat → Prop}
    (isTrue : condition = true) (done : holds () errors) :
    (Walk.require condition fault).Completes environment errors holds := by
  subst isTrue
  exact done

theorem require_bind {condition : Bool} {fault : Fault} {next : Unit → Walk β}
    (isTrue : condition = true) (rest : (next ()).Completes environment errors holds) :
    (Walk.require condition fault >>= next).Completes environment errors holds := by
  subst isTrue
  exact rest

theorem errorCount {holds : Nat → Nat → Prop} (done : holds errors errors) :
    (Walk.ask .errorCount).Completes environment errors holds := by
  apply ask
  rintro answer after ⟨rfl, rfl⟩
  exact done

theorem isQuietSince (start : Nat) :
    (Walk.isQuietSince start).Completes environment errors fun isQuiet after =>
      isQuiet = decide (errors = start) ∧ after = errors :=
  (errorCount ⟨rfl, rfl⟩ : Walk.Completes _ environment errors
    fun answer after => answer = errors ∧ after = errors).bind <| by
      rintro answer after ⟨rfl, rfl⟩
      exact pure ⟨rfl, rfl⟩

end Completes

/-! ### Safe walks -/

namespace IsSafe

variable {middle : α → Prop} {holds : β → Prop}

theorem completes (safe : walk.IsSafe environment middle) (errors : Nat) :
    walk.Completes environment errors fun result after => errors ≤ after ∧ middle result :=
  (safe errors).le

theorem pure {result : α} (done : middle result) :
    (pure result : Walk α).IsSafe environment middle := fun _ => done

theorem bind (first : walk.IsSafe environment middle)
    (rest : ∀ result, middle result → (next result).IsSafe environment holds) :
    (walk >>= next).IsSafe environment holds :=
  fun errors => (first errors).bind fun result after done => rest result done after

theorem lift_bind {value : Except Fault α} {result : α} (answered : value = .ok result)
    (rest : (next result).IsSafe environment holds) :
    ((liftM value : Walk α) >>= next).IsSafe environment holds :=
  fun errors => .lift_bind answered (rest errors)

theorem require {condition : Bool} {fault : Fault} (isTrue : condition = true) :
    (Walk.require condition fault).IsSafe environment fun _ => True :=
  fun _ => .require isTrue trivial

theorem errorCount : (Walk.ask .errorCount).IsSafe environment fun _ => True :=
  fun _ => .errorCount trivial

theorem isQuietSince (start : Nat) :
    (Walk.isQuietSince start).IsSafe environment fun _ => True :=
  errorCount.bind fun _ _ => pure trivial

/-- The answer to a request does not matter. -/
theorem ask (request : Request) : (Walk.ask request).IsSafe environment fun _ => True :=
  fun _ => .ask fun _ _ _ => trivial

/-- The scope of a node is there. -/
theorem hasScope (owner : ScopeOwner) :
    (Walk.ask (.hasScope owner)).IsSafe environment fun isThere => isThere = true :=
  fun _ => .ask fun _ _ allows => allows.1

/-- The scope of a node binds what is declared in it. -/
theorem activate (owner : ScopeOwner) (name : Handle) :
    (Walk.ask (.activate owner name)).IsSafe environment fun isBound => isBound = true :=
  fun _ => .ask fun _ _ allows => allows.1

theorem forM {elements : List β} {visit : β → Walk Unit}
    (each : ∀ element ∈ elements, (visit element).IsSafe environment fun _ => True) :
    (elements.forM visit).IsSafe environment fun _ => True := by
  induction elements with
  | nil => exact pure trivial
  | cons element rest ih =>
    rw [List.forall_mem_cons] at each
    exact each.1.bind fun _ _ => ih each.2

theorem mapM {elements : List α} {visit : α → Walk β}
    (each : ∀ element ∈ elements, (visit element).IsSafe environment fun _ => True) :
    (elements.mapM visit).IsSafe environment fun _ => True := by
  induction elements with
  | nil => exact pure trivial
  | cons element rest ih =>
    rw [List.forall_mem_cons] at each
    rw [List.mapM_cons]
    exact each.1.bind fun _ _ => (ih each.2).bind fun _ _ => pure trivial

end IsSafe

end Walk

/-! ### Safe walks with their environments -/

namespace LexicalWalk

/-- Whether a lexical walk comes to an end from any number of errors. -/
def IsSafe (walk : LexicalWalk α) (holds : α → Prop) : Prop :=
  ∀ errors, walk.Completes errors fun result _ => holds result

namespace IsSafe

variable {middle : α → Prop} {holds : β → Prop}

theorem within {walk : Walk α} {environment : Environment}
    (safe : walk.IsSafe environment middle) : (walk.within environment).IsSafe middle := safe

theorem pure {result : α} (done : middle result) : (pure result : LexicalWalk α).IsSafe middle :=
  fun _ => done

theorem bind {walk : LexicalWalk α} {next : α → LexicalWalk β} (first : walk.IsSafe middle)
    (rest : ∀ result, middle result → (next result).IsSafe holds) :
    (walk >>= next).IsSafe holds :=
  fun errors => (first errors).bind fun result after done => rest result done after

end IsSafe

end LexicalWalk

/-! ### Reports -/

namespace Setting

open Walk

variable {environment : Environment} {errors : Nat} {place : Place}

/-- Whether a finding is found, and is an error. -/
abbrev FindsSafely (environment : Environment) (finding : Walk Finding) : Prop :=
  finding.IsSafe environment fun found => found.category.isError = true

theorem safe_report (finding : Finding) (span : Span) :
    (report place finding span).IsSafe environment fun _ => True := IsSafe.ask _

/-- An error is counted. -/
theorem completes_report {finding : Finding} (isError : finding.category.isError = true)
    (span : Span) :
    (report place finding span).Completes environment errors fun _ after => errors < after := by
  apply Completes.ask
  intro _ after allows
  have counted : after = if finding.category.isError then errors + 1 else errors := allows
  rw [isError] at counted
  rw [counted]
  exact Nat.lt_succ_self errors

/-- Where a condition is expected that does not hold, an error is counted. -/
theorem completes_expect (condition : Bool) (span : Span) {finding : Walk Finding}
    (finds : FindsSafely environment finding) :
    (expect place condition span finding).Completes environment errors fun _ after =>
      errors ≤ after ∧ (condition = true ∨ errors < after) := by
  cases condition with
  | true => exact Completes.pure ⟨Nat.le_refl _, .inl rfl⟩
  | false =>
    have reported : (finding >>= fun found => report place found span).Completes environment errors
        fun _ after => errors ≤ after ∧ (false = true ∨ errors < after) := by
      apply (finds.completes errors).bind
      rintro found after ⟨isLater, isError⟩
      apply (completes_report isError span).imp
      intro _ last isCounted
      exact ⟨by omega, .inr (by omega)⟩
    exact reported

theorem safe_expect (condition : Bool) (span : Span) {finding : Walk Finding}
    (finds : FindsSafely environment finding) :
    (expect place condition span finding).IsSafe environment fun _ => True :=
  fun _ => (completes_expect condition span finds).imp fun _ _ _ => trivial

/-- A warning is reported as safely as an error. -/
theorem safe_expect_pure (condition : Bool) (span : Span) (found : Finding) :
    (expect place condition span (pure found)).IsSafe environment fun _ => True := by
  cases condition with
  | true => exact IsSafe.pure trivial
  | false => exact safe_report found span

theorem finds_pure_safely {found : Finding} (isError : found.category.isError = true) :
    FindsSafely environment (pure found) := IsSafe.pure isError

/-- A finding with a label in it is found if there is that label. -/
theorem finds_label_safely {label? : Except Fault String} (isLabelled : ∃ label, label? = .ok label)
    {finding : String → Walk Finding}
    (finds : ∀ label, FindsSafely environment (finding label)) :
    FindsSafely environment ((liftM label? : Walk String) >>= finding) := by
  obtain ⟨label, answered⟩ := isLabelled
  exact IsSafe.lift_bind answered (finds label)

end Setting

end YulCheck
