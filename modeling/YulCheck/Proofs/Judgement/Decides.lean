import YulCheck.Check.Setting
import YulCheck.Proofs.Judgement.Verdict

/-! # Walks that decide

A walk decides a condition if it is accepted only where the condition holds, and rejected only where
it does not; nothing is said about walks that are broken. The result and the noted types of an
accepted walk are known. Walks that decide compose: the second of two may take the condition of the
first one for granted.
-/

namespace YulCheck

variable {α β : Type}

/-- Whether a verdict decides a condition, with the result and the notes that there are if the
condition holds. -/
def Verdict.Decides (condition : Prop) (result : α) (notes : List (NodeId × List TypeHandle)) :
    Verdict α → Prop
  | accepted value more => condition ∧ value = result ∧ more = notes
  | rejected => ¬condition
  | broken _ => True

/-- Whether a lexical walk decides a condition while there is the given number of errors. -/
def LexicalWalk.Decides (walk : LexicalWalk α) (errors : Nat) (condition : Prop) (result : α)
    (notes : List (NodeId × List TypeHandle)) : Prop :=
  (walk.verdict errors).Decides condition result notes

/-- Whether a walk decides a condition in an environment. -/
def Walk.Decides (walk : Walk α) (environment : Environment) (errors : Nat) (condition : Prop)
    (result : α) (notes : List (NodeId × List TypeHandle)) : Prop :=
  (walk.within environment).Decides errors condition result notes

namespace LexicalWalk.Decides

variable {walk : LexicalWalk α} {next : α → LexicalWalk β} {errors : Nat} {condition other : Prop}
  {result : α} {last : β} {notes more : List (NodeId × List TypeHandle)}

/-- Only the truth of the condition counts. -/
theorem congr (decides : walk.Decides errors condition result notes)
    (same : condition ↔ other) : walk.Decides errors other result notes := by
  rw [← propext same]
  exact decides

theorem done (result : α) : (pure result : LexicalWalk α).Decides errors True result [] :=
  ⟨trivial, rfl, rfl⟩

/-- The second part is decided where the condition of the first one holds. -/
theorem bind (decides : walk.Decides errors condition result notes)
    (rest : condition → (next result).Decides errors other last more) :
    (walk >>= next).Decides errors (condition ∧ other) last (notes ++ more) := by
  rw [Decides, verdict_bind]
  rw [Decides] at decides
  rcases first : walk.verdict errors with ⟨value, noted⟩ | _ | fault
  · rw [first] at decides
    obtain ⟨holds, rfl, rfl⟩ := decides
    have second := rest holds
    rw [Decides] at second
    dsimp only [Verdict.bind]
    rcases following : (next value).verdict errors with ⟨final, later⟩ | _ | fault
    · rw [following] at second
      obtain ⟨otherHolds, rfl, rfl⟩ := second
      exact ⟨⟨holds, otherHolds⟩, rfl, rfl⟩
    · rw [following] at second
      exact fun both => second both.2
    · trivial
  · rw [first] at decides
    exact fun both => decides both.1
  · trivial

/-- The first part notes nothing. -/
theorem and (decides : walk.Decides errors condition result [])
    (rest : condition → (next result).Decides errors other last more) :
    (walk >>= next).Decides errors (condition ∧ other) last more :=
  decides.bind rest

end LexicalWalk.Decides

namespace Walk.Decides

variable {walk : Walk α} {next : α → Walk β} {environment : Environment} {errors : Nat}
  {condition other : Prop} {result : α} {last : β} {notes more : List (NodeId × List TypeHandle)}

theorem congr (decides : walk.Decides environment errors condition result notes)
    (same : condition ↔ other) : walk.Decides environment errors other result notes :=
  LexicalWalk.Decides.congr decides same

theorem done (result : α) : (pure result : Walk α).Decides environment errors True result [] :=
  ⟨trivial, rfl, rfl⟩

theorem bind (decides : walk.Decides environment errors condition result notes)
    (rest : condition → (next result).Decides environment errors other last more) :
    (walk >>= next).Decides environment errors (condition ∧ other) last (notes ++ more) := by
  rw [Walk.Decides, LexicalWalk.within_bind]
  exact LexicalWalk.Decides.bind decides rest

/-- The first part notes nothing. -/
theorem and (decides : walk.Decides environment errors condition result [])
    (rest : condition → (next result).Decides environment errors other last more) :
    (walk >>= next).Decides environment errors (condition ∧ other) last more :=
  decides.bind rest

/-- The second part notes nothing. -/
theorem and_quiet (decides : walk.Decides environment errors condition result notes)
    (rest : condition → (next result).Decides environment errors other last []) :
    (walk >>= next).Decides environment errors (condition ∧ other) last notes :=
  List.append_nil notes ▸ decides.bind rest

/-- The first part always succeeds. -/
theorem true_bind (decides : walk.Decides environment errors True result [])
    (rest : (next result).Decides environment errors other last more) :
    (walk >>= next).Decides environment errors other last more :=
  (decides.bind fun _ => rest).congr (and_iff_right trivial)

/-- The second part always succeeds. -/
theorem bind_true (decides : walk.Decides environment errors condition result notes)
    (rest : (next result).Decides environment errors True last []) :
    (walk >>= next).Decides environment errors condition last notes :=
  List.append_nil notes ▸ (decides.bind fun _ => rest).congr (and_iff_left trivial)

/-- The first part always fails. -/
theorem false_bind (decides : walk.Decides environment errors False result notes) :
    (walk >>= next).Decides environment errors False last more := by
  rw [Walk.Decides, LexicalWalk.within_bind, LexicalWalk.Decides, LexicalWalk.verdict_bind]
  rw [Walk.Decides, LexicalWalk.Decides] at decides
  rcases first : (walk.within environment).verdict errors with ⟨value, noted⟩ | _ | fault
  · rw [first] at decides
    exact absurd decides.1 not_false
  · exact not_false
  · trivial

/-- The walk that asks for one thing. -/
theorem ask {request : Request} {answer : request.Answer}
    (answered : request.verdict environment errors = .accepted answer notes) :
    (Walk.ask request).Decides environment errors True answer notes := by
  have unfolded : ((Walk.ask request).within environment).verdict errors =
      (request.verdict environment errors).bind fun answer => .accepted answer [] := rfl
  rw [Walk.Decides, LexicalWalk.Decides, unfolded, answered]
  exact ⟨trivial, rfl, List.append_nil _⟩

/-- What is required holds if the walk is not broken. -/
theorem require (condition : Bool) (fault : Fault) :
    (Walk.require condition fault).Decides environment errors (condition = true) () [] := by
  cases condition with
  | true => exact ⟨rfl, rfl, rfl⟩
  | false => trivial

/-- What is required does not matter. -/
theorem require_true (condition : Bool) (fault : Fault) :
    (Walk.require condition fault).Decides environment errors True () [] := by
  cases condition with
  | true => exact ⟨trivial, rfl, rfl⟩
  | false => trivial

/-- What is refused breaks the walk. -/
theorem lift_bind {value : Except Fault α}
    (rest : ∀ result, value = .ok result →
      (next result).Decides environment errors condition last more) :
    ((liftM value : Walk α) >>= next).Decides environment errors condition last more := by
  cases value with
  | error fault => trivial
  | ok result => exact rest result rfl

theorem forM {visit : β → Walk Unit} {holds : β → Prop} {elements : List β}
    (each : ∀ element ∈ elements,
      (visit element).Decides environment errors (holds element) () []) :
    (elements.forM visit).Decides environment errors (∀ element ∈ elements, holds element) ()
      [] := by
  induction elements with
  | nil => exact (done ()).congr (by simp)
  | cons element rest ih =>
    refine ((each element List.mem_cons_self).bind fun _ => ih fun other member =>
      each other (List.mem_cons_of_mem _ member)).congr ?_
    exact List.forall_mem_cons.symm

end Walk.Decides

/-! ### Reports -/

namespace Walk

variable {property : α → Prop}

theorem yields_of_accepted {walk : Walk α} (yields : walk.Yields property)
    {environment : Environment} {errors : Nat} {result : α}
    {notes : List (NodeId × List TypeHandle)}
    (accepted : (walk.within environment).verdict errors = .accepted result notes) :
    property result := by
  induction walk generalizing notes with
  | done value =>
    cases accepted
    exact yields
  | broken => cases accepted
  | step request next ih =>
    obtain ⟨answer, _, more, _, following⟩ := Verdict.exists_of_bind_accepted accepted
    exact ih answer (yields answer) following

/-- The second part fails whatever comes out of the first one. -/
theorem bind_false {walk : Walk α} {next : α → Walk β} {environment : Environment} {errors : Nat}
    {result : β} {notes : List (NodeId × List TypeHandle)} (yields : walk.Yields property)
    (fails : ∀ value, property value →
      (next value).Decides environment errors False result notes) :
    (walk >>= next).Decides environment errors False result notes := by
  rw [Walk.Decides, LexicalWalk.within_bind, LexicalWalk.Decides, LexicalWalk.verdict_bind]
  rcases first : (walk.within environment).verdict errors with ⟨value, noted⟩ | _ | fault
  · have second := fails value (yields_of_accepted yields first)
    rw [Walk.Decides, LexicalWalk.Decides] at second
    dsimp only [Verdict.bind]
    rcases following : ((next value).within environment).verdict errors with
      ⟨final, later⟩ | _ | fault
    · rw [following] at second
      exact absurd second.1 not_false
    · exact not_false
    · trivial
  · exact not_false
  · trivial

end Walk

namespace Setting

open Walk

variable {environment : Environment} {errors : Nat} {place : Place}

/-- Whether a finding makes a program wrong. -/
abbrev FindsError (finding : Walk Finding) : Prop := finding.Yields (·.category.isError = true)

theorem decides_report_warning {finding : Finding} (isWarning : finding.category.isError = false)
    (span : Span) : (report place finding span).Decides environment errors True () [] := by
  refine Decides.ask ?_
  have isNoError : (finding.toDiagnostic span).isError = false := isWarning
  rw [Request.verdict, isNoError]
  rfl

theorem finds_pure {found : Finding} (isError : found.category.isError = true) :
    FindsError (pure found) := isError

/-- A finding with labels in it is an error if it is one with all labels. -/
theorem finds_bind {walk : Walk β} {finding : β → Walk Finding}
    (finds : ∀ value, FindsError (finding value)) : FindsError (walk >>= finding) :=
  yields_bind finds

theorem decides_report_error {finding : Finding} (isError : finding.category.isError = true)
    (span : Span) : (report place finding span).Decides environment errors False () [] := by
  have isAnError : (finding.toDiagnostic span).isError = true := isError
  show ((Request.verdict environment errors (.report place (finding.toDiagnostic span))).bind
    _).Decides _ _ _
  rw [Request.verdict, isAnError]
  exact not_false

/-- Where an error is reported unless a condition holds, the condition is decided. -/
theorem decides_expect (condition : Bool) (span : Span) {finding : Walk Finding}
    (finds : FindsError finding) :
    (expect place condition span finding).Decides environment errors (condition = true) () [] := by
  cases condition with
  | true => exact ⟨rfl, rfl, rfl⟩
  | false =>
    have reported : (finding >>= fun found => report place found span).Decides environment errors
        False () [] :=
      bind_false finds fun found isError => decides_report_error isError span
    exact reported.congr (by simp)

/-- An error that is not expected to be there makes a walk fail. -/
theorem decides_expect_false (span : Span) {finding : Walk Finding} (finds : FindsError finding) :
    (expect place false span finding).Decides environment errors False () [] :=
  (decides_expect false span finds).congr (by simp)

end Setting

end YulCheck
