import YulCheck.Proofs.Judgement.Values
import YulCheck.Proofs.Name.Answers

/-! # Decisions about calls

Each check of a called function and of the arguments that have to be literals decides the rule for
it. A call is rejected without a report nowhere.
-/

namespace YulCheck.Setting

open Walk

variable (setting : Setting) {environment : Environment} {errors : Nat} {place : Place}

/-! ### Called functions -/

/-- An instruction can be called if the target has its operation code, apart from `pc`. -/
theorem decides_checkInstruction {instruction : Instruction} {version : EvmVersion}
    (isCallable : instruction.isCallable version = true) (span : Span) :
    (setting.checkInstruction place instruction span).Decides environment errors
      (instruction ≠ .pc ∧ ∀ capability, instruction.capability? = some capability →
        setting.version.supports capability = true) false [] := by
  have isOpen : Gate.barring? setting.version instruction = none ↔
      ∀ capability, instruction.capability? = some capability →
        setting.version.supports capability = true :=
    (Gate.barring?_eq_none_iff isCallable).trans (Option.all_eq_true _ _)
  rw [checkInstruction, ← isOpen]
  cases Gate.barring? setting.version instruction with
  | some gate =>
    apply Decides.congr (Decides.false_bind (decides_report_error rfl _))
    exact iff_of_false not_false fun available => nomatch available.2
  | none =>
    dsimp only
    split
    · rename_i isPc
      apply Decides.congr (Decides.false_bind (decides_report_error rfl _))
      exact iff_of_false not_false fun available => available.1 isPc
    · rename_i isNotPc
      exact (Decides.done false).congr (iff_of_true trivial ⟨isNotPc, rfl⟩)

theorem decides_checkTarget (callee : Identifier) :
    (setting.checkTarget place callee).Decides environment errors
      (setting.IsAvailable callee.name) false [] := by
  apply Decides.lift_bind
  intro isAlias aliased
  apply Decides.lift_bind
  intro isVerbatim verbatim
  by_cases hidden : (isAlias && !isVerbatim) = true
  · rw [if_pos hidden]
    refine (Decides.done false).congr (iff_of_true trivial ?_)
    rw [Bool.and_eq_true, Bool.not_eq_true'] at hidden
    intro label instruction labelled
    rw [hidden.1] at aliased
    rw [hidden.2] at verbatim
    exact absurd labelled (NameTable.label_ne_ok_of_alias aliased verbatim label)
  · rw [if_neg hidden]
    apply Decides.lift_bind
    intro label labelled
    have same : (∀ instruction, Instruction.ofName? label = some instruction →
        instruction.isCallable .default = true → instruction ≠ .pc ∧
          ∀ capability, instruction.capability? = some capability →
            setting.version.supports capability = true) ↔ setting.IsAvailable callee.name := by
      constructor
      · intro available other instruction shown named
        rw [labelled] at shown
        cases shown
        exact available instruction named
      · intro available instruction named
        exact available label instruction labelled named
    refine Decides.congr ?_ same
    cases named : (Instruction.ofName? label).filter (·.isCallable .default) with
    | none =>
      refine (Decides.done false).congr (iff_of_true trivial ?_)
      intro instruction isNamed callable
      rw [isNamed, Option.filter_some, if_pos callable] at named
      cases named
    | some instruction =>
      obtain ⟨isNamed, callable⟩ := Option.filter_eq_some_iff.mp named
      apply (setting.decides_checkInstruction callable callee.span).congr
      constructor
      · intro available other otherNamed _
        rw [isNamed] at otherNamed
        cases otherNamed
        exact available
      · intro available
        exact available instruction isNamed callable

theorem decides_warnOfUse (callee : Identifier) :
    (setting.warnOfUse place callee).Decides environment errors True () [] := by
  rw [warnOfUse]
  split
  · exact decides_report_warning rfl _
  · split
    · exact Decides.ask rfl
    · exact Decides.done ()

/-- What a name calls. -/
def calleeOf (environment : Environment) (name : Handle) : Callee :=
  ⟨setting.signature? environment name, setting.literalsOf name, false⟩

theorem decides_resolveCallee (callee : Identifier) :
    (setting.resolveCallee place errors callee).Decides environment errors
      ((∀ builtin, setting.names.builtin? callee.name = .ok (some builtin) →
          setting.IsAvailable callee.name) ∧
        (setting.signature? environment callee.name).isSome = true)
      (setting.calleeOf environment callee.name) [] := by
  apply Decides.lift_bind
  intro builtin? found
  rw [calleeOf, signature?, literalsOf, found]
  cases builtin? with
  | some builtin =>
    apply Decides.true_bind (setting.decides_warnOfUse callee)
    refine Decides.congr (Decides.and (setting.decides_checkTarget callee) fun _ =>
      Decides.true_bind (Decides.ask rfl) (Decides.done _)) ?_
    exact ⟨fun ⟨available, _⟩ => ⟨fun _ _ => available, rfl⟩,
      fun ⟨available, _⟩ => ⟨available builtin rfl, trivial⟩⟩
  | none =>
    apply Decides.true_bind (decides_lookup _)
    rcases environment.lookup? callee.name with _ | ⟨type | ⟨parameters, returns⟩, isActive⟩
    · refine Decides.congr (Decides.and (setting.decides_checkTarget callee) fun _ =>
        Decides.true_bind (decides_consult _ _) (Decides.true_bind decides_isQuietSince
          (Decides.false_bind (decides_expect_false _ ?_)))) (by simp)
      exact finds_bind fun _ => finds_pure rfl
    · refine Decides.congr (Decides.false_bind (decides_report_error rfl _)) (by simp)
    · exact Decides.congr (Decides.true_bind (decides_consult _ _) (Decides.done _)) (by simp)

theorem decides_checkArgumentCount (parameters returns : List TypeHandle)
    (literals : List (Option LiteralKind)) (name : Identifier) (given : Nat) :
    (setting.checkArgumentCount place ⟨some (parameters, returns), literals, false⟩ name
      given).Decides environment errors (given = parameters.length) () [] := by
  refine Decides.congr (decides_expect _ _ ?_) decide_eq_true_iff
  exact finds_bind fun _ => finds_pure rfl

/-! ### Literal arguments -/

theorem decides_checkContent (function : Handle) (literal : Literal) :
    (setting.checkContent place function literal).Decides environment errors
      (setting.ContentIsSound function literal) () [] := by
  rw [checkContent, ContentIsSound]
  dsimp only
  split
  · rename_i isData
    rw [Bool.or_eq_true, decide_eq_true_iff, decide_eq_true_iff] at isData
    rw [if_pos isData]
    apply Decides.congr (decides_expect _ _ (finds_pure rfl))
    rw [List.contains_iff_mem]
  · rename_i isOther
    rw [Bool.or_eq_true, decide_eq_true_iff, decide_eq_true_iff] at isOther
    rw [if_neg isOther]
    apply Decides.lift_bind
    intro isVerbatim verbatim
    rw [verbatim]
    cases isVerbatim with
    | false => exact (Decides.done ()).congr (by simp)
    | true =>
      cases literal.value <;>
        exact Decides.congr (Decides.true_bind (Decides.done _) (decides_expect _ _ (finds_pure rfl)))
          (by simp)

theorem decides_checkStringArgument (function : Handle) {literal : Literal}
    (isString : literal.kind = .string) :
    (setting.checkStringArgument place function literal).Decides environment errors
      (setting.ContentIsSound function literal ∧ literal.isValid = true) literal.type
      [(literal.id, [literal.type])] := by
  have valid : (Walk.require literal.value.isUnlimited .argumentNotUnlimited).Decides environment
      errors (literal.isValid = true) () [] := by
    cases unlimited : literal.value.isUnlimited with
    | false => trivial
    | true =>
      refine ⟨?_, rfl, rfl⟩
      rw [Literal.isValid, isString, LiteralValue.isValid, unlimited, Bool.true_or]
  rw [checkStringArgument]
  apply Decides.and (setting.decides_checkContent function literal)
  intro _
  dsimp only
  rw [isString]
  apply Decides.true_bind (Decides.require_true _ _)
  refine Decides.congr (Decides.and valid fun _ =>
    Decides.bind_true (Decides.ask rfl) (Decides.done _)) ?_
  rw [and_iff_left trivial]

end YulCheck.Setting
