import YulCheck.Proofs.Judgement.Decides
import YulCheck.Proofs.Judgement.Typing

/-! # Decisions about names, literals and identifiers

Each check of a single name, type, literal or use of a variable decides the rule for it.
-/

namespace YulCheck.Setting

open Walk

variable (setting : Setting) {environment : Environment} {errors : Nat} {place : Place}

/-! ### Names and types -/

theorem decides_checkName (name : Handle) (span : Span) :
    (setting.checkName place name span).Decides environment errors (setting.NameIsFree name) ()
      [] := by
  apply Decides.lift_bind
  intro label shown
  apply Decides.congr (Decides.and (decides_expect _ _ (finds_pure rfl)) fun _ =>
    Decides.and (decides_expect _ _ (finds_pure rfl)) fun _ =>
      decides_expect _ _ (finds_pure rfl))
  simp only [bne_iff_ne, Bool.not_eq_true', NameIsFree, shown]
  constructor
  · rintro ⟨noDot, noDots, notReserved⟩
    exact ⟨label, rfl, noDot, noDots, notReserved⟩
  · rintro ⟨_, ⟨rfl⟩, noDot, noDots, notReserved⟩
    exact ⟨noDot, noDots, notReserved⟩

theorem decides_checkType (type : TypeHandle) (span : Span) :
    (setting.checkType place type span).Decides environment errors
      (setting.names.isType type = true) () [] :=
  decides_expect _ _ (finds_bind fun _ => finds_pure rfl)

theorem decides_checkVariable (declared : Variable) :
    (setting.checkVariable place declared).Decides environment errors
      (setting.VariableIsSound declared) () [] := by
  apply Decides.congr (Decides.and (setting.decides_checkName _ _) fun _ =>
    setting.decides_checkType _ _)
  exact ⟨fun ⟨name, type⟩ => ⟨name, type⟩, fun ⟨name, type⟩ => ⟨name, type⟩⟩

theorem decides_checkSameType (expected given : TypeHandle) (span : Span) :
    (setting.checkSameType place expected given span).Decides environment errors
      (expected = given) () [] := by
  refine Decides.congr (decides_expect _ _ ?_) decide_eq_true_iff
  exact finds_bind fun _ => finds_bind fun _ => finds_pure rfl

theorem decides_isQuietSince :
    (isQuietSince errors).Decides environment errors True true [] := by
  apply Decides.true_bind (Decides.ask rfl)
  show (pure (decide (errors = errors)) : Walk Bool).Decides _ _ _ _ _
  rw [decide_eq_true rfl]
  exact Decides.done true

theorem decides_consult (identifier : Identifier) (use : IdentifierUse) :
    (consult place identifier use).Decides environment errors True false [] := Decides.ask rfl

theorem decides_lookup (name : Handle) :
    (lookup place name).Decides environment errors True (environment.lookup? name) [] :=
  Decides.ask rfl

/-! ### Literals -/

theorem decides_checkValue (literal : Literal) :
    (checkValue place literal).Decides environment errors (literal.isValid = true) true [] := by
  rw [checkValue, Literal.isValid]
  cases kind : literal.kind with
  | string =>
    refine Decides.congr (Decides.and (decides_expect _ _ (finds_pure rfl)) fun holds => ?_)
      (and_iff_left trivial)
    rw [holds]
    exact Decides.done true
  | number =>
    refine Decides.congr (Decides.and (decides_expect _ _ (finds_pure rfl)) fun holds => ?_)
      (and_iff_left trivial)
    rw [holds]
    exact Decides.done true
  | boolean =>
    apply Decides.lift_bind
    intro value isValue
    have valid : (LiteralValue.isValid .boolean literal.value = true) ↔
        (value = Word.zero || value = Word.one) = true := by
      cases known : literal.value with
      | unlimited content =>
        rw [known] at isValue
        cases isValue
      | word word spelling =>
        rw [known] at isValue
        cases isValue
        rfl
    apply Decides.congr (Decides.and (Decides.require _ _) fun _ =>
      Decides.true_bind (Decides.require_true _ _) (Decides.done true))
    rw [and_iff_left trivial]
    exact valid.symm

theorem decides_checkLiteral (literal : Literal) :
    (setting.checkLiteral place literal).Decides environment errors
      (setting.LiteralIsSound literal) [literal.type] [] := by
  refine Decides.congr (Decides.and (setting.decides_checkType _ _) fun _ =>
    Decides.and (decides_checkValue literal) fun _ =>
      Decides.and (decides_expect _ _ ?_) fun _ =>
        Decides.true_bind (Decides.require_true _ _) (Decides.done _)) ?_
  · exact finds_bind fun _ => finds_pure rfl
  · exact ⟨fun ⟨isType, isValid, admitted, _⟩ => ⟨isType, admitted, isValid⟩,
      fun ⟨isType, admitted, isValid⟩ => ⟨isType, isValid, admitted, trivial⟩⟩

/-! ### Identifiers -/

theorem decides_checkIdentifier (identifier : Identifier) :
    (setting.checkIdentifier place identifier).Decides environment errors
      ((variableType? environment identifier.name).isSome = true)
      (setting.typesOf environment (.identifier identifier)) [] := by
  apply Decides.true_bind (Decides.require_true _ _)
  apply Decides.true_bind (Decides.ask rfl)
  apply Decides.true_bind (decides_lookup _)
  rw [typesOf, variableType?]
  rcases environment.lookup? identifier.name with _ | ⟨type | ⟨parameters, returns⟩, isActive⟩
  · apply Decides.true_bind (decides_consult _ _)
    apply Decides.true_bind decides_isQuietSince
    refine Decides.congr (Decides.false_bind (decides_expect_false _ ?_)) (by simp)
    exact finds_bind fun _ => finds_pure rfl
  · cases isActive with
    | true =>
      refine Decides.congr (Decides.and (decides_expect _ _ ?_) fun _ =>
        Decides.true_bind (decides_consult _ _) (Decides.done _)) (by simp)
      exact finds_bind fun _ => finds_pure rfl
    | false =>
      refine Decides.congr (Decides.false_bind (decides_expect_false _ ?_)) (by simp)
      exact finds_bind fun _ => finds_pure rfl
  · apply Decides.lift_bind
    intro label _
    exact Decides.congr (Decides.false_bind (decides_report_error rfl _)) (by simp)

end YulCheck.Setting
