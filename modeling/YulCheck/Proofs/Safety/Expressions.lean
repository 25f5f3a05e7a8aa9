import YulCheck.Proofs.Build.Tree
import YulCheck.Proofs.Safety.Rules

/-! # Checking expressions safely

The checks of names, literals and expressions come to an end if the name table is ready, and if what
is checked and the environment around it have all that checking relies on. The types of an expression
have labels. A call whose function is not known is rejected only behind an error, so what a call
without an error relies on is there.
-/

namespace YulCheck

/-! ### Environments -/

/-- Whether the types of a variable, or of a function, have labels. -/
def Binding.IsBuilt (table : NameTable) : Binding → Prop
  | .variable type => table.HasLabel type
  | .function parameters returns => ∀ type ∈ parameters ++ returns, table.HasLabel type

/-- Whether all types in an environment have labels. -/
def Environment.IsBuilt (table : NameTable) (environment : Environment) : Prop :=
  ∀ frame ∈ environment, ∀ entry ∈ frame.bindings, entry.2.IsBuilt table

namespace Environment.IsBuilt

variable {table : NameTable} {environment : Environment}

theorem of_lookupFrom (built : environment.IsBuilt table) {name : Handle} {leftFunction : Bool}
    {found : Found} (isFound : environment.lookupFrom name leftFunction = some found) :
    found.binding.IsBuilt table := by
  induction environment generalizing leftFunction with
  | nil => cases isFound
  | cons frame outer ih =>
    rw [IsBuilt, List.forall_mem_cons] at built
    rw [lookupFrom] at isFound
    split at isFound
    · rename_i binding known
      split at isFound
      · cases isFound
      · obtain rfl := Option.some.inj isFound
        exact built.1 _ (List.mem_of_lookup_eq_some known)
    · exact ih built.2 isFound

/-- The types of what a name refers to have labels. -/
theorem of_lookup? (built : environment.IsBuilt table) {name : Handle} {found : Found}
    (isFound : environment.lookup? name = some found) : found.binding.IsBuilt table :=
  built.of_lookupFrom isFound

end Environment.IsBuilt

namespace Setting

open Walk

variable {setting : Setting} {place : Place} {environment : Environment} {dialect : Dialect}
  {errors : Nat}

/-! ### Names and types -/

theorem safe_checkName {name : Handle} (isShown : setting.names.IsShown name) (span : Span) :
    (setting.checkName place name span).IsSafe environment fun _ => True := by
  obtain ⟨label, answered⟩ := isShown
  apply IsSafe.lift_bind answered
  apply (safe_expect _ span (finds_pure_safely rfl)).bind
  intro _ _
  apply (safe_expect _ span (finds_pure_safely rfl)).bind
  exact fun _ _ => safe_expect _ span (finds_pure_safely rfl)

theorem safe_checkType {type : TypeHandle} (hasLabel : setting.names.HasLabel type) (span : Span) :
    (setting.checkType place type span).IsSafe environment fun _ => True :=
  safe_expect _ span (finds_label_safely hasLabel.isShown fun _ => finds_pure_safely rfl)

theorem safe_checkVariable {declared : Variable} (built : declared.IsBuilt setting.names) :
    (setting.checkVariable place declared).IsSafe environment fun _ => True :=
  (safe_checkName built.name declared.span).bind fun _ _ => safe_checkType built.type declared.span

theorem safe_checkSameType {expected given : TypeHandle} (isExpected : setting.names.HasLabel expected)
    (isGiven : setting.names.HasLabel given) (span : Span) :
    (setting.checkSameType place expected given span).IsSafe environment fun _ => True :=
  safe_expect _ span <| finds_label_safely isExpected fun _ =>
    finds_label_safely isGiven fun _ => finds_pure_safely rfl

/-! ### Literals -/

/-- A value that is announced as right respects the limits of its kind. -/
theorem safe_checkValue {literal : Literal} (built : literal.IsBuilt setting.names) :
    (checkValue place literal).IsSafe environment fun isRight =>
      isRight = true → literal.isValid = true := by
  rw [checkValue]
  split <;> rename_i kind
  · apply (safe_expect _ literal.span (finds_pure_safely rfl)).bind
    intro _ _
    apply IsSafe.pure
    rw [Literal.isValid, kind]
    exact id
  · apply (safe_expect _ literal.span (finds_pure_safely rfl)).bind
    intro _ _
    apply IsSafe.pure
    rw [Literal.isValid, kind]
    exact id
  · obtain ⟨flag, isTruth⟩ := built.truth kind
    rw [Literal.isValid, kind, isTruth]
    cases flag <;> exact fun _ => fun _ => rfl

theorem safe_checkLiteral {literal : Literal} (built : literal.IsBuilt setting.names) :
    (setting.checkLiteral place literal).IsSafe environment fun types => types = [literal.type] := by
  apply (safe_checkType built.type literal.span).bind
  intro _ _
  apply (safe_checkValue built).bind
  intro hasRightValue isRight
  apply (safe_expect _ literal.span
    (finds_label_safely built.type fun _ => finds_pure_safely rfl)).bind
  intro _ _
  apply (IsSafe.require ?_).bind
  · exact fun _ _ => IsSafe.pure rfl
  · rw [Bool.or_eq_true, Bool.not_eq_true', Bool.and_eq_false_iff]
    cases hasRightValue with
    | true => exact .inr (isRight rfl)
    | false => exact .inl (.inl rfl)

/-! ### Identifiers -/

/-- A name refers to what the environment says. -/
theorem safe_lookup (name : Handle) :
    (lookup place name).IsSafe environment fun found? => found? = environment.lookup? name := by
  intro errors
  apply Completes.ask
  exact fun _ _ allows => allows.1

theorem safe_consult (identifier : Identifier) (use : IdentifierUse) :
    (consult place identifier use).IsSafe environment fun _ => True := IsSafe.ask _

theorem safe_checkIdentifier (ready : setting.names.IsReady dialect)
    (around : environment.IsBuilt setting.names) {identifier : Identifier}
    (built : identifier.IsBuilt setting.names) :
    (setting.checkIdentifier place identifier).IsSafe environment fun types =>
      ∀ type ∈ types, setting.names.HasLabel type := by
  have isDefault : ∀ type ∈ [setting.defaultType], setting.names.HasLabel type :=
    List.forall_mem_singleton.mpr (ready.hasLabel_of_isType ready.defaultType)
  apply (IsSafe.require (Handle.not_isEmpty_of_ne built.isNamed)).bind
  intro _ _
  apply IsSafe.errorCount.bind
  intro start _
  apply (safe_lookup identifier.name).bind
  rintro found? isFound
  split
  · apply (safe_expect _ identifier.span
      (finds_label_safely built.name.isShown fun _ => finds_pure_safely rfl)).bind
    intro _ _
    apply (safe_consult identifier .bound).bind
    intro _ _
    exact IsSafe.pure (List.forall_mem_singleton.mpr (around.of_lookup? isFound.symm))
  · obtain ⟨label, answered⟩ := built.name.isShown
    apply IsSafe.lift_bind answered
    apply (safe_report _ identifier.span).bind
    intro _ _
    apply (safe_consult identifier .bound).bind
    exact fun _ _ => IsSafe.pure isDefault
  · apply (safe_consult identifier .read).bind
    intro isKnown _
    apply (IsSafe.isQuietSince start).bind
    intro isQuiet _
    apply (safe_expect _ identifier.span
      (finds_label_safely built.name.isShown fun _ => finds_pure_safely rfl)).bind
    exact fun _ _ => IsSafe.pure isDefault

end Setting

end YulCheck
