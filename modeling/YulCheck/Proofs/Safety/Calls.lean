import YulCheck.Proofs.Safety.Expressions

/-! # Checking calls safely

A function that is called is found, or an error is reported, unless the host knows it. Functions of
the dialect find text where they take text. So a call without an error has the signature that its
types are taken from.
-/

namespace YulCheck.Setting

open Walk

variable {setting : Setting} {place : Place} {environment : Environment} {dialect : Dialect}
  {errors : Nat}

/-! ### Called functions -/

theorem completes_checkInstruction (instruction : Instruction) (span : Span) :
    (setting.checkInstruction place instruction span).Completes environment errors
      fun isGated after => isGated = true → errors < after := by
  rw [checkInstruction]
  split
  · exact (completes_report rfl span).bind fun _ _ isCounted => Completes.pure fun _ => isCounted
  · split
    · exact (completes_report rfl span).bind fun _ _ isCounted => Completes.pure fun _ => isCounted
    · exact Completes.pure nofun

/-- A name that must not be called is reported. -/
theorem completes_checkTarget {callee : Identifier} (built : callee.IsBuilt setting.names) :
    (setting.checkTarget place callee).Completes environment errors
      fun isGated after => isGated = true → errors < after := by
  have inTable := built.name.lt
  obtain ⟨label, answered⟩ := built.name
  rw [checkTarget]
  apply Completes.lift_bind (NameTable.isAlias_of_lt inTable)
  apply Completes.lift_bind (NameTable.isVerbatim_of_lt inTable)
  split
  · exact Completes.pure nofun
  · apply Completes.lift_bind answered
    split
    · exact completes_checkInstruction _ _
    · exact Completes.pure nofun

theorem safe_checkTarget {callee : Identifier} (built : callee.IsBuilt setting.names) :
    (setting.checkTarget place callee).IsSafe environment fun _ => True :=
  fun _ => (completes_checkTarget built).imp fun _ _ _ => trivial

theorem safe_warnOfUse (callee : Identifier) :
    (setting.warnOfUse place callee).IsSafe environment fun _ => True := by
  rw [warnOfUse]
  split
  · exact safe_report _ _
  · split
    · exact IsSafe.ask _
    · exact IsSafe.pure trivial

/-- Whether what was found out about a called function fits what it may be called with. -/
structure Callee.IsBuilt (table : NameTable) (name : Handle) (callee : Callee) : Prop where
  types : ∀ signature ∈ callee.signature?, ∀ type ∈ signature.1 ++ signature.2, table.HasLabel type
  literals : ∀ arguments, TakesText table name arguments →
    AreUnbound (fun index => callee.literals[index]?.join) 0 arguments

/-- Functions that take no literals are given what they take. -/
theorem areUnbound_none (index : Nat) (arguments : List Expression) :
    AreUnbound (fun index => ([] : List (Option LiteralKind))[index]?.join) index arguments := by
  induction arguments generalizing index with
  | nil => trivial
  | cons argument rest ih =>
    refine ⟨fun literal isContent => ?_, ih (index + 1)⟩
    exact nomatch (contentArgument?_eq_some isContent).2.1

theorem isBuilt_of_unknown {name : Handle} {signature? : Option (List TypeHandle × List TypeHandle)}
    {isExternal : Bool} (types : ∀ signature ∈ signature?, ∀ type ∈ signature.1 ++ signature.2,
      setting.names.HasLabel type) :
    Callee.IsBuilt setting.names name ⟨signature?, [], isExternal⟩ :=
  ⟨types, fun arguments _ => areUnbound_none 0 arguments⟩

/-- What a name refers to is found, or the host knows it, or an error is reported. -/
theorem completes_resolveCallee (ready : setting.names.IsReady dialect)
    (around : environment.IsBuilt setting.names) {callee : Identifier}
    (built : callee.IsBuilt setting.names) :
    (setting.resolveCallee place errors callee).Completes environment errors fun found after =>
      found.IsBuilt setting.names callee.name ∧
        (found.signature?.isSome = true ∨ found.isExternal = true ∨ errors < after) := by
  rw [resolveCallee]
  obtain ⟨builtin?, answered⟩ : ∃ builtin?, setting.names.builtin? callee.name = .ok builtin? :=
    ⟨_, NameTable.builtin?_of_lt built.name.lt⟩
  apply Completes.lift_bind answered
  split
  · rename_i builtin
    have isFound : Callee.IsBuilt setting.names callee.name
        ⟨some (builtin.parameters, builtin.returns), builtin.function.literalArguments, false⟩ := by
      refine ⟨?_, fun arguments takes => takes builtin answered⟩
      rintro _ ⟨rfl⟩ type isOne
      exact ready.hasLabel_of_builtin? answered isOne
    apply ((safe_warnOfUse callee).completes _).bind
    intro _ _ _
    apply ((safe_checkTarget built).completes _).bind
    intro _ _ _
    apply ((IsSafe.ask _).completes _).bind
    intro _ _ _
    exact Completes.pure ⟨isFound, .inl rfl⟩
  · apply ((safe_lookup callee.name).completes _).bind
    rintro found? start ⟨isLater, isFound⟩
    split
    · apply (completes_report rfl callee.span).bind
      intro _ after isCounted
      apply ((safe_consult callee .bound).completes _).bind
      rintro _ last ⟨isLast, _⟩
      refine Completes.pure ⟨isBuilt_of_unknown nofun, .inr (.inr ?_)⟩
      omega
    · apply ((safe_consult callee .bound).completes _).bind
      rintro _ last _
      refine Completes.pure ⟨isBuilt_of_unknown ?_, .inl rfl⟩
      rintro _ ⟨rfl⟩
      exact around.of_lookup? isFound.symm
    · apply (completes_checkTarget built).le.bind
      rintro isGated checked ⟨isChecked, gated⟩
      split
      · rename_i isTrue
        refine Completes.pure ⟨isBuilt_of_unknown nofun, .inr (.inr ?_)⟩
        have isCounted := gated isTrue
        omega
      · apply ((safe_consult callee .read).completes _).bind
        rintro isExternal asked ⟨isAsked, _⟩
        apply (Completes.isQuietSince errors).bind
        rintro _ start ⟨rfl, rfl⟩
        apply (completes_expect _ callee.span
          (finds_label_safely built.name.isShown fun _ => finds_pure_safely rfl)).bind
        rintro _ last ⟨isReported, isCounted⟩
        apply (Completes.isQuietSince errors).bind
        rintro _ final ⟨rfl, rfl⟩
        have isKnown : isExternal = true ∨ errors < final := by
          rw [Bool.or_eq_true, Bool.not_eq_true', decide_eq_false_iff_not] at isCounted
          rcases isCounted with (isExternal | isNoisy) | isCounted
          · exact .inl isExternal
          · exact .inr (by omega)
          · exact .inr (by omega)
        have isRejected : (isExternal || !decide (final = errors)) = true := by
          rw [Bool.or_eq_true, Bool.not_eq_true', decide_eq_false_iff_not]
          exact isKnown.imp id fun isCounted => by omega
        apply Completes.require_bind isRejected
        exact Completes.pure ⟨isBuilt_of_unknown nofun, .inr isKnown⟩

/-! ### Arguments -/

theorem completes_checkArgumentCount (callee : Callee) {name : Identifier}
    (built : name.IsBuilt setting.names) (given : Nat) :
    (setting.checkArgumentCount place callee name given).Completes environment errors
      fun _ after => errors ≤ after ∧
        ∀ signature ∈ callee.signature?, given = signature.1.length ∨ errors < after := by
  rw [checkArgumentCount]
  split
  · rename_i parameters returns isKnown
    apply (completes_expect _ name.span
      (finds_label_safely built.name.isShown fun _ => finds_pure_safely rfl)).imp
    rintro _ after ⟨isLater, isCounted⟩
    refine ⟨isLater, fun signature isSignature => ?_⟩
    rw [isKnown] at isSignature
    cases isSignature
    exact isCounted.imp of_decide_eq_true id
  · rename_i isUnknown
    exact Completes.pure ⟨Nat.le_refl _, fun signature isSignature =>
      absurd isSignature (isUnknown signature.1 signature.2)⟩

theorem safe_checkContent {function : Handle} (inTable : function.index < setting.names.size)
    (literal : Literal) :
    (setting.checkContent place function literal).IsSafe environment fun _ => True := by
  rw [checkContent]
  split
  · exact safe_expect _ literal.span (finds_pure_safely rfl)
  · apply IsSafe.lift_bind (NameTable.isVerbatim_of_lt inTable)
    split
    · split <;> exact safe_expect _ literal.span (finds_pure_safely rfl)
    · exact IsSafe.pure trivial

theorem safe_checkStringArgument {function : Handle}
    (inTable : function.index < setting.names.size) {literal : Literal}
    (isString : literal.kind = .string) (isUnlimited : literal.value.isUnlimited = true) :
    (setting.checkStringArgument place function literal).IsSafe environment
      fun type => type = literal.type := by
  apply (safe_checkContent inTable literal).bind
  intro _ _
  have isText : (literal.kind = .string && setting.names.admitsLiteral .string literal.type) =
      true := by
    simp [isString]
  apply (IsSafe.require isText).bind
  intro _ _
  apply (IsSafe.require isUnlimited).bind
  intro _ _
  apply (IsSafe.ask _).bind
  exact fun _ _ => IsSafe.pure rfl

theorem safe_checkArgumentKind (callee : Identifier) (required? : Option LiteralKind)
    (argument : Expression) :
    (checkArgumentKind place callee required? argument).IsSafe environment fun _ => True := by
  rw [checkArgumentKind.eq_def]
  split
  · exact safe_expect _ _ (finds_pure_safely rfl)
  · exact safe_report _ _
  · exact IsSafe.pure trivial

/-- The type of a single value has a label if all types have. -/
theorem safe_singleType (ready : setting.names.IsReady dialect) (expression : Expression)
    {types : List TypeHandle} (haveLabels : ∀ type ∈ types, setting.names.HasLabel type) :
    (setting.singleType place expression types).IsSafe environment setting.names.HasLabel := by
  apply (safe_expect _ expression.span (finds_pure_safely rfl)).bind
  intro _ _
  apply IsSafe.pure
  cases types with
  | nil => exact ready.hasLabel_of_isType ready.defaultType
  | cons type rest => exact haveLabels type List.mem_cons_self

theorem safe_checkArgumentTypes {parameters given : List TypeHandle}
    (areParameters : ∀ type ∈ parameters, setting.names.HasLabel type)
    (areGiven : ∀ type ∈ given, setting.names.HasLabel type) (arguments : List Expression) :
    (setting.checkArgumentTypes place parameters given arguments).IsSafe environment
      fun _ => True := by
  induction parameters generalizing given arguments with
  | nil => exact IsSafe.pure trivial
  | cons expected parameters ih =>
    rw [List.forall_mem_cons] at areParameters
    cases given with
    | nil => exact IsSafe.pure trivial
    | cons type given =>
      rw [List.forall_mem_cons] at areGiven
      cases arguments with
      | nil => exact IsSafe.pure trivial
      | cons argument arguments =>
        apply (safe_checkSameType areParameters.1 areGiven.1 argument.span).bind
        exact fun _ _ => ih areParameters.2 areGiven.2 arguments

/-- Where no error was reported, the signature is there and fits. -/
theorem completes_callTypes (ready : setting.names.IsReady dialect) {callee : Callee}
    {name : Handle} (found : callee.IsBuilt setting.names name) {start given : Nat}
    (fits : errors = start → callee.isExternal = true ∨
      ∃ signature ∈ callee.signature?, signature.1.length = given) :
    (setting.callTypes start callee given).Completes environment errors fun types _ =>
      ∀ type ∈ types, setting.names.HasLabel type := by
  rw [callTypes]
  apply (Completes.isQuietSince start).bind
  rintro _ _ ⟨rfl, rfl⟩
  split
  · rename_i isQuiet
    apply Completes.require_bind
    · rw [Bool.or_eq_true]
      rcases fits (of_decide_eq_true isQuiet) with isExternal | ⟨signature, isKnown, length⟩
      · exact .inl isExternal
      · rw [isKnown]
        exact .inr (decide_eq_true length)
    · apply Completes.pure
      cases known : callee.signature? with
      | none => exact nofun
      | some signature =>
        exact fun type member => found.types signature known type (List.mem_append_right _ member)
  · apply Completes.pure
    cases callee.signature? with
    | none => exact nofun
    | some signature =>
      intro type member
      obtain ⟨_, _, rfl⟩ := List.mem_map.mp member
      exact ready.hasLabel_of_isType ready.defaultType

/-! ### Expressions -/

mutual

/-- The types of an expression have labels. -/
theorem safe_checkExpression (ready : setting.names.IsReady dialect)
    (around : environment.IsBuilt setting.names) (expression : Expression)
    (built : expression.IsBuilt setting.names) :
    (setting.checkExpression place expression).IsSafe environment fun types =>
      ∀ type ∈ types, setting.names.HasLabel type := by
  cases expression with
  | literal literal =>
    rw [Expression.IsBuilt] at built
    rw [checkExpression]
    apply (safe_checkLiteral built).bind
    rintro _ rfl
    apply (IsSafe.ask _).bind
    exact fun _ _ => IsSafe.pure (List.forall_mem_singleton.mpr built.type)
  | identifier identifier =>
    rw [Expression.IsBuilt] at built
    rw [checkExpression]
    apply (safe_checkIdentifier ready around built).bind
    intro types haveLabels
    apply (IsSafe.ask _).bind
    exact fun _ _ => IsSafe.pure haveLabels
  | call id span name arguments =>
    rw [Expression.IsBuilt] at built
    obtain ⟨isCallee, parts, takes⟩ := built
    rw [checkExpression]
    apply (IsSafe.require (Handle.not_isEmpty_of_ne isCallee.isNamed)).bind
    intro _ _ errors
    apply (Completes.errorCount ⟨rfl, rfl⟩ : Walk.Completes _ environment errors
      fun start after => start = errors ∧ after = errors).bind
    rintro _ start ⟨rfl, rfl⟩
    apply (completes_resolveCallee ready around isCallee).le.bind
    rintro callee resolved ⟨isResolved, found, isKnown⟩
    apply (completes_checkArgumentCount callee isCallee arguments.length).bind
    rintro _ counted ⟨isCounted, fits⟩
    apply ((safe_checkArguments ready around isCallee callee.literals 0 arguments parts
      (found.literals arguments takes)).completes counted).bind
    rintro given checked ⟨isChecked, length, haveLabels⟩
    -- What is left is the same whether the signature is known or not.
    have rest (middle : Nat) (isLater : checked ≤ middle) : Walk.Completes (do
        let types ← setting.callTypes start callee given.length
        Walk.ask (.noteTypes id types)
        return types) environment middle fun types _ =>
          ∀ type ∈ types, setting.names.HasLabel type := by
      apply (completes_callTypes ready found fun isQuiet => ?_).bind
      · intro types _ areTypes
        apply (IsSafe.ask _ _).bind
        exact fun _ _ _ => Completes.pure areTypes
      · rcases isKnown with isKnown | isExternal | isCounted
        · obtain ⟨signature, isSignature⟩ := Option.isSome_iff_exists.mp isKnown
          refine .inr ⟨signature, isSignature, ?_⟩
          rcases fits signature isSignature with same | isCounted
          · rw [length, same]
          · omega
        · exact .inl isExternal
        · omega
    split
    · rename_i parameters returns isSignature
      have areParameters : ∀ type ∈ parameters, setting.names.HasLabel type := fun type member =>
        found.types _ isSignature type (List.mem_append_left _ member)
      apply ((safe_checkArgumentTypes areParameters haveLabels arguments).completes checked).bind
      exact fun _ middle isLater => rest middle isLater.1
    · exact rest checked (Nat.le_refl _)

/-- Every argument has one type, and all of them have labels. -/
theorem safe_checkArguments (ready : setting.names.IsReady dialect)
    (around : environment.IsBuilt setting.names) {callee : Identifier}
    (isCallee : callee.IsBuilt setting.names) (literals : List (Option LiteralKind)) (index : Nat)
    (arguments : List Expression) (built : ArgumentsBuilt setting.names arguments)
    (unbound : AreUnbound (fun index => literals[index]?.join) index arguments) :
    (setting.checkArguments place callee (literals.drop index) arguments).IsSafe environment
      fun types => types.length = arguments.length ∧
        ∀ type ∈ types, setting.names.HasLabel type := by
  cases arguments with
  | nil =>
    rw [checkArguments]
    exact IsSafe.pure ⟨rfl, nofun⟩
  | cons argument rest =>
    rw [ArgumentsBuilt] at built
    obtain ⟨isText, others⟩ := unbound
    have required : (literals.drop index).head?.join = literals[index]?.join := by
      rw [List.head?_drop]
    rw [checkArguments, required, List.tail_drop]
    apply (safe_checkArguments ready around isCallee literals (index + 1) rest built.2 others).bind
    rintro types ⟨length, haveLabels⟩
    dsimp only
    split
    · rename_i literal isContent
      obtain ⟨isLiteral, _, isString⟩ := contentArgument?_eq_some isContent
      have isBuilt : literal.IsBuilt setting.names := by
        have part := built.1
        rw [isLiteral, Expression.IsBuilt] at part
        exact part
      apply (safe_checkStringArgument isCallee.name.lt isString (isText literal isContent)).bind
      rintro _ rfl
      apply IsSafe.pure
      exact ⟨congrArg (· + 1) length, List.forall_mem_cons.mpr ⟨isBuilt.type, haveLabels⟩⟩
    · apply (safe_checkArgumentKind callee _ argument).bind
      intro _ _
      apply (safe_checkExpression ready around argument built.1).bind
      intro given areGiven
      apply (safe_singleType ready argument areGiven).bind
      intro type hasLabel
      apply IsSafe.pure
      exact ⟨congrArg (· + 1) length, List.forall_mem_cons.mpr ⟨hasLabel, haveLabels⟩⟩

end

end YulCheck.Setting
