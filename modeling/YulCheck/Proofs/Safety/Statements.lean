import YulCheck.Proofs.Lexical.Checker
import YulCheck.Proofs.Safety.Calls

/-! # Checking statements safely

The walk over the statements of a program comes to an end in every environment with labels for all
types, if the program has all that checking relies on. A target that an assignment accepts has a
type, and all others are reported.
-/

namespace YulCheck.Setting

open Walk

variable {setting : Setting} {place : Place} {environment : Environment} {dialect : Dialect}
  {errors : Nat}

/-! ### Declarations -/

theorem safe_shownLabels {names : List Handle}
    (areShown : ∀ name ∈ names, setting.names.IsShown name) :
    (setting.shownLabels names).IsSafe environment fun _ => True := by
  apply (IsSafe.mapM ?_ : Walk.IsSafe _ environment fun _ => True).bind
  · exact fun _ _ => IsSafe.pure trivial
  · intro name member
    obtain ⟨label, answered⟩ := areShown name member
    rw [answered]
    exact IsSafe.pure trivial

theorem safe_checkDeclaredTypes (ready : setting.names.IsReady dialect) {locals : List Variable}
    (areBuilt : ∀ declared ∈ locals, declared.IsBuilt setting.names) {types : List TypeHandle}
    (haveLabels : ∀ type ∈ types, setting.names.HasLabel type) :
    (setting.checkDeclaredTypes place locals types).IsSafe environment fun _ => True := by
  induction locals generalizing types with
  | nil => exact IsSafe.pure trivial
  | cons declared rest ih =>
    rw [List.forall_mem_cons] at areBuilt
    have isGiven : setting.names.HasLabel (types.head?.getD setting.defaultType) := by
      cases types with
      | nil => exact ready.hasLabel_of_isType ready.defaultType
      | cons type rest => exact haveLabels type List.mem_cons_self
    rw [checkDeclaredTypes]
    apply (safe_expect _ declared.span <| finds_label_safely isGiven fun _ =>
      finds_label_safely areBuilt.1.type fun _ => finds_pure_safely rfl).bind
    exact fun _ _ => ih areBuilt.2 fun type member => haveLabels type (List.mem_of_mem_tail member)

theorem safe_checkInitialValue (ready : setting.names.IsReady dialect)
    (around : environment.IsBuilt setting.names) (span : Span) {locals : List Variable}
    (areBuilt : ∀ declared ∈ locals, declared.IsBuilt setting.names) {value : Expression}
    (built : value.IsBuilt setting.names) :
    (setting.checkInitialValue place span locals value).IsSafe environment fun _ => True := by
  have areShown : ∀ name ∈ locals.map (·.name), setting.names.IsShown name := by
    intro name member
    obtain ⟨declared, isDeclared, rfl⟩ := List.mem_map.mp member
    exact (areBuilt declared isDeclared).name
  apply (safe_checkExpression ready around value built).bind
  intro types haveLabels
  apply (safe_expect _ span ((safe_shownLabels areShown).bind fun _ _ => finds_pure_safely rfl)).bind
  exact fun _ _ => safe_checkDeclaredTypes ready areBuilt haveLabels

theorem safe_activateVariable (declared : Variable) :
    (activateVariable place declared).IsSafe environment fun _ => True :=
  (IsSafe.activate _ declared.name).bind fun _ isBound => IsSafe.require isBound

theorem safe_checkDeclaration (ready : setting.names.IsReady dialect)
    (around : environment.IsBuilt setting.names) (span : Span) {locals : List Variable}
    (areBuilt : ∀ declared ∈ locals, declared.IsBuilt setting.names) {value? : Option Expression}
    (built : ∀ value ∈ value?, value.IsBuilt setting.names) :
    (setting.checkDeclaration place span locals value?).IsSafe environment fun _ => True := by
  have activate : (locals.forM (activateVariable place)).IsSafe environment fun _ => True :=
    IsSafe.forM fun declared _ => safe_activateVariable declared
  rw [checkDeclaration]
  apply (IsSafe.forM fun declared _ =>
    (safe_consult declared.toIdentifier .declare).bind fun _ _ => IsSafe.pure trivial).bind
  intro _ _
  apply (IsSafe.forM fun declared member => safe_checkVariable (areBuilt declared member)).bind
  intro _ _
  cases value? with
  | none => exact activate
  | some value =>
    exact (safe_checkInitialValue ready around span areBuilt (built value rfl)).bind
      fun _ _ => activate

/-! ### Assignments -/

theorem safe_checkRepeatedTargets (span : Span) (before : List Handle) {targets : List Identifier}
    (areBuilt : ∀ target ∈ targets, target.IsBuilt setting.names) :
    (setting.checkRepeatedTargets place span before targets).IsSafe environment fun _ => True := by
  induction targets generalizing before with
  | nil => exact IsSafe.pure trivial
  | cons target rest ih =>
    rw [List.forall_mem_cons] at areBuilt
    apply (safe_expect _ span
      (finds_label_safely areBuilt.1.name.isShown fun _ => finds_pure_safely rfl)).bind
    exact fun _ _ => ih (target.name :: before) areBuilt.2

/-- A target without a type is reported. -/
theorem completes_targetType (ready : setting.names.IsReady dialect)
    (around : environment.IsBuilt setting.names) {target : Identifier}
    (built : target.IsBuilt setting.names) :
    (setting.targetType place target).Completes environment errors fun type? after =>
      (type? = none → errors < after) ∧ ∀ type ∈ type?, setting.names.HasLabel type := by
  rw [targetType]
  apply (Completes.errorCount ⟨rfl, rfl⟩ : Walk.Completes _ environment errors
    fun start after => start = errors ∧ after = errors).bind
  rintro _ start ⟨rfl, rfl⟩
  apply ((safe_lookup target.name).completes start).bind
  rintro found? found ⟨isLater, isFound⟩
  split
  · apply ((safe_consult target .bound).completes found).bind
    rintro _ asked ⟨isAsked, _⟩
    apply (completes_report rfl target.span).bind
    intro _ after isCounted
    exact Completes.pure ⟨fun _ => by omega, nofun⟩
  · rename_i type isActive
    have hasLabel : setting.names.HasLabel type := around.of_lookup? isFound.symm
    apply ((safe_consult target .bound).completes found).bind
    rintro _ asked ⟨isAsked, _⟩
    apply (completes_expect _ target.span
      (finds_label_safely built.name.isShown fun _ => finds_pure_safely rfl)).bind
    rintro _ after ⟨isExpected, isCounted⟩
    apply Completes.pure
    cases isActive with
    | true => exact ⟨nofun, fun _ same => Option.some.inj same ▸ hasLabel⟩
    | false => exact ⟨fun _ => by have := isCounted.resolve_left nofun; omega, nofun⟩
  · apply ((safe_consult target .write).completes found).bind
    rintro isKnown asked ⟨isAsked, _⟩
    apply (Completes.isQuietSince start).bind
    rintro _ quiet ⟨rfl, rfl⟩
    apply (completes_expect _ target.span (finds_pure_safely rfl)).bind
    rintro _ after ⟨isExpected, isCounted⟩
    apply Completes.pure
    cases isKnown with
    | true =>
      have isDefault := ready.hasLabel_of_isType ready.defaultType
      exact ⟨nofun, fun _ same => Option.some.inj same ▸ isDefault⟩
    | false =>
      refine ⟨fun _ => ?_, nofun⟩
      rw [Bool.false_or, Bool.not_eq_true', decide_eq_false_iff_not] at isCounted
      rcases isCounted with isNoisy | isCounted <;> omega

theorem safe_checkTargetType (ready : setting.names.IsReady dialect)
    (around : environment.IsBuilt setting.names) {target : Identifier}
    (built : target.IsBuilt setting.names) {given : TypeHandle}
    (hasLabel : setting.names.HasLabel given) :
    (setting.checkTargetType place target given).IsSafe environment fun _ => True := by
  rw [checkTargetType]
  apply (IsSafe.require (Handle.not_isEmpty_of_ne built.isNamed)).bind
  intro _ _ errors
  apply (Completes.errorCount ⟨rfl, rfl⟩ : Walk.Completes _ environment errors
    fun start after => start = errors ∧ after = errors).bind
  rintro _ start ⟨rfl, rfl⟩
  apply (completes_targetType ready around built).bind
  rintro type? after ⟨isReported, areTypes⟩
  -- Whatever was reported about the type is reported in what follows.
  have rest (last : Nat) (isLater : after ≤ last) : Walk.Completes (do
      Walk.require (!(← Walk.isQuietSince start) || type?.isSome) .targetUntyped) environment last
        fun _ _ => True := by
    apply (Completes.isQuietSince start).bind
    rintro _ _ ⟨rfl, rfl⟩
    refine Completes.require ?_ trivial
    rw [Bool.or_eq_true, Bool.not_eq_true', decide_eq_false_iff_not]
    cases type? with
    | none =>
      have isCounted := isReported rfl
      exact .inl (by omega)
    | some type => exact .inr rfl
  split
  · rename_i type
    apply ((safe_expect _ target.span <| finds_label_safely hasLabel fun _ =>
      finds_label_safely (areTypes type rfl) fun _ => finds_pure_safely rfl).completes after).bind
    exact fun _ last isLater => rest last isLater.1
  · exact rest after (Nat.le_refl _)

theorem safe_checkTargetTypes (ready : setting.names.IsReady dialect)
    (around : environment.IsBuilt setting.names) {targets : List Identifier}
    (areBuilt : ∀ target ∈ targets, target.IsBuilt setting.names) {types : List TypeHandle}
    (haveLabels : ∀ type ∈ types, setting.names.HasLabel type) :
    (setting.checkTargetTypes place targets types).IsSafe environment fun _ => True := by
  induction targets generalizing types with
  | nil => exact IsSafe.pure trivial
  | cons target targets ih =>
    rw [List.forall_mem_cons] at areBuilt
    cases types with
    | nil => exact IsSafe.pure trivial
    | cons type types =>
      rw [List.forall_mem_cons] at haveLabels
      apply (safe_checkTargetType ready around areBuilt.1 haveLabels.1).bind
      exact fun _ _ => ih areBuilt.2 haveLabels.2

theorem safe_checkAssignment (ready : setting.names.IsReady dialect)
    (around : environment.IsBuilt setting.names) (span : Span) {targets : List Identifier}
    (isSome : targets ≠ []) (areBuilt : ∀ target ∈ targets, target.IsBuilt setting.names)
    {value : Expression} (built : value.IsBuilt setting.names) :
    (setting.checkAssignment place span targets value).IsSafe environment fun _ => True := by
  have areSome : (!targets.isEmpty) = true := by
    rw [Bool.not_eq_true', List.isEmpty_eq_false_iff]
    exact isSome
  have areShown : ∀ name ∈ targets.map (·.name), setting.names.IsShown name := by
    intro name member
    obtain ⟨target, isTarget, rfl⟩ := List.mem_map.mp member
    exact (areBuilt target isTarget).name.isShown
  rw [checkAssignment]
  apply (IsSafe.require areSome).bind
  intro _ _
  apply (safe_checkRepeatedTargets span [] areBuilt).bind
  intro _ _
  apply (safe_checkExpression ready around value built).bind
  intro types haveLabels
  apply (safe_expect _ span ((safe_shownLabels areShown).bind fun _ _ => finds_pure_safely rfl)).bind
  exact fun _ _ => safe_checkTargetTypes ready around areBuilt haveLabels

/-! ### Other statements -/

theorem safe_checkEffect (ready : setting.names.IsReady dialect)
    (around : environment.IsBuilt setting.names) (span : Span) {expression : Expression}
    (built : expression.IsBuilt setting.names) :
    (setting.checkEffect place span expression).IsSafe environment fun _ => True := by
  apply IsSafe.errorCount.bind
  intro start _
  apply (safe_checkExpression ready around expression built).bind
  intro types _
  apply (IsSafe.isQuietSince start).bind
  exact fun _ _ => safe_expect _ span (finds_pure_safely rfl)

theorem safe_checkSingle (ready : setting.names.IsReady dialect)
    (around : environment.IsBuilt setting.names) {expression : Expression}
    (built : expression.IsBuilt setting.names) :
    (setting.checkSingle place expression).IsSafe environment setting.names.HasLabel :=
  (safe_checkExpression ready around expression built).bind fun _ haveLabels =>
    safe_singleType ready expression haveLabels

theorem safe_checkCondition (ready : setting.names.IsReady dialect)
    (around : environment.IsBuilt setting.names) {condition : Expression}
    (built : condition.IsBuilt setting.names) :
    (setting.checkCondition place condition).IsSafe environment fun _ => True := by
  apply (safe_checkSingle ready around built).bind
  intro type hasLabel
  exact safe_expect _ condition.span <|
    finds_label_safely (ready.hasLabel_of_isType ready.boolType) fun _ =>
      finds_label_safely hasLabel fun _ => finds_pure_safely rfl

/-- The value of a case is a word. -/
theorem safe_checkCaseValue {type : TypeHandle} (hasLabel : setting.names.HasLabel type)
    (before : List Word) (span : Span) {literal : Literal} (bound : literal.IsBound setting.names) :
    (setting.checkCaseValue place type before span literal).IsSafe environment fun _ => True := by
  obtain ⟨word, isWord⟩ : ∃ word, literal.value.value = .ok word := by
    have isWord := bound.isWord
    cases known : literal.value with
    | word value spelling => exact ⟨value, rfl⟩
    | unlimited content =>
      rw [known] at isWord
      cases isWord
  rw [checkCaseValue]
  apply IsSafe.errorCount.bind
  intro start _
  apply (safe_checkSameType hasLabel bound.type literal.span).bind
  intro _ _
  apply (safe_checkLiteral bound.toIsBuilt).bind
  intro _ _
  apply (IsSafe.isQuietSince start).bind
  intro isQuiet _
  split
  · apply IsSafe.lift_bind isWord
    apply (safe_expect _ span (finds_pure_safely rfl)).bind
    exact fun _ _ => IsSafe.pure trivial
  · exact IsSafe.pure trivial

theorem safe_checkHeader (id : NodeId) (span : Span) {name : Handle} (isNamed : name ≠ .empty)
    (hasLabel : setting.names.HasLabel name) {parameters returns : List Variable}
    (areBuilt : ∀ declared ∈ parameters ++ returns, declared.IsBuilt setting.names) :
    (setting.checkHeader place id span name parameters returns).IsSafe environment fun _ => True := by
  rw [checkHeader]
  apply (IsSafe.require (Handle.not_isEmpty_of_ne isNamed)).bind
  intro _ _
  apply (safe_checkName hasLabel.isShown span).bind
  intro _ _
  apply (IsSafe.hasScope _).bind
  intro isThere hasScope
  apply (IsSafe.require hasScope).bind
  intro _ _
  apply IsSafe.forM
  intro declared member
  apply (safe_checkVariable (areBuilt declared member)).bind
  intro _ _
  exact (IsSafe.activate _ declared.name).bind fun _ _ => IsSafe.pure trivial

theorem safe_enterBlock (block : Block) :
    (enterBlock place block).IsSafe environment fun _ => True := by
  apply (IsSafe.hasScope _).bind
  intro isThere hasScope
  exact (IsSafe.require hasScope).bind fun _ _ => IsSafe.pure trivial

/-! ### Frames -/

theorem isBuilt_function {table : NameTable} {parameters returns : List Variable}
    (areBuilt : ∀ declared ∈ parameters ++ returns, declared.IsBuilt table) :
    (Binding.function (parameters.map (·.type)) (returns.map (·.type))).IsBuilt table := by
  intro type member
  rw [← List.map_append] at member
  obtain ⟨declared, isDeclared, rfl⟩ := List.mem_map.mp member
  exact (areBuilt declared isDeclared).type

/-- What statements declare has types with labels. -/
theorem isBuilt_blockFrame {table : NameTable} {statements : List Statement}
    (built : StatementsBuilt table statements) (before : List Statement) :
    ∀ entry ∈ (Frame.block statements before).bindings, entry.2.IsBuilt table := by
  rw [statementsBuilt_iff] at built
  intro entry member
  rcases List.mem_append.mp member with isFunction | isLocal
  · obtain ⟨statement, isOne, defines⟩ := List.mem_filterMap.mp isFunction
    have single := built statement isOne
    cases statement with
    | function id span name parameters returns body =>
      rw [Statement.IsBuilt] at single
      obtain rfl := Option.some.inj defines
      exact isBuilt_function single.2.1
    | _ => cases defines
  · obtain ⟨statement, isOne, declares⟩ := List.mem_flatMap.mp isLocal
    obtain ⟨declared, isDeclared, rfl⟩ := List.mem_map.mp declares
    have single := built statement isOne
    cases statement with
    | declaration span locals value =>
      rw [Statement.IsBuilt] at single
      exact (single.1 declared isDeclared).type
    | _ => cases isDeclared

theorem isBuilt_functionFrame {table : NameTable} {parameters returns : List Variable}
    (areBuilt : ∀ declared ∈ parameters ++ returns, declared.IsBuilt table) :
    ∀ entry ∈ (Frame.function parameters returns).bindings, entry.2.IsBuilt table := by
  intro entry member
  obtain ⟨declared, isDeclared, rfl⟩ := List.mem_map.mp member
  exact (areBuilt declared isDeclared).type

/-! ### Blocks -/

mutual

theorem safe_lexicalBlock (ready : setting.names.IsReady dialect) {outer : Environment}
    (around : outer.IsBuilt setting.names) (place : Place) (block : Block)
    (built : block.IsBuilt setting.names) :
    (setting.lexicalBlock outer place block).IsSafe fun _ => True := by
  cases block with
  | mk id span statements =>
    rw [Block.IsBuilt] at built
    rw [lexicalBlock]
    apply (LexicalWalk.IsSafe.within (safe_enterBlock _)).bind
    exact fun inside _ => safe_lexicalStatements ready around built [] inside statements built

theorem safe_lexicalStatements (ready : setting.names.IsReady dialect) {outer : Environment}
    (around : outer.IsBuilt setting.names) {all : List Statement}
    (allBuilt : StatementsBuilt setting.names all) (before : List Statement) (place : Place)
    (statements : List Statement) (built : StatementsBuilt setting.names statements) :
    (setting.lexicalStatements outer all before place statements).IsSafe fun _ => True := by
  cases statements with
  | nil =>
    rw [lexicalStatements]
    exact LexicalWalk.IsSafe.pure trivial
  | cons statement rest =>
    rw [StatementsBuilt] at built
    have inside : Environment.IsBuilt setting.names (.block all before :: outer) :=
      List.forall_mem_cons.mpr ⟨isBuilt_blockFrame allBuilt before, around⟩
    rw [lexicalStatements]
    apply (safe_lexicalStatement ready inside place statement built.1).bind
    intro _ _
    exact safe_lexicalStatements ready around allBuilt (statement :: before) place rest built.2

theorem safe_lexicalStatement (ready : setting.names.IsReady dialect)
    {environment : Environment}
    (around : environment.IsBuilt setting.names) (place : Place) (statement : Statement)
    (built : statement.IsBuilt setting.names) :
    (setting.lexicalStatement environment place statement).IsSafe fun _ => True := by
  cases statement with
  | expression span expression =>
    rw [Statement.IsBuilt] at built
    exact LexicalWalk.IsSafe.within (safe_checkEffect ready around span built)
  | assignment span targets value =>
    rw [Statement.IsBuilt] at built
    obtain ⟨isSome, areTargets, isValue⟩ := built
    exact LexicalWalk.IsSafe.within
      (safe_checkAssignment ready around span isSome areTargets isValue)
  | declaration span locals value? =>
    rw [Statement.IsBuilt] at built
    exact LexicalWalk.IsSafe.within (safe_checkDeclaration ready around span built.1 built.2)
  | function id span name parameters returns body =>
    rw [Statement.IsBuilt] at built
    obtain ⟨⟨isNamed, hasLabel⟩, areLocals, isBody⟩ := built
    have inside : Environment.IsBuilt setting.names (.function parameters returns :: environment) :=
      List.forall_mem_cons.mpr ⟨isBuilt_functionFrame areLocals, around⟩
    rw [lexicalStatement]
    apply (LexicalWalk.IsSafe.within (safe_checkHeader id span isNamed hasLabel areLocals)).bind
    exact fun _ _ => safe_lexicalBlock ready inside _ body isBody
  | conditional span condition body =>
    rw [Statement.IsBuilt] at built
    rw [lexicalStatement]
    apply (LexicalWalk.IsSafe.within (safe_checkCondition ready around built.1)).bind
    exact fun _ _ => safe_lexicalBlock ready around place body built.2
  | switch span scrutinee cases =>
    rw [Statement.IsBuilt] at built
    rw [lexicalStatement]
    apply (LexicalWalk.IsSafe.within (safe_expect_pure _ span .onlyDefaultCase)).bind
    intro _ _
    apply (LexicalWalk.IsSafe.within (safe_checkSingle ready around built.1)).bind
    exact fun type hasLabel => safe_lexicalCases ready around place hasLabel [] cases built.2
  | loop id span pre condition post body =>
    rw [Statement.IsBuilt] at built
    obtain ⟨isPre, isCondition, isPost, isBody⟩ := built
    have behind : Environment.IsBuilt setting.names
        (.block pre.statements pre.statements.reverse :: environment) := by
      refine List.forall_mem_cons.mpr ⟨isBuilt_blockFrame ?_ _, around⟩
      cases pre
      exact isPre
    rw [lexicalStatement]
    apply (safe_lexicalBlock ready around _ pre isPre).bind
    intro _ _
    apply (LexicalWalk.IsSafe.within (safe_enterBlock pre)).bind
    intro inside _
    apply (LexicalWalk.IsSafe.within (safe_checkCondition ready behind isCondition)).bind
    intro _ _
    apply (safe_lexicalBlock ready behind _ body isBody).bind
    exact fun _ _ => safe_lexicalBlock ready behind inside post isPost
  | «break» span | «continue» span | leave span =>
    exact LexicalWalk.IsSafe.within (safe_expect _ span (finds_pure_safely rfl))
  | block block =>
    rw [Statement.IsBuilt] at built
    rw [lexicalStatement]
    exact safe_lexicalBlock ready around place block built

theorem safe_lexicalCases (ready : setting.names.IsReady dialect) {environment : Environment}
    (around : environment.IsBuilt setting.names) (place : Place) {type : TypeHandle}
    (hasLabel : setting.names.HasLabel type) (before : List Word) (cases : List Case)
    (built : CasesBuilt setting.names cases) :
    (setting.lexicalCases environment place type before cases).IsSafe fun _ => True := by
  cases cases with
  | nil =>
    rw [lexicalCases]
    exact LexicalWalk.IsSafe.pure trivial
  | cons first rest =>
    cases first with
    | mk span value? body =>
      rw [CasesBuilt] at built
      obtain ⟨isValue, isBody, areCases⟩ := built
      have safe : ∀ value? : Option Literal, (∀ literal ∈ value?, literal.IsBound setting.names) →
          Walk.IsSafe (match value? with
            | some literal => setting.checkCaseValue place type before span literal
            | none => pure before : Walk (List Word)) environment fun _ => True
        | none, _ => IsSafe.pure trivial
        | some literal, isValue => safe_checkCaseValue hasLabel before span (isValue literal rfl)
      rw [lexicalCases.eq_def]
      dsimp only
      apply (LexicalWalk.IsSafe.within (safe value? isValue)).bind
      intro values _
      apply (safe_lexicalBlock ready around place body isBody).bind
      exact fun _ _ => safe_lexicalCases ready around place hasLabel values rest areCases

end

end YulCheck.Setting
