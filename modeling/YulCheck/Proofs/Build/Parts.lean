import YulCheck.Proofs.Build.Yields
import YulCheck.Proofs.Scope.Layout

/-! # Parts of trees that are built

Identifiers, variables and literals that elaboration makes have what checking relies on, and so have
the nodes that are made of such parts. Nodes that open scopes get new numbers.
-/

namespace YulCheck

/-- Whether a literal is written as a number, as a truth value or as a string. -/
def Source.Literal.IsSpelled : Source.Literal → Prop
  | .number .. | .boolean .. | .string _ => True
  | .value .. | .located .. => False

namespace Elaborate

open Elaboration

variable {dialect : Dialect} {state : Elaboration}

/-! ### What lasts -/

theorem lasts_identifier :
    Lasts dialect fun (identifier : Identifier) state => identifier.IsBuilt state.table :=
  fun _ _ _ ready isExtended built => (isExtended.keepsBuilt ready).isBuilt_identifier built

theorem lasts_variable :
    Lasts dialect fun (declared : Variable) state => declared.IsBuilt state.table :=
  fun _ _ _ ready isExtended built => (isExtended.keepsBuilt ready).isBuilt_variable built

/-! ### Positions -/

theorem isBuilt_placeIdentifiers {table : NameTable} {identifiers : List Identifier}
    (built : ∀ identifier ∈ identifiers, identifier.IsBuilt table) (spans : List Span) :
    ∀ identifier ∈ placeIdentifiers identifiers spans, identifier.IsBuilt table := by
  induction identifiers generalizing spans with
  | nil => exact built
  | cons identifier rest ih =>
    rw [List.forall_mem_cons] at built
    cases spans with
    | nil => exact List.forall_mem_cons.mpr built
    | cons span spans =>
      rw [placeIdentifiers, List.forall_mem_cons]
      exact ⟨⟨built.1.isNamed, built.1.name⟩, ih built.2 spans⟩

theorem length_placeIdentifiers (identifiers : List Identifier) (spans : List Span) :
    (placeIdentifiers identifiers spans).length = identifiers.length := by
  induction identifiers generalizing spans with
  | nil => rfl
  | cons identifier rest ih =>
    cases spans with
    | nil => rfl
    | cons span spans => exact congrArg (· + 1) (ih spans)

theorem isBuilt_placeVariables {table : NameTable} {locals : List Variable}
    (built : ∀ declared ∈ locals, declared.IsBuilt table) (spans : List Span) :
    ∀ declared ∈ placeVariables locals spans, declared.IsBuilt table := by
  induction locals generalizing spans with
  | nil => exact built
  | cons declared rest ih =>
    rw [List.forall_mem_cons] at built
    cases spans with
    | nil => exact List.forall_mem_cons.mpr built
    | cons span spans =>
      rw [placeVariables, List.forall_mem_cons]
      exact ⟨⟨built.1.name, built.1.type⟩, ih built.2 spans⟩

/-! ### Text arguments -/

theorem isUnlimited_toUnlimited (value : LiteralValue) : value.toUnlimited.isUnlimited = true := by
  rcases value with ⟨_, _ | _⟩ | _ <;> rfl

/-- String literals where a function takes literals become text. -/
theorem areUnbound_unbindArguments (required : Nat → Option LiteralKind) (index : Nat)
    (arguments : List Expression) :
    AreUnbound required index (unbindArguments required index arguments) := by
  induction arguments generalizing index with
  | nil => trivial
  | cons argument rest ih =>
    cases argument with
    | literal constant =>
      refine ⟨fun literal isContent => ?_, ih (index + 1)⟩
      obtain ⟨same, isText, isString⟩ := Setting.contentArgument?_eq_some isContent
      obtain rfl := Expression.literal.inj same
      split
      · exact isUnlimited_toUnlimited constant.value
      · rename_i notNeeded
        rw [if_neg notNeeded] at isString
        exact absurd ⟨isString, Option.isSome_of_eq_some isText⟩ notNeeded
    | identifier use => exact ⟨nofun, ih (index + 1)⟩
    | call id span callee arguments => exact ⟨nofun, ih (index + 1)⟩

theorem argumentsBuilt_unbindArguments {table : NameTable} {required : Nat → Option LiteralKind}
    {index : Nat} {arguments : List Expression} (built : ArgumentsBuilt table arguments) :
    ArgumentsBuilt table (unbindArguments required index arguments) := by
  induction arguments generalizing index with
  | nil => exact built
  | cons argument rest ih =>
    rw [ArgumentsBuilt] at built
    cases argument with
    | literal constant =>
      have isBuilt := built.1
      rw [Expression.IsBuilt] at isBuilt
      rw [unbindArguments, ArgumentsBuilt, Expression.IsBuilt]
      refine ⟨?_, ih built.2⟩
      split
      · rename_i isNeeded
        refine ⟨isBuilt.type, fun isTruth => ?_⟩
        rw [isNeeded.1] at isTruth
        cases isTruth
      · exact isBuilt
    | identifier use => exact ⟨built.1, ih built.2⟩
    | call id span callee arguments => exact ⟨built.1, ih built.2⟩

theorem requiredLiterals_of_builtin? {table : NameTable} {label : String} {name : Handle}
    {builtin : BuiltinSignature} (answered : table.builtin? name = .ok (some builtin)) :
    requiredLiterals (.label label) name table = builtin.function.literalArgument? := by
  simp only [requiredLiterals, answered]

/-! ### Nodes that are made of others -/

theorem yields_located {α : Type} (ready : state.table.IsReady dialect)
    (location : Option Source.Location) (make : Span → α) :
    Yields dialect (located location make) state fun node _ =>
      ∃ span, node = make span := by
  apply (yields_locate ready location).bind
  intro _ middle isExtended _
  apply (yields_currentSpan isExtended.ready).bind
  intro span after later _
  exact Yields.pure later.ready ⟨span, rfl⟩

theorem yields_makeBlock (ready : state.table.IsReady dialect) (statements : List Statement) :
    Yields dialect (makeBlock statements) state fun block after =>
      ∃ id span, block = .mk id span statements ∧ state.nextId ≤ id ∧ id < after.nextId := by
  apply (yields_freshId ready).bind
  intro id middle isExtended isNew
  apply (yields_currentSpan isExtended.ready).bind
  intro span after later _
  exact Yields.pure later.ready
    ⟨id, span, rfl, isNew.1, Nat.lt_of_lt_of_le isNew.2 later.nextId⟩

theorem yields_makeLoop (ready : state.table.IsReady dialect) (location : Option Source.Location)
    (pre : Block) (condition : Expression) (post body : Block) :
    Yields dialect (makeLoop location pre condition post body) state fun statement _ =>
      ∃ id span, statement = .loop id span pre condition post body := by
  apply (yields_locate ready location).bind
  intro _ located isLocated _
  apply (yields_freshId isLocated.ready).bind
  intro id middle isExtended _
  apply (yields_currentSpan isExtended.ready).bind
  intro span after later _
  exact Yields.pure later.ready ⟨id, span, rfl⟩

theorem yields_makeCase (ready : state.table.IsReady dialect) (span : Option Span)
    (value : Option Literal) (body : Block) :
    Yields dialect (makeCase span value body) state fun case _ =>
      ∃ span, case = .mk span value body := by
  cases span with
  | none => exact ⟨.refl ready, state.span, rfl⟩
  | some span => exact ⟨.of_same ready rfl (Nat.le_refl _), span, rfl⟩

/-! ### Parts with names -/

variable (regular : dialect.IsRegular)

include regular

theorem yields_identifier (ready : state.table.IsReady dialect) {label : String}
    (isLabel : label ≠ "") :
    Yields dialect (identifier (.label label)) state fun identifier after =>
      identifier.IsBuilt after.table := by
  apply (yields_define regular ready label).bind
  intro name defined isDefined named
  apply (yields_freshId isDefined.ready).bind
  intro id middle isExtended _
  apply (yields_currentSpan isExtended.ready).bind
  intro span after later _
  have keeps := (isExtended.trans later).keepsBuilt isDefined.ready
  exact Yields.pure later.ready ⟨named.2 isLabel, keeps.hasLabel _ named.1⟩

theorem yields_declared (ready : state.table.IsReady dialect) (name type : String) :
    Yields dialect (declared ⟨.label name, some (.label type)⟩) state fun declared after =>
      declared.IsBuilt after.table := by
  apply (yields_freshId ready).bind
  intro id numbered isNumbered _
  apply (yields_define regular isNumbered.ready name).bind
  intro name defined isDefined named
  apply (yields_currentSpan isDefined.ready).bind
  intro span middle isExtended _
  apply (yields_typeLabel regular isExtended.ready type).bind
  intro type after later typed
  have keeps := (isExtended.trans later).keepsBuilt isDefined.ready
  exact Yields.pure later.ready ⟨(keeps.hasLabel _ named.1).isShown, typed⟩

omit regular in
theorem yields_redeclared (ready : state.table.IsReady dialect) {name : Handle}
    (isShown : state.table.IsShown name) :
    Yields dialect (redeclared name) state fun declared after => declared.IsBuilt after.table where
  isExtended := .of_same ready rfl (Nat.le_succ _)
  holds := ⟨isShown, ready.hasLabel_of_isType ready.defaultType⟩

omit regular in
theorem yields_makeLiteral (ready : state.table.IsReady dialect) {kind : LiteralKind}
    {value : LiteralValue} {type : TypeHandle} (hasLabel : state.table.HasLabel type)
    (truth : kind = .boolean → ∃ flag, value = .ofBool flag) (isWord : value.isUnlimited = false) :
    Yields dialect (makeLiteral kind value type) state fun literal after =>
      literal.IsBound after.table where
  isExtended := .of_same ready rfl (Nat.le_succ _)
  holds := ⟨⟨hasLabel, truth⟩, isWord⟩

/-- A spelled literal is one of the default type or of a named one. -/
theorem yields_literal (ready : state.table.IsReady dialect)
    (location : Option Source.Location) {written : Source.Literal} (spelled : written.IsSpelled) :
    Yields dialect (literal location written) state fun literal after =>
      literal.IsBound after.table := by
  cases written with
  | number text label =>
    apply (yields_locate ready location).bind
    intro _ located isLocated _
    apply (yields_typeLabel regular isLocated.ready (label.getD "")).bind
    intro _ _ later typed
    exact yields_makeLiteral later.ready typed nofun rfl
  | boolean flag label =>
    have isWord : (LiteralValue.ofBool flag).isUnlimited = false := by cases flag <;> rfl
    apply (yields_locate ready location).bind
    intro _ located isLocated _
    cases label with
    | none =>
      have hasLabel := isLocated.ready.hasLabel_of_isType isLocated.ready.boolType
      apply (yields_get isLocated.ready).bind
      intro _ _ _ same
      obtain ⟨rfl, rfl⟩ := same
      exact yields_makeLiteral isLocated.ready hasLabel (fun _ => ⟨flag, rfl⟩) isWord
    | some label =>
      apply (yields_typeLabel regular isLocated.ready label).bind
      intro type after later typed
      exact yields_makeLiteral later.ready typed (fun _ => ⟨flag, rfl⟩) isWord
  | string text =>
    apply (yields_locate ready location).bind
    intro _ located isLocated _
    have hasLabel := isLocated.ready.hasLabel_of_isType isLocated.ready.defaultType
    apply (yields_get isLocated.ready).bind
    intro _ _ _ same
    obtain ⟨rfl, rfl⟩ := same
    exact yields_makeLiteral isLocated.ready hasLabel nofun rfl
  | value | located => cases spelled

/-! ### Expressions and statements with names -/

theorem yields_makeUse (ready : state.table.IsReady dialect) (location : Option Source.Location)
    {label : String} (isLabel : label ≠ "") :
    Yields dialect (makeUse location (.label label)) state fun expression after =>
      expression.IsBuilt after.table := by
  apply (yields_locate ready location).bind
  intro _ located isLocated _
  apply (yields_identifier regular isLocated.ready isLabel).bind
  intro use after later built
  exact Yields.pure later.ready (by rwa [Expression.IsBuilt])

/-- In a call, the text arguments of a function of the dialect are text of any length. -/
theorem yields_makeCall (ready : state.table.IsReady dialect)
    (location : Option Source.Location) {label : String} (isLabel : label ≠ "")
    {arguments : List Expression} (built : ArgumentsBuilt state.table arguments) :
    Yields dialect (makeCall location (.label label) arguments) state fun expression after =>
      expression.IsBuilt after.table := by
  apply (yields_locate ready location).bind
  intro _ located isLocated _
  apply (yields_identifier regular isLocated.ready isLabel).bind
  intro callee named isNamed isBuilt
  apply (yields_get isNamed.ready).bind
  intro _ _ _ same
  obtain ⟨rfl, rfl⟩ := same
  apply (yields_freshId isNamed.ready).bind
  intro id numbered isNumbered _
  apply (yields_currentSpan isNumbered.ready).bind
  intro span after later _
  have ends := isNumbered.trans later
  have keeps := ends.keepsBuilt isNamed.ready
  have sameName (spans : List Span) :
      ((placeIdentifiers [callee] spans).head?.getD callee).name = callee.name := by
    cases spans <;> rfl
  have isCallee := keeps.isBuilt_identifier isBuilt
  apply Yields.pure later.ready
  rw [Expression.IsBuilt]
  refine ⟨⟨?_, ?_⟩, argumentsBuilt_unbindArguments ?_, fun builtin answered => ?_⟩
  · rw [sameName]
    exact isCallee.isNamed
  · rw [sameName]
    exact isCallee.name
  · exact (((isLocated.trans isNamed).trans ends).keepsBuilt ready).argumentsBuilt _ built
  · rw [sameName, keeps.builtin? _ isBuilt.name] at answered
    rw [requiredLiterals_of_builtin? answered]
    exact areUnbound_unbindArguments _ 0 arguments

theorem yields_makeAssignment (ready : state.table.IsReady dialect)
    (location : Option Source.Location) {targets : List String} (isSome : targets ≠ [])
    (areLabels : "" ∉ targets) {value : Expression} (built : value.IsBuilt state.table) :
    Yields dialect (makeAssignment location (targets.map .label) value) state fun statement after =>
      statement.IsBuilt after.table ∧ statement.frames = [] := by
  apply (yields_locate ready location).bind
  intro _ located isLocated _
  have each : ∀ target ∈ targets.map Source.Name.label, ∀ after, located.Extends dialect after →
      Yields dialect (identifier target) after fun identifier after =>
        identifier.IsBuilt after.table := by
    intro target member after isExtended
    obtain ⟨label, isTarget, rfl⟩ := List.mem_map.mp member
    exact yields_identifier regular isExtended.ready fun isEmpty => areLabels (isEmpty ▸ isTarget)
  apply (Yields.mapM each isLocated.ready lasts_identifier).bind
  intro identifiers named isNamed all
  apply (yields_currentSpan isNamed.ready).bind
  intro span after later _
  have keeps := (isLocated.trans (isNamed.trans later)).keepsBuilt ready
  refine Yields.pure later.ready ⟨?_, rfl⟩
  rw [Statement.IsBuilt]
  refine ⟨fun isNone => ?_, ?_, ?_⟩
  · have noTarget := congrArg List.length isNone
    rw [length_placeIdentifiers, all.1, List.length_map] at noTarget
    exact isSome (List.length_eq_zero_iff.mp noTarget)
  · apply isBuilt_placeIdentifiers
    exact fun identifier member => lasts_identifier _ _ _ isNamed.ready later (all.2 identifier member)
  · exact keeps.isBuilt_expression value built

omit regular in
/-- Declared variables are given by labels, or are names that can be shown. -/
theorem yields_makeDeclaration (ready : state.table.IsReady dialect)
    (location : Option Source.Location) {written : List Source.Variable}
    (declares : ∀ middle, state.Extends dialect middle →
      Yields dialect (declaredTogether written) middle fun locals after =>
        ∀ declared ∈ locals, declared.IsBuilt after.table)
    {value : Option Expression} (built : ∀ expression ∈ value, expression.IsBuilt state.table) :
    Yields dialect (makeDeclaration location written value) state fun statement after =>
      statement.IsBuilt after.table ∧ statement.frames = [] := by
  apply (yields_locate ready location).bind
  intro _ located isLocated _
  apply (declares located isLocated).bind
  intro locals declared isDeclared all
  apply (yields_currentSpan isDeclared.ready).bind
  intro span after later _
  have keeps := ((isLocated.trans isDeclared).trans later).keepsBuilt ready
  refine Yields.pure later.ready ⟨?_, rfl⟩
  rw [Statement.IsBuilt]
  constructor
  · apply isBuilt_placeVariables
    exact fun declared member => lasts_variable _ _ _ isDeclared.ready later (all declared member)
  · exact fun expression isValue =>
      keeps.isBuilt_expression expression (built expression isValue)

/-- The variables of a list of labels, with those of their types. -/
def labelled (labels : List (String × String)) : List Source.Variable :=
  labels.map fun (name, type) => ⟨.label name, some (.label type)⟩

/-- The variables of a list of names, of the default type. -/
def existing (names : List Handle) : List Source.Variable :=
  names.map fun name => ⟨.handle name, none⟩

theorem yields_mapM_labelled (ready : state.table.IsReady dialect)
    (labels : List (String × String)) :
    Yields dialect ((labelled labels).mapM declared) state fun locals after =>
      ∀ declared ∈ locals, declared.IsBuilt after.table := by
  have each : ∀ written ∈ labelled labels, ∀ after, state.Extends dialect after →
      Yields dialect (declared written) after fun declared after =>
        declared.IsBuilt after.table := by
    intro written member after isExtended
    obtain ⟨⟨name, type⟩, _, rfl⟩ := List.mem_map.mp member
    exact yields_declared regular isExtended.ready name type
  exact (Yields.mapM each ready lasts_variable).imp fun _ _ all => all.2

theorem yields_declaredTogether_labelled (ready : state.table.IsReady dialect)
    (labels : List (String × String)) :
    Yields dialect (declaredTogether (labelled labels)) state fun locals after =>
      ∀ declared ∈ locals, declared.IsBuilt after.table := by
  have same : declaredTogether (labelled labels) = (labelled labels).mapM declared := by
    cases labels <;> rfl
  rw [same]
  exact yields_mapM_labelled regular ready labels

omit regular in
theorem yields_declaredTogether_existing (ready : state.table.IsReady dialect)
    {names : List Handle} (areShown : ∀ name ∈ names, state.table.IsShown name) :
    Yields dialect (declaredTogether (existing names)) state fun locals after =>
      ∀ declared ∈ locals, declared.IsBuilt after.table := by
  have known : (existing names).mapM Source.Variable.existing? = some names := by
    induction names with
    | nil => rfl
    | cons name rest ih =>
      have others := ih fun other member => areShown other (List.mem_cons_of_mem _ member)
      rw [existing, List.map_cons, List.mapM_cons]
      rw [existing] at others
      rw [others]
      rfl
  have same : declaredTogether (existing names) = names.mapM redeclared := by
    rw [declaredTogether, known]
  have each : ∀ name ∈ names, ∀ after, state.Extends dialect after →
      Yields dialect (redeclared name) after fun declared after =>
        declared.IsBuilt after.table := by
    intro name member after isExtended
    exact yields_redeclared isExtended.ready
      ((isExtended.keepsBuilt ready).isShown _ (areShown name member))
  rw [same]
  exact (Yields.mapM each ready lasts_variable).imp fun _ _ all => all.2

/-- A function has a new number. -/
theorem yields_makeFunction (ready : state.table.IsReady dialect)
    (location : Option Source.Location) {label : String} (isLabel : label ≠ "")
    (parameters returns : List (String × String)) {body : Block} (built : body.IsBuilt state.table) :
    Yields dialect
      (makeFunction location (.label label) (labelled parameters) (labelled returns) body) state
      fun statement after => statement.IsBuilt after.table ∧
        ∃ id, state.nextId ≤ id ∧ id < after.nextId ∧
          statement.frames.map (·.1) = .function id :: body.owners := by
  apply (yields_locate ready location).bind
  intro _ located isLocated _
  apply (yields_define regular isLocated.ready label).bind
  intro name named isNamed isDefined
  apply (yields_mapM_labelled regular isNamed.ready parameters).bind
  intro parameters first isFirst areParameters
  apply (yields_mapM_labelled regular isFirst.ready returns).bind
  intro returns second isSecond areReturns
  apply (yields_freshId isSecond.ready).bind
  intro id numbered isNumbered isNew
  apply (yields_currentSpan isNumbered.ready).bind
  intro span after later _
  have ends := isSecond.trans (isNumbered.trans later)
  have all := isLocated.trans (isNamed.trans (isFirst.trans ends))
  refine Yields.pure later.ready ⟨?_, id, ?_, Nat.lt_of_lt_of_le isNew.2 later.nextId, rfl⟩
  · rw [Statement.IsBuilt]
    refine ⟨⟨isDefined.2 isLabel, ?_⟩, ?_, (all.keepsBuilt ready).isBuilt_block body built⟩
    · exact ((isFirst.trans ends).keepsBuilt isNamed.ready).hasLabel _ isDefined.1
    · intro declared member
      rcases List.mem_append.mp member with member | member
      · exact isBuilt_placeVariables (fun declared isParameter =>
          lasts_variable _ _ _ isFirst.ready ends (areParameters declared isParameter)) _ _ member
      · exact isBuilt_placeVariables (fun declared isReturn => lasts_variable _ _ _ isSecond.ready
          (isNumbered.trans later) (areReturns declared isReturn)) _ _ member
  · exact Nat.le_trans (isLocated.trans (isNamed.trans (isFirst.trans isSecond))).nextId isNew.1

end Elaborate

end YulCheck
