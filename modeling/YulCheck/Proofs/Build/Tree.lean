import YulCheck.Check.Expression
import YulCheck.Proofs.Name.Labelled

/-! # Trees with answers

What checking relies on in a tree: used names are not empty and have labels, declared names can be
shown, types have labels, truth values are spelled as such, and functions take text as it is where
they take literals. All of this stays true in tables that keep the answers to these questions, as
tables that grow do.
-/

namespace YulCheck

variable {table after : NameTable}

/-! ### Literals and names -/

/-- Whether a literal has a type with a label, and a truth value if it is to have one. -/
structure Literal.IsBuilt (table : NameTable) (literal : Literal) : Prop where
  type : table.HasLabel literal.type
  truth : literal.kind = .boolean → ∃ flag, literal.value = .ofBool flag

/-- Whether a literal is one that was made, and not changed to text of any length. -/
structure Literal.IsBound (table : NameTable) (literal : Literal) : Prop extends
    literal.IsBuilt table where
  isWord : literal.value.isUnlimited = false

/-- Whether a used name is not empty and has a label. -/
structure Identifier.IsBuilt (table : NameTable) (identifier : Identifier) : Prop where
  isNamed : identifier.name ≠ .empty
  name : table.HasLabel identifier.name

/-- Whether a declared variable can be shown, and has a type with a label. -/
structure Variable.IsBuilt (table : NameTable) (declared : Variable) : Prop where
  name : table.IsShown declared.name
  type : table.HasLabel declared.type

/-! ### Expressions -/

/-- Whether string literals that are needed as text of any length are such text, from a position
on. -/
def AreUnbound (required : Nat → Option LiteralKind) : (index : Nat) → List Expression → Prop
  | _, [] => True
  | index, argument :: rest =>
    (∀ literal, Setting.contentArgument? (required index) argument = some literal →
        literal.value.isUnlimited = true) ∧
      AreUnbound required (index + 1) rest

/-- Whether a function of the dialect gets the text that it takes. -/
def TakesText (table : NameTable) (callee : Handle) (arguments : List Expression) : Prop :=
  ∀ builtin, table.builtin? callee = .ok (some builtin) →
    AreUnbound builtin.function.literalArgument? 0 arguments

mutual

/-- Whether an expression has all that checking relies on. -/
def Expression.IsBuilt (table : NameTable) : Expression → Prop
  | .literal constant => constant.IsBuilt table
  | .identifier use => use.IsBuilt table
  | .call _ _ callee arguments =>
    callee.IsBuilt table ∧ ArgumentsBuilt table arguments ∧ TakesText table callee.name arguments

/-- Whether all arguments of a call have what checking relies on. -/
def ArgumentsBuilt (table : NameTable) : List Expression → Prop
  | [] => True
  | argument :: rest => argument.IsBuilt table ∧ ArgumentsBuilt table rest

end

theorem argumentsBuilt_iff {arguments : List Expression} :
    ArgumentsBuilt table arguments ↔ ∀ argument ∈ arguments, argument.IsBuilt table := by
  induction arguments with
  | nil => exact iff_of_true trivial nofun
  | cons argument rest ih => rw [ArgumentsBuilt, ih, List.forall_mem_cons]

/-! ### Statements -/

mutual

/-- Whether all statements of a block have what checking relies on. -/
def Block.IsBuilt (table : NameTable) : Block → Prop
  | .mk _ _ statements => StatementsBuilt table statements

/-- Whether statements have what checking relies on. -/
def StatementsBuilt (table : NameTable) : List Statement → Prop
  | [] => True
  | statement :: rest => statement.IsBuilt table ∧ StatementsBuilt table rest

/-- Whether a statement has all that checking relies on. -/
def Statement.IsBuilt (table : NameTable) : Statement → Prop
  | .expression _ expression => expression.IsBuilt table
  | .assignment _ targets value =>
    targets ≠ [] ∧ (∀ target ∈ targets, target.IsBuilt table) ∧ value.IsBuilt table
  | .declaration _ locals value =>
    (∀ declared ∈ locals, declared.IsBuilt table) ∧ ∀ expression ∈ value, expression.IsBuilt table
  | .function _ _ name parameters returns body =>
    (name ≠ .empty ∧ table.HasLabel name) ∧
      (∀ declared ∈ parameters ++ returns, declared.IsBuilt table) ∧ body.IsBuilt table
  | .conditional _ condition body => condition.IsBuilt table ∧ body.IsBuilt table
  | .switch _ scrutinee cases => scrutinee.IsBuilt table ∧ CasesBuilt table cases
  | .loop _ _ pre condition post body =>
    pre.IsBuilt table ∧ condition.IsBuilt table ∧ post.IsBuilt table ∧ body.IsBuilt table
  | .break _ | .continue _ | .leave _ => True
  | .block block => block.IsBuilt table

/-- Whether the cases of a switch have what checking relies on. -/
def CasesBuilt (table : NameTable) : List Case → Prop
  | [] => True
  | .mk _ value body :: rest =>
    (∀ literal ∈ value, literal.IsBound table) ∧ body.IsBuilt table ∧ CasesBuilt table rest

end

/-- Whether a case has all that checking relies on. -/
def Case.IsBuilt (table : NameTable) : Case → Prop
  | .mk _ value body => (∀ literal ∈ value, literal.IsBound table) ∧ body.IsBuilt table

theorem statementsBuilt_iff {statements : List Statement} :
    StatementsBuilt table statements ↔ ∀ statement ∈ statements, statement.IsBuilt table := by
  induction statements with
  | nil => exact iff_of_true trivial nofun
  | cons statement rest ih => rw [StatementsBuilt, ih, List.forall_mem_cons]

theorem casesBuilt_iff {cases : List Case} :
    CasesBuilt table cases ↔ ∀ case ∈ cases, case.IsBuilt table := by
  induction cases with
  | nil => exact iff_of_true trivial nofun
  | cons first rest ih =>
    cases first with
    | mk span value body => rw [CasesBuilt, ih, List.forall_mem_cons, Case.IsBuilt, and_assoc]

/-! ### Tables that keep what is built -/

/-- Whether checking finds in a table all that it relied on in another one. -/
structure NameTable.KeepsBuilt (table after : NameTable) : Prop where
  hasLabel : ∀ name, table.HasLabel name → after.HasLabel name
  isShown : ∀ name, table.IsShown name → after.IsShown name
  builtin? : ∀ name, table.HasLabel name → after.builtin? name = table.builtin? name

/-- Names that are added change nothing about those that were there. -/
theorem NameTable.Grows.keepsBuilt (grows : table.Grows after) (back : RefersBack table.entries) :
    table.KeepsBuilt after where
  hasLabel _ hasLabel := grows.hasLabel back hasLabel
  isShown _ isShown := grows.isShown back isShown
  builtin? _ hasLabel := grows.builtin? back hasLabel.lt

namespace NameTable.KeepsBuilt

theorem isBuilt_literal (keeps : table.KeepsBuilt after) {literal : Literal}
    (built : literal.IsBuilt table) : literal.IsBuilt after :=
  ⟨keeps.hasLabel _ built.type, built.truth⟩

theorem isBound_literal (keeps : table.KeepsBuilt after) {literal : Literal}
    (bound : literal.IsBound table) : literal.IsBound after :=
  ⟨keeps.isBuilt_literal bound.toIsBuilt, bound.isWord⟩

theorem isBuilt_identifier (keeps : table.KeepsBuilt after) {identifier : Identifier}
    (built : identifier.IsBuilt table) : identifier.IsBuilt after :=
  ⟨built.isNamed, keeps.hasLabel _ built.name⟩

theorem isBuilt_variable (keeps : table.KeepsBuilt after) {declared : Variable}
    (built : declared.IsBuilt table) : declared.IsBuilt after :=
  ⟨keeps.isShown _ built.name, keeps.hasLabel _ built.type⟩

theorem takesText (keeps : table.KeepsBuilt after) {callee : Identifier}
    {arguments : List Expression} (built : callee.IsBuilt table)
    (takes : TakesText table callee.name arguments) : TakesText after callee.name arguments := by
  intro builtin answered
  rw [keeps.builtin? _ built.name] at answered
  exact takes builtin answered

mutual

theorem isBuilt_expression (keeps : table.KeepsBuilt after) (expression : Expression)
    (built : expression.IsBuilt table) : expression.IsBuilt after := by
  cases expression with
  | literal constant =>
    rw [Expression.IsBuilt] at built ⊢
    exact keeps.isBuilt_literal built
  | identifier use =>
    rw [Expression.IsBuilt] at built ⊢
    exact keeps.isBuilt_identifier built
  | call id span callee arguments =>
    rw [Expression.IsBuilt] at built ⊢
    obtain ⟨isCallee, parts, takes⟩ := built
    exact ⟨keeps.isBuilt_identifier isCallee, keeps.argumentsBuilt arguments parts,
      keeps.takesText isCallee takes⟩

theorem argumentsBuilt (keeps : table.KeepsBuilt after) (arguments : List Expression)
    (built : ArgumentsBuilt table arguments) : ArgumentsBuilt after arguments := by
  cases arguments with
  | nil => exact built
  | cons argument rest =>
    rw [ArgumentsBuilt] at built ⊢
    exact ⟨keeps.isBuilt_expression argument built.1, keeps.argumentsBuilt rest built.2⟩

end

mutual

theorem isBuilt_block (keeps : table.KeepsBuilt after) (block : Block)
    (built : block.IsBuilt table) : block.IsBuilt after := by
  cases block with
  | mk id span statements =>
    rw [Block.IsBuilt] at built ⊢
    exact keeps.statementsBuilt statements built

theorem statementsBuilt (keeps : table.KeepsBuilt after) (statements : List Statement)
    (built : StatementsBuilt table statements) : StatementsBuilt after statements := by
  cases statements with
  | nil => exact built
  | cons statement rest =>
    rw [StatementsBuilt] at built ⊢
    exact ⟨keeps.isBuilt_statement statement built.1, keeps.statementsBuilt rest built.2⟩

theorem isBuilt_statement (keeps : table.KeepsBuilt after) (statement : Statement)
    (built : statement.IsBuilt table) : statement.IsBuilt after := by
  cases statement with
  | expression span expression =>
    rw [Statement.IsBuilt] at built ⊢
    exact keeps.isBuilt_expression expression built
  | assignment span targets value =>
    rw [Statement.IsBuilt] at built ⊢
    obtain ⟨isSome, areTargets, isValue⟩ := built
    exact ⟨isSome, fun target member => keeps.isBuilt_identifier (areTargets target member),
      keeps.isBuilt_expression value isValue⟩
  | declaration span locals value =>
    rw [Statement.IsBuilt] at built ⊢
    exact ⟨fun declared member => keeps.isBuilt_variable (built.1 declared member),
      fun expression isValue =>
        keeps.isBuilt_expression expression (built.2 expression isValue)⟩
  | function id span name parameters returns body =>
    rw [Statement.IsBuilt] at built ⊢
    obtain ⟨⟨isNamed, hasLabel⟩, areLocals, isBody⟩ := built
    exact ⟨⟨isNamed, keeps.hasLabel _ hasLabel⟩,
      fun declared member => keeps.isBuilt_variable (areLocals declared member),
      keeps.isBuilt_block body isBody⟩
  | conditional span condition body =>
    rw [Statement.IsBuilt] at built ⊢
    exact ⟨keeps.isBuilt_expression condition built.1, keeps.isBuilt_block body built.2⟩
  | switch span scrutinee cases =>
    rw [Statement.IsBuilt] at built ⊢
    exact ⟨keeps.isBuilt_expression scrutinee built.1, keeps.casesBuilt cases built.2⟩
  | loop id span pre condition post body =>
    rw [Statement.IsBuilt] at built ⊢
    obtain ⟨isPre, isCondition, isPost, isBody⟩ := built
    exact ⟨keeps.isBuilt_block pre isPre, keeps.isBuilt_expression condition isCondition,
      keeps.isBuilt_block post isPost, keeps.isBuilt_block body isBody⟩
  | «break» | «continue» | leave =>
    rw [Statement.IsBuilt]
    trivial
  | block block =>
    rw [Statement.IsBuilt] at built ⊢
    exact keeps.isBuilt_block block built

theorem casesBuilt (keeps : table.KeepsBuilt after) (cases : List Case)
    (built : CasesBuilt table cases) : CasesBuilt after cases := by
  cases cases with
  | nil => exact built
  | cons first rest =>
    cases first with
    | mk span value body =>
      rw [CasesBuilt] at built ⊢
      obtain ⟨isValue, isBody, areCases⟩ := built
      exact ⟨fun literal member => keeps.isBound_literal (isValue literal member),
        keeps.isBuilt_block body isBody, keeps.casesBuilt rest areCases⟩

end

theorem isBuilt_case (keeps : table.KeepsBuilt after) (case : Case) (built : case.IsBuilt table) :
    case.IsBuilt after := by
  cases case with
  | mk span value body =>
    exact ⟨fun literal member => keeps.isBound_literal (built.1 literal member),
      keeps.isBuilt_block body built.2⟩

end NameTable.KeepsBuilt

end YulCheck
