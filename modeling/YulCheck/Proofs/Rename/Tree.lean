import YulCheck.Scope.Declarations
import YulCheck.Tree.Names

/-! # Programs under other names

A program under other names has another name at every place where it declares or uses one. Its types,
its literals and the numbers of its nodes stay.
-/

namespace YulCheck

/-! ### Trees -/

section Trees

variable (change : Handle → Handle)

/-- The use of another name. -/
def Identifier.rename (use : Identifier) : Identifier := { use with name := change use.name }

/-- The variable under another name. -/
def Variable.rename (declared : Variable) : Variable := { declared with name := change declared.name }

mutual

/-- The expression under other names. -/
def Expression.rename : Expression → Expression
  | .literal constant => .literal constant
  | .identifier use => .identifier (use.rename change)
  | .call id span callee arguments => .call id span (callee.rename change) (renameArguments arguments)

/-- The arguments of a call under other names. -/
def renameArguments : List Expression → List Expression
  | [] => []
  | argument :: rest => argument.rename :: renameArguments rest

end

mutual

/-- The block under other names. -/
def Block.rename : Block → Block
  | .mk id span statements => .mk id span (renameStatements statements)

/-- Statements under other names. -/
def renameStatements : List Statement → List Statement
  | [] => []
  | statement :: rest => statement.rename :: renameStatements rest

/-- The statement under other names. -/
def Statement.rename : Statement → Statement
  | .expression span expression => .expression span (expression.rename change)
  | .assignment span targets value =>
    .assignment span (targets.map (·.rename change)) (value.rename change)
  | .declaration span locals value? =>
    .declaration span (locals.map (·.rename change)) (value?.map (·.rename change))
  | .function id span name parameters returns body =>
    .function id span (change name) (parameters.map (·.rename change)) (returns.map (·.rename change))
      body.rename
  | .conditional span condition body => .conditional span (condition.rename change) body.rename
  | .switch span scrutinee cases => .switch span (scrutinee.rename change) (renameCases cases)
  | .loop id span pre condition post body =>
    .loop id span pre.rename (condition.rename change) post.rename body.rename
  | .break span => .break span
  | .continue span => .continue span
  | .leave span => .leave span
  | .block block => .block block.rename

/-- The cases of a switch under other names. -/
def renameCases : List Case → List Case
  | [] => []
  | .mk span value? body :: rest => .mk span value? body.rename :: renameCases rest

end

/-- The declaration of another name. -/
def Declaration.rename : Declaration → Declaration
  | .scope owner => .scope owner
  | .resume block => .resume block
  | .leave => .leave
  | .function span name parameters returns => .function span (change name) parameters returns
  | .locals declared => .locals (declared.map (·.rename change))

/-! ### What stays -/

@[simp]
theorem length_renameArguments (arguments : List Expression) :
    (renameArguments change arguments).length = arguments.length := by
  induction arguments with
  | nil => rfl
  | cons argument rest ih => exact congrArg (· + 1) ih

@[simp]
theorem Block.id_rename (block : Block) : (block.rename change).id = block.id := by
  cases block
  rfl

/-- The cases of a switch keep their values. -/
theorem map_value?_renameCases (cases : List Case) :
    (renameCases change cases).map (·.value?) = cases.map (·.value?) := by
  induction cases with
  | nil => rfl
  | cons first rest ih =>
    obtain ⟨span, value?, body⟩ := first
    exact congrArg (value? :: ·) ih

theorem map_type_rename (locals : List Variable) :
    (locals.map (·.rename change)).map (·.type) = locals.map (·.type) := List.map_map

/-! ### Declarations -/

theorem functionDeclaration?_rename (statement : Statement) :
    (statement.rename change).functionDeclaration? =
      statement.functionDeclaration?.map (·.rename change) := by
  cases statement with
  | function id span name parameters returns body =>
    rw [Statement.rename, Statement.functionDeclaration?, map_type_rename, map_type_rename]
    rfl
  | _ => rfl

theorem functionDeclarations_rename (statements : List Statement) :
    functionDeclarations (renameStatements change statements) =
      (functionDeclarations statements).map (·.rename change) := by
  rw [functionDeclarations, functionDeclarations, List.map_filterMap]
  induction statements with
  | nil => rfl
  | cons statement rest ih =>
    rw [renameStatements, List.filterMap_cons, List.filterMap_cons, functionDeclaration?_rename, ih]

mutual

/-- The declarations of a block under other names are those of the block under these names. -/
theorem Block.declarations_rename (block : Block) :
    (block.rename change).declarations = block.declarations.map (·.rename change) := by
  cases block with
  | mk id span statements =>
    rw [Block.rename, Block.declarations, Block.declarations, functionDeclarations_rename,
      statementDeclarations_rename statements, List.map_append, List.map_append, List.map_cons]
    rfl

theorem statementDeclarations_rename (statements : List Statement) :
    statementDeclarations (renameStatements change statements) =
      (statementDeclarations statements).map (·.rename change) := by
  cases statements with
  | nil => rfl
  | cons statement rest =>
    rw [renameStatements, statementDeclarations, statementDeclarations, List.map_append,
      statement.declarations_rename, statementDeclarations_rename rest]

theorem Statement.declarations_rename (statement : Statement) :
    (statement.rename change).declarations = statement.declarations.map (·.rename change) := by
  cases statement with
  | expression | assignment | declaration | «break» | «continue» | leave => rfl
  | function id span name parameters returns body =>
    simp only [Statement.rename, Statement.declarations, body.declarations_rename, List.map_append,
      List.map_cons, List.map_map]
    rfl
  | conditional span condition body => exact body.declarations_rename
  | «switch» span scrutinee cases => exact caseDeclarations_rename cases
  | loop id span pre condition post body =>
    simp only [Statement.rename, Statement.declarations, Block.id_rename, pre.declarations_rename,
      body.declarations_rename, post.declarations_rename, List.map_append, List.map_cons]
    rfl
  | block block => exact block.declarations_rename

theorem caseDeclarations_rename (cases : List Case) :
    caseDeclarations (renameCases change cases) =
      (caseDeclarations cases).map (·.rename change) := by
  rcases cases with _ | ⟨⟨span, value?, body⟩, rest⟩
  · rfl
  · rw [renameCases, caseDeclarations, caseDeclarations, List.map_append,
      body.declarations_rename, caseDeclarations_rename rest]

end

end Trees

/-! ### The names of declarations -/

/-- The names that a declaration binds. -/
def Declaration.names : Declaration → List Handle
  | .scope _ | .resume _ | .leave => []
  | .function _ name _ _ => [name]
  | .locals declared => declared.map (·.name)

theorem List.append_subset_append {α : Type} {first second others last : List α}
    (inFirst : first ⊆ others) (inSecond : second ⊆ last) : first ++ second ⊆ others ++ last :=
  List.append_subset.mpr ⟨List.subset_append_of_subset_left _ inFirst,
    List.subset_append_of_subset_right _ inSecond⟩

theorem names_functionDeclarations (statements : List Statement) :
    (functionDeclarations statements).flatMap (·.names) ⊆ statementOccurrences statements := by
  induction statements with
  | nil => exact List.Subset.refl _
  | cons statement rest ih =>
    rw [statementOccurrences]
    cases statement with
    | function id span name parameters returns body =>
      rw [Statement.occurrences]
      exact List.cons_subset.mpr ⟨List.mem_cons_self, List.subset_append_of_subset_right _ ih⟩
    | _ => exact List.subset_append_of_subset_right _ ih

mutual

/-- The declarations of a block bind names that occur in it. -/
theorem Block.names_declarations (block : Block) :
    block.declarations.flatMap (·.names) ⊆ block.occurrences := by
  cases block with
  | mk id span statements =>
    rw [Block.declarations, Block.occurrences, List.flatMap_append, List.cons_append,
      List.flatMap_cons, List.flatMap_append]
    exact List.append_subset.mpr ⟨List.append_subset.mpr ⟨List.nil_subset _, List.append_subset.mpr
      ⟨names_functionDeclarations statements, names_statementDeclarations statements⟩⟩,
      List.nil_subset _⟩

theorem names_statementDeclarations (statements : List Statement) :
    (statementDeclarations statements).flatMap (·.names) ⊆ statementOccurrences statements := by
  cases statements with
  | nil => exact List.Subset.refl _
  | cons statement rest =>
    rw [statementDeclarations, statementOccurrences, List.flatMap_append]
    exact List.append_subset_append statement.names_declarations (names_statementDeclarations rest)

theorem Statement.names_declarations (statement : Statement) :
    statement.declarations.flatMap (·.names) ⊆ statement.occurrences := by
  cases statement with
  | expression | assignment | «break» | «continue» | leave => exact List.nil_subset _
  | declaration span locals value? =>
    rw [Statement.declarations, List.flatMap_singleton, Statement.occurrences]
    exact List.subset_append_left (locals.map (·.name)) _
  | function id span name parameters returns body =>
    rw [Statement.declarations, Statement.occurrences, List.flatMap_append, List.flatMap_append,
      List.flatMap_cons, List.flatMap_map]
    refine List.append_subset.mpr ⟨List.append_subset_append ?_ body.names_declarations,
      List.nil_subset _⟩
    refine List.Subset.trans ?_ (List.subset_cons_self _ _)
    rw [List.map_eq_flatMap]
    exact List.Subset.refl _
  | conditional span condition body =>
    rw [Statement.declarations, Statement.occurrences]
    exact List.subset_append_of_subset_right _ body.names_declarations
  | «switch» span scrutinee cases =>
    rw [Statement.declarations, Statement.occurrences]
    exact List.subset_append_of_subset_right _ (names_caseDeclarations cases)
  | loop id span pre condition post body =>
    have inPre := pre.names_declarations
    have inBody := body.names_declarations
    have inPost := post.names_declarations
    rw [Statement.declarations, Statement.occurrences]
    intro name member
    simp only [List.flatMap_append, List.flatMap_cons, List.mem_append] at member ⊢
    rcases member with ((isPre | isNone | isBody) | isPost) | isNone | isNone
    · exact .inl (.inl (.inl (inPre isPre)))
    · cases isNone
    · exact .inr (inBody isBody)
    · exact .inl (.inr (inPost isPost))
    · cases isNone
    · cases isNone
  | block block => exact block.names_declarations

theorem names_caseDeclarations (cases : List Case) :
    (caseDeclarations cases).flatMap (·.names) ⊆ caseOccurrences cases := by
  rcases cases with _ | ⟨⟨span, value?, body⟩, rest⟩
  · exact List.Subset.refl _
  · rw [caseDeclarations, caseOccurrences, List.flatMap_append]
    exact List.append_subset_append body.names_declarations (names_caseDeclarations rest)

end

/-! ### The same names -/

mutual

@[simp]
theorem Expression.rename_id (expression : Expression) :
    expression.rename (fun name => name) = expression := by
  cases expression with
  | literal | identifier => rfl
  | call id span callee arguments => rw [Expression.rename, renameArguments_id arguments]; rfl

@[simp]
theorem renameArguments_id (arguments : List Expression) :
    renameArguments (fun name => name) arguments = arguments := by
  cases arguments with
  | nil => rfl
  | cons argument rest => rw [renameArguments, argument.rename_id, renameArguments_id rest]

end

mutual

theorem Block.rename_id (block : Block) : block.rename (fun name => name) = block := by
  cases block with
  | mk id span statements => rw [Block.rename, renameStatements_id statements]

theorem renameStatements_id (statements : List Statement) :
    renameStatements (fun name => name) statements = statements := by
  cases statements with
  | nil => rfl
  | cons statement rest => rw [renameStatements, statement.rename_id, renameStatements_id rest]

theorem Statement.rename_id (statement : Statement) :
    statement.rename (fun name => name) = statement := by
  have locals (locals : List Variable) : locals.map (·.rename fun name => name) = locals :=
    List.map_id _
  cases statement with
  | «break» | «continue» | leave => rfl
  | expression span expression => rw [Statement.rename, expression.rename_id]
  | assignment span targets value =>
    rw [Statement.rename, value.rename_id]
    exact congrArg (Statement.assignment span · value) (List.map_id _)
  | declaration span names value? =>
    rw [Statement.rename, locals]
    cases value? with
    | none => rfl
    | some value => rw [Option.map_some, value.rename_id]
  | function id span name parameters returns body =>
    rw [Statement.rename, locals, locals, body.rename_id]
  | conditional span condition body =>
    rw [Statement.rename, condition.rename_id, body.rename_id]
  | «switch» span scrutinee cases =>
    rw [Statement.rename, scrutinee.rename_id, renameCases_id cases]
  | loop id span pre condition post body =>
    rw [Statement.rename, pre.rename_id, condition.rename_id, post.rename_id, body.rename_id]
  | block block => rw [Statement.rename, block.rename_id]

theorem renameCases_id (cases : List Case) : renameCases (fun name => name) cases = cases := by
  rcases cases with _ | ⟨⟨span, value?, body⟩, rest⟩
  · rfl
  · rw [renameCases, body.rename_id, renameCases_id rest]

end

end YulCheck
