import YulCheck.Proofs.Scope.Layout

/-! # The nesting of scopes

Every scope of a program is inside of another one, apart from that of the program itself: the scope of a
function is inside that of the block that defines it, its body is inside the scope of the function, the
body and the post block of a loop are inside its pre block, and every other block is inside the block
around it. Entering declarations opens the scopes that way, whatever is declared in them: every scope
that is opened or entered again is left, so the scope around it is the current one before and behind it.
-/

namespace YulCheck

/-! ### Nestings -/

/-- A node that opens a scope, with the node whose scope that is inside of. -/
abbrev Nesting := ScopeOwner × Option ScopeOwner

mutual

/-- The scopes that a block opens inside of another scope. -/
def Block.nestings (outer? : Option ScopeOwner) : Block → List Nesting
  | .mk id _ statements => (.block id, outer?) :: statementNestings (.block id) statements

/-- The scopes that statements open inside of the block of an owner. -/
def statementNestings (owner : ScopeOwner) : List Statement → List Nesting
  | [] => []
  | statement :: rest => statement.nestings owner ++ statementNestings owner rest

/-- The scopes that a statement opens inside of the block of an owner. -/
def Statement.nestings (owner : ScopeOwner) : Statement → List Nesting
  | .function id _ _ _ _ body => (.function id, some owner) :: body.nestings (some (.function id))
  | .conditional _ _ body => body.nestings (some owner)
  | .switch _ _ cases => caseNestings owner cases
  | .loop _ _ pre _ post body =>
    pre.nestings (some owner) ++ body.nestings (some (.block pre.id))
      ++ post.nestings (some (.block pre.id))
  | .block block => block.nestings (some owner)
  | .expression .. | .assignment .. | .declaration .. | .break _ | .continue _ | .leave _ => []

/-- The scopes that the cases of a switch open inside of the block of an owner. -/
def caseNestings (owner : ScopeOwner) : List Case → List Nesting
  | [] => []
  | .mk _ _ body :: rest => body.nestings (some owner) ++ caseNestings owner rest

end

mutual

/-- The nodes that open scopes in a block are the owners of its frames. -/
theorem Block.map_fst_nestings (block : Block) (outer? : Option ScopeOwner) :
    (block.nestings outer?).map (·.1) = block.owners := by
  obtain ⟨id, span, statements⟩ := block
  rw [Block.nestings, List.map_cons, map_fst_statementNestings]
  rfl

theorem map_fst_statementNestings (statements : List Statement) (owner : ScopeOwner) :
    (statementNestings owner statements).map (·.1) = (statementFrames statements).map (·.1) := by
  cases statements with
  | nil => rfl
  | cons statement rest =>
    rw [statementNestings, statementFrames, List.map_append, List.map_append,
      statement.map_fst_nestings, map_fst_statementNestings]

theorem Statement.map_fst_nestings (statement : Statement) (owner : ScopeOwner) :
    (statement.nestings owner).map (·.1) = statement.frames.map (·.1) := by
  cases statement with
  | function id span name parameters returns body =>
    rw [Statement.nestings, Statement.frames, List.map_cons, List.map_cons, body.map_fst_nestings]
    rfl
  | conditional span condition body => exact body.map_fst_nestings _
  | «switch» span scrutinee cases => exact map_fst_caseNestings cases owner
  | loop id span pre condition post body =>
    rw [Statement.nestings, Statement.frames]
    simp only [List.map_append, Block.map_fst_nestings, Block.owners]
  | block block => exact block.map_fst_nestings _
  | expression | assignment | declaration | «break» | «continue» | leave => rfl

theorem map_fst_caseNestings (cases : List Case) (owner : ScopeOwner) :
    (caseNestings owner cases).map (·.1) = (caseFrames cases).map (·.1) := by
  rcases cases with _ | ⟨⟨span, value?, body⟩, rest⟩
  · rfl
  · rw [caseNestings, caseFrames, List.map_append, List.map_append, body.map_fst_nestings,
      map_fst_caseNestings, Block.owners]

end

theorem Block.owner_mem_owners (block : Block) : .block block.id ∈ block.owners := by
  obtain ⟨id, span, statements⟩ := block
  rw [owners, frames]
  exact List.mem_cons_self

/-! ### Nested declarations -/

/-- Whether a step declares names in the current scope, and does not change which one that is. -/
def Declaration.IsInside : Declaration → Prop
  | .scope _ | .resume _ | .leave => False
  | .function .. | .locals _ => True

/-- Whether declarations that are entered while the scope of a node is the current one open scopes with
some nestings. Each scope that they go into is left again, and only blocks whose scopes they opened are
entered again. -/
inductive AreNested : (current? : Option ScopeOwner) → List Declaration → List Nesting → Prop
  | nil {current? : Option ScopeOwner} : AreNested current? [] []
  | inside {owner : ScopeOwner} {declaration : Declaration} (isInside : declaration.IsInside) :
    AreNested (some owner) [declaration] []
  | append {current? : Option ScopeOwner} {declarations others : List Declaration}
    {nestings more : List Nesting} (first : AreNested current? declarations nestings)
    (second : AreNested current? others more) :
    AreNested current? (declarations ++ others) (nestings ++ more)
  | scope {current? : Option ScopeOwner} {owner : ScopeOwner} {declarations : List Declaration}
    {nestings : List Nesting} (nested : AreNested (some owner) declarations nestings) :
    AreNested current? (.scope owner :: declarations ++ [.leave]) ((owner, current?) :: nestings)
  | resume {current? : Option ScopeOwner} {block : NodeId} {declarations others : List Declaration}
    {nestings more : List Nesting} (first : AreNested current? declarations nestings)
    (isOpened : .block block ∈ nestings.map (·.1))
    (second : AreNested (some (.block block)) others more) :
    AreNested current? (declarations ++ (.resume block :: others ++ [.leave])) (nestings ++ more)

theorem AreNested.of_isInside {owner : ScopeOwner} {declarations : List Declaration}
    (areInside : ∀ declaration ∈ declarations, declaration.IsInside) :
    AreNested (some owner) declarations [] := by
  induction declarations with
  | nil => exact nil
  | cons declaration rest ih =>
    obtain ⟨isInside, others⟩ := List.forall_mem_cons.mp areInside
    exact (inside isInside).append (ih others)

theorem isInside_of_mem_functionDeclarations {statements : List Statement} :
    ∀ declaration ∈ functionDeclarations statements, declaration.IsInside := by
  intro declaration member
  obtain ⟨statement, _, isDeclared⟩ := List.mem_filterMap.mp member
  cases statement <;> cases isDeclared
  trivial

mutual

/-- The declarations of a block are nested like its scopes. -/
theorem Block.areNested (block : Block) (outer? : Option ScopeOwner) :
    AreNested outer? block.declarations (block.nestings outer?) := by
  obtain ⟨id, span, statements⟩ := block
  have functions : AreNested (some (.block id)) (functionDeclarations statements) [] :=
    .of_isInside isInside_of_mem_functionDeclarations
  exact .scope (functions.append (statements_areNested statements _))

theorem statements_areNested (statements : List Statement) (owner : ScopeOwner) :
    AreNested (some owner) (statementDeclarations statements) (statementNestings owner statements) := by
  cases statements with
  | nil => exact .nil
  | cons statement rest =>
    exact (statement.areNested owner).append (statements_areNested rest owner)

theorem Statement.areNested (statement : Statement) (owner : ScopeOwner) :
    AreNested (some owner) statement.declarations (statement.nestings owner) := by
  cases statement with
  | declaration span locals value => exact .inside trivial
  | function id span name parameters returns body =>
    have locals : AreNested (some (.function id))
        ((parameters ++ returns).map fun declared => .locals [declared]) [] :=
      .of_isInside (List.forall_mem_map.mpr fun _ _ => trivial)
    exact .scope (locals.append (body.areNested _))
  | conditional span condition body => exact body.areNested _
  | «switch» span scrutinee cases => exact cases_areNested cases owner
  | loop id span pre condition post body =>
    have isOpened : .block pre.id ∈ (pre.nestings (some owner)).map (·.1) :=
      (pre.map_fst_nestings _).symm ▸ pre.owner_mem_owners
    have inPre := (body.areNested (some (.block pre.id))).append (post.areNested _)
    have whole := AreNested.resume (pre.areNested (some owner)) isOpened inPre
    simpa only [Statement.declarations, Statement.nestings, List.append_assoc, List.cons_append]
      using whole
  | block block => exact block.areNested _
  | expression | assignment | «break» | «continue» | leave => exact .nil

theorem cases_areNested (cases : List Case) (owner : ScopeOwner) :
    AreNested (some owner) (caseDeclarations cases) (caseNestings owner cases) := by
  rcases cases with _ | ⟨⟨span, value?, body⟩, rest⟩
  · exact .nil
  · exact (body.areNested _).append (cases_areNested rest owner)

end

/-! ### Scopes around scopes -/

/-- Whether every scope is opened inside of one that is open by then. -/
def AreRooted : (opened : List ScopeOwner) → List Nesting → Prop
  | _, [] => True
  | opened, (owner, outer?) :: rest =>
    (∀ outer ∈ outer?, outer ∈ opened) ∧ AreRooted (owner :: opened) rest

theorem AreRooted.append {opened : List ScopeOwner} {nestings others : List Nesting}
    (first : AreRooted opened nestings)
    (second : ∀ more, opened ⊆ more → nestings.map (·.1) ⊆ more → AreRooted more others) :
    AreRooted opened (nestings ++ others) := by
  induction nestings generalizing opened with
  | nil => exact second opened (List.Subset.refl opened) (List.nil_subset opened)
  | cons nesting rest ih =>
    refine ⟨first.1, ih first.2 fun more isMore opens => second more ?_ ?_⟩
    · exact fun owner member => isMore (List.mem_cons_of_mem _ member)
    · exact List.cons_subset.mpr ⟨isMore List.mem_cons_self, opens⟩

/-- Every scope of nested declarations is opened inside of one that is open by then. -/
theorem AreNested.areRooted {current? : Option ScopeOwner} {declarations : List Declaration}
    {nestings : List Nesting} (nested : AreNested current? declarations nestings)
    {opened : List ScopeOwner} (isOpen : ∀ current ∈ current?, current ∈ opened) :
    AreRooted opened nestings := by
  induction nested generalizing opened with
  | nil | inside => trivial
  | append _ _ ihFirst ihSecond =>
    exact (ihFirst isOpen).append fun more isMore _ =>
      ihSecond fun current isCurrent => isMore (isOpen current isCurrent)
  | scope _ ih =>
    exact ⟨isOpen, ih fun _ isOwner => Option.some.inj isOwner ▸ List.mem_cons_self⟩
  | resume _ isOpened _ ihFirst ihSecond =>
    exact (ihFirst isOpen).append fun more _ opens =>
      ihSecond fun _ isBlock => Option.some.inj isBlock ▸ opens isOpened

end YulCheck
