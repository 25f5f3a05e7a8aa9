import YulCheck.Proofs.Lexical.Blocks

/-! # Visits

Every statement of a program is visited in a block, within the bodies of functions and the parts of
loops that enclose it. A run that is not stopped comes to each statement, and checks it at the place
that this tells. There the scope of the block is inside of a function if some body of a function
encloses the statement.
-/

namespace YulCheck

variable {σ : Type}

/-! ### The text of a program -/

/-- A part of a function or of a loop that encloses statements. -/
inductive Enclosure
  | functionBody
  | loopPre
  | loopBody
  | loopPost
deriving DecidableEq, Repr

/-- Whether the innermost enclosure is the body of a loop. -/
def isInLoopBody (around : List Enclosure) : Bool := around.head? = some .loopBody

/-- Whether one of the enclosures is the body of a function. -/
def isInFunctionBody (around : List Enclosure) : Bool := around.contains .functionBody

/-- A statement with the block that it is in and with what encloses it, the innermost first. -/
structure Visit where
  block : NodeId
  around : List Enclosure
  statement : Statement

/-- The place at which a statement is checked. -/
def Visit.place (visit : Visit) : Place :=
  ⟨visit.block, isInLoopBody visit.around, isInFunctionBody visit.around⟩

mutual

/-- The statements of a block at any depth, in the order in which they are visited. -/
def Block.visits (around : List Enclosure) : Block → List Visit
  | .mk id _ statements => statementVisits id around statements

/-- The statements among those of a block, and the statements in them. -/
def statementVisits (block : NodeId) (around : List Enclosure) : List Statement → List Visit
  | [] => []
  | statement :: rest => statement.visits block around ++ statementVisits block around rest

/-- A statement of a block and the statements in it. -/
def Statement.visits (block : NodeId) (around : List Enclosure) : Statement → List Visit
  | .function id span name parameters returns body =>
    ⟨block, around, .function id span name parameters returns body⟩
      :: body.visits (.functionBody :: around)
  | .conditional span condition body =>
    ⟨block, around, .conditional span condition body⟩ :: body.visits around
  | .switch span scrutinee cases =>
    ⟨block, around, .switch span scrutinee cases⟩ :: caseVisits around cases
  | .loop id span pre condition post body =>
    ⟨block, around, .loop id span pre condition post body⟩
      :: (pre.visits (.loopPre :: around) ++ body.visits (.loopBody :: around)
        ++ post.visits (.loopPost :: around))
  | .block inner => ⟨block, around, .block inner⟩ :: inner.visits around
  | .expression span value => [⟨block, around, .expression span value⟩]
  | .assignment span targets value => [⟨block, around, .assignment span targets value⟩]
  | .declaration span locals value? => [⟨block, around, .declaration span locals value?⟩]
  | .break span => [⟨block, around, .break span⟩]
  | .continue span => [⟨block, around, .continue span⟩]
  | .leave span => [⟨block, around, .leave span⟩]

/-- The statements in the cases of a switch. -/
def caseVisits (around : List Enclosure) : List Case → List Visit
  | [] => []
  | .mk _ _ body :: rest => body.visits around ++ caseVisits around rest

end

/-! ### Parts of a run -/

/-- Whether a run of a walk from a state comes to a part of the walk: it carries out what is before the
part, and goes on with it in another state. -/
inductive Walk.ComesTo (host? : Option (Host σ)) (part : Walk Unit) (there : RunState σ) :
    Walk Unit → RunState σ → Prop
  | here : ComesTo host? part there part there
  | first {walk : Walk Unit} {next : Unit → Walk Unit} {state : RunState σ}
    (comes : ComesTo host? part there walk state) : ComesTo host? part there (walk >>= next) state
  | next {α : Type} {walk : Walk α} {next : α → Walk Unit} {state middle : RunState σ} {result : α}
    (ran : walk.run host? state = .ok (.ok result, middle))
    (comes : ComesTo host? part there (next result) middle) :
    ComesTo host? part there (walk >>= next) state

namespace Walk

variable {host? : Option (Host σ)}

theorem ComesTo.reaches {walk part : Walk Unit} {state there : RunState σ}
    (comes : ComesTo host? part there walk state) : Reaches host? part there walk state := by
  induction comes with
  | here => exact .here
  | first _ ih => exact .first ih
  | next ran _ ih => exact .next ran ih

end Walk

/-- Whether a place is one within certain enclosures. -/
structure Place.IsWithin (place : Place) (around : List Enclosure) : Prop where
  inLoop : place.inLoop = isInLoopBody around
  inFunction : place.inFunction = isInFunctionBody around

namespace Setting

variable {setting : Setting} {host? : Option (Host σ)} {place : Place} {around : List Enclosure}
  {state middle after : RunState σ}

/-- Whether a run of a walk comes to all of the given statements, at their places. -/
def ComesToAll (setting : Setting) (host? : Option (Host σ)) (walk : Walk Unit) (state : RunState σ)
    (visits : List Visit) : Prop :=
  ∀ visit ∈ visits, ∃ there,
    Walk.ComesTo host? (setting.checkStatement visit.place visit.statement) there walk state

namespace ComesToAll

variable {visits more : List Visit} {walk : Walk Unit} {α : Type}

theorem first {next : Unit → Walk Unit} (comes : setting.ComesToAll host? walk state visits) :
    setting.ComesToAll host? (walk >>= next) state visits :=
  fun visit member => (comes visit member).imp fun _ => .first

theorem next {walk : Walk α} {next : α → Walk Unit} {result : α}
    (ran : walk.run host? state = .ok (.ok result, middle))
    (comes : setting.ComesToAll host? (next result) middle visits) :
    setting.ComesToAll host? (walk >>= next) state visits :=
  fun visit member => (comes visit member).imp fun _ => .next ran

theorem append (comes : setting.ComesToAll host? walk state visits)
    (others : setting.ComesToAll host? walk state more) :
    setting.ComesToAll host? walk state (visits ++ more) :=
  List.forall_mem_append.mpr ⟨comes, others⟩

/-- A statement is visited first, and then the statements in it. -/
theorem visit {statement : Statement} (within : place.IsWithin around)
    (comes : setting.ComesToAll host? (setting.checkStatement place statement) state visits) :
    setting.ComesToAll host? (setting.checkStatement place statement) state
      (⟨place.block, around, statement⟩ :: visits) := by
  refine List.forall_mem_cons.mpr ⟨⟨state, ?_⟩, comes⟩
  have same : (Visit.mk place.block around statement).place = place := by
    rw [Visit.place, ← within.inLoop, ← within.inFunction]
  rw [same]
  exact .here

theorem nil : setting.ComesToAll host? walk state [] := List.forall_mem_nil _

end ComesToAll

theorem eq_of_run_enterBlock {block : Block} {inside : Place}
    (ran : (enterBlock place block).run host? state = .ok (.ok inside, middle)) :
    inside = { place with block := block.id } := by
  rw [enterBlock] at ran
  obtain ⟨_, _, _, ran⟩ := Walk.run_bind_eq_ok_ok_iff.mp ran
  obtain ⟨_, _, _, ran⟩ := Walk.run_bind_eq_ok_ok_iff.mp ran
  cases ran
  rfl

mutual

theorem comesToAll_checkBlock {place : Place} {around : List Enclosure} {state after : RunState σ}
    (within : place.IsWithin around) (block : Block)
    (ran : (setting.checkBlock place block).run host? state = .ok (.ok (), after)) :
    setting.ComesToAll host? (setting.checkBlock place block) state (block.visits around) := by
  obtain ⟨id, span, statements⟩ := block
  rw [checkBlock] at ran ⊢
  obtain ⟨inside, _, entered, ran⟩ := Walk.run_bind_eq_ok_ok_iff.mp ran
  rw [Block.visits]
  obtain rfl := eq_of_run_enterBlock entered
  have within : Place.IsWithin { place with block := id } around := ⟨within.inLoop, within.inFunction⟩
  exact .next entered (comesToAll_checkStatements within statements ran)

theorem comesToAll_checkStatements {place : Place} {around : List Enclosure} {state after : RunState σ}
    (within : place.IsWithin around) (statements : List Statement)
    (ran : (setting.checkStatements place statements).run host? state = .ok (.ok (), after)) :
    setting.ComesToAll host? (setting.checkStatements place statements) state
      (statementVisits place.block around statements) := by
  cases statements with
  | nil =>
    rw [statementVisits]
    exact .nil
  | cons statement rest =>
    rw [checkStatements] at ran ⊢
    obtain ⟨_, _, checked, ran⟩ := Walk.run_bind_eq_ok_ok_iff.mp ran
    rw [statementVisits]
    exact .append (.first (comesToAll_checkStatement within statement checked))
      (.next checked (comesToAll_checkStatements within rest ran))

theorem comesToAll_checkStatement {place : Place} {around : List Enclosure} {state after : RunState σ}
    (within : place.IsWithin around) (statement : Statement)
    (ran : (setting.checkStatement place statement).run host? state = .ok (.ok (), after)) :
    setting.ComesToAll host? (setting.checkStatement place statement) state
      (statement.visits place.block around) := by
  cases statement with
  | expression | assignment | declaration | «break» | «continue» | leave =>
    rw [Statement.visits]
    exact .visit within .nil
  | function id span name parameters returns body =>
    rw [Statement.visits]
    refine .visit within ?_
    rw [checkStatement] at ran ⊢
    obtain ⟨_, _, checked, ran⟩ := Walk.run_bind_eq_ok_ok_iff.mp ran
    exact .next checked (comesToAll_checkBlock ⟨rfl, rfl⟩ body ran)
  | conditional span condition body =>
    rw [Statement.visits]
    refine .visit within ?_
    rw [checkStatement] at ran ⊢
    obtain ⟨_, _, checked, ran⟩ := Walk.run_bind_eq_ok_ok_iff.mp ran
    exact .next checked (comesToAll_checkBlock within body ran)
  | «switch» span scrutinee cases =>
    rw [Statement.visits]
    refine .visit within ?_
    rw [checkStatement] at ran ⊢
    obtain ⟨_, _, reported, ran⟩ := Walk.run_bind_eq_ok_ok_iff.mp ran
    obtain ⟨type, _, checked, ran⟩ := Walk.run_bind_eq_ok_ok_iff.mp ran
    exact .next reported (.next checked (comesToAll_checkCases within type [] cases ran))
  | loop id span pre condition post body =>
    rw [Statement.visits]
    refine .visit within ?_
    rw [checkStatement] at ran ⊢
    obtain ⟨_, _, inPre, ran⟩ := Walk.run_bind_eq_ok_ok_iff.mp ran
    obtain ⟨inside, _, entered, ran⟩ := Walk.run_bind_eq_ok_ok_iff.mp ran
    obtain rfl := eq_of_run_enterBlock entered
    obtain ⟨_, _, checked, ran⟩ := Walk.run_bind_eq_ok_ok_iff.mp ran
    obtain ⟨_, _, inBody, inPost⟩ := Walk.run_bind_eq_ok_ok_iff.mp ran
    have ofPre : Place.IsWithin { place with inLoop := false } (.loopPre :: around) :=
      ⟨rfl, within.inFunction⟩
    have ofBody : Place.IsWithin ⟨pre.id, true, place.inFunction⟩ (.loopBody :: around) :=
      ⟨rfl, within.inFunction⟩
    have ofPost : Place.IsWithin ⟨pre.id, false, place.inFunction⟩ (.loopPost :: around) :=
      ⟨rfl, within.inFunction⟩
    refine .append (.append (.first (comesToAll_checkBlock ofPre pre inPre)) ?_) ?_
    · refine .next inPre (.next entered (.next checked (.first ?_)))
      exact comesToAll_checkBlock ofBody body inBody
    · refine .next inPre (.next entered (.next checked (.next inBody ?_)))
      exact comesToAll_checkBlock ofPost post inPost
  | block inner =>
    rw [Statement.visits]
    refine .visit within ?_
    rw [checkStatement] at ran ⊢
    exact comesToAll_checkBlock within inner ran

theorem comesToAll_checkCases {place : Place} {around : List Enclosure} {state after : RunState σ}
    (within : place.IsWithin around) (type : TypeHandle) (before : List Word) (cases : List Case)
    (ran : (setting.checkCases place type before cases).run host? state = .ok (.ok (), after)) :
    setting.ComesToAll host? (setting.checkCases place type before cases) state
      (caseVisits around cases) := by
  rcases cases with _ | ⟨⟨span, value?, body⟩, rest⟩
  · rw [caseVisits]
    exact .nil
  · obtain ⟨compare, unfolded⟩ : ∃ compare : Walk (List Word),
        setting.checkCases place type before (.mk span value? body :: rest) = (do
          let values ← compare
          setting.checkBlock place body
          setting.checkCases place type values rest) := by
      cases value? with
      | none => exact ⟨pure before, by rw [checkCases]⟩
      | some literal =>
        exact ⟨setting.checkCaseValue place type before span literal, by rw [checkCases]⟩
    rw [unfolded] at ran ⊢
    obtain ⟨values, _, compared, ran⟩ := Walk.run_bind_eq_ok_ok_iff.mp ran
    obtain ⟨_, _, checked, ran⟩ := Walk.run_bind_eq_ok_ok_iff.mp ran
    rw [caseVisits]
    exact .next compared (.append (.first (comesToAll_checkBlock within body checked))
      (.next checked (comesToAll_checkCases within type values rest ran)))

end

end Setting

/-! ### Scopes -/

/-- Whether the scopes from one outwards end, and whether some of them is one of a function. -/
inductive ScopeForest.Nests (forest : ScopeForest) : Option ScopeId → (inFunction : Bool) → Prop
  | outermost : Nests forest none false
  | inside {id : ScopeId} {scope : Scope} {inFunction : Bool}
    (present : forest.get? id = some scope)
    (ordered : ∀ parent, scope.parent? = some parent → parent < id)
    (around : Nests forest scope.parent? inFunction) :
    Nests forest (some id) (scope.isFunction || inFunction)

namespace ScopeForest.Nests

variable {forest : ScopeForest}

theorem exists_outwards {scope? : Option ScopeId} {inFunction : Bool}
    (nests : forest.Nests scope? inFunction) :
    ∃ chain, forest.Outwards scope? chain ∧ chain.any (·.2.isFunction) = inFunction := by
  induction nests with
  | outermost => exact ⟨[], .outermost, rfl⟩
  | inside present ordered _ ih =>
    obtain ⟨outer, outwards, rfl⟩ := ih
    exact ⟨_, .inside present ordered outwards, List.any_cons⟩

theorem isInFunction {id : ScopeId} {inFunction : Bool} (nests : forest.Nests (some id) inFunction) :
    forest.isInFunction id = inFunction := by
  obtain ⟨chain, outwards, rfl⟩ := nests.exists_outwards
  rw [ScopeForest.isInFunction, outwards.chain_eq]

end ScopeForest.Nests

/-- Whether the block of a visit has a scope, which is inside of a function if the visit is. -/
def Scoping.Encloses (scoping : Scoping) (visit : Visit) : Prop :=
  ∃ id, scoping.scopeOf? (.block visit.block) = some id ∧
    scoping.forest.isInFunction id = visit.place.inFunction

namespace Scoping.Numbers

variable {scoping : Scoping}

theorem tail {first : Nat} {scope : Scope} {rest : List Scope} {owner : ScopeOwner}
    {others : List ScopeOwner} (numbers : scoping.Numbers first (scope :: rest) (owner :: others)) :
    scoping.Numbers (first + 1) rest others :=
  right (show scoping.Numbers first ([scope] ++ rest) ([owner] ++ others) from numbers) rfl rfl

/-- The scope of a block is as much inside of a function as the one around it. -/
theorem nests_block {block : Block} {outer? : Option ScopeId} {first : Nat} {inFunction : Bool}
    (numbers : scoping.Numbers first (block.scopes outer? first) (block.frames.map (·.1)))
    (below : ∀ id : Nat, outer? = some id → id < first)
    (nests : scoping.forest.Nests outer? inFunction) :
    scoping.scopeOf? (.block block.id) = some first ∧ scoping.forest.Nests (some first) inFunction := by
  obtain ⟨id, span, statements⟩ := block
  have present : scoping.forest.get? first = some ((Frame.block statements []).toScope outer?) :=
    numbers.get 0 rfl
  exact ⟨numbers.scopeOf 0 rfl, .inside present below nests⟩

/-- A visit in a block is enclosed as the block is. -/
theorem encloses_of_nests {block : NodeId} {around : List Enclosure} {id : ScopeId}
    (owned : scoping.scopeOf? (.block block) = some id)
    (nests : scoping.forest.Nests (some id) (isInFunctionBody around)) (statement : Statement) :
    scoping.Encloses ⟨block, around, statement⟩ :=
  ⟨id, owned, nests.isInFunction⟩

mutual

/-- The scopes of a block that is within some enclosures are inside of functions as these tell. -/
theorem encloses_block (block : Block) {around : List Enclosure} {outer? : Option ScopeId}
    {first : Nat}
    (numbers : scoping.Numbers first (block.scopes outer? first) (block.frames.map (·.1)))
    (below : ∀ id : Nat, outer? = some id → id < first)
    (nests : scoping.forest.Nests outer? (isInFunctionBody around)) :
    ∀ visit ∈ block.visits around, scoping.Encloses visit := by
  obtain ⟨owned, inside⟩ := numbers.nests_block below nests
  obtain ⟨id, span, statements⟩ := block
  rw [Block.visits]
  exact encloses_statements statements owned inside (Nat.lt_succ_self _) numbers.tail

theorem encloses_statements (statements : List Statement) {block : NodeId} {around : List Enclosure}
    {id first : Nat} (owned : scoping.scopeOf? (.block block) = some id)
    (inside : scoping.forest.Nests (some id) (isInFunctionBody around)) (below : id < first)
    (numbers : scoping.Numbers first (statementScopes id first statements)
      ((statementFrames statements).map (·.1))) :
    ∀ visit ∈ statementVisits block around statements, scoping.Encloses visit := by
  cases statements with
  | nil =>
    rw [statementVisits]
    exact List.forall_mem_nil _
  | cons statement rest =>
    rw [statementScopes, statementFrames, List.map_append] at numbers
    rw [statementVisits, List.forall_mem_append]
    refine ⟨encloses_statement statement owned inside below numbers.left, ?_⟩
    exact encloses_statements rest owned inside (Nat.lt_of_lt_of_le below (Nat.le_add_right _ _))
      (numbers.right (Statement.length_scopes _ _ _) (List.length_map _))

theorem encloses_statement (statement : Statement) {block : NodeId} {around : List Enclosure}
    {id first : Nat} (owned : scoping.scopeOf? (.block block) = some id)
    (inside : scoping.forest.Nests (some id) (isInFunctionBody around)) (below : id < first)
    (numbers : scoping.Numbers first (statement.scopes id first) (statement.frames.map (·.1))) :
    ∀ visit ∈ statement.visits block around, scoping.Encloses visit := by
  have here := encloses_of_nests owned inside
  cases statement with
  | expression | assignment | declaration | «break» | «continue» | leave =>
    rw [Statement.visits]
    exact List.forall_mem_singleton.mpr (here _)
  | function function span name parameters returns body =>
    have present : scoping.forest.get? first =
        some ((Frame.function parameters returns).toScope (some id)) := numbers.get 0 rfl
    have ofFunction : scoping.forest.Nests (some first)
        (isInFunctionBody (.functionBody :: around)) :=
      .inside present (lt_of_some_eq below) inside
    rw [Statement.visits]
    refine List.forall_mem_cons.mpr ⟨here _, ?_⟩
    exact encloses_block body numbers.tail (lt_of_some_eq (Nat.lt_succ_self _)) ofFunction
  | conditional span condition body =>
    rw [Statement.visits]
    exact List.forall_mem_cons.mpr ⟨here _, encloses_block body numbers (lt_of_some_eq below) inside⟩
  | «switch» span scrutinee cases =>
    rw [Statement.visits]
    exact List.forall_mem_cons.mpr ⟨here _, encloses_cases cases inside below numbers⟩
  | loop loop span pre condition post body =>
    have frames : (Statement.loop loop span pre condition post body).frames =
        pre.frames ++ body.frames ++ post.frames := rfl
    rw [Statement.scopes, frames, List.map_append, List.map_append, List.append_assoc,
      List.append_assoc] at numbers
    have behindPre := numbers.right (Block.length_scopes _ _ _) (List.length_map _)
    have ofPost := behindPre.right (Block.length_scopes _ _ _) (List.length_map _)
    have inPre := pre.lt_add_frames first
    have inBody := body.lt_add_frames (first + pre.frames.length)
    -- The body and the post block are inside of the scope of the pre block.
    obtain ⟨_, insidePre⟩ := numbers.left.nests_block (lt_of_some_eq below) inside
    rw [Statement.visits, List.forall_mem_cons, List.forall_mem_append, List.forall_mem_append]
    refine ⟨here _, ⟨?_, ?_⟩, ?_⟩
    · exact encloses_block pre numbers.left (lt_of_some_eq below) inside
    · exact encloses_block body behindPre.left (lt_of_some_eq inPre) insidePre
    · exact encloses_block post ofPost (lt_of_some_eq (Nat.lt_trans inPre inBody)) insidePre
  | block inner =>
    rw [Statement.visits]
    exact List.forall_mem_cons.mpr ⟨here _, encloses_block inner numbers (lt_of_some_eq below) inside⟩

theorem encloses_cases (cases : List Case) {around : List Enclosure} {id first : Nat}
    (inside : scoping.forest.Nests (some id) (isInFunctionBody around)) (below : id < first)
    (numbers : scoping.Numbers first (caseScopes id first cases) ((caseFrames cases).map (·.1))) :
    ∀ visit ∈ caseVisits around cases, scoping.Encloses visit := by
  rcases cases with _ | ⟨⟨span, value?, body⟩, rest⟩
  · rw [caseVisits]
    exact List.forall_mem_nil _
  · rw [caseScopes, caseFrames, List.map_append] at numbers
    rw [caseVisits, List.forall_mem_append]
    refine ⟨encloses_block body numbers.left (lt_of_some_eq below) inside, ?_⟩
    exact encloses_cases rest inside (Nat.lt_of_lt_of_le below (Nat.le_add_right _ _))
      (numbers.right (Block.length_scopes _ _ _) (List.length_map _))

end

end Scoping.Numbers

end YulCheck
