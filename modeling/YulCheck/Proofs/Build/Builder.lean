import Mathlib.Data.List.Nodup
import Mathlib.Data.List.Perm.Subperm
import YulCheck.Proofs.Build.Parts

/-! # Builders

A builder makes trees from the leaves to the root: every call of it takes nodes that were made
before, and none of them is used twice. In between, names can be defined and derived. In every tree
that is built, checking finds all that it relies on, and no two nodes with scopes have the same number.
-/

namespace YulCheck

/-! ### Calls of a builder -/

/-- What a builder makes. -/
inductive Node
  | literal (constant : Literal)
  | expression (expression : Expression)
  | case (case : Case)
  | block (block : Block)
  | statement (statement : Statement)

/-- The calls that make a node, given the names that declarations may use. The list holds the nodes
that a call uses. -/
inductive Makes (names : List Handle) : List Node → Elaborate Node → Prop
  | literal {written : Source.Literal} (spelled : written.IsSpelled) :
    Makes names [] (.literal <$> Elaborate.literal none written)
  | constant (literal : Literal) :
    Makes names [.literal literal] (pure (.expression (.literal literal)))
  | identifier {label : String} (isLabel : label ≠ "") :
    Makes names [] (.expression <$> Elaborate.makeUse none (.label label))
  | call {label : String} (isLabel : label ≠ "") (arguments : List Expression) :
    Makes names (arguments.map .expression)
      (.expression <$> Elaborate.makeCall none (.label label) arguments)
  | effect (expression : Expression) :
    Makes names [.expression expression]
      (.statement <$> Elaborate.located none fun span => .expression span expression)
  | assignment {targets : List String} (isSome : targets ≠ []) (areLabels : "" ∉ targets)
    (value : Expression) :
    Makes names [.expression value]
      (.statement <$> Elaborate.makeAssignment none (targets.map .label) value)
  | declaration (locals : List (String × String)) (value : Option Expression) :
    Makes names (value.toList.map .expression)
      (.statement <$> Elaborate.makeDeclaration none (Elaborate.labelled locals) value)
  | redeclaration {locals : List Handle} (areNames : locals ⊆ names) (value : Option Expression) :
    Makes names (value.toList.map .expression)
      (.statement <$> Elaborate.makeDeclaration none (Elaborate.existing locals) value)
  | function {label : String} (isLabel : label ≠ "") (parameters returns : List (String × String))
    (body : Block) :
    Makes names [.block body]
      (.statement <$> Elaborate.makeFunction none (.label label) (Elaborate.labelled parameters)
        (Elaborate.labelled returns) body)
  | conditional (condition : Expression) (body : Block) :
    Makes names [.expression condition, .block body]
      (.statement <$> Elaborate.located none fun span => .conditional span condition body)
  | case (value : Option Literal) (body : Block) :
    Makes names (value.toList.map .literal ++ [.block body])
      (.case <$> Elaborate.makeCase none value body)
  | switch (scrutinee : Expression) (cases : List Case) :
    Makes names (.expression scrutinee :: cases.map .case)
      (.statement <$> Elaborate.located none fun span => .switch span scrutinee cases)
  | loop (pre : Block) (condition : Expression) (post body : Block) :
    Makes names [.block pre, .expression condition, .block post, .block body]
      (.statement <$> Elaborate.makeLoop none pre condition post body)
  | break : Makes names [] (.statement <$> Elaborate.located none .break)
  | continue : Makes names [] (.statement <$> Elaborate.located none .continue)
  | leave : Makes names [] (.statement <$> Elaborate.located none .leave)
  | block (statements : List Statement) :
    Makes names (statements.map .statement) (.block <$> Elaborate.makeBlock statements)
  | nested (block : Block) :
    Makes names [.block block] (pure (.statement (.block block)))

/-- A builder with the names that declarations may use, and the nodes that were not used yet. -/
structure Builder where
  elaboration : Elaboration
  names : List Handle
  nodes : List Node
  /-- What earlier builders left, whose numbers are given out again. -/
  earlier : List Node

namespace Builder

/-- The builder after a call that leaves some of the nodes for later calls. -/
def extend (builder : Builder) (make : Elaborate Node) (unused : List Node) : Builder :=
  { builder with
    elaboration := (make.run builder.elaboration).2
    nodes := (make.run builder.elaboration).1 :: unused }

/-- The steps that a program can take with a builder and its name table. -/
inductive Step : Builder → Builder → Prop
  /-- All nodes that are made from now on have a position. -/
  | locate (builder : Builder) (span : Span) :
    Step builder { builder with elaboration := { builder.elaboration with span } }
  /-- A name is defined, and may be declared. -/
  | define (builder : Builder) (label : String) :
    Step builder
      { builder with
        elaboration :=
          { builder.elaboration with table := (builder.elaboration.table.define label).2 }
        names := (builder.elaboration.table.define label).1 :: builder.names }
  /-- A name is derived from another one. It may be declared unless that one belongs to the `verbatim`
  family. -/
  | derive {builder : Builder} {base name : Handle} {table : NameTable} {isVerbatim : Bool}
    (derived : builder.elaboration.table.derive base = .ok (name, table))
    (family : builder.elaboration.table.isVerbatim base = .ok isVerbatim) :
    Step builder
      { builder with
        elaboration := { builder.elaboration with table }
        names := if isVerbatim then builder.names else name :: builder.names }
  /-- A name is defined that no program declares. -/
  | defineGhost (builder : Builder) :
    Step builder
      { builder with
        elaboration :=
          { builder.elaboration with table := builder.elaboration.table.defineGhost.2 } }
  /-- A node is made of others. -/
  | make {builder : Builder} {used unused : List Node} {make : Elaborate Node}
    (makes : Makes builder.names used make) (isSplit : builder.nodes.Perm (used ++ unused)) :
    Step builder (builder.extend make unused)
  /-- Another builder takes over the name table. It has numbers of its own, and uses no nodes of
  earlier builders. -/
  | restart (builder : Builder) :
    Step builder
      { builder with
        elaboration := { table := builder.elaboration.table }
        nodes := []
        earlier := builder.nodes ++ builder.earlier }

/-- The builders that there can be for the names of a dialect. -/
inductive Reachable (dialect : Dialect) : Builder → Prop
  | start : Reachable dialect ⟨{ table := .ofDialect dialect }, [], [], []⟩
  | step {builder after : Builder} (before : Reachable dialect builder)
    (step : builder.Step after) : Reachable dialect after

end Builder

/-! ### What is built -/

namespace Node

/-- Whether a node has all that checking relies on. -/
def IsBuilt (table : NameTable) : Node → Prop
  | literal constant => constant.IsBound table
  | expression value => value.IsBuilt table
  | case choice => choice.IsBuilt table
  | block body => body.IsBuilt table
  | statement single => single.IsBuilt table

/-- The nodes of a tree that open scopes. -/
def owners : Node → List ScopeOwner
  | literal _ | expression _ => []
  | case choice => (caseFrames [choice]).map (·.1)
  | block body => body.owners
  | statement single => single.frames.map (·.1)

theorem isBuilt_of_keeps {table after : NameTable} (keeps : table.KeepsBuilt after) {node : Node}
    (built : node.IsBuilt table) : node.IsBuilt after := by
  cases node with
  | literal constant => exact keeps.isBound_literal built
  | expression value => exact keeps.isBuilt_expression value built
  | case choice => exact keeps.isBuilt_case choice built
  | block body => exact keeps.isBuilt_block body built
  | statement single => exact keeps.isBuilt_statement single built

theorem flatMap_owners_statements (statements : List Statement) :
    (statements.map Node.statement).flatMap owners = (statementFrames statements).map (·.1) := by
  induction statements with
  | nil => rfl
  | cons statement rest ih =>
    rw [List.map_cons, List.flatMap_cons, ih, statementFrames, List.map_append]
    rfl

theorem flatMap_owners_cases (cases : List Case) :
    (cases.map Node.case).flatMap owners = (caseFrames cases).map (·.1) := by
  induction cases with
  | nil => rfl
  | cons case rest ih =>
    cases case with
    | mk span value body =>
      rw [List.map_cons, List.flatMap_cons, ih, caseFrames, List.map_append]
      show List.map _ (body.frames ++ []) ++ _ = _
      rw [List.append_nil]

/-- Expressions and literals open no scopes. -/
theorem flatMap_owners_eq_nil {α : Type} {make : α → Node} (isSimple : ∀ part, (make part).owners = [])
    (parts : List α) : (parts.map make).flatMap owners = [] := by
  rw [List.flatMap_eq_nil_iff]
  intro node member
  obtain ⟨part, _, rfl⟩ := List.mem_map.mp member
  exact isSimple part

end Node

/-- The number of a node that opens a scope. -/
def ScopeOwner.id : ScopeOwner → NodeId
  | block id | function id => id

/-- Whether the entries of a list are among those of before, with one at most that has a new number. -/
def Elaboration.Adds {α : Type} (number : α → NodeId) (state after : Elaboration)
    (before entries : List α) : Prop :=
  entries.Subperm before ∨
    ∃ entry, state.nextId ≤ number entry ∧ number entry < after.nextId ∧
      entries.Subperm (entry :: before)

namespace Elaboration.Adds

variable {α : Type} {number : α → NodeId} {state after : Elaboration} {before entries others : List α}

theorem of_perm (isPermuted : entries.Perm before) : state.Adds number after before entries :=
  .inl isPermuted.subperm

theorem of_eq (same : entries = before) : state.Adds number after before entries :=
  of_perm (same ▸ .refl _)

/-- The numbers stay apart, and below the next one. -/
theorem nodup (adds : state.Adds number after before entries) (distinct : (before ++ others).Nodup)
    (below : ∀ entry ∈ before ++ others, number entry < state.nextId)
    (nextId : state.nextId ≤ after.nextId) :
    (entries ++ others).Nodup ∧ ∀ entry ∈ entries ++ others, number entry < after.nextId := by
  have all (entry : α) (member : entry ∈ before ++ others) : number entry < after.nextId :=
    Nat.lt_of_lt_of_le (below entry member) nextId
  rcases adds with same | ⟨entry, isNew, inRange, more⟩
  · obtain ⟨permuted, isPermuted, isPart⟩ := (List.subperm_append_right others).mpr same
    exact ⟨isPermuted.nodup_iff.mp (distinct.sublist isPart), fun other member =>
      all other (isPart.subset (isPermuted.mem_iff.mpr member))⟩
  · obtain ⟨permuted, isPermuted, isPart⟩ := (List.subperm_append_right others).mpr more
    have fresh : entry ∉ before ++ others :=
      fun member => absurd (below entry member) (Nat.not_lt.mpr isNew)
    refine ⟨isPermuted.nodup_iff.mp ((List.nodup_cons.mpr ⟨fresh, distinct⟩).sublist isPart), ?_⟩
    intro other member
    rcases List.mem_cons.mp (isPart.subset (isPermuted.mem_iff.mpr member)) with rfl | member
    · exact inRange
    · exact all other member

end Elaboration.Adds

/-- What a call of a builder makes has all that checking relies on, if the nodes that it uses
have. -/
theorem Makes.yields {dialect : Dialect} (regular : dialect.IsRegular) {state : Elaboration}
    (ready : state.table.IsReady dialect) {names : List Handle}
    (areShown : ∀ name ∈ names, state.table.IsShown name) {used : List Node} {make : Elaborate Node}
    (makes : Makes names used make) (built : ∀ node ∈ used, node.IsBuilt state.table) :
    Elaborate.Yields dialect make state fun node after =>
      node.IsBuilt after.table ∧
        state.Adds ScopeOwner.id after (used.flatMap (·.owners)) node.owners := by
  have last {α : Type} {make : α → Node} {parts : List α}
      (all : ∀ node ∈ parts.map make, node.IsBuilt state.table) {part : α} (member : part ∈ parts) :
      (make part).IsBuilt state.table := all _ (List.mem_map_of_mem member)
  cases makes with
  | literal spelled =>
    exact (Elaborate.yields_literal regular ready none spelled).map fun literal after bound =>
      ⟨bound, .inl (.refl _)⟩
  | constant literal =>
    refine .pure ready ⟨?_, .inl (.refl _)⟩
    have bound : literal.IsBound state.table := built _ List.mem_cons_self
    rw [Node.IsBuilt, Expression.IsBuilt]
    exact bound.toIsBuilt
  | identifier isLabel =>
    exact (Elaborate.yields_makeUse regular ready none isLabel).map fun use after isBuilt =>
      ⟨isBuilt, .inl (.refl _)⟩
  | call isLabel arguments =>
    have parts := argumentsBuilt_iff.mpr fun argument member => last built member
    refine (Elaborate.yields_makeCall regular ready none isLabel parts).map fun call after isBuilt =>
      ⟨isBuilt, .inl ?_⟩
    rw [Node.flatMap_owners_eq_nil fun _ => rfl]
    exact .refl _
  | effect expression =>
    apply (Elaborate.yields_located ready none _).map_of_extends
    rintro _ after isExtended ⟨span, rfl⟩
    have part : expression.IsBuilt state.table := built _ List.mem_cons_self
    refine ⟨?_, .inl (.refl _)⟩
    rw [Node.IsBuilt, Statement.IsBuilt]
    exact (isExtended.keepsBuilt ready).isBuilt_expression expression part
  | assignment isSome areLabels value =>
    have part : value.IsBuilt state.table := built _ List.mem_cons_self
    apply (Elaborate.yields_makeAssignment regular ready none isSome areLabels part).map
    rintro statement after ⟨isBuilt, noFrames⟩
    refine ⟨isBuilt, .inl ?_⟩
    rw [Node.owners, noFrames]
    exact .refl _
  | declaration locals value =>
    have parts : ∀ expression ∈ value, expression.IsBuilt state.table := fun expression member =>
      last built (Option.mem_toList.mpr member)
    have declares := fun middle (isExtended : state.Extends dialect middle) =>
      Elaborate.yields_declaredTogether_labelled regular isExtended.ready locals
    apply (Elaborate.yields_makeDeclaration ready none declares parts).map
    rintro statement after ⟨isBuilt, noFrames⟩
    refine ⟨isBuilt, .inl ?_⟩
    rw [Node.flatMap_owners_eq_nil fun _ => rfl, Node.owners, noFrames]
    exact .refl _
  | redeclaration areNames value =>
    have parts : ∀ expression ∈ value, expression.IsBuilt state.table := fun expression member =>
      last built (Option.mem_toList.mpr member)
    have declares := fun middle (isExtended : state.Extends dialect middle) =>
      Elaborate.yields_declaredTogether_existing isExtended.ready fun name member =>
        (isExtended.keepsBuilt ready).isShown _ (areShown name (areNames member))
    apply (Elaborate.yields_makeDeclaration ready none declares parts).map
    rintro statement after ⟨isBuilt, noFrames⟩
    refine ⟨isBuilt, .inl ?_⟩
    rw [Node.flatMap_owners_eq_nil fun _ => rfl, Node.owners, noFrames]
    exact .refl _
  | function isLabel parameters returns body =>
    have part : body.IsBuilt state.table := built _ List.mem_cons_self
    apply (Elaborate.yields_makeFunction regular ready none isLabel parameters returns part).map
    rintro statement after ⟨isBuilt, id, isNew, inRange, frames⟩
    refine ⟨isBuilt, .inr ⟨.function id, isNew, inRange, ?_⟩⟩
    rw [Node.owners, frames]
    show (_ :: body.owners).Subperm (_ :: (body.owners ++ []))
    rw [List.append_nil]
  | conditional condition body =>
    apply (Elaborate.yields_located ready none _).map_of_extends
    rintro _ after isExtended ⟨span, rfl⟩
    have isCondition : condition.IsBuilt state.table := built _ List.mem_cons_self
    have isBody : body.IsBuilt state.table :=
      built (.block body) (List.mem_cons_of_mem _ List.mem_cons_self)
    have keeps := isExtended.keepsBuilt ready
    refine ⟨?_, .inl ?_⟩
    · rw [Node.IsBuilt, Statement.IsBuilt]
      exact ⟨keeps.isBuilt_expression condition isCondition, keeps.isBuilt_block body isBody⟩
    · show body.owners.Subperm (body.owners ++ [])
      rw [List.append_nil]
  | case value body =>
    apply (Elaborate.yields_makeCase ready none value body).map_of_extends
    rintro _ after isExtended ⟨span, rfl⟩
    have isBody : body.IsBuilt state.table :=
      built (.block body) (List.mem_append_right _ List.mem_cons_self)
    have keeps := isExtended.keepsBuilt ready
    refine ⟨⟨fun literal member => ?_, keeps.isBuilt_block body isBody⟩, .inl ?_⟩
    · have isValue : literal.IsBound state.table := built (.literal literal)
        (List.mem_append_left _ (List.mem_map_of_mem (Option.mem_toList.mpr member)))
      exact keeps.isBound_literal isValue
    · rw [List.flatMap_append, Node.flatMap_owners_eq_nil fun _ => rfl]
      show (List.map _ (body.frames ++ [])).Subperm (body.owners ++ [])
      rw [List.append_nil, List.append_nil]
      exact .refl _
  | switch scrutinee cases =>
    apply (Elaborate.yields_located ready none _).map_of_extends
    rintro _ after isExtended ⟨span, rfl⟩
    rw [List.forall_mem_cons] at built
    have parts := casesBuilt_iff.mpr fun case member => last built.2 member
    have keeps := isExtended.keepsBuilt ready
    refine ⟨?_, .inl ?_⟩
    · rw [Node.IsBuilt, Statement.IsBuilt]
      exact ⟨keeps.isBuilt_expression scrutinee built.1, keeps.casesBuilt cases parts⟩
    · rw [List.flatMap_cons, Node.flatMap_owners_cases]
      exact .refl _
  | loop pre condition post body =>
    apply (Elaborate.yields_makeLoop ready none pre condition post body).map_of_extends
    rintro _ after isExtended ⟨id, span, rfl⟩
    obtain ⟨isPre, rest⟩ := List.forall_mem_cons.mp built
    obtain ⟨isCondition, rest⟩ := List.forall_mem_cons.mp rest
    obtain ⟨isPost, rest⟩ := List.forall_mem_cons.mp rest
    have isBody : body.IsBuilt state.table := rest (.block body) List.mem_cons_self
    have keeps := isExtended.keepsBuilt ready
    refine ⟨?_, .inl ?_⟩
    · rw [Node.IsBuilt, Statement.IsBuilt]
      exact ⟨keeps.isBuilt_block pre isPre,
        keeps.isBuilt_expression condition isCondition,
        keeps.isBuilt_block post isPost, keeps.isBuilt_block body isBody⟩
    · have inOrder : (pre.frames ++ body.frames ++ post.frames).map (·.1) =
          pre.owners ++ (body.owners ++ post.owners) := by
        rw [List.append_assoc, List.map_append, List.map_append]
        rfl
      show (List.map _ (pre.frames ++ body.frames ++ post.frames)).Subperm
        (pre.owners ++ (post.owners ++ (body.owners ++ [])))
      rw [inOrder, List.append_nil]
      exact (List.perm_append_comm.append_left pre.owners).subperm
  | «break» | «continue» | leave =>
    apply (Elaborate.yields_located ready none _).map
    rintro _ after ⟨span, rfl⟩
    refine ⟨?_, .inl (.refl _)⟩
    rw [Node.IsBuilt, Statement.IsBuilt]
    trivial
  | block statements =>
    apply (Elaborate.yields_makeBlock ready statements).map_of_extends
    rintro _ after isExtended ⟨id, span, rfl, isNew, inRange⟩
    have parts := statementsBuilt_iff.mpr fun statement member => last built member
    refine ⟨?_, .inr ⟨.block id, isNew, inRange, ?_⟩⟩
    · rw [Node.IsBuilt, Block.IsBuilt]
      exact (isExtended.keepsBuilt ready).statementsBuilt statements parts
    · rw [Node.flatMap_owners_statements]
      exact .refl _
  | nested block =>
    have part : block.IsBuilt state.table := built _ List.mem_cons_self
    refine .pure ready ⟨?_, .inl ?_⟩
    · rw [Node.IsBuilt, Statement.IsBuilt]
      exact part
    · show block.owners.Subperm (block.owners ++ [])
      rw [List.append_nil]

/-! ### All builders -/

namespace Builder

/-- Whether all names and nodes of a builder are fit for checking, and no number is used twice. -/
structure IsSound (dialect : Dialect) (builder : Builder) : Prop where
  ready : builder.elaboration.table.IsReady dialect
  names : ∀ name ∈ builder.names, builder.elaboration.table.IsShown name
  nodes : ∀ node ∈ builder.nodes, node.IsBuilt builder.elaboration.table
  distinct : (builder.nodes.flatMap (·.owners)).Nodup
  numbered : ∀ owner ∈ builder.nodes.flatMap (·.owners), owner.id < builder.elaboration.nextId
  earlier : ∀ node ∈ builder.earlier,
    node.IsBuilt builder.elaboration.table ∧ node.owners.Nodup

namespace IsSound

variable {dialect : Dialect} {builder after : Builder}

section Keeps

variable (sound : builder.IsSound dialect) {table : NameTable}
  (keeps : builder.elaboration.table.KeepsBuilt table)

include sound keeps

theorem earlier_of_keeps : ∀ node ∈ builder.earlier, node.IsBuilt table ∧ node.owners.Nodup :=
  fun node member => (sound.earlier node member).imp (node.isBuilt_of_keeps keeps) id

theorem isShown_of_keeps : ∀ name ∈ builder.names, table.IsShown name :=
  fun name member => keeps.isShown name (sound.names name member)

/-- The nodes of a builder stay fit for checking in a table that keeps what is built. -/
theorem of_keeps (ready : table.IsReady dialect) {names : List Handle}
    (areShown : ∀ name ∈ names, table.IsShown name) :
    IsSound dialect
      { builder with elaboration := { builder.elaboration with table }, names } where
  ready := ready
  names := areShown
  nodes node member := node.isBuilt_of_keeps keeps (sound.nodes node member)
  distinct := sound.distinct
  numbered := sound.numbered
  earlier := sound.earlier_of_keeps keeps

end Keeps

section Calls

variable (regular : dialect.IsRegular) (sound : builder.IsSound dialect) {used unused : List Node}
  {make : Elaborate Node} (makes : Makes builder.names used make)
  (isSplit : builder.nodes.Perm (used ++ unused))

include regular sound makes isSplit

/-- A call uses nodes that are fit for checking. -/
theorem yields :
    Elaborate.Yields dialect make builder.elaboration fun node after =>
      node.IsBuilt after.table ∧
        builder.elaboration.Adds ScopeOwner.id after (used.flatMap (·.owners)) node.owners :=
  makes.yields regular sound.ready sound.names fun node member =>
    sound.nodes node (isSplit.mem_iff.mpr (List.mem_append_left _ member))

/-- A call takes the nodes that it uses away, and adds at most one number that is new. -/
theorem extend : (builder.extend make unused).IsSound dialect := by
  have yields := sound.yields regular makes isSplit
  have isExtended := yields.isExtended
  have keeps := isExtended.keepsBuilt sound.ready
  obtain ⟨isBuilt, adds⟩ := yields.holds
  have areBuilt : ∀ node ∈ unused, node.IsBuilt builder.elaboration.table := fun node member =>
    sound.nodes node (isSplit.mem_iff.mpr (List.mem_append_right _ member))
  have owners : (builder.nodes.flatMap (·.owners)).Perm
      (used.flatMap (·.owners) ++ unused.flatMap (·.owners)) := by
    rw [← List.flatMap_append]
    exact isSplit.flatMap_right _
  obtain ⟨distinct, numbered⟩ := adds.nodup (owners.nodup_iff.mp sound.distinct)
    (fun owner member => sound.numbered owner (owners.mem_iff.mpr member)) isExtended.nextId
  constructor
  · exact isExtended.ready
  · exact sound.isShown_of_keeps keeps
  · rw [Builder.extend, List.forall_mem_cons]
    exact ⟨isBuilt, fun node member => node.isBuilt_of_keeps keeps (areBuilt node member)⟩
  · rw [Builder.extend, List.flatMap_cons]
    exact distinct
  · rw [Builder.extend, List.flatMap_cons]
    exact numbered
  · exact sound.earlier_of_keeps keeps

end Calls

/-- All that was built can be checked, and its numbers tell nodes apart. -/
theorem of_mem (sound : builder.IsSound dialect) {node : Node}
    (isMade : node ∈ builder.nodes ++ builder.earlier) :
    node.IsBuilt builder.elaboration.table ∧ node.owners.Nodup := by
  rcases List.mem_append.mp isMade with isUnused | isEarlier
  · exact ⟨sound.nodes node isUnused, (List.nodup_flatMap.mp sound.distinct).1 node isUnused⟩
  · exact sound.earlier node isEarlier

theorem step (regular : dialect.IsRegular) (sound : builder.IsSound dialect)
    (step : builder.Step after) : after.IsSound dialect := by
  cases step with
  | locate span =>
    exact ⟨sound.ready, sound.names, sound.nodes, sound.distinct, sound.numbered, sound.earlier⟩
  | define label =>
    have keeps := (NameTable.grows_define builder.elaboration.table label).keepsBuilt sound.ready.back
    have ready := sound.ready.define regular label
    have isNamed := (sound.ready.toIsOrderly.define label).2.1
    refine sound.of_keeps keeps ready (List.forall_mem_cons.mpr ⟨?_, sound.isShown_of_keeps keeps⟩)
    exact (ready.hasLabel_of_named isNamed).isShown
  | derive derived family =>
    have keeps := (NameTable.grows_derive derived).keepsBuilt sound.ready.back
    apply sound.of_keeps keeps (sound.ready.derive derived)
    split
    · exact sound.isShown_of_keeps keeps
    · rename_i isOther
      exact List.forall_mem_cons.mpr ⟨sound.ready.isShown_of_derive derived family isOther,
        sound.isShown_of_keeps keeps⟩
  | defineGhost =>
    have keeps := (NameTable.grows_defineGhost builder.elaboration.table).keepsBuilt sound.ready.back
    exact sound.of_keeps keeps (sound.ready.defineGhost regular) (sound.isShown_of_keeps keeps)
  | make makes isSplit => exact sound.extend regular makes isSplit
  | restart =>
    refine ⟨sound.ready, sound.names, nofun, List.nodup_nil, nofun, ?_⟩
    rw [List.forall_mem_append]
    exact ⟨fun node isMade => sound.of_mem (List.mem_append_left _ isMade), sound.earlier⟩

end IsSound

theorem isSound_start {dialect : Dialect} (regular : dialect.IsRegular) :
    IsSound dialect ⟨{ table := .ofDialect dialect }, [], [], []⟩ :=
  ⟨NameTable.IsReady.ofDialect regular, nofun, nofun, List.nodup_nil, nofun, nofun⟩

theorem Reachable.isSound {dialect : Dialect} (regular : dialect.IsRegular) {builder : Builder}
    (reachable : builder.Reachable dialect) : builder.IsSound dialect := by
  induction reachable with
  | start => exact isSound_start regular
  | step _ step ih => exact ih.step regular step

end Builder

end YulCheck
