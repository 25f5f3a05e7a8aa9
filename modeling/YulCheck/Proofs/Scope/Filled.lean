import YulCheck.Check.Checker
import YulCheck.Proofs.Host.Unstopped
import YulCheck.Proofs.Safety.Declarations

/-! # Scopes filled with declarations

Entering the declarations of a program opens one scope for every block and one for every function, each
inside of the scope that the nesting of the program tells, whether or not names are declared twice. It
succeeds if no name is declared twice, and then every scope binds what its block or function declares.
-/

namespace YulCheck

variable {σ : Type}

/-! ### Scopes without their bindings -/

/-- The scope without its bindings. -/
def Scope.bare (scope : Scope) : Scope := { scope with bindings := [] }

/-- The scopes without their bindings. -/
def Scoping.bare (scoping : Scoping) : Scoping :=
  { scoping with forest := ⟨scoping.forest.scopes.map Scope.bare⟩ }

namespace Scoping

variable {scoping : Scoping}

theorem get?_bare (scoping : Scoping) (id : ScopeId) :
    scoping.bare.forest.get? id = (scoping.forest.get? id).map Scope.bare :=
  Array.getElem?_map

theorem size_bare (scoping : Scoping) : scoping.bare.forest.size = scoping.forest.size :=
  Array.size_map

/-- Scopes are opened in the same way, whatever they bind. -/
theorem bare_openScope (scoping : Scoping) (owner : ScopeOwner) (parent? : Option ScopeId) :
    (scoping.openScope owner parent?).bare = scoping.bare.openScope owner parent? := by
  ext1
  · simp [openScope, append, ScopeForest.append, bare, Scope.bare]
  · funext other
    show (scoping.openScope owner parent?).scopeOf? other = _
    rw [scopeOf?_openScope, scopeOf?_openScope, size_bare]
    rfl

/-- The scopes are the same, apart from their bindings, after names were bound. -/
theorem bare_of_bind? {forest bound : ScopeForest} {id : ScopeId} {name : Handle}
    {binding : Binding} (isBound : forest.bind? id name binding = some bound)
    (scopeOf? : ScopeOwner → Option ScopeId) :
    (Scoping.mk bound scopeOf?).bare = (Scoping.mk forest scopeOf?).bare := by
  obtain ⟨scope, present, entered⟩ := Option.bind_eq_some_iff.mp isBound
  have same := (ScopeForest.bind?_eq_some_iff present).mp isBound
  rw [same.2]
  ext1
  · refine ScopeForest.ext_get? fun other => ?_
    rw [get?_bare, get?_bare, ScopeForest.get?_extend]
    split
    · cases forest.get? other <;> rfl
    · rfl
  · rfl

end Scoping

/-! ### Runs -/

theorem Run.bare_of_answer {host? : Option (Host σ)} {state after : RunState σ} {request : Request}
    {outcome : Except Failure request.Answer} (staysInside : request.StaysInside)
    (answered : answer host? request state = .ok (outcome, after)) :
    after.facts.scoping.bare = state.facts.scoping.bare := by
  cases request with
  | openScope | resumeScope | leaveScope => cases staysInside
  | bind name binding =>
    simp only [answer, bind_request_apply] at answered
    split at answered
    · cases answered
    · split at answered
      · cases answered
        exact Scoping.bare_of_bind? (by assumption) _
      · cases answered
        rfl
  | _ => exact congrArg Scoping.bare (scoping_of_answer (by trivial) answered)

namespace Scoping

/-- Open scopes one after another, each inside of the scope of another node. -/
def openAll (scoping : Scoping) (nestings : List Nesting) : Scoping :=
  nestings.foldl (fun scoping (owner, outer?) =>
    scoping.openScope owner (outer?.bind scoping.scopeOf?)) scoping

theorem openAll_append (scoping : Scoping) (nestings others : List Nesting) :
    scoping.openAll (nestings ++ others) = (scoping.openAll nestings).openAll others :=
  List.foldl_append

/-- The scopes of other nodes stay. -/
theorem scopeOf?_openAll (scoping : Scoping) {nestings : List Nesting} {owner : ScopeOwner}
    (other : owner ∉ nestings.map (·.1)) :
    (scoping.openAll nestings).scopeOf? owner = scoping.scopeOf? owner := by
  induction nestings generalizing scoping with
  | nil => rfl
  | cons nesting rest ih =>
    obtain ⟨different, notInRest⟩ := List.ne_and_not_mem_of_not_mem_cons other
    refine (ih _ notInRest).trans ?_
    rw [scopeOf?_openScope, if_neg different]

/-- What scopes that are opened one after another come to: each of them has the next number and is
inside of the one that its nesting tells; the other scopes stay, as far as this is concerned, and
nothing else is taken for the scope of a node. -/
structure Nests (before after : Scoping) (nestings : List Nesting) : Prop where
  size : after.forest.size = before.forest.size + nestings.length
  old (id : ScopeId) (below : id < before.forest.size) :
    (after.forest.get? id).map Scope.bare = (before.forest.get? id).map Scope.bare
  others (owner : ScopeOwner) (other : owner ∉ nestings.map (·.1)) :
    after.scopeOf? owner = before.scopeOf? owner
  opened (position : Nat) {owner : ScopeOwner} {outer? : Option ScopeOwner}
    (found : nestings[position]? = some (owner, outer?)) :
    after.scopeOf? owner = some (before.forest.size + position) ∧
      (after.forest.get? (before.forest.size + position)).map Scope.bare =
        some ⟨outer?.bind after.scopeOf?, owner.isFunction, []⟩

theorem get?_openScope (scoping : Scoping) (owner : ScopeOwner) (parent? : Option ScopeId)
    (id : ScopeId) :
    (scoping.openScope owner parent?).forest.get? id =
      if id = scoping.forest.size then some ⟨parent?, owner.isFunction, []⟩
      else scoping.forest.get? id := by
  rw [openScope, append, ScopeForest.get?_append]
  rcases Nat.lt_trichotomy id scoping.forest.size with old | rfl | new
  · rw [if_pos old, if_neg (Nat.ne_of_lt old)]
  · rw [if_neg (Nat.lt_irrefl _), if_pos rfl, Nat.sub_self]
    rfl
  · rw [if_neg (Nat.lt_asymm new), if_neg (Nat.ne_of_gt new), ScopeForest.get?,
      Array.getElem?_eq_none (Nat.le_of_lt new), List.getElem?_eq_none]
    rw [List.length_singleton]
    omega

theorem size_openScope (scoping : Scoping) (owner : ScopeOwner) (parent? : Option ScopeId) :
    (scoping.openScope owner parent?).forest.size = scoping.forest.size + 1 :=
  ScopeForest.size_append _ _

/-- A scope is opened, and then others, none of which is taken for that one or for the one around it. -/
theorem Nests.cons {before after : Scoping} {owner : ScopeOwner} {outer? : Option ScopeOwner}
    {rest : List Nesting}
    (nests : (before.openScope owner (outer?.bind before.scopeOf?)).Nests after rest)
    (fresh : owner ∉ rest.map (·.1))
    (isApart : ∀ outer ∈ outer?, outer ∉ ((owner, outer?) :: rest).map (·.1)) :
    before.Nests after ((owner, outer?) :: rest) := by
  obtain ⟨size, old, others, isOpened⟩ := nests
  rw [size_openScope] at size old isOpened
  have elsewhere (other : ScopeOwner) (isOther : other ∉ ((owner, outer?) :: rest).map (·.1)) :
      after.scopeOf? other = before.scopeOf? other := by
    obtain ⟨different, notInRest⟩ := List.ne_and_not_mem_of_not_mem_cons isOther
    rw [others other notInRest, scopeOf?_openScope, if_neg different]
  refine ⟨?_, fun id below => ?_, elsewhere, fun position other around? found => ?_⟩
  · rw [List.length_cons]
    exact size.trans (by omega)
  · rw [old id (Nat.lt_succ_of_lt below), get?_openScope, if_neg (Nat.ne_of_lt below)]
  · cases position with
    | zero =>
      cases found
      have sameOuter : outer?.bind after.scopeOf? = outer?.bind before.scopeOf? := by
        cases outer? with
        | none => rfl
        | some outer => exact elsewhere outer (isApart outer rfl)
      refine ⟨(others owner fresh).trans ?_, (old _ (Nat.lt_succ_self _)).trans ?_⟩
      · rw [scopeOf?_openScope, if_pos rfl]
        rfl
      · rw [get?_openScope, if_pos rfl, sameOuter]
        rfl
    | succ position =>
      rw [← Nat.add_assoc, Nat.add_right_comm]
      exact isOpened position found

/-- Distinct nodes whose scopes are opened inside of scopes that are open by then come to lie in them. -/
theorem nests_openAll {opened : List ScopeOwner} {nestings : List Nesting} (before : Scoping)
    (distinct : (nestings.map (·.1)).Nodup) (rooted : AreRooted opened nestings)
    (apart : ∀ owner ∈ opened, owner ∉ nestings.map (·.1)) :
    before.Nests (before.openAll nestings) nestings := by
  induction nestings generalizing before opened with
  | nil => exact ⟨rfl, fun _ _ => rfl, fun _ _ => rfl, nofun⟩
  | cons nesting rest ih =>
    obtain ⟨owner, outer?⟩ := nesting
    obtain ⟨isOuter, rootedRest⟩ := rooted
    obtain ⟨fresh, distinctRest⟩ := List.nodup_cons.mp distinct
    have apartRest : ∀ other ∈ owner :: opened, other ∉ rest.map (·.1) :=
      List.forall_mem_cons.mpr ⟨fresh, fun other isOpen inRest =>
        apart other isOpen (List.mem_cons_of_mem _ inRest)⟩
    exact (ih (before.openScope owner (outer?.bind before.scopeOf?)) distinctRest rootedRest
      apartRest).cons fresh fun outer isOf => apart outer (isOuter outer isOf)

/-- Bindings do not matter for how scopes are nested. -/
theorem Nests.of_bare {before after : Scoping} {nestings : List Nesting}
    (nests : before.bare.Nests after.bare nestings) : before.Nests after nestings := by
  obtain ⟨size, old, others, opened⟩ := nests
  have bareBare (scope? : Option Scope) : (scope?.map Scope.bare).map Scope.bare =
      scope?.map Scope.bare := by cases scope? <;> rfl
  simp only [size_bare, get?_bare, bareBare] at size old opened
  exact ⟨size, old, others, fun position _ _ => opened position⟩

end Scoping

namespace Setting

open Walk

variable {setting : Setting} {place : Place} {host? : Option (Host σ)} {state after : RunState σ}

/-- The scope of a node is still the current one behind nested declarations, where none of the scopes that
they opened is taken for it. -/
theorem current_of_enterAll {current? : Option ScopeOwner} {declarations : List Declaration}
    {nestings : List Nesting} (nested : AreNested current? declarations nestings)
    (apart : ∀ current ∈ current?, current ∉ nestings.map (·.1))
    (isCurrent : state.around.head? = current?.bind state.facts.scopeOf?)
    (opens : after.facts.scoping.bare = state.facts.scoping.bare.openAll nestings)
    (ran : (declarations.forM (setting.enter place)).run host? state = .ok (.ok (), after)) :
    after.around.head? = current?.bind after.facts.scopeOf? := by
  rw [(opened_of_enterAll nested ran).1, isCurrent]
  cases current? with
  | none => rfl
  | some current =>
    have same : after.facts.scoping.bare.scopeOf? current =
        (state.facts.scoping.bare.openAll nestings).scopeOf? current := by rw [opens]
    rw [Scoping.scopeOf?_openAll _ (apart current rfl)] at same
    exact same.symm

/-- Entering nested declarations opens their scopes inside of the scopes of their outer nodes. -/
theorem bare_of_enterAll {current? : Option ScopeOwner} {declarations : List Declaration}
    {nestings : List Nesting} (nested : AreNested current? declarations nestings)
    (distinct : (nestings.map (·.1)).Nodup)
    (isCurrent : state.around.head? = current?.bind state.facts.scopeOf?)
    (apart : ∀ current ∈ current?, current ∉ nestings.map (·.1))
    (ran : (declarations.forM (setting.enter place)).run host? state = .ok (.ok (), after)) :
    after.facts.scoping.bare = state.facts.scoping.bare.openAll nestings := by
  induction nested generalizing state after with
  | nil =>
    cases ran
    rfl
  | inside isInside =>
    obtain ⟨_, middle, entered, ended⟩ := run_bind_eq_ok_ok_iff.mp ran
    cases ended
    exact run_keeps (·.facts.scoping.bare) (fun _ _ _ _ => Run.bare_of_answer)
      (staysInside_enter isInside) entered
  | append first _ ihFirst ihSecond =>
    rename_i current? _ _ nestings more _
    rw [enterAll_append] at ran
    obtain ⟨_, middle, ranFirst, ranSecond⟩ := run_bind_eq_ok_ok_iff.mp ran
    rw [List.map_append] at distinct apart
    obtain ⟨distinctFirst, distinctSecond, _⟩ := List.nodup_append'.mp distinct
    have apartFirst : ∀ current ∈ current?, current ∉ nestings.map (·.1) :=
      fun current isOne member => apart current isOne (List.mem_append_left _ member)
    have bareFirst := ihFirst distinctFirst isCurrent apartFirst ranFirst
    have stillCurrent := current_of_enterAll first apartFirst isCurrent bareFirst ranFirst
    rw [Scoping.openAll_append, ← bareFirst]
    exact ihSecond distinctSecond stillCurrent (fun current isOne member =>
      apart current isOne (List.mem_append_right _ member)) ranSecond
  | scope _ ih =>
    rename_i current? owner _ nestings _
    obtain ⟨middle, rfl, inside⟩ := run_enterAll_scope ran
    obtain ⟨fresh, distinct⟩ := List.nodup_cons.mp distinct
    have owned : (state.facts.openScope owner state.around.head?).scopeOf? owner =
        some state.facts.scopes.size := by
      rw [Facts.scopeOf?_openScope, if_pos rfl]
    have bareInside := ih distinct (by exact owned.symm)
      (fun _ isOwner => Option.some.inj isOwner ▸ fresh) inside
    refine bareInside.trans (congrArg (Scoping.openAll · nestings) ?_)
    refine (congrArg Scoping.bare (state.facts.scoping_openScope owner _)).trans ?_
    rw [Scoping.bare_openScope, isCurrent]
    rfl
  | resume first isOpened _ ihFirst ihSecond =>
    rename_i block _ _ nestings more _
    rw [enterAll_append] at ran
    obtain ⟨_, middle, ranFirst, ran⟩ := run_bind_eq_ok_ok_iff.mp ran
    obtain ⟨_, last, owned, rfl, inside⟩ := run_enterAll_resume ran
    rw [List.map_append] at distinct apart
    obtain ⟨distinctFirst, distinctSecond, disjoint⟩ := List.nodup_append'.mp distinct
    have bareFirst := ihFirst distinctFirst isCurrent (fun current isOne member =>
      apart current isOne (List.mem_append_left _ member)) ranFirst
    have notSecond : ScopeOwner.block block ∉ more.map (·.1) := List.disjoint_left.mp disjoint isOpened
    have bareInside := ihSecond distinctSecond (by exact owned.symm)
      (fun _ isBlock => Option.some.inj isBlock ▸ notSecond) inside
    rw [Scoping.openAll_append, ← bareFirst]
    exact bareInside

/-- Whatever is declared, entering the declarations of a block opens its scopes as they are nested. -/
theorem nests_of_enterDeclarations {block : Block} {isEntered : Bool} (outermost : state.around = [])
    (distinct : block.owners.Nodup)
    (ran : (setting.enterDeclarations place block).run host? state = .ok (.ok isEntered, after)) :
    state.facts.scoping.Nests after.facts.scoping (block.nestings none) := by
  have owners : ((block.nestings none).map (·.1)).Nodup := (block.map_fst_nestings none).symm ▸ distinct
  have entered := run_enterAll_of_enterDeclarations ran
  have isCurrent : state.around.head? = none := congrArg List.head? outermost
  refine .of_bare ?_
  rw [bare_of_enterAll (block.areNested none) owners isCurrent nofun entered]
  exact Scoping.nests_openAll _ owners ((block.areNested none).areRooted nofun) (List.forall_mem_nil _)

end Setting

/-! ### What scopes bind -/

mutual

/-- The scopes of a block bind what its frames declare. -/
theorem Block.map_bindings_scopes (block : Block) (parent? : Option ScopeId) (first : ScopeId) :
    (block.scopes parent? first).map (·.bindings) = block.frames.map (·.2.bindings.reverse) := by
  obtain ⟨id, span, statements⟩ := block
  rw [Block.scopes, Block.frames, List.map_cons, List.map_cons, map_bindings_statementScopes]
  rfl

theorem map_bindings_statementScopes (statements : List Statement) (parent first : ScopeId) :
    (statementScopes parent first statements).map (·.bindings) =
      (statementFrames statements).map (·.2.bindings.reverse) := by
  cases statements with
  | nil => rfl
  | cons statement rest =>
    rw [statementScopes, statementFrames, List.map_append, List.map_append,
      statement.map_bindings_scopes, map_bindings_statementScopes]

theorem Statement.map_bindings_scopes (statement : Statement) (parent first : ScopeId) :
    (statement.scopes parent first).map (·.bindings) = statement.frames.map (·.2.bindings.reverse) := by
  cases statement with
  | function id span name parameters returns body =>
    rw [Statement.scopes, Statement.frames, List.map_cons, List.map_cons, body.map_bindings_scopes]
    rfl
  | conditional span condition body => exact body.map_bindings_scopes _ _
  | «switch» span scrutinee cases => exact map_bindings_caseScopes cases _ _
  | loop id span pre condition post body =>
    rw [Statement.scopes, Statement.frames]
    simp only [List.map_append, Block.map_bindings_scopes]
  | block block => exact block.map_bindings_scopes _ _
  | expression | assignment | declaration | «break» | «continue» | leave => rfl

theorem map_bindings_caseScopes (cases : List Case) (parent first : ScopeId) :
    (caseScopes parent first cases).map (·.bindings) = (caseFrames cases).map (·.2.bindings.reverse) := by
  rcases cases with _ | ⟨⟨span, value?, body⟩, rest⟩
  · rfl
  · rw [caseScopes, caseFrames, List.map_append, List.map_append, body.map_bindings_scopes,
      map_bindings_caseScopes]

end

/-- A scope binds what a frame declares, and nothing else. -/
structure Scope.Binds (scope : Scope) (frame : Frame) : Prop where
  bindings : scope.bindings.Perm frame.bindings
  get (name : Handle) : scope.get? name = frame.binding? name

theorem Scope.Binds.of_bindings {scope : Scope} {frame : Frame} (once : frame.names.Nodup)
    (isBound : scope.bindings = frame.bindings.reverse) : scope.Binds frame where
  bindings := isBound ▸ List.reverse_perm _
  get name := by
    rw [Scope.get?, isBound]
    exact List.lookup_reverse once name

namespace Scoping

variable {before after : Scoping} {block : Block}

/-- The scopes that are added for a block without double declarations bind what its frames declare. -/
theorem binds_of_append (distinct : block.owners.Nodup) (once : block.DeclaresOnce)
    (added : after = before.append (block.scopes none before.forest.size) block.owners)
    {owner : ScopeOwner} {frame : Frame} (member : (owner, frame) ∈ block.frames) :
    ∃ id scope, after.scopeOf? owner = some id ∧ after.forest.get? id = some scope ∧
      scope.Binds frame := by
  have numbers := Numbers.of_append before (block.scopes none before.forest.size) distinct
  rw [← added] at numbers
  obtain ⟨position, found⟩ := List.mem_iff_getElem?.mp member
  have owned : block.owners[position]? = some owner := by
    rw [Block.owners, List.getElem?_map, found]
    rfl
  have bound := congrArg (·[position]?) (block.map_bindings_scopes none before.forest.size)
  simp only [List.getElem?_map, found, Option.map_some] at bound
  obtain ⟨scope, present, isBound⟩ := Option.map_eq_some_iff.mp bound
  exact ⟨_, scope, numbers.scopeOf position owned, numbers.get position present,
    .of_bindings (once _ member) isBound⟩

theorem get?_of_append {scopes : List Scope} {owners : List ScopeOwner}
    (added : after = before.append scopes owners) {id : ScopeId} (below : id < before.forest.size) :
    after.forest.get? id = before.forest.get? id := by
  rw [added, append, ScopeForest.get?_append, if_pos below]

end Scoping

/-! ### Programs -/

/-- Without a limit of errors, all declarations of a program are entered, unless it declares a name twice
that no message can show, and the result tells whether no block or function declares a name twice.
Whatever it tells, one scope is opened for every block and one for every function, with the numbers that
come next, and they lie in each other as the program is nested. If no name is declared twice, then the
scopes bind what the blocks and the functions declare, and those that were there before stay the same. -/
theorem NameTable.filled_by_nesting {names : NameTable} {reporter : Reporter} {facts : Facts}
    {block : Block} (distinct : block.owners.Nodup) (noLimit : reporter.errorLimit? = none) :
    (∀ fill, names.enterDeclarations reporter facts block = .ok fill →
      (∃ isEntered, fill.outcome = .ok isEntered) ∧
      (fill.outcome = .ok true ↔ block.DeclaresOnce) ∧
      facts.scoping.Nests fill.facts.scoping (block.nestings none) ∧
      (fill.outcome = .ok true →
        (∀ id < facts.scopes.size, fill.facts.scopes.get? id = facts.scopes.get? id) ∧
        ∀ owner frame, (owner, frame) ∈ block.frames → ∃ id scope,
          fill.facts.scopeOf? owner = some id ∧ fill.facts.scopes.get? id = some scope ∧
            scope.Binds frame)) ∧
    (block.DeclaresOnce ∨ AreShown names block.declarations →
      ∃ fill, names.enterDeclarations reporter facts block = .ok fill) := by
  let checker : Checker := { setting := .ofNames names [] }
  let place := checker.place block
  let state := checker.start reporter facts ()
  have noHost : ∀ host ∈ (none : Option (Host Unit)), host.NeverFails := nofun
  refine ⟨fun fill filled => ?_, fun enterable => ?_⟩
  · obtain ⟨⟨outcome, after⟩, ran, handedBack⟩ := Except.bind_eq_ok_iff.mp filled
    cases handedBack
    obtain ⟨isEntered, rfl⟩ := Walk.not_stopped_of_run noHost noLimit ran
    refine ⟨⟨isEntered, rfl⟩, ⟨fun entered => ?_, fun once => ?_⟩,
      Setting.nests_of_enterDeclarations rfl distinct ran, fun entered => ?_⟩
    · cases entered
      exact (checker.setting.entered_of_run place rfl distinct ran).1
    · obtain ⟨_, _, expected⟩ :=
        checker.setting.run_enterDeclarations place none state rfl distinct once
      cases expected.symm.trans ran
      rfl
    · cases entered
      obtain ⟨once, entered, rfl, added⟩ := checker.setting.entered_of_run place rfl distinct ran
      have added : entered.scoping = facts.scoping.append
        (block.scopes none facts.scoping.forest.size) block.owners := added
      exact ⟨fun id below => Scoping.get?_of_append added below, fun owner frame member =>
        Scoping.binds_of_append distinct once added member⟩
  · obtain ⟨outcome, after, ran⟩ : ∃ outcome after,
        (checker.setting.enterDeclarations place block).run none state = .ok (outcome, after) := by
      rcases enterable with once | shown
      · obtain ⟨entered, _, ran⟩ :=
          checker.setting.run_enterDeclarations place none state rfl distinct once
        exact ⟨_, _, ran⟩
      · exact checker.setting.exists_run_enterDeclarations place none state shown
    exact ⟨⟨outcome, after.reporter, after.facts⟩, Except.bind_eq_ok_iff.mpr ⟨_, ran, rfl⟩⟩

/-- The program `let x`, `function f(x) { let x, … }`, `for { let x } 1 { } { let x }`. Its scopes lie in
each other in the same way whether the second name in the body of its function is `f` or `x` once more,
and only the latter is rejected. -/
theorem NameTable.filled_by_nesting_shadowed :
    let names := ["x", "f"].foldl (fun table label => (table.define label).2) (NameTable.ofDialect .generic)
    let declared (id : NodeId) (name : Nat) : Variable := ⟨id, .none, ⟨name⟩, ⟨8⟩⟩
    let block (name : Nat) : Block := .mk 1 .none
      [.declaration .none [declared 2 24] none,
        .function 3 .none ⟨25⟩ [declared 4 24] []
          (.mk 5 .none [.declaration .none [declared 6 24, declared 7 name] none]),
        .loop 8 .none (.mk 9 .none [.declaration .none [declared 10 24] none])
          (.literal ⟨11, .none, .number, .ofNumeral "1", ⟨8⟩⟩) (.mk 12 .none [])
          (.mk 13 .none [.declaration .none [declared 14 24] none])]
    let nestings : List Nesting :=
      [(.block 1, none), (.function 3, some (.block 1)), (.block 5, some (.function 3)),
        (.block 9, some (.block 1)), (.block 13, some (.block 9)), (.block 12, some (.block 9))]
    (∃ fill, names.enterDeclarations .unlimited {} (block 25) = .ok fill ∧
      fill.outcome = .ok true ∧ ({} : Facts).scoping.Nests fill.facts.scoping nestings) ∧
    ∃ fill, names.enterDeclarations .unlimited {} (block 24) = .ok fill ∧
      fill.outcome = .ok false ∧ ({} : Facts).scoping.Nests fill.facts.scoping nestings := by
  intro names declared block nestings
  have distinct (name : Nat) : (block name).owners.Nodup := by
    show ([.block 1, .function 3, .block 5, .block 9, .block 13, .block 12] : List ScopeOwner).Nodup
    decide
  have fills := @NameTable.filled_by_nesting names .unlimited {} (block 25) (distinct 25) rfl
  have once : (block 25).DeclaresOnce := by decide
  obtain ⟨fill, filled⟩ := fills.2 (.inl once)
  obtain ⟨_, entered, nests, _⟩ := fills.1 fill filled
  have rejects : (names.enterDeclarations .unlimited {} (block 24)).map (·.outcome) =
      .ok (.ok false) := by
    decide +kernel
  obtain ⟨twice, filledTwice, rejected⟩ := Except.map_eq_ok_iff.mp rejects
  have nestsTwice :=
    (@NameTable.filled_by_nesting names .unlimited {} (block 24) (distinct 24) rfl).1 twice filledTwice
  exact ⟨⟨fill, filled, entered.mpr once, nests⟩, twice, filledTwice, rejected, nestsTwice.2.2.1⟩

end YulCheck
