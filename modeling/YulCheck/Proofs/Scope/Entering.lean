import YulCheck.Proofs.Scope.Growth
import YulCheck.Proofs.Scope.Layout

/-! # Entering declarations into scopes

What entering the declarations of a block amounts to, apart from everything that a run does besides.
They can be entered exactly if no frame of the block declares a name twice, and then the scopes of
the block are behind those that were there before, with everything that the block declares.
-/

namespace YulCheck

/-- What entering declarations works on: the scopes, and those that declarations are entered in, the
current one first. -/
@[ext]
structure Filling where
  scoping : Scoping
  around : List ScopeId

namespace Scoping

/-- Open the scope of a node inside of another one. -/
def openScope (scoping : Scoping) (owner : ScopeOwner) (parent? : Option ScopeId) : Scoping :=
  scoping.append [⟨parent?, owner.isFunction, []⟩] [owner]

theorem get?_extend_self {scoping : Scoping} {id : ScopeId} {scope : Scope}
    (present : scoping.forest.get? id = some scope) (bindings : List (Handle × Binding)) :
    (scoping.extend id bindings).forest.get? id = some (scope.extend bindings) := by
  rw [extend, ScopeForest.get?_extend, if_pos rfl, present]
  rfl

/-- The first scope that is added has the next number. -/
theorem get?_append_size (scoping : Scoping) (scopes : List Scope) (owners : List ScopeOwner) :
    (scoping.append scopes owners).forest.get? scoping.forest.size = scopes[0]? := by
  rw [append, ScopeForest.get?_append, if_neg (Nat.lt_irrefl _), Nat.sub_self]

end Scoping

/-- A frame and its scope declare the same names. -/
theorem Frame.nodup_names_toScope (frame : Frame) (parent? : Option ScopeId) :
    (frame.toScope parent?).names.Nodup ↔ frame.names.Nodup := by
  rw [Scope.names, toScope, List.map_reverse, List.nodup_reverse]
  rfl

namespace Filling

/-! ### Steps -/

/-- Open the scope of a node inside of the current one, and go into it. -/
def openScope (filling : Filling) (owner : ScopeOwner) : Filling :=
  ⟨filling.scoping.openScope owner filling.around.head?,
    filling.scoping.forest.size :: filling.around⟩

/-- Go into the scope of a block again. -/
def resume? (filling : Filling) (block : NodeId) : Option Filling :=
  (filling.scoping.scopeOf? (.block block)).map fun id => ⟨filling.scoping, id :: filling.around⟩

/-- Leave the current scope. -/
def leave (filling : Filling) : Filling := ⟨filling.scoping, filling.around.tail⟩

/-- Bind a name in the current scope, unless it is taken. -/
def bind? (filling : Filling) (name : Handle) (binding : Binding) : Option Filling := do
  let id ← filling.around.head?
  let forest ← filling.scoping.forest.bind? id name binding
  return { filling with scoping := { filling.scoping with forest } }

/-- Bind names in the current scope one after another, unless one is taken. -/
def bindAll? (filling : Filling) (bindings : List (Handle × Binding)) : Option Filling :=
  bindings.foldlM (fun filling (name, binding) => filling.bind? name binding) filling

/-- Enter a declaration, unless a name is taken. -/
def enter? (filling : Filling) : Declaration → Option Filling
  | .scope owner => some (filling.openScope owner)
  | .resume block => filling.resume? block
  | .leave => some filling.leave
  | .function _ name parameters returns => filling.bindAll? [(name, .function parameters returns)]
  | .locals locals => filling.bindAll? (locals.map (·.binding))

/-- Enter declarations one after another, unless a name is taken. -/
def enterAll? (filling : Filling) (declarations : List Declaration) : Option Filling :=
  declarations.foldlM enter? filling

theorem enterAll?_append (filling : Filling) (first second : List Declaration) :
    filling.enterAll? (first ++ second) =
      (filling.enterAll? first).bind (·.enterAll? second) := List.foldlM_append

/-- What is entered is left as the last step. -/
theorem enterAll?_append_leave (filling : Filling) (declarations : List Declaration) :
    filling.enterAll? (declarations ++ [.leave]) =
      (filling.enterAll? declarations).map leave := by
  rw [enterAll?_append, Option.map_eq_bind]
  exact congrArg _ (funext fun _ => bind_pure _)

/-- A block that is entered again is left behind what is entered into it. -/
theorem enterAll?_resume {scoping : Scoping} {block : NodeId} {id : ScopeId}
    (owned : scoping.scopeOf? (.block block) = some id) (around : List ScopeId)
    (declarations : List Declaration) :
    enterAll? ⟨scoping, around⟩ (.resume block :: declarations ++ [.leave]) =
      (enterAll? ⟨scoping, id :: around⟩ declarations).map leave := by
  refine (enterAll?_append_leave _ (.resume block :: declarations)).trans ?_
  show (((scoping.scopeOf? (.block block)).map _).bind _).map _ = _
  rw [owned]
  rfl

theorem bindAll?_append (filling : Filling) (first second : List (Handle × Binding)) :
    filling.bindAll? (first ++ second) =
      (filling.bindAll? first).bind (·.bindAll? second) := List.foldlM_append

/-- Functions are entered like all other names. -/
theorem enterAll?_functionDeclarations (filling : Filling) (statements : List Statement) :
    filling.enterAll? (functionDeclarations statements) =
      filling.bindAll? (statements.filterMap (·.function?)) := by
  induction statements generalizing filling with
  | nil => rfl
  | cons statement rest ih =>
    cases statement with
    | function id span name parameters returns body =>
      refine (enterAll?_append filling [_] (functionDeclarations rest)).trans ?_
      refine Eq.trans ?_ (bindAll?_append filling [_] _).symm
      refine congr (congrArg Option.bind ?_) (funext ih)
      exact bind_pure _
    | _ => exact ih filling

/-- Variables that are entered one by one are entered like all other names. -/
theorem enterAll?_map_locals (filling : Filling) (locals : List Variable) :
    filling.enterAll? (locals.map fun declared => .locals [declared]) =
      filling.bindAll? (locals.map (·.binding)) := by
  induction locals generalizing filling with
  | nil => rfl
  | cons declared rest ih =>
    refine (enterAll?_append filling [_] (rest.map _)).trans ?_
    refine Eq.trans ?_ (bindAll?_append filling [_] (rest.map _)).symm
    refine congr (congrArg Option.bind ?_) (funext ih)
    exact bind_pure _

/-! ### Binding names -/

variable {scoping : Scoping} {after : Filling} {id : ScopeId} {outer : List ScopeId} {scope : Scope}

theorem bind?_eq_some_iff (present : scoping.forest.get? id = some scope) {name : Handle}
    {binding : Binding} :
    bind? ⟨scoping, id :: outer⟩ name binding = some after ↔
      name ∉ scope.names ∧ after = ⟨scoping.extend id [(name, binding)], id :: outer⟩ := by
  simp only [bind?, List.head?_cons, Option.bind_eq_bind, Option.bind_some, Option.bind_eq_some_iff,
    ScopeForest.bind?_eq_some_iff present, Option.pure_def, Option.some.injEq]
  constructor
  · rintro ⟨_, ⟨free, rfl⟩, rfl⟩
    exact ⟨free, rfl⟩
  · rintro ⟨free, rfl⟩
    exact ⟨_, ⟨free, rfl⟩, rfl⟩

/-- Names can be bound in a scope if none of them is taken or repeated. -/
theorem bindAll?_eq_some_iff (present : scoping.forest.get? id = some scope)
    (distinct : scope.names.Nodup) (bindings : List (Handle × Binding)) :
    bindAll? ⟨scoping, id :: outer⟩ bindings = some after ↔
      (scope.extend bindings).names.Nodup ∧ after = ⟨scoping.extend id bindings, id :: outer⟩ := by
  induction bindings generalizing scoping scope with
  | nil =>
    rw [Scoping.extend_nil, Scope.extend_nil]
    simp only [distinct, true_and]
    exact Option.some_inj.trans eq_comm
  | cons entry rest ih =>
    obtain ⟨name, binding⟩ := entry
    have step : bindAll? ⟨scoping, id :: outer⟩ ((name, binding) :: rest) =
      (bind? ⟨scoping, id :: outer⟩ name binding).bind (·.bindAll? rest) := rfl
    rw [step, Option.bind_eq_some_iff]
    simp only [bind?_eq_some_iff present]
    have later (free : name ∉ scope.names) :=
      ih (Scoping.get?_extend_self present [(name, binding)]) (by
        rw [Scope.names_extend]
        exact List.nodup_cons.mpr ⟨free, distinct⟩)
    constructor
    · rintro ⟨_, ⟨free, rfl⟩, bound⟩
      have result := (later free).mp bound
      rwa [Scope.extend_extend, Scoping.extend_extend] at result
    · rintro ⟨free, rfl⟩
      have isFree : name ∉ scope.names := by
        rw [Scope.names_extend, List.nodup_append'] at free
        refine fun taken => free.2.2 ?_ taken
        simp
      refine ⟨_, ⟨isFree, rfl⟩, (later isFree).mpr ?_⟩
      rw [Scope.extend_extend, Scoping.extend_extend]
      exact ⟨free, rfl⟩

end Filling

/-! ### What declarations amount to -/

/-- What entering declarations amounts to inside of a scope: names are bound in that scope, frames are
opened behind those that there are, and the scope is the current one again. It depends on the numbers of
the scope and of the first new one. -/
def Enters (declarations : List Declaration) (bindings : List (Handle × Binding))
    (frames : List (ScopeOwner × Frame)) (scopes : (parent first : ScopeId) → List Scope) : Prop :=
  ∀ (scoping : Scoping) (after : Filling) (id : ScopeId) (outer : List ScopeId) (scope : Scope),
    scoping.forest.get? id = some scope → scope.names.Nodup → (frames.map (·.1)).Nodup →
    (Filling.enterAll? ⟨scoping, id :: outer⟩ declarations = some after ↔
      (scope.extend bindings).names.Nodup ∧ (∀ entry ∈ frames, entry.2.names.Nodup) ∧
        after = ⟨(scoping.extend id bindings).append (scopes id scoping.forest.size)
          (frames.map (·.1)), id :: outer⟩)

/-- What entering declarations amounts to that open scopes and leave them again. -/
def Opens (declarations : List Declaration) (frames : List (ScopeOwner × Frame))
    (scopes : (parent? : Option ScopeId) → (first : ScopeId) → List Scope) : Prop :=
  ∀ (scoping : Scoping) (after : Filling) (around : List ScopeId), (frames.map (·.1)).Nodup →
    (Filling.enterAll? ⟨scoping, around⟩ declarations = some after ↔
      (∀ entry ∈ frames, entry.2.names.Nodup) ∧
        after = ⟨scoping.append (scopes around.head? scoping.forest.size) (frames.map (·.1)), around⟩)

namespace Enters

theorem nil : Enters [] [] [] fun _ _ => [] := by
  intro scoping after id outer scope _ distinct _
  rw [Scoping.extend_nil, Scope.extend_nil]
  simp only [distinct, true_and, List.map_nil, Scoping.append_nil, List.not_mem_nil, false_imp_iff,
    implies_true]
  exact Option.some_inj.trans eq_comm

theorem append {first second : List Declaration} {bindings more : List (Handle × Binding)}
    {frames others : List (ScopeOwner × Frame)}
    {scopes rest : (parent first : ScopeId) → List Scope}
    (enters : Enters first bindings frames scopes) (continues : Enters second more others rest)
    (lengths : ∀ parent first, (scopes parent first).length = frames.length) :
    Enters (first ++ second) (bindings ++ more) (frames ++ others) fun parent first =>
      scopes parent first ++ rest parent (first + frames.length) := by
  intro scoping after id outer scope present distinct owners
  rw [List.map_append] at owners ⊢
  obtain ⟨firstDistinct, secondDistinct, _⟩ := List.nodup_append'.mp owners
  have inForest := ScopeForest.lt_size_of_get? present
  -- The scope itself is still there when the second part is entered.
  have later (middleDistinct : (scope.extend bindings).names.Nodup) :=
    continues
      ((scoping.extend id bindings).append (scopes id scoping.forest.size) (frames.map (·.1)))
      after id outer (scope.extend bindings)
      (by
        rw [Scoping.append, ScopeForest.get?_append, if_pos]
        · exact Scoping.get?_extend_self present bindings
        · exact (ScopeForest.size_extend _ _ _).symm ▸ inForest)
      middleDistinct secondDistinct
  have whole :
      (((scoping.extend id bindings).append (scopes id scoping.forest.size)
        (frames.map (·.1))).extend id more).append
          (rest id (scoping.forest.size + frames.length)) (others.map (·.1)) =
      (scoping.extend id (bindings ++ more)).append
        (scopes id scoping.forest.size ++ rest id (scoping.forest.size + frames.length))
        (frames.map (·.1) ++ others.map (·.1)) := by
    rw [Scoping.extend_append _ ((ScopeForest.size_extend _ _ _).symm ▸ inForest),
      Scoping.extend_extend, Scoping.append_append]
    rw [lengths, List.length_map]
  have size :
      ((scoping.extend id bindings).append (scopes id scoping.forest.size)
        (frames.map (·.1))).forest.size = scoping.forest.size + frames.length := by
    simp only [Scoping.append, Scoping.extend, ScopeForest.size_append, ScopeForest.size_extend,
      lengths]
  simp only [size, whole, Scope.extend_extend] at later
  rw [Filling.enterAll?_append, Option.bind_eq_some_iff]
  simp only [enters _ _ _ _ _ present distinct firstDistinct, List.forall_mem_append]
  constructor
  · rintro ⟨_, ⟨middleDistinct, onceFirst, rfl⟩, entered⟩
    obtain ⟨allDistinct, onceSecond, rfl⟩ := (later middleDistinct).mp entered
    exact ⟨allDistinct, ⟨onceFirst, onceSecond⟩, rfl⟩
  · rintro ⟨allDistinct, ⟨onceFirst, onceSecond⟩, rfl⟩
    have middleDistinct : (scope.extend bindings).names.Nodup := by
      rw [← Scope.extend_extend, Scope.names_extend, List.nodup_append'] at allDistinct
      exact allDistinct.2.1
    exact ⟨_, ⟨middleDistinct, onceFirst, rfl⟩,
      (later middleDistinct).mpr ⟨allDistinct, onceSecond, rfl⟩⟩

/-- What is opened inside of a scope. -/
theorem ofOpens {declarations : List Declaration} {frames : List (ScopeOwner × Frame)}
    {scopes : Option ScopeId → ScopeId → List Scope} (opens : Opens declarations frames scopes) :
    Enters declarations [] frames fun parent first => scopes (some parent) first := by
  intro scoping after id outer scope present distinct owners
  rw [Scoping.extend_nil, Scope.extend_nil, opens _ _ _ owners, List.head?_cons]
  simp only [distinct, true_and]

theorem bindings {declarations : List Declaration} {bindings : List (Handle × Binding)}
    (binds : ∀ filling : Filling, filling.enterAll? declarations = filling.bindAll? bindings) :
    Enters declarations bindings [] fun _ _ => [] := by
  intro scoping after id outer scope present distinct _
  rw [binds, Filling.bindAll?_eq_some_iff present distinct]
  simp only [List.not_mem_nil, false_imp_iff, implies_true, true_and, List.map_nil,
    Scoping.append_nil]

end Enters

/-- A scope is opened, filled and left. -/
theorem Enters.opens {owner : ScopeOwner} {declarations : List Declaration} {frame : Frame}
    {frames : List (ScopeOwner × Frame)} {scopes : (parent first : ScopeId) → List Scope}
    (enters : Enters declarations frame.bindings frames scopes)
    (isFunction : owner.isFunction = frame.isFunction) :
    Opens (.scope owner :: declarations ++ [.leave]) ((owner, frame) :: frames)
      fun parent? first => frame.toScope parent? :: scopes first (first + 1) := by
  intro scoping after around distinct
  let opened : Scope := ⟨around.head?, owner.isFunction, []⟩
  have filled : opened.extend frame.bindings = frame.toScope around.head? := by
    simp only [opened, Scope.extend, Frame.toScope, isFunction, List.append_nil]
  have names : (opened.extend frame.bindings).names.Nodup ↔ frame.names.Nodup :=
    filled ▸ frame.nodup_names_toScope around.head?
  have step : Filling.enterAll? ⟨scoping, around⟩ (.scope owner :: declarations ++ [.leave]) =
      (Filling.enterAll? ⟨scoping.append [opened] [owner], scoping.forest.size :: around⟩
        declarations).map Filling.leave :=
    Filling.enterAll?_append_leave _ declarations
  have present : (scoping.append [opened] [owner]).forest.get? scoping.forest.size =
      some opened := scoping.get?_append_size [opened] [owner]
  have whole :
      ((scoping.append [opened] [owner]).extend scoping.forest.size frame.bindings).append
          (scopes scoping.forest.size (scoping.forest.size + 1)) (frames.map (·.1)) =
        scoping.append
          (frame.toScope around.head? :: scopes scoping.forest.size (scoping.forest.size + 1))
          (owner :: frames.map (·.1)) := by
    have extended : (scoping.append [opened] [owner]).extend scoping.forest.size frame.bindings =
        scoping.append [opened.extend frame.bindings] [owner] := by
      ext1
      · exact ScopeForest.extend_append_size _ _ _ _
      · rfl
    rw [extended, filled]
    exact Scoping.append_append _ rfl _ _
  have size : (scoping.append [opened] [owner]).forest.size = scoping.forest.size + 1 :=
    ScopeForest.size_append _ _
  rw [step, Option.map_eq_some_iff]
  simp only [enters _ _ _ _ _ present List.nodup_nil (List.nodup_cons.mp distinct).2, names, size,
    whole, List.forall_mem_cons, List.map_cons]
  constructor
  · rintro ⟨_, ⟨here, inside, rfl⟩, rfl⟩
    exact ⟨⟨here, inside⟩, rfl⟩
  · rintro ⟨⟨here, inside⟩, rfl⟩
    exact ⟨_, ⟨here, inside, rfl⟩, rfl⟩

/-- More is entered into the first scope of a block, after the block was left. -/
theorem Opens.resume {block : Block} {declarations : List Declaration}
    {frames : List (ScopeOwner × Frame)} {scopes : (parent first : ScopeId) → List Scope}
    (opens : Opens block.declarations block.frames block.scopes)
    (continues : Enters declarations [] frames scopes) :
    Opens (block.declarations ++ (.resume block.id :: declarations ++ [.leave]))
      (block.frames ++ frames) fun parent? first =>
        block.scopes parent? first ++ scopes first (first + block.frames.length) := by
  intro scoping after around ownersDistinct
  rw [List.map_append] at ownersDistinct ⊢
  obtain ⟨firstDistinct, secondDistinct, _⟩ := List.nodup_append'.mp ownersDistinct
  let frame := Frame.block block.statements []
  -- The first frame and the first scope are those of the block itself.
  have head : block.frames[0]? = some (.block block.id, frame) := by
    cases block
    rfl
  have headScope : (block.scopes around.head? scoping.forest.size)[0]? =
      some (frame.toScope around.head?) := by
    cases block
    rfl
  have lengths := block.length_scopes around.head? scoping.forest.size
  have distinctNames (once : ∀ entry ∈ block.frames, entry.2.names.Nodup) :
      (frame.toScope around.head?).names.Nodup :=
    (frame.nodup_names_toScope _).mpr (once _ (List.mem_of_getElem? head))
  let filled := scoping.append (block.scopes around.head? scoping.forest.size)
    (block.frames.map (·.1))
  have owned : filled.scopeOf? (.block block.id) = some scoping.forest.size :=
    Scoping.scopeOf?_append_of_getElem? _ _ firstDistinct 0 (by rw [List.getElem?_map, head]; rfl)
  have step := Filling.enterAll?_resume owned around declarations
  have later (once : ∀ entry ∈ block.frames, entry.2.names.Nodup) (after : Filling) :=
    continues filled after scoping.forest.size around (frame.toScope around.head?)
      ((scoping.get?_append_size _ _).trans headScope) (distinctNames once) secondDistinct
  have size : filled.forest.size = scoping.forest.size + block.frames.length := by
    simp only [filled, Scoping.append, ScopeForest.size_append, lengths]
  have whole : filled.append (scopes scoping.forest.size (scoping.forest.size + block.frames.length))
      (frames.map (·.1)) = scoping.append _ _ :=
    Scoping.append_append _ (lengths.trans (List.length_map _).symm) _ _
  simp only [Scoping.extend_nil, Scope.extend_nil, size, whole] at later
  rw [Filling.enterAll?_append, Option.bind_eq_some_iff]
  simp only [opens _ _ _ firstDistinct, List.forall_mem_append]
  constructor
  · rintro ⟨_, ⟨once, rfl⟩, entered⟩
    obtain ⟨_, inside, rfl⟩ := Option.map_eq_some_iff.mp (step.symm.trans entered)
    obtain ⟨_, rest, rfl⟩ := (later once _).mp inside
    exact ⟨⟨once, rest⟩, rfl⟩
  · rintro ⟨⟨once, rest⟩, rfl⟩
    refine ⟨_, ⟨once, rfl⟩, step.trans (Option.map_eq_some_iff.mpr ?_)⟩
    exact ⟨_, (later once _).mpr ⟨distinctNames once, rest, rfl⟩, rfl⟩

/-! ### Blocks -/

mutual

theorem Block.opens (block : Block) : Opens block.declarations block.frames block.scopes := by
  cases block with
  | mk id span statements =>
    have functions := Enters.bindings fun filling =>
      Filling.enterAll?_functionDeclarations filling statements
    have all := functions.append (statements_enter statements) fun _ _ => rfl
    have fills : Enters _ (Frame.block statements []).bindings _ _ := all
    have opens : Opens _ ((.block id, Frame.block statements []) :: _) _ := fills.opens rfl
    exact opens

theorem statements_enter (statements : List Statement) :
    Enters (statementDeclarations statements)
      (statements.flatMap fun statement => statement.locals.map (·.binding))
      (statementFrames statements) fun parent first => statementScopes parent first statements := by
  cases statements with
  | nil => exact Enters.nil
  | cons statement rest =>
    exact statement.enters.append (statements_enter rest) fun _ _ =>
      Statement.length_scopes _ _ _

theorem Statement.enters (statement : Statement) :
    Enters statement.declarations (statement.locals.map (·.binding)) statement.frames
      fun parent first => statement.scopes parent first := by
  cases statement with
  | declaration span locals value =>
    exact Enters.bindings fun filling => bind_pure _
  | function id span name parameters returns body =>
    have binds := Enters.bindings fun filling =>
      Filling.enterAll?_map_locals filling (parameters ++ returns)
    have inside := binds.append (Enters.ofOpens body.opens) fun _ _ => rfl
    rw [List.append_nil] at inside
    have fills : Enters _ (Frame.function parameters returns).bindings _ _ := inside
    have opens : Opens _ ((.function id, Frame.function parameters returns) :: _) _ := fills.opens rfl
    exact Enters.ofOpens opens
  | conditional span condition body => exact Enters.ofOpens body.opens
  | switch span scrutinee cases => exact cases_enter cases
  | loop id span pre condition post body =>
    have fills := (Enters.ofOpens body.opens).append (Enters.ofOpens post.opens) fun _ _ =>
      Block.length_scopes _ _ _
    have whole := Enters.ofOpens (pre.opens.resume fills)
    simpa only [Statement.declarations, Statement.frames, Statement.scopes, Statement.locals,
      List.map_nil, List.append_assoc, List.cons_append] using whole
  | block block => exact Enters.ofOpens block.opens
  | expression | assignment | «break» | «continue» | leave => exact Enters.nil

theorem cases_enter (cases : List Case) :
    Enters (caseDeclarations cases) [] (caseFrames cases) fun parent first =>
      caseScopes parent first cases := by
  cases cases with
  | nil => exact Enters.nil
  | cons first rest =>
    cases first with
    | mk span value? body =>
      exact (Enters.ofOpens body.opens).append (cases_enter rest) fun _ _ =>
        Block.length_scopes _ _ _

end

end YulCheck
