import YulCheck.Dialect.Generic
import YulCheck.Name.Dialect
import YulCheck.Proofs.Lexical.Checker
import YulCheck.Proofs.Lexical.Progress
import YulCheck.Proofs.Lexical.Requests
import YulCheck.Proofs.Name.Answers
import YulCheck.Proofs.Scope.Entered

/-! # Lexical resolution

After the declarations of a program were entered, checking its statements finds every name as the
environment at its point says, whatever else is wrong with the program. The scopes are numbered as
the walk comes to them, so the variables that are complete in a scope are those whose declarations
the walk came past.
-/

namespace YulCheck

variable {σ : Type} {setting : Setting} {host? : Option (Host σ)} {state : RunState σ}
  {place : Place} {environment : Environment}

namespace LexicalWalk

/-! ### Scopes and variables -/

theorem resolves_hasScope {owner : ScopeOwner}
    (owned : (state.facts.scopeOf? owner).isSome = true) (id first : Nat) :
    ((Walk.ask (.hasScope owner)).within environment).Resolves setting host? state id [] first first
      [] := by
  refine ⟨⟨owned, fun _ _ _ => trivial⟩, ?_, ?_, fun _ => .nil⟩
  · intro result after ran
    cases ran
    rfl
  · intro result after ran
    cases ran
    exact RunState.Completes.of_active rfl _ _ _

theorem resolves_activate {owner : ScopeOwner} {id : Nat} {declared : Variable}
    (owned : state.facts.scopeOf? owner = some id)
    (bound : ((state.facts.scopes.get? id).bind (·.get? declared.name)).any (·.isVariable) = true)
    (first : Nat) :
    ((Walk.ask (.activate owner declared.name)).within environment).Resolves setting host? state id
      [declared] first first [] := by
  have answered : (Walk.ask (.activate owner declared.name)).run host? state =
      .ok (.ok true, { state with active := (id, declared.name) :: state.active }) := by
    rw [Walk.run_ask, Run.answer, Run.activate_apply, owned]
    dsimp only
    rw [bound]
  refine ⟨⟨⟨id, owned, bound⟩, fun _ _ _ => trivial⟩, ?_, ?_, fun _ => .nil⟩
  · intro result after ran
    rw [erase_within, answered] at ran
    cases ran
    rfl
  · intro result after ran scope name _
    rw [erase_within, answered] at ran
    cases ran
    simp only [List.mem_cons, Prod.mk.injEq, List.any_cons, List.any_nil, Bool.or_false,
      decide_eq_true_eq]
    rw [or_comm, eq_comm (a := name)]

/-- Variables are completed one after another. -/
theorem resolves_forM {visit : Variable → Walk Unit} {id first : Nat}
    (isGood : RunState σ → Prop) {locals : List Variable}
    (each : ∀ declared ∈ locals, ∀ state, isGood state →
      ((visit declared).within environment).Resolves setting host? state id [declared] first first
        [])
    (keeps : ∀ declared state after, isGood state →
      after.facts.scoping = state.facts.scoping →
      state.Completes after id [declared] first first → isGood after)
    (good : isGood state) :
    ((locals.forM visit).within environment).Resolves setting host? state id locals first first
      [] := by
  induction locals generalizing state with
  | nil => exact Resolves.pure _ _
  | cons declared rest ih =>
    have visited := each declared List.mem_cons_self state good
    have unfolded : ((declared :: rest).forM visit).within environment =
        (visit declared).within environment >>= fun _ =>
          (rest.forM visit).within environment := within_bind _ _ _
    rw [unfolded]
    apply visited.bind (Nat.le_refl _) (Nat.le_refl _)
    intro _ after _ scoping completes
    have goodAfter := keeps declared state after good scoping completes
    exact ih (fun other member => each other (List.mem_cons_of_mem _ member)) goodAfter

end LexicalWalk

namespace Setting

open LexicalWalk

variable (setting)

/-! ### Statements that declare names -/

/-- What a declaration checks before its variables can be used. -/
def prepareDeclaration (place : Place) (span : Span) (locals : List Variable)
    (value? : Option Expression) : Walk Unit := do
  locals.forM fun declared => discard (consult place declared.toIdentifier .declare)
  locals.forM (setting.checkVariable place)
  if let some value := value? then setting.checkInitialValue place span locals value

theorem checkDeclaration_eq (place : Place) (span : Span) (locals : List Variable)
    (value? : Option Expression) :
    setting.checkDeclaration place span locals value? =
      setting.prepareDeclaration place span locals value? >>= fun _ =>
        locals.forM (activateVariable place) := by
  cases value? <;> simp only [checkDeclaration, prepareDeclaration, bind_assoc, pure_bind]

theorem stays_prepareDeclaration (span : Span) (locals : List Variable)
    (value? : Option Expression) :
    Stays place (setting.prepareDeclaration place span locals value?) := by
  refine Walk.only_bind (Walk.only_forM fun declared _ => ?_) fun _ => ?_
  · exact Walk.only_bind (plain_consult _ _).stays fun _ => Walk.only_pure _
  · refine Walk.only_bind (Walk.only_forM fun declared _ => ?_) fun _ => ?_
    · exact local_checks.checkVariable declared
    · cases value? with
      | none => exact Walk.only_pure _
      | some value => exact setting.stays_checkInitialValue _ _ _

theorem resolves_checkDeclaration {id : Nat} (inside : state.Inside place id environment)
    {span : Span} {locals : List Variable} {value? : Option Expression}
    (bound : ∀ declared ∈ locals,
      ((state.facts.scopes.get? id).bind (·.get? declared.name)).any (·.isVariable) = true)
    (first : Nat) :
    ((setting.checkDeclaration place span locals value?).within environment).Resolves setting host?
      state id locals first first [] := by
  rw [checkDeclaration_eq, within_bind]
  apply (Resolves.within inside (setting.stays_prepareDeclaration span locals value?) id
    first).nil_bind (Nat.le_refl _) (Nat.le_refl _)
  intro _ after _ scoping _
  refine resolves_forM (fun other => other.facts.scoping = state.facts.scoping) ?_
    (fun _ _ _ good same _ => same.trans good) scoping
  intro declared member other same
  have scopeOf : other.facts.scopeOf? = state.facts.scopeOf? := congrArg Scoping.scopeOf? same
  have owned : other.facts.scopeOf? (.block place.block) = some id := scopeOf ▸ inside.owned
  have scopes : other.facts.scopes = state.facts.scopes := congrArg Scoping.forest same
  rw [activateVariable, within_bind]
  apply (resolves_activate owned (scopes ▸ bound declared member) first).bind_nil (Nat.le_refl _)
    (Nat.le_refl _)
  intro isBound last ran _ _
  cases isBound with
  | true => exact Resolves.pure _ _
  | false => exact ⟨trivial, nofun, nofun, nofun⟩

/-- What a function definition checks about its own name. -/
def checkFunctionName (place : Place) (name : Handle) (span : Span) : Walk Unit := do
  Walk.require (!name.isEmpty) .functionUnnamed
  setting.checkName place name span

/-- Check a parameter or returned variable, which can be used in the body of its function. -/
def checkParameter (place : Place) (function : NodeId) (declared : Variable) : Walk Unit := do
  setting.checkVariable place declared
  discard (Walk.ask (.activate (.function function) declared.name))

theorem checkHeader_eq (place : Place) (function : NodeId) (span : Span) (name : Handle)
    (parameters returns : List Variable) :
    setting.checkHeader place function span name parameters returns =
      setting.checkFunctionName place name span >>= fun _ =>
        Walk.ask (.hasScope (.function function)) >>= fun hasScope =>
          Walk.require hasScope (.functionWithoutScope name) >>= fun _ =>
            (parameters ++ returns).forM (setting.checkParameter place function) := by
  simp only [checkHeader, checkFunctionName, bind_assoc]
  rfl

theorem resolves_checkHeader (host? : Option (Host σ)) (span : Span) (name : Handle)
    {id first : Nat} (inside : state.Inside place id environment) (below : id < first)
    {function : NodeId} {parameters returns : List Variable}
    (owned : state.facts.scopeOf? (.function function) = some first)
    (bound : ∀ declared ∈ parameters ++ returns,
      ((state.facts.scopes.get? first).bind (·.get? declared.name)).any (·.isVariable) = true) :
    ((setting.checkHeader place function span name parameters returns).within environment).Resolves
      setting host? state first (parameters ++ returns) (first + 1) (first + 1) [] := by
  have named : Stays place (setting.checkFunctionName place name span) :=
    Walk.only_bind (Walk.only_require _ _) fun _ => local_checks.checkName _ _
  rw [checkHeader_eq, within_bind]
  apply (Resolves.within inside named first (first + 1)).nil_bind (Nat.le_refl _) (Nat.le_refl _)
  intro _ middle _ scoping completes
  have insideMiddle := inside.of_completes scoping completes (Nat.lt_succ_of_lt below) (.inr rfl)
  have scopeOf : middle.facts.scopeOf? = state.facts.scopeOf? := congrArg Scoping.scopeOf? scoping
  have scopes : middle.facts.scopes = state.facts.scopes := congrArg Scoping.forest scoping
  have ownedMiddle := scopeOf ▸ owned
  rw [within_bind]
  apply (resolves_hasScope (Option.isSome_of_eq_some ownedMiddle) first (first + 1)).nil_bind
    (Nat.le_refl _) (Nat.le_refl _)
  intro hasScope _ ran _ _
  cases ran
  rw [Option.isSome_of_eq_some ownedMiddle]
  refine resolves_forM (fun other =>
    other.Inside place id environment ∧ other.facts.scoping = middle.facts.scoping) ?_ ?_
    ⟨insideMiddle, rfl⟩
  · intro declared member other good
    rw [checkParameter, within_bind]
    apply (Resolves.within good.1 (local_checks.checkVariable declared) first
      (first + 1)).nil_bind (Nat.le_refl _) (Nat.le_refl _)
    intro _ last _ same _
    have sameScopeOf : last.facts.scopeOf? = middle.facts.scopeOf? :=
      congrArg Scoping.scopeOf? (same.trans good.2)
    have sameScopes : last.facts.scopes = state.facts.scopes :=
      congrArg Scoping.forest ((same.trans good.2).trans scoping)
    apply (resolves_activate (sameScopeOf ▸ ownedMiddle) (sameScopes ▸ bound declared member)
      _).bind_nil (Nat.le_refl _) (Nat.le_refl _)
    intro _ _ _ _ _
    exact Resolves.pure _ _
  · intro declared other after good same done
    exact ⟨good.1.of_completes same done (Nat.lt_succ_of_lt below) (.inl below),
      same.trans good.2⟩

/-! ### Blocks -/

/-- The scope of a frame that was opened is described by it. -/
theorem describes_toScope {frame : Frame} {id : Nat} (distinct : frame.names.Nodup)
    {outer? : Option ScopeId}
    (active : ∀ name, (id, name) ∈ state.active ↔ frame.isComplete name = true) :
    frame.Describes state id (frame.toScope outer?) where
  isFunction := rfl
  get name := List.lookup_reverse distinct name
  active := active

/-- The variables of a frame are bound in a scope with the same bindings. -/
theorem bound_of_get {frame : Frame} {id : Nat} {scope : Scope}
    (present : state.facts.scopes.get? id = some scope)
    (get : ∀ name, scope.get? name = frame.binding? name) (distinct : frame.names.Nodup)
    {declared : Variable} (member : declared.binding ∈ frame.bindings) :
    ((state.facts.scopes.get? id).bind (·.get? declared.name)).any (·.isVariable) = true := by
  have found : frame.binding? declared.name = some (.variable declared.type) :=
    List.lookup_of_mem distinct member
  rw [present, Option.bind_some, get, found]
  rfl

/-- The variables of the next statement of a block are bound in its scope. -/
theorem bound_of_awaits {id : ScopeId} {statement : Statement}
    (inside : state.Inside place id environment) (awaits : environment.Awaits statement)
    {declared : Variable} (member : declared ∈ statement.locals) :
    ((state.facts.scopes.get? id).bind (·.get? declared.name)).any (·.isVariable) = true := by
  obtain ⟨before, rest, outer, rfl, distinct⟩ := awaits
  have isBound : declared.binding ∈
      (Frame.block (before.reverse ++ statement :: rest) before).bindings :=
    List.mem_append_right _ (List.mem_flatMap.mpr
      ⟨statement, List.mem_append_right _ List.mem_cons_self, List.mem_map_of_mem member⟩)
  cases inside.describes with
  | inside present described _ _ =>
    exact bound_of_get present described.get distinct isBound

theorem run_enterBlock (block : Block)
    (owned : (state.facts.scopeOf? (.block block.id)).isSome = true) :
    (enterBlock place block).run host? state =
      .ok (.ok { place with block := block.id }, state) := by
  rw [enterBlock, Walk.run_bind, Run.bind_apply, Walk.run_ask]
  show ((Walk.require (state.facts.scopeOf? (.block block.id)).isSome _ >>= fun _ =>
    Pure.pure _ : Walk Place).run host?) state = _
  rw [owned]
  rfl

theorem resolves_enterBlock (block : Block)
    (owned : (state.facts.scopeOf? (.block block.id)).isSome = true) (id first : Nat) :
    ((enterBlock place block).within environment).Resolves setting host? state id [] first first
      [] := by
  rw [enterBlock, within_bind]
  apply (resolves_hasScope owned id first).nil_bind (Nat.le_refl _) (Nat.le_refl _)
  intro hasScope after ran _ _
  cases ran
  rw [owned]
  exact Resolves.pure _ _

/-- Behind a statement its variables are complete. -/
theorem inside_behind {id first stop : Nat} {after : RunState σ} {all before : List Statement}
    {outer : Environment} {statement : Statement}
    (inside : state.Inside place id (.block all before :: outer)) (below : id < first)
    (scoping : after.facts.scoping = state.facts.scoping)
    (completes : state.Completes after id statement.locals first stop) :
    after.Inside place id (.block all (statement :: before) :: outer) := by
  obtain ⟨owned, describes⟩ := inside
  have scopeOf : after.facts.scopeOf? = state.facts.scopeOf? := congrArg Scoping.scopeOf? scoping
  have scopes : after.facts.scopes = state.facts.scopes := congrArg Scoping.forest scoping
  refine ⟨scopeOf ▸ owned, ?_⟩
  cases describes with
  | inside present described ordered around =>
    refine .inside (scopes ▸ present) ⟨described.isFunction, described.get, ?_⟩ ordered
      (around.of_completes scoping completes ?_)
    · intro name
      rw [completes id name (.inl below), described.active name, Frame.isComplete,
        Frame.isComplete, List.any_cons, Bool.or_eq_true, or_comm]
      simp only [true_and]
    · intro parent isParent
      have less : parent < id := ordered parent isParent
      exact ⟨Nat.lt_trans less below, .inl less⟩

/-- Behind a block all of its variables are complete. -/
theorem inside_behind_block (place : Place) {block : Block} {first stop : Nat} {after : RunState σ}
    {scope? : Option ScopeId} (describes : environment.Describes state scope?)
    (around : ∀ id : Nat, scope? = some id → id < first)
    (ahead : state.Ahead first block.frames (block.scopes scope? first))
    (scoping : after.facts.scoping = state.facts.scoping)
    (completes : state.Completes after first (block.statements.flatMap (·.locals)) (first + 1)
      stop) :
    after.Inside { place with block := block.id } first
      (.block block.statements block.statements.reverse :: environment) := by
  have scopeOf : after.facts.scopeOf? = state.facts.scopeOf? := congrArg Scoping.scopeOf? scoping
  have scopes : after.facts.scopes = state.facts.scopes := congrArg Scoping.forest scoping
  let frame := Frame.block block.statements block.statements.reverse
  have head : (block.frames.map (·.1))[0]? = some (.block block.id) := by
    cases block
    rfl
  have owned : state.facts.scopeOf? (.block block.id) = some first := ahead.numbers.scopeOf 0 head
  have present : state.facts.scopes.get? first = some (frame.toScope scope?) :=
    ahead.numbers.get 0 (by
      cases block
      rfl)
  have distinct : frame.names.Nodup := by
    apply ahead.once (.block block.id, .block block.statements [])
    cases block
    exact List.mem_cons_self
  refine ⟨scopeOf ▸ owned, .inside (scopes ▸ present) (describes_toScope distinct ?_) around ?_⟩
  · intro name
    have isFresh := ahead.fresh name (Nat.le_refl _) (block.lt_add_frames first)
    rw [completes first name (.inl (Nat.lt_succ_self _))]
    simp only [isFresh, false_or, true_and, frame, Frame.isComplete, List.any_reverse,
      List.any_flatMap]
  · apply describes.of_completes scoping completes
    intro id same
    exact ⟨Nat.lt_succ_of_lt (around id same), .inl (around id same)⟩

mutual

theorem resolves_block (block : Block) {environment : Environment} {place : Place} {first : Nat}
    {state : RunState σ} {scope? : Option ScopeId}
    (describes : environment.Describes state scope?)
    (around : ∀ id : Nat, scope? = some id → id < first)
    (ahead : state.Ahead first block.frames (block.scopes scope? first)) :
    (setting.lexicalBlock environment place block).Resolves setting host? state first
      (block.statements.flatMap (·.locals)) (first + 1) (first + block.frames.length)
      (block.points environment place.inLoop place.inFunction) := by
  cases block with
  | mk id span statements =>
    have frames : (Block.mk id span statements).frames =
        [(.block id, .block statements [])] ++ statementFrames statements := rfl
    have scopes : (Block.mk id span statements).scopes scope? first =
        [(Frame.block statements []).toScope scope?] ++
          statementScopes first (first + 1) statements := rfl
    rw [frames, scopes] at ahead
    have distinct : (Frame.block statements []).names.Nodup :=
      ahead.once _ (List.mem_append_left _ (List.mem_singleton_self _))
    have owned : state.facts.scopeOf? (.block id) = some first :=
      ahead.numbers.scopeOf 0 rfl
    have present : state.facts.scopes.get? first =
        some ((Frame.block statements []).toScope scope?) := ahead.numbers.get 0 rfl
    have described : (Frame.block statements []).Describes state first
        ((Frame.block statements []).toScope scope?) := by
      apply describes_toScope distinct
      intro name
      have isFresh := ahead.fresh name (Nat.le_refl _) (by simp)
      exact ⟨fun isActive => absurd isActive isFresh, nofun⟩
    have inside : state.Inside { place with block := id } first
        (.block statements [] :: environment) :=
      ⟨owned, .inside present described around describes⟩
    have isOwned := Option.isSome_of_eq_some owned
    rw [lexicalBlock, Block.points, frames, List.length_append, List.length_singleton,
      ← Nat.add_assoc]
    apply (resolves_enterBlock setting (.mk id span statements) isOwned first
      (first + 1)).nil_bind (Nat.le_refl _) (Nat.le_add_right _ _)
    intro result after ran _ _
    rw [erase_within, run_enterBlock (.mk id span statements) isOwned] at ran
    cases ran
    exact resolves_statements statements inside distinct rfl (Nat.lt_succ_self _) (ahead.right rfl)

theorem resolves_statements (statements : List Statement) {outer : Environment}
    {all before : List Statement} {place : Place} {id first : Nat} {state : RunState σ}
    (inside : state.Inside place id (.block all before :: outer))
    (distinct : (Frame.block all before).names.Nodup) (split : before.reverse ++ statements = all)
    (below : id < first)
    (ahead : state.Ahead first (statementFrames statements)
      (statementScopes id first statements)) :
    (setting.lexicalStatements outer all before place statements).Resolves setting host? state id
      (statements.flatMap (·.locals)) first (first + (statementFrames statements).length)
      (statementPoints outer place.inLoop place.inFunction all before statements) := by
  cases statements with
  | nil => exact Resolves.pure _ _
  | cons statement rest =>
    rw [statementFrames, statementScopes] at ahead
    rw [lexicalStatements, statementPoints, statementFrames, List.length_append, ← Nat.add_assoc,
      List.flatMap_cons]
    subst split
    apply (resolves_statement statement inside ⟨before, rest, outer, rfl, distinct⟩ below
      ahead.left).bind
      (Nat.le_add_right _ _) (Nat.le_add_right _ _)
    intro _ after _ scoping completes
    have later := (ahead.right (Statement.length_scopes _ _ _)).of_completes scoping completes
      (Nat.lt_of_lt_of_le below (Nat.le_add_right _ _)) (Nat.le_refl _)
    exact resolves_statements rest (inside_behind inside below scoping completes) distinct
      (by rw [List.reverse_cons, List.append_assoc, List.singleton_append])
      (Nat.lt_of_lt_of_le below (Nat.le_add_right _ _)) later

theorem resolves_statement (statement : Statement) {environment : Environment} {place : Place}
    {id first : Nat} {state : RunState σ} (inside : state.Inside place id environment)
    (awaits : environment.Awaits statement) (below : id < first)
    (ahead : state.Ahead first statement.frames (statement.scopes id first)) :
    (setting.lexicalStatement environment place statement).Resolves setting host? state id
      statement.locals first (first + statement.frames.length)
      (statement.points environment place.inLoop place.inFunction) := by
  cases statement with
  | expression span expression =>
    exact (Resolves.within inside (setting.stays_checkEffect span expression) id first).visit rfl
      inside fun _ => awaits
  | assignment span targets value =>
    exact (Resolves.within inside (setting.stays_checkAssignment span targets value) id
      first).visit rfl inside fun _ => awaits
  | declaration span locals value? =>
    exact (setting.resolves_checkDeclaration inside (fun _ => bound_of_awaits inside awaits)
      first).visit rfl inside fun _ => awaits
  | function function span name parameters returns body =>
    have frames : (Statement.function function span name parameters returns body).frames =
        [(.function function, .function parameters returns)] ++ body.frames := rfl
    have scopes : (Statement.function function span name parameters returns body).scopes id first =
        [(Frame.function parameters returns).toScope (some id)] ++
          body.scopes (some first) (first + 1) := rfl
    rw [frames, scopes] at ahead
    have distinct : (Frame.function parameters returns).names.Nodup :=
      ahead.once _ (List.mem_append_left _ (List.mem_singleton_self _))
    have owned : state.facts.scopeOf? (.function function) = some first :=
      ahead.numbers.scopeOf 0 rfl
    have present : state.facts.scopes.get? first =
        some ((Frame.function parameters returns).toScope (some id)) :=
      ahead.numbers.get 0 rfl
    have isBound : ∀ declared ∈ parameters ++ returns,
        ((state.facts.scopes.get? first).bind (·.get? declared.name)).any (·.isVariable) =
          true := by
      intro declared member
      exact bound_of_get present (List.lookup_reverse distinct) distinct
        (List.mem_map_of_mem member)
    have header := setting.resolves_checkHeader host? span name inside below owned isBound
    rw [Statement.points, frames, List.length_append, List.length_singleton, ← Nat.add_assoc]
    refine .visit ?_ rfl inside fun _ => awaits
    rw [lexicalStatement]
    refine (header.bind_nil (Nat.le_refl _) (Nat.le_add_right _ _) ?_).hide (by omega) id
    intro _ after _ scoping completes
    have scopesAfter : after.facts.scopes = state.facts.scopes := congrArg Scoping.forest scoping
    have around := inside.describes.of_completes scoping completes
      fun outer same => ⟨Nat.lt_succ_of_lt (lt_of_some_eq below outer same),
        .inl (lt_of_some_eq below outer same)⟩
    have describes : Environment.Describes after (.function parameters returns :: environment)
        (some first) := by
      refine .inside (scopesAfter ▸ present) (describes_toScope distinct fun name => ?_)
        (lt_of_some_eq below) around
      have isFresh := ahead.fresh name (Nat.le_refl _) (by simp)
      rw [completes first name (.inl (Nat.lt_succ_self _))]
      simp only [isFresh, false_or, true_and, Frame.isComplete]
    have later := (ahead.right rfl).of_completes scoping completes (Nat.lt_succ_self _)
      (Nat.le_refl _)
    exact (resolves_block body describes (lt_of_some_eq (Nat.lt_succ_self _)) later).hide
      (body.lt_add_frames _) first
  | conditional span condition body =>
    rw [Statement.points]
    refine .visit ?_ rfl inside fun _ => awaits
    apply (Resolves.within inside (setting.stays_checkCondition condition) id first).nil_bind
      (Nat.le_refl _) (Nat.le_add_right _ _)
    intro _ after _ scoping completes
    have insideAfter := inside.of_completes scoping completes below (.inr rfl)
    have aheadAfter := ahead.of_completes scoping completes below (Nat.le_refl _)
    exact (resolves_block body insideAfter.describes (lt_of_some_eq below) aheadAfter).hide
      (body.lt_add_frames first) id
  | switch span scrutinee cases =>
    rw [Statement.points]
    refine .visit ?_ rfl inside fun _ => awaits
    rw [lexicalStatement]
    apply (Resolves.within inside (local_checks.expect _ _ (Walk.only_pure _)) id first).nil_bind
      (Nat.le_refl _) (Nat.le_add_right _ _)
    intro _ middle _ scoping completes
    have insideMiddle := inside.of_completes scoping completes below (.inr rfl)
    have aheadMiddle := ahead.of_completes scoping completes below (Nat.le_refl _)
    apply (Resolves.within insideMiddle (setting.stays_checkSingle scrutinee) id first).nil_bind
      (Nat.le_refl _) (Nat.le_add_right _ _)
    intro type after _ scoping completes
    exact resolves_cases cases (insideMiddle.of_completes scoping completes below (.inr rfl)) below
      (aheadMiddle.of_completes scoping completes below (Nat.le_refl _))
  | loop loop span pre condition post body =>
    have frames : (Statement.loop loop span pre condition post body).frames =
        pre.frames ++ body.frames ++ post.frames := rfl
    rw [frames, Statement.scopes] at ahead
    have aheadPre := ahead.left.left
    have aheadBody := ahead.left.right (Block.length_scopes _ _ _)
    have aheadPost := ahead.right (by
      rw [List.length_append, List.length_append, Block.length_scopes, Block.length_scopes])
    have inPre := pre.lt_add_frames first
    have inBody := body.lt_add_frames (first + pre.frames.length)
    have inPost := post.lt_add_frames (first + pre.frames.length + body.frames.length)
    rw [List.length_append, ← Nat.add_assoc] at aheadPost
    rw [frames, List.length_append, List.length_append, ← Nat.add_assoc, ← Nat.add_assoc]
    let behind := .block pre.statements pre.statements.reverse :: environment
    let point : Point :=
      ⟨behind, place.inLoop, place.inFunction, .loop loop span pre condition post body⟩
    have points : (Statement.loop loop span pre condition post body).points environment place.inLoop
        place.inFunction = pre.points environment false place.inFunction ++
          ([point] ++ (body.points behind true place.inFunction ++
            post.points behind false place.inFunction)) := List.append_assoc _ _ _
    rw [points]
    -- Everything from the pre block on is seen from its scope.
    suffices whole : (setting.lexicalStatement environment place
        (.loop loop span pre condition post body)).Resolves setting host? state first
          (pre.statements.flatMap (·.locals)) (first + 1)
          (first + pre.frames.length + body.frames.length + post.frames.length)
          (pre.points environment false place.inFunction ++
            ([point] ++ (body.points behind true place.inFunction ++
              post.points behind false place.inFunction))) from
      whole.hide (by omega) id
    rw [lexicalStatement]
    apply (resolves_block pre inside.describes (lt_of_some_eq below) aheadPre).bind_nil inPre
      (by omega)
    intro _ behindPre _ scoping completes
    have insidePre := inside_behind_block { place with inLoop := false } inside.describes
      (lt_of_some_eq below) aheadPre scoping completes
    have bodyBehindPre := aheadBody.of_completes scoping completes inPre (Nat.le_refl _)
    have postBehindPre := aheadPost.of_completes scoping completes (by omega) (by omega)
    have ownedPre := Option.isSome_of_eq_some insidePre.owned
    apply (resolves_enterBlock setting pre ownedPre first _).nil_bind (Nat.le_refl _) (by omega)
    intro result entered ran _ _
    rw [erase_within, run_enterBlock pre ownedPre] at ran
    cases ran
    have atCondition : ((setting.checkCondition ⟨pre.id, false, place.inFunction⟩ condition).within
        behind).Resolves setting host? behindPre first [] (first + pre.frames.length)
          (first + pre.frames.length) [point] :=
      (Resolves.within insidePre (setting.stays_checkCondition condition) first _).visit rfl insidePre
        (absurd rfl)
    apply atCondition.pass_bind (Nat.le_refl _) (by omega)
    intro _ behindCondition _ scoping completes
    have insideCondition := insidePre.of_completes scoping completes inPre (.inr rfl)
    have bodyBehindCondition := bodyBehindPre.of_completes scoping completes inPre (Nat.le_refl _)
    have postBehindCondition := postBehindPre.of_completes scoping completes (by omega) (by omega)
    apply ((resolves_block body insideCondition.describes (lt_of_some_eq inPre)
      bodyBehindCondition).hide inBody first).pass_bind (Nat.le_of_lt inBody) (Nat.le_of_lt inPost)
    intro _ behindBody _ scoping completes
    have insideBody := insideCondition.of_completes scoping completes inPre (.inr rfl)
    have postBehindBody := postBehindCondition.of_completes scoping completes (by omega) (Nat.le_refl _)
    exact (resolves_block post insideBody.describes (lt_of_some_eq (by omega))
      postBehindBody).hide inPost first
  | block block =>
    exact (resolves_block block inside.describes (lt_of_some_eq below) ahead).hide
      (block.lt_add_frames first) id
  | «break» span =>
    exact (Resolves.within inside (local_checks.expect _ _ (Walk.only_pure _)) id first).visit rfl
      inside fun _ => awaits
  | «continue» span =>
    exact (Resolves.within inside (local_checks.expect _ _ (Walk.only_pure _)) id first).visit rfl
      inside fun _ => awaits
  | leave span =>
    exact (Resolves.within inside (local_checks.expect _ _ (Walk.only_pure _)) id first).visit rfl
      inside fun _ => awaits

theorem resolves_cases (cases : List Case) {environment : Environment} {place : Place}
    {type : TypeHandle} {values : List Word} {id first : Nat} {state : RunState σ}
    (inside : state.Inside place id environment) (below : id < first)
    (ahead : state.Ahead first (caseFrames cases) (caseScopes id first cases)) :
    (setting.lexicalCases environment place type values cases).Resolves setting host? state id []
      first (first + (caseFrames cases).length)
      (casePoints environment place.inLoop place.inFunction cases) := by
  cases cases with
  | nil => exact Resolves.pure _ _
  | cons case rest =>
    cases case with
    | mk span value? body =>
      rw [caseFrames, caseScopes] at ahead
      rw [lexicalCases.eq_def, casePoints, caseFrames, List.length_append, ← Nat.add_assoc]
      dsimp only
      have stays : Stays place (match value? with
          | some literal => setting.checkCaseValue place type values span literal
          | none => pure values : Walk (List Word)) := by
        cases value? with
        | none => exact Walk.only_pure _
        | some literal => exact local_checks.checkCaseValue _ _ _ _
      apply (Resolves.within inside stays id first).nil_bind (Nat.le_refl _) (by omega)
      intro _ middle _ scoping completes
      have insideMiddle := inside.of_completes scoping completes below (.inr rfl)
      have aheadMiddle := ahead.of_completes scoping completes below (Nat.le_refl _)
      apply ((resolves_block body insideMiddle.describes (lt_of_some_eq below)
        aheadMiddle.left).hide (body.lt_add_frames first) id).pass_bind
        (Nat.le_add_right _ _) (Nat.le_add_right _ _)
      intro _ after _ scoping completes
      exact resolves_cases rest (insideMiddle.of_completes scoping completes below (.inr rfl))
        (Nat.lt_of_lt_of_le below (Nat.le_add_right _ _))
        ((aheadMiddle.right (Block.length_scopes _ _ _)).of_completes scoping completes
          (Nat.lt_of_lt_of_le below (Nat.le_add_right _ _)) (Nat.le_refl _))

end

/-! ### Programs -/

section

variable {σ : Type} (setting : Setting) (host? : Option (Host σ)) (place : Place) (block : Block)
  {state : RunState σ} {facts : Facts}

/-- Where the scopes of a block are those that its declarations ask for, the walk over it resolves all
names and comes to all points. -/
theorem resolves_lexicalBlock (distinct : block.owners.Nodup) (once : block.DeclaresOnce)
    (earlier : ∀ entry ∈ state.active, entry.1 < state.facts.scopes.size)
    (scoping : facts.scoping = state.facts.scoping.append
      (block.scopes none state.facts.scopes.size) block.owners) :
    (setting.lexicalBlock [] place block).Resolves setting host? { state with facts }
      state.facts.scopes.size (block.statements.flatMap (·.locals)) (state.facts.scopes.size + 1)
      (state.facts.scopes.size + block.frames.length)
      (block.points [] place.inLoop place.inFunction) := by
  have ahead : RunState.Ahead { state with facts } state.facts.scopes.size block.frames
      (block.scopes none state.facts.scopes.size) := by
    refine ⟨?_, once, ?_⟩
    · show facts.scoping.Numbers _ _ _
      rw [scoping]
      exact Scoping.Numbers.of_append _ _ distinct
    · intro id name notBefore _ isActive
      have below : id < state.facts.scopes.size := earlier _ isActive
      omega
  exact resolves_block setting block .outermost nofun ahead

/-- Where the scopes of a block are those that its declarations ask for, everything that the walk
over it looks up is what its environments say. -/
theorem agrees_lexicalBlock (distinct : block.owners.Nodup) (once : block.DeclaresOnce)
    (earlier : ∀ entry ∈ state.active, entry.1 < state.facts.scopes.size)
    (scoping : facts.scoping = state.facts.scoping.append
      (block.scopes none state.facts.scopes.size) block.owners) :
    (setting.lexicalBlock [] place block).Agrees host? { state with facts } :=
  (setting.resolves_lexicalBlock host? place block distinct once earlier scoping).agrees

end

/-- Once the declarations of a block were entered without an error, outside of all other scopes as every
check enters them, its statements are checked as by a walk that carries an explicit stack of environments:
whatever the program and its host do, every name refers to what the environment at its point says, and the
variables that can be used are those whose declarations are complete there. -/
theorem resolves_lexically {σ : Type} (setting : Setting) (host? : Option (Host σ)) (place : Place)
    (block : Block) {state entered : RunState σ} (outermost : state.around = [])
    (distinct : block.owners.Nodup)
    (earlier : ∀ entry ∈ state.active, entry.1 < state.facts.scopes.size)
    (ran : (setting.enterDeclarations place block).run host? state = .ok (.ok true, entered)) :
    (setting.lexicalBlock [] place block).erase = setting.checkBlock place block ∧
      (setting.lexicalBlock [] place block).Agrees host? entered := by
  refine ⟨setting.erase_lexicalBlock [] place block, ?_⟩
  obtain ⟨once, facts, rfl, scoping⟩ := setting.entered_of_run place outermost distinct ran
  exact setting.agrees_lexicalBlock host? place block distinct once earlier scoping

/-- In `{ let y  function f(p) { for { let x := p } x { x := p } { y := x  w := x }  let w } }` the loop
sees the variable of its pre block and the parameter; it does not see `y`, which is outside of the
function, and `w` is declared only behind it. -/
theorem resolves_lexically_in_loop :
    let names := ["x", "y", "w", "f", "p"].foldl (fun names label => (names.define label).2)
      (NameTable.ofDialect .generic)
    let setting : Setting := .ofNames names []
    let declared (id : NodeId) (name : Nat) : Variable :=
      ⟨id, .none, ⟨name⟩, names.predefined.boolType⟩
    let use (id : NodeId) (name : Nat) : Identifier := ⟨id, .none, ⟨name⟩⟩
    let set (id : NodeId) (target value : Nat) : Statement :=
      .assignment .none [use id target] (.identifier (use (id + 1) value))
    let loop : Statement := .loop 7 .none
      (.mk 4 .none [.declaration .none [declared 8 24] (some (.identifier (use 9 28)))])
      (.identifier (use 10 24)) (.mk 5 .none [set 11 24 28]) (.mk 6 .none [set 13 25 24, set 15 26 24])
    let block : Block := .mk 1 .none
      [.declaration .none [declared 17 25] none,
        .function 2 .none ⟨27⟩ [declared 18 28] []
          (.mk 3 .none [loop, .declaration .none [declared 19 26] none])]
    let place : Place := ⟨1, false, false⟩
    let state : RunState Unit := ⟨.unlimited, {}, (), [], [], false, false⟩
    ∃ entered after,
      (setting.enterDeclarations place block).run none state = .ok (.ok true, entered) ∧
      (setting.lexicalBlock [] place block).erase.run none entered = .ok (.ok (), after) ∧
      after.reporter.diagnostics.toList =
        [Finding.targetNotFound.toDiagnostic .none,
          (Finding.assignedBeforeDeclaration "w").toDiagnostic .none] ∧
      (setting.lexicalBlock [] place block).Agrees none entered := by
  intro names setting declared use set loop block place state
  obtain ⟨enters, checks⟩ :
      ((setting.enterDeclarations place block).run none state).map (·.1) = .ok (.ok true) ∧
      ((setting.checkProgram place block).run none state).map
          (fun ended => (ended.1, ended.2.reporter.diagnostics.toList)) =
        .ok (.ok (), [Finding.targetNotFound.toDiagnostic .none,
          (Finding.assignedBeforeDeclaration "w").toDiagnostic .none]) := by
    decide +kernel
  obtain ⟨⟨_, entered⟩, enters, rfl⟩ := Except.map_eq_ok_iff.mp enters
  obtain ⟨⟨_, after⟩, checks, told⟩ := Except.map_eq_ok_iff.mp checks
  obtain ⟨rfl, told⟩ := Prod.mk.inj told
  obtain ⟨same, agrees⟩ := resolves_lexically setting none place block rfl
    (by decide : block.owners.Nodup) (List.forall_mem_nil _) enters
  obtain ⟨_, _, again, checked⟩ := Walk.run_bind_eq_ok_ok_iff.mp checks
  cases again.symm.trans enters
  exact ⟨entered, after, enters, same ▸ checked, told, agrees⟩

end Setting

end YulCheck
