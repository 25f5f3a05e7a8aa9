import YulCheck.Proofs.Lexical.Reached

/-! # Progress of a walk through the scopes

The scopes of a program are numbered in the order in which its frames are opened, so a walk over a
part of the program concerns a range of numbers. It completes the variables of the scopes in its
range, and besides only variables of the scope that it is in. `LexicalWalk.Resolves` tells that, and
that all names are found as the environments say, and which points of the program a run comes to.
-/

namespace YulCheck

variable {σ α β : Type}

/-! ### Scopes in a range -/

/-- Whether scopes, and the nodes that open them, have the numbers from `first` on. -/
structure Scoping.Numbers (scoping : Scoping) (first : Nat) (scopes : List Scope)
    (owners : List ScopeOwner) : Prop where
  get (position : Nat) {scope : Scope} (found : scopes[position]? = some scope) :
    scoping.forest.get? (first + position) = some scope
  scopeOf (position : Nat) {owner : ScopeOwner} (found : owners[position]? = some owner) :
    scoping.scopeOf? owner = some (first + position)

namespace Scoping.Numbers

variable {scoping : Scoping} {first : Nat}

/-- The scopes that are added have the next numbers. -/
theorem of_append (scoping : Scoping) (scopes : List Scope) {owners : List ScopeOwner}
    (distinct : owners.Nodup) :
    (scoping.append scopes owners).Numbers scoping.forest.size scopes owners where
  get position _ found := by
    rw [Scoping.append, ScopeForest.get?_append, if_neg (Nat.not_lt.mpr (Nat.le_add_right _ _)),
      Nat.add_sub_cancel_left]
    exact found
  scopeOf position _ found := Scoping.scopeOf?_append_of_getElem? _ _ distinct position found

theorem left {scopes rest : List Scope} {owners others : List ScopeOwner}
    (numbers : scoping.Numbers first (scopes ++ rest) (owners ++ others)) :
    scoping.Numbers first scopes owners where
  get position _ found :=
    numbers.get position
      (List.getElem?_append_left (List.getElem?_eq_some_iff.mp found).1 ▸ found)
  scopeOf position _ found :=
    numbers.scopeOf position
      (List.getElem?_append_left (List.getElem?_eq_some_iff.mp found).1 ▸ found)

theorem right {scopes rest : List Scope} {owners others : List ScopeOwner}
    (numbers : scoping.Numbers first (scopes ++ rest) (owners ++ others)) {length : Nat}
    (scopesLength : scopes.length = length) (ownersLength : owners.length = length) :
    scoping.Numbers (first + length) rest others where
  get position _ found := by
    rw [Nat.add_assoc]
    apply numbers.get _
    rw [List.getElem?_append_right (by omega), scopesLength, Nat.add_sub_cancel_left]
    exact found
  scopeOf position _ found := by
    rw [Nat.add_assoc]
    apply numbers.scopeOf _
    rw [List.getElem?_append_right (by omega), ownersLength, Nat.add_sub_cancel_left]
    exact found

end Scoping.Numbers

namespace RunState

variable {state after : RunState σ}

/-- Whether a part of a program is still ahead of a run: its scopes are there, without any complete
variable. -/
structure Ahead (state : RunState σ) (first : Nat) (frames : List (ScopeOwner × Frame))
    (scopes : List Scope) : Prop where
  numbers : state.facts.scoping.Numbers first scopes (frames.map (·.1))
  once (entry : ScopeOwner × Frame) (member : entry ∈ frames) : entry.2.names.Nodup
  fresh {id : Nat} (name : Handle) (notBefore : first ≤ id)
    (below : id < first + frames.length) : (id, name) ∉ state.active

/-- Whether a run completes variables of one scope, apart from what it does in a range of scopes. -/
def Completes (state after : RunState σ) (id : Nat) (locals : List Variable)
    (first stop : Nat) : Prop :=
  ∀ (scope : Nat) (name : Handle), scope < first ∨ stop ≤ scope →
    ((scope, name) ∈ after.active ↔
      (scope, name) ∈ state.active ∨ scope = id ∧ locals.any (·.name = name) = true)

theorem Completes.of_active (same : after.active = state.active) (id first stop : Nat) :
    state.Completes after id [] first stop := by
  intro scope name _
  rw [same]
  simp

theorem Completes.trans {middle : RunState σ} {id first between stop : Nat}
    {locals more : List Variable} (completes : state.Completes middle id locals first between)
    (continues : middle.Completes after id more between stop) (ordered : first ≤ between)
    (orderedRest : between ≤ stop) : state.Completes after id (locals ++ more) first stop := by
  intro scope name outside
  rw [continues scope name (by omega), completes scope name (by omega), List.any_append,
    Bool.or_eq_true, or_assoc, ← and_or_left]

/-- Seen from outside, a block completes nothing. -/
theorem Completes.hide {first stop : Nat} {locals : List Variable}
    (completes : state.Completes after first locals (first + 1) stop) (within : first < stop)
    (id : Nat) : state.Completes after id [] first stop := by
  intro scope name outside
  have different : scope ≠ first := by
    rintro rfl
    omega
  rw [completes scope name (by omega)]
  simp [different]

section

variable {first : Nat} {frames others : List (ScopeOwner × Frame)} {scopes rest : List Scope}

theorem Ahead.left (ahead : state.Ahead first (frames ++ others) (scopes ++ rest)) :
    state.Ahead first frames scopes where
  numbers := Scoping.Numbers.left (List.map_append ▸ ahead.numbers)
  once entry member := ahead.once entry (List.mem_append_left _ member)
  fresh name notBefore below := ahead.fresh name notBefore (by rw [List.length_append]; omega)

theorem Ahead.right (ahead : state.Ahead first (frames ++ others) (scopes ++ rest))
    (lengths : scopes.length = frames.length) :
    state.Ahead (first + frames.length) others rest where
  numbers := Scoping.Numbers.right (List.map_append ▸ ahead.numbers) lengths (List.length_map _)
  once entry member := ahead.once entry (List.mem_append_right _ member)
  fresh name notBefore below := ahead.fresh name (by omega) (by rw [List.length_append]; omega)

/-- What is ahead stays ahead while a run is busy elsewhere. -/
theorem Ahead.of_completes (ahead : state.Ahead first frames scopes) {id start stop : Nat}
    {locals : List Variable} (scoping : after.facts.scoping = state.facts.scoping)
    (completes : state.Completes after id locals start stop) (around : id < first)
    (behind : stop ≤ first) : after.Ahead first frames scopes where
  numbers := scoping ▸ ahead.numbers
  once := ahead.once
  fresh {scope} name notBefore below := by
    rw [completes scope name (.inr (Nat.le_trans behind notBefore))]
    rintro (isActive | ⟨rfl, _⟩)
    · exact ahead.fresh name notBefore below isActive
    · omega

end

end RunState

namespace Environment

variable {state after : RunState σ} {environment : Environment}

/-- An environment keeps describing a scope while a run is busy in later scopes. -/
theorem Describes.of_completes {scope? : Option ScopeId}
    (describes : environment.Describes state scope?) {id first stop : Nat}
    {locals : List Variable} (scoping : after.facts.scoping = state.facts.scoping)
    (completes : state.Completes after id locals first stop)
    (around : ∀ scope : Nat, scope? = some scope → scope < first ∧ (scope < id ∨ locals = [])) :
    environment.Describes after scope? := by
  apply describes.of_same (congrArg Scoping.forest scoping)
  intro scope same other name notAfter
  obtain ⟨below, apart⟩ := around scope same
  rw [completes other name (.inl (Nat.lt_of_le_of_lt notAfter below))]
  rcases apart with less | rfl
  · have different : other ≠ id := by
      rintro rfl
      exact Nat.lt_irrefl _ (Nat.lt_of_le_of_lt notAfter less)
    simp [different]
  · simp

end Environment

/-- A point stays described while a run is busy in later scopes. -/
theorem RunState.Inside.of_completes {state after : RunState σ} {place : Place} {here : Nat}
    {environment : Environment} (inside : state.Inside place here environment)
    {id first stop : Nat} {locals : List Variable}
    (scoping : after.facts.scoping = state.facts.scoping)
    (completes : state.Completes after id locals first stop) (below : here < first)
    (apart : here < id ∨ locals = []) : after.Inside place here environment where
  owned := by
    have scopeOf : after.facts.scopeOf? = state.facts.scopeOf? :=
      congrArg Scoping.scopeOf? scoping
    exact scopeOf ▸ inside.owned
  describes := inside.describes.of_completes scoping completes fun scope same => by
    cases same
    exact ⟨below, apart⟩

/-! ### Walks that resolve names -/

/-- Whether a walk finds all names as its environments say, completes the variables of a scope and of
the scopes in a range, and comes to points of a program. -/
structure LexicalWalk.Resolves (walk : LexicalWalk α) (setting : Setting) (host? : Option (Host σ))
    (state : RunState σ) (id : Nat) (locals : List Variable) (first stop : Nat)
    (points : List Point) : Prop where
  agrees : walk.Agrees host? state
  scoping {result : α} {after : RunState σ}
    (ran : walk.erase.run host? state = .ok (.ok result, after)) :
    after.facts.scoping = state.facts.scoping
  completes {result : α} {after : RunState σ}
    (ran : walk.erase.run host? state = .ok (.ok result, after)) :
    state.Completes after id locals first stop
  arrives {result : α} {after : RunState σ}
    (ran : walk.erase.run host? state = .ok (.ok result, after)) :
    setting.Arrives host? points walk.erase state

namespace LexicalWalk

variable {setting : Setting} {host? : Option (Host σ)} {state : RunState σ} {id : Nat}
  {points others : List Point}

theorem Resolves.bind {walk : LexicalWalk α} {next : α → LexicalWalk β}
    {first between stop : Nat} {locals more : List Variable}
    (resolves : walk.Resolves setting host? state id locals first between points)
    (ordered : first ≤ between) (orderedRest : between ≤ stop)
    (rest : ∀ result after, walk.erase.run host? state = .ok (.ok result, after) →
      after.facts.scoping = state.facts.scoping →
      state.Completes after id locals first between →
      (next result).Resolves setting host? after id more between stop others) :
    (walk >>= next).Resolves setting host? state id (locals ++ more) first stop
      (points ++ others) := by
  have later {result after} (ran : walk.erase.run host? state = .ok (.ok result, after)) :=
    rest result after ran (resolves.scoping ran) (resolves.completes ran)
  refine ⟨agrees_bind resolves.agrees fun result after ran => (later ran).agrees, ?_, ?_, ?_⟩
  all_goals
    intro result after ran
    rw [erase_bind] at ran
    obtain ⟨value, middle, ranFirst, ranRest⟩ := Walk.run_bind_eq_ok_ok_iff.mp ran
  · exact ((later ranFirst).scoping ranRest).trans (resolves.scoping ranFirst)
  · exact (resolves.completes ranFirst).trans ((later ranFirst).completes ranRest) ordered
      orderedRest
  · rw [erase_bind]
    exact .append (.first (resolves.arrives ranFirst))
      (.next ranFirst ((later ranFirst).arrives ranRest))

/-- The first part completes nothing, and comes to no point. -/
theorem Resolves.nil_bind {walk : LexicalWalk α} {next : α → LexicalWalk β}
    {first between stop : Nat} {locals : List Variable}
    (resolves : walk.Resolves setting host? state id [] first between [])
    (ordered : first ≤ between) (orderedRest : between ≤ stop)
    (rest : ∀ result after, walk.erase.run host? state = .ok (.ok result, after) →
      after.facts.scoping = state.facts.scoping → state.Completes after id [] first between →
      (next result).Resolves setting host? after id locals between stop points) :
    (walk >>= next).Resolves setting host? state id locals first stop points :=
  resolves.bind ordered orderedRest rest

/-- The first part completes nothing. -/
theorem Resolves.pass_bind {walk : LexicalWalk α} {next : α → LexicalWalk β}
    {first between stop : Nat} {locals : List Variable}
    (resolves : walk.Resolves setting host? state id [] first between points)
    (ordered : first ≤ between) (orderedRest : between ≤ stop)
    (rest : ∀ result after, walk.erase.run host? state = .ok (.ok result, after) →
      after.facts.scoping = state.facts.scoping → state.Completes after id [] first between →
      (next result).Resolves setting host? after id locals between stop others) :
    (walk >>= next).Resolves setting host? state id locals first stop (points ++ others) :=
  resolves.bind ordered orderedRest rest

/-- The second part completes nothing. -/
theorem Resolves.bind_nil {walk : LexicalWalk α} {next : α → LexicalWalk β}
    {first between stop : Nat} {locals : List Variable}
    (resolves : walk.Resolves setting host? state id locals first between points)
    (ordered : first ≤ between) (orderedRest : between ≤ stop)
    (rest : ∀ result after, walk.erase.run host? state = .ok (.ok result, after) →
      after.facts.scoping = state.facts.scoping →
      state.Completes after id locals first between →
      (next result).Resolves setting host? after id [] between stop others) :
    (walk >>= next).Resolves setting host? state id locals first stop (points ++ others) :=
  List.append_nil locals ▸ resolves.bind ordered orderedRest rest

theorem Resolves.pure (result : α) (first : Nat) :
    (Pure.pure result : LexicalWalk α).Resolves setting host? state id [] first first [] := by
  refine ⟨trivial, ?_, ?_, fun _ => .nil⟩
  · intro value after ran
    cases ran
    rfl
  · intro value after ran
    cases ran
    exact RunState.Completes.of_active rfl _ _ _

/-- Seen from outside, a block completes nothing. -/
theorem Resolves.hide {walk : LexicalWalk α} {first stop : Nat} {locals : List Variable}
    (resolves : walk.Resolves setting host? state first locals (first + 1) stop points)
    (within : first < stop) (id : Nat) :
    walk.Resolves setting host? state id [] first stop points :=
  ⟨resolves.agrees, resolves.scoping, fun ran => (resolves.completes ran).hide within id,
    resolves.arrives⟩

/-- What stays at a place completes no declarations. -/
theorem Resolves.within {environment : Environment} {place : Place} {walk : Walk α}
    (inside : state.Inside place id environment) (isLocal : walk.Only (·.IsLocal place))
    (scope first : Nat) :
    (walk.within environment).Resolves setting host? state scope [] first first [] := by
  have stays : walk.Only (·.StaysIn place.block) := isLocal.imp fun _ allowed => allowed.staysIn
  refine ⟨agrees_within stays fun request allowed => inside.answers allowed, ?_, ?_, fun _ => .nil⟩
  · intro result after ran
    rw [erase_within] at ran
    exact Walk.run_keeps (·.facts.scoping)
      (fun _ _ _ _ allowed => Run.scoping_of_answer allowed.keepsScopes) stays ran
  · intro result after ran
    rw [erase_within] at ran
    refine RunState.Completes.of_active ?_ _ _ _
    exact Walk.run_keeps (·.active)
      (fun _ _ _ _ allowed => Run.active_of_answer allowed) stays ran

/-- Where a walk starts with a point, it comes to the point first. -/
theorem Resolves.visit {walk : LexicalWalk Unit} {point : Point} {place : Place}
    {here first stop : Nat} {locals : List Variable}
    (resolves : walk.Resolves setting host? state id locals first stop points)
    (isPoint : walk = setting.lexicalPoint point.environment place point.statement)
    (inside : state.Inside place here point.environment)
    (awaits : point.statement.locals ≠ [] → point.environment.Awaits point.statement) :
    walk.Resolves setting host? state id locals first stop (point :: points) := by
  refine { resolves with arrives := fun ran => List.forall_mem_cons.mpr ⟨?_, resolves.arrives ran⟩ }
  refine ⟨place, here, state, ?_, inside, isPoint ▸ resolves.agrees, awaits⟩
  rw [isPoint, setting.erase_lexicalPoint]
  exact .here

end LexicalWalk

end YulCheck
