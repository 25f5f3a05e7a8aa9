import YulCheck.Check.Walk
import YulCheck.Diagnostic.Reporter

/-! # Carrying out walks

A run carries out a walk: it keeps the diagnostics within their limits, the facts about the program,
the variables whose declarations are complete, and whatever state the host has. A run is stopped by
the first report beyond the limit of errors, and what was found until then is kept. A fault leaves
nothing.
-/

namespace YulCheck

/-- The host of a program, with a state of type `σ`. It may report problems of its own, and tells
whether it knows a name or fails. -/
abbrev Host (σ : Type) :=
  Query → ExceptT Failure (StateT (Reporter × σ) (Except Fault)) Bool

/-- The state of a run. -/
structure RunState (σ : Type) where
  reporter : Reporter
  facts : Facts
  hostState : σ
  /-- The scopes that declarations are entered in, the current one first and behind it those to which
  the run returns. -/
  around : List ScopeId
  /-- The variables whose declarations are complete, with the scopes that bind them. -/
  active : List (ScopeId × Handle)
  /-- Whether the run was stopped in the body of a loop. -/
  inLoop : Bool
  /-- Whether the run was stopped in the body of a function. -/
  inFunction : Bool

/-- A part of a run. -/
abbrev Run (σ : Type) := ExceptT Failure (StateT (RunState σ) (Except Fault))

namespace Run

variable {σ α : Type}

/-- End with a fault. -/
def fault (fault : Fault) : Run σ α := fun _ => .error fault

/-- The scope of a node. -/
def scopeOf (owner : ScopeOwner) : Run σ ScopeId := do
  match (← get).facts.scopeOf? owner with
  | some scope => return scope
  | none => Run.fault .scopeMissing

/-- Change the facts about the program. -/
def modifyFacts (change : Facts → Facts) : Run σ Unit :=
  modify fun state => { state with facts := change state.facts }

/-- Stop at a place. -/
def stopAt (place : Place) (failure : Failure) : Run σ α := do
  modify fun state => { state with inLoop := place.inLoop, inFunction := place.inFunction }
  throw failure

/-- Report a problem. -/
def report (place : Place) (diagnostic : Diagnostic) : Run σ Unit := do
  let (outcome, reporter) := (← get).reporter.report diagnostic
  modify fun state => { state with reporter }
  match outcome with
  | .ok _ => return
  | .error failure => stopAt place failure

/-- Report a warning, unless one with its number is recorded. -/
def warnOnce (diagnostic : Diagnostic) : Run σ Unit :=
  modify fun state =>
    if state.reporter.hasAny [diagnostic.code] then state
    else { state with reporter := state.reporter.reportWarning diagnostic }

/-- Open the scope of a node inside of the current scope, and go into it. -/
def openScope (owner : ScopeOwner) : Run σ Unit :=
  modify fun state =>
    { state with
      facts := state.facts.openScope owner state.around.head?
      around := state.facts.scopes.size :: state.around }

/-- Go into the scope of a block that was opened before. -/
def resumeScope (block : NodeId) : Run σ Unit := do
  let scope ← scopeOf (.block block)
  modify fun state => { state with around := scope :: state.around }

/-- Leave the current scope for the one before. -/
def leaveScope : Run σ Unit :=
  modify fun state => { state with around := state.around.tail }

/-- Bind a name in the current scope. The result tells whether it was free. -/
def bind (name : Handle) (binding : Binding) : Run σ Bool := do
  let state ← get
  match state.around with
  | [] => Run.fault .declaredOutside
  | scope :: _ =>
    match state.facts.scopes.bind? scope name binding with
    | some scopes =>
      modifyFacts ({ · with scopes })
      return true
    | none => return false

/-- Look up a name that is used in a block. -/
def lookup (block : NodeId) (name : Handle) : Run σ (Option Found) := do
  let scope ← scopeOf (.block block)
  let state ← get
  return (state.facts.scopes.lookup? scope name).map fun (found, binding) =>
    ⟨binding, state.active.contains (found, name)⟩

/-- Note that the declaration of a variable is complete. The result tells whether the scope binds it
to a variable. -/
def activate (owner : ScopeOwner) (name : Handle) : Run σ Bool := do
  let scope ← scopeOf owner
  let state ← get
  set { state with active := (scope, name) :: state.active }
  return ((state.facts.scopes.get? scope).bind (·.get? name)).any (·.isVariable)

/-- Ask the host about a name. Without a host no name is known. -/
def consult (host? : Option (Host σ)) (place : Place) (identifier : Identifier)
    (use : IdentifierUse) : Run σ Bool := do
  match host? with
  | none => return false
  | some host =>
    let state ← get
    let scope? := state.facts.scopeOf? (.block place.block)
    let inFunction := scope?.any state.facts.scopes.isInFunction
    match host ⟨identifier, use, inFunction⟩ (state.reporter, state.hostState) with
    | .error fault => Run.fault fault
    | .ok (answer, reporter, hostState) =>
      set { state with reporter, hostState }
      match answer with
      | .ok isKnown => return isKnown
      | .error failure => stopAt place failure

/-- Carry out a request. -/
def answer (host? : Option (Host σ)) : (request : Request) → Run σ request.Answer
  | .openScope owner => openScope owner
  | .resumeScope block => resumeScope block
  | .leaveScope => leaveScope
  | .bind name binding => bind name binding
  | .hasScope owner => return ((← get).facts.scopeOf? owner).isSome
  | .lookup block name => lookup block name
  | .activate owner name => activate owner name
  | .errorCount => return (← get).reporter.errorCount
  | .report place diagnostic => report place diagnostic
  | .warnOnce diagnostic => warnOnce diagnostic
  | .consult place identifier use => consult host? place identifier use
  | .noteTypes expression types => modifyFacts (·.noteTypes expression types)
  | .noteEffects effects => modifyFacts (·.noteEffects effects)

end Run

/-- Carry out a walk. -/
def Walk.run {σ α : Type} (host? : Option (Host σ)) : Walk α → Run σ α
  | done result => pure result
  | broken fault => Run.fault fault
  | step request next => do
    let answer ← Run.answer host? request
    (next answer).run host?

namespace Walk

variable {σ α β : Type} (host? : Option (Host σ))

/-- A request is carried out by its answer alone. -/
theorem run_ask (request : Request) : (ask request).run host? = Run.answer host? request :=
  bind_pure _

/-- One walk after another is carried out one after another. -/
theorem run_bind (walk : Walk α) (next : α → Walk β) :
    (walk >>= next).run host? = walk.run host? >>= fun result => (next result).run host? := by
  induction walk with
  | done result => exact (pure_bind result fun result => (next result).run host?).symm
  | broken fault => rfl
  | step request answered ih =>
    show (Run.answer host? request >>= fun answer => ((answered answer).bind next).run host?) =
      (Run.answer host? request >>= fun answer => (answered answer).run host?) >>= _
    rw [LawfulMonad.bind_assoc]
    congr 1
    funext answer
    exact ih answer

end Walk

end YulCheck
