import YulCheck.Proofs.Lexical.Run
import YulCheck.Proofs.Lexical.Walk

/-! # Agreement of a run with the environments

`LexicalWalk.Agrees` tells that a run answers every request about names the way the environment at its
point does. It holds of one walk after another if it holds of both of them, and of a walk that stays
in one block as soon as the environment describes the state at its start.
-/

namespace YulCheck

variable {σ α β : Type} (host? : Option (Host σ))

/-- What a run finds where it looks up a name in a scope. -/
def RunState.found? (state : RunState σ) (scope : ScopeId) (name : Handle) : Option Found :=
  (state.facts.scopes.lookup? scope name).map fun (found, binding) =>
    ⟨binding, state.active.contains (found, name)⟩

/-- Whether a request is answered in a state the way an environment does: names refer to the same
bindings, and the same variables can be used; the scopes that are needed are there, so that none has
to be opened or filled; and a point is inside of a function if its scope is. -/
def Environment.Answers (environment : Environment) (state : RunState σ) : Request → Prop
  | .lookup block name =>
    ∃ scope, state.facts.scopeOf? (.block block) = some scope ∧
      state.found? scope name = environment.lookup? name
  | .hasScope owner => (state.facts.scopeOf? owner).isSome = true
  | .activate owner name =>
    ∃ scope, state.facts.scopeOf? owner = some scope ∧
      ((state.facts.scopes.get? scope).bind (·.get? name)).any (·.isVariable) = true
  | .consult place .. =>
    (state.facts.scopeOf? (.block place.block)).any state.facts.scopes.isInFunction =
      environment.isInFunction
  | .openScope _ | .resumeScope _ | .leaveScope | .bind .. => False
  | .errorCount | .report .. | .warnOnce _ | .noteTypes .. | .noteEffects _ => True

namespace LexicalWalk

/-- Whether every request of a walk that is carried out from a state is answered the way the
environment at its point does. -/
def Agrees : LexicalWalk α → RunState σ → Prop
  | done _, _ | broken _, _ => True
  | step environment request next, state =>
    environment.Answers state request ∧
      ∀ answer after, Run.answer host? request state = .ok (.ok answer, after) →
        (next answer).Agrees after

variable {host?}

theorem agrees_bind {walk : LexicalWalk α} {next : α → LexicalWalk β} {state : RunState σ}
    (first : walk.Agrees host? state)
    (rest : ∀ result after, walk.erase.run host? state = .ok (.ok result, after) →
      (next result).Agrees host? after) : (walk >>= next).Agrees host? state := by
  induction walk generalizing state with
  | done result => exact rest result state rfl
  | broken => trivial
  | step environment request answered ih =>
    refine ⟨first.1, fun answer middle ran => ih answer (first.2 answer middle ran) ?_⟩
    intro result after ended
    apply rest result after
    exact Run.bind_eq_ok_ok_iff.mpr ⟨answer, middle, ran, ended⟩

/-- The answers of an environment depend on the scopes and on the variables that can be used. -/
theorem answers_of_same {environment : Environment} {state after : RunState σ}
    (scoping : after.facts.scoping = state.facts.scoping) (active : after.active = state.active)
    {request : Request} (answers : environment.Answers state request) :
    environment.Answers after request := by
  have scopes : after.facts.scopes = state.facts.scopes := congrArg Scoping.forest scoping
  have scopeOf : after.facts.scopeOf? = state.facts.scopeOf? := congrArg Scoping.scopeOf? scoping
  have same : environment.Answers after request = environment.Answers state request := by
    cases request <;>
      simp only [Environment.Answers, RunState.found?, scopes, scopeOf, active]
  exact same ▸ answers

/-- A walk that stays in a block agrees with an environment that answers what can be asked there. -/
theorem agrees_within {environment : Environment} {block : NodeId} {walk : Walk α}
    {state : RunState σ} (stays : walk.Only (·.StaysIn block))
    (answers : ∀ request : Request, request.StaysIn block → environment.Answers state request) :
    (walk.within environment).Agrees host? state := by
  induction walk generalizing state with
  | done => trivial
  | broken => trivial
  | step request next ih =>
    refine ⟨answers request stays.1, fun answer after ran => ih answer (stays.2 answer) ?_⟩
    intro other otherStays
    exact answers_of_same (Run.scoping_of_answer stays.1.keepsScopes ran)
      (Run.active_of_answer stays.1 ran) (answers other otherStays)

end LexicalWalk

end YulCheck
