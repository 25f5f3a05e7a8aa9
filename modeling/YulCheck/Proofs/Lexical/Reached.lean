import YulCheck.Proofs.Judgement.Typing
import YulCheck.Proofs.Lexical.Checker
import YulCheck.Proofs.Lexical.Description

/-! # Parts that a run comes to

A run that is not stopped comes to the parts of its walk one after another, and ends each of them with
a result of its own. Coming to a point of a program, it is in a state which the environment of the
point describes.
-/

namespace YulCheck

variable {σ α β γ : Type}

/-! ### Parts of a walk -/

/-- Whether a run of a walk from a state comes to a part of the walk, with whatever result: it carries
out what is before the part, and goes on with it in another state. -/
inductive Walk.Reaches (host? : Option (Host σ)) (part : Walk β) (there : RunState σ) :
    {α : Type} → Walk α → RunState σ → Prop
  | here : Reaches host? part there part there
  | first {α γ : Type} {walk : Walk α} {next : α → Walk γ} {state : RunState σ}
    (reaches : Reaches host? part there walk state) :
    Reaches host? part there (walk >>= next) state
  | next {α γ : Type} {walk : Walk α} {next : α → Walk γ} {state middle : RunState σ} {result : α}
    (ran : walk.run host? state = .ok (.ok result, middle))
    (reaches : Reaches host? part there (next result) middle) :
    Reaches host? part there (walk >>= next) state

namespace Walk

variable {host? : Option (Host σ)} {allowed : Request → Prop}

theorem Only.first {walk : Walk α} {next : α → Walk β} (only : (walk >>= next).Only allowed) :
    walk.Only allowed := by
  induction walk with
  | done | broken => trivial
  | step request answered ih => exact ⟨only.1, fun answer => ih answer (only.2 answer)⟩

/-- What a walk goes on with after a run makes only requests that the whole walk makes. -/
theorem Only.next {walk : Walk α} {next : α → Walk β} (only : (walk >>= next).Only allowed)
    {state middle : RunState σ} {result : α}
    (ran : walk.run host? state = .ok (.ok result, middle)) : (next result).Only allowed := by
  induction walk generalizing state with
  | done value =>
    cases ran
    exact only
  | broken => cases ran
  | step request answered ih =>
    rw [run_step] at ran
    obtain ⟨answer, _, _, ran⟩ := Run.bind_eq_ok_ok_iff.mp ran
    exact ih answer (only.2 answer) ran

namespace Reaches

variable {part : Walk β} {walk : Walk α} {state there : RunState σ}

/-- A part of a part is a part of the whole. -/
theorem trans {inner : Walk γ} {within : RunState σ} (reaches : Reaches host? part there walk state)
    (further : Reaches host? inner within part there) : Reaches host? inner within walk state := by
  induction reaches with
  | here => exact further
  | first _ ih => exact .first ih
  | next ran _ ih => exact .next ran ih

/-- A run that ends with a result has ended every part that it came to. -/
theorem exists_run (reaches : Reaches host? part there walk state) {result : α}
    {after : RunState σ} (ran : walk.run host? state = .ok (.ok result, after)) :
    ∃ given behind, part.run host? there = .ok (.ok given, behind) := by
  induction reaches generalizing after with
  | here => exact ⟨result, after, ran⟩
  | first _ ih =>
    obtain ⟨_, _, ended, _⟩ := run_bind_eq_ok_ok_iff.mp ran
    exact ih ended
  | next before _ ih =>
    obtain ⟨_, _, ended, rest⟩ := run_bind_eq_ok_ok_iff.mp ran
    cases before.symm.trans ended
    exact ih rest

/-- A part makes only requests that the whole walk makes. -/
theorem only (reaches : Reaches host? part there walk state) (only : walk.Only allowed) :
    part.Only allowed := by
  induction reaches with
  | here => exact only
  | first _ ih => exact ih only.first
  | next ran _ ih => exact ih (only.next ran)

/-- What every allowed request keeps is kept until a run comes to a part of its walk. -/
theorem keeps {τ : Type} (view : RunState σ → τ)
    (each : ∀ (request : Request) (state after : RunState σ) outcome, allowed request →
      Run.answer host? request state = .ok (outcome, after) → view after = view state)
    (reaches : Reaches host? part there walk state) (only : walk.Only allowed) :
    view there = view state := by
  induction reaches with
  | here => rfl
  | first _ ih => exact ih only.first
  | next ran _ ih => exact (ih (only.next ran)).trans (run_keeps view each only.first ran)

end Reaches

end Walk

/-! ### Places in a block -/

/-- A point in a block is described as long as neither the scopes nor the variables that can be used
change. -/
theorem RunState.Inside.of_same {place : Place} {id : ScopeId} {environment : Environment}
    {state after : RunState σ} (inside : state.Inside place id environment)
    (scoping : after.facts.scoping = state.facts.scoping) (active : after.active = state.active) :
    after.Inside place id environment where
  owned := by
    have scopeOf : after.facts.scopeOf? = state.facts.scopeOf? := congrArg Scoping.scopeOf? scoping
    rw [scopeOf]
    exact inside.owned
  describes := inside.describes.of_same (congrArg Scoping.forest scoping) fun _ _ _ _ _ => by
    rw [active]

theorem Run.sight_of_answer {host? : Option (Host σ)} {block : NodeId} {request : Request}
    {state after : RunState σ} {outcome : Except Failure request.Answer}
    (stays : request.StaysIn block) (answered : Run.answer host? request state = .ok (outcome, after)) :
    (after.facts.scoping, after.active) = (state.facts.scoping, state.active) :=
  Prod.ext (scoping_of_answer stays.keepsScopes answered) (active_of_answer stays answered)

/-- Behind a walk that stays in a block its environment is what it was. -/
theorem RunState.Inside.behind {host? : Option (Host σ)} {place : Place} {id : ScopeId}
    {environment : Environment} {state after : RunState σ} {walk : Walk α}
    {outcome : Except Failure α} (inside : state.Inside place id environment)
    (stays : walk.Only (·.StaysIn place.block))
    (ran : walk.run host? state = .ok (outcome, after)) : after.Inside place id environment := by
  obtain ⟨scoping, active⟩ := Prod.mk.inj (Walk.run_keeps
    (fun state => (state.facts.scoping, state.active)) (fun _ _ _ _ => Run.sight_of_answer) stays ran)
  exact inside.of_same scoping active

/-- At every part of a walk that stays in a block its environment is what it was. -/
theorem RunState.Inside.at {host? : Option (Host σ)} {place : Place} {id : ScopeId}
    {environment : Environment} {state there : RunState σ} {walk : Walk α} {part : Walk β}
    (inside : state.Inside place id environment) (stays : walk.Only (·.StaysIn place.block))
    (reaches : Walk.Reaches host? part there walk state) : there.Inside place id environment := by
  obtain ⟨scoping, active⟩ := Prod.mk.inj (reaches.keeps
    (fun state => (state.facts.scoping, state.active)) (fun _ _ _ _ => Run.sight_of_answer) stays)
  exact inside.of_same scoping active

/-! ### Points -/

/-- Whether a statement is the next one in the innermost block of an environment, which declares no
name twice. -/
def Environment.Awaits (environment : Environment) (statement : Statement) : Prop :=
  ∃ before rest outer,
    environment = .block (before.reverse ++ statement :: rest) before :: outer ∧
      (Frame.block (before.reverse ++ statement :: rest) before).names.Nodup

namespace Setting

variable (setting : Setting)

/-- What is checked at a point: a statement or, behind the pre block of a loop, the condition of the
loop. -/
def lexicalPoint (environment : Environment) (place : Place) : Statement → LexicalWalk Unit
  | .loop _ _ _ condition _ _ => (setting.checkCondition place condition).within environment
  | statement => setting.lexicalStatement environment place statement

/-- What is checked at a point, without its environments. -/
def checkPoint (place : Place) : Statement → Walk Unit
  | .loop _ _ _ condition _ _ => setting.checkCondition place condition
  | statement => setting.checkStatement place statement

theorem erase_lexicalPoint (environment : Environment) (place : Place) (statement : Statement) :
    (setting.lexicalPoint environment place statement).erase =
      setting.checkPoint place statement := by
  cases statement with
  | loop => exact LexicalWalk.erase_within _ _
  | _ => exact setting.erase_lexicalStatement _ _ _

/-- How a run comes to a point: at a place, in a state that the environment of the point describes, and
from there on it agrees with the environments. -/
structure ArrivesAt (host? : Option (Host σ)) (point : Point) (walk : Walk α) (state : RunState σ)
    (place : Place) (id : ScopeId) (there : RunState σ) : Prop where
  reaches : Walk.Reaches host? (setting.checkPoint place point.statement) there walk state
  inside : there.Inside place id point.environment
  agrees : (setting.lexicalPoint point.environment place point.statement).Agrees host? there
  awaits : point.statement.locals ≠ [] → point.environment.Awaits point.statement

/-- Whether a run comes to points. -/
def Arrives (host? : Option (Host σ)) (points : List Point) (walk : Walk α)
    (state : RunState σ) : Prop :=
  ∀ point ∈ points, ∃ place id there, setting.ArrivesAt host? point walk state place id there

namespace Arrives

variable {setting : Setting} {host? : Option (Host σ)} {points more : List Point} {walk : Walk α}
  {rest : α → Walk β} {state middle : RunState σ}

theorem nil : setting.Arrives host? [] walk state := List.forall_mem_nil _

theorem append (arrives : setting.Arrives host? points walk state)
    (others : setting.Arrives host? more walk state) :
    setting.Arrives host? (points ++ more) walk state :=
  List.forall_mem_append.mpr ⟨arrives, others⟩

theorem first (arrives : setting.Arrives host? points walk state) :
    setting.Arrives host? points (walk >>= rest) state := by
  intro point member
  obtain ⟨place, id, there, arrival⟩ := arrives point member
  exact ⟨place, id, there, { arrival with reaches := .first arrival.reaches }⟩

theorem next {result : α} (ran : walk.run host? state = .ok (.ok result, middle))
    (arrives : setting.Arrives host? points (rest result) middle) :
    setting.Arrives host? points (walk >>= rest) state := by
  intro point member
  obtain ⟨place, id, there, arrival⟩ := arrives point member
  exact ⟨place, id, there, { arrival with reaches := .next ran arrival.reaches }⟩

end Arrives

end Setting

end YulCheck
