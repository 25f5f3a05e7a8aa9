import YulCheck.Proofs.Judgement.Acceptance
import YulCheck.Proofs.Kept.Programs
import YulCheck.Proofs.Report.Appended

/-! # Checks that keep facts

Facts about programs can be kept from check to check. Whatever is kept, a check comes to the verdict
that it comes to without it, reports the same and asks its host the same; what it finds out is added
to what was kept.
-/

namespace YulCheck

variable {σ : Type}

/-! ### Facts that are added -/

/-- Whether facts are kept ones, to which what was found out about a program is added. -/
structure Facts.Extends (after kept found : Facts) : Prop where
  size : after.scopes.size = kept.scopes.size + found.scopes.size
  /-- The scopes that were kept stay. -/
  old : ∀ id < kept.scopes.size, after.scopes.get? id = kept.scopes.get? id
  /-- The scopes of the program stand behind them. -/
  new : ∀ id, after.scopes.get? (kept.scopes.size + id) =
    (found.scopes.get? id).map (·.shift kept.scopes.size)
  scopeOf? : ∀ owner, after.scopeOf? owner =
    ((found.scopeOf? owner).map (kept.scopes.size + ·)).or (kept.scopeOf? owner)
  typesOf? : ∀ expression, after.typesOf? expression =
    (found.typesOf? expression).or (kept.typesOf? expression)
  sideEffects : after.sideEffects = kept.sideEffects.join found.sideEffects

theorem Facts.behind_extends (found kept : Facts) : (found.behind kept).Extends kept found where
  size := ScopeForest.size_behind found.scopes kept.scopes
  old _ isKept := ScopeForest.get?_behind_of_lt found.scopes isKept
  new := ScopeForest.get?_behind_add found.scopes kept.scopes
  scopeOf? := scopeOf?_behind found kept
  typesOf? := typesOf?_behind found kept
  sideEffects := rfl

/-! ### Facts that are kept -/

/-- Whether checks lead to a checker and facts: each goes on with the facts of the one before, with the
same checker or another one, and whether it was stopped or not. -/
inductive Checker.Keeps : Checker → Facts → Prop
  | start (setting : Setting) : Keeps { setting } {}
  | replace {checker : Checker} {facts : Facts} (before : Keeps checker facts) (setting : Setting) :
    Keeps { setting } facts
  | analyze {σ : Type} {checker : Checker} {facts : Facts} (before : Keeps checker facts)
    {host? : Option (Host σ)} {reporter : Reporter} {hostState : σ} {block : Block}
    {analysis : Analysis σ}
    (analyzed : checker.analyze host? reporter facts hostState block = .ok analysis) :
    Keeps analysis.checker analysis.facts

namespace Checker

variable {checker : Checker} {host? : Option (Host σ)} {reporter : Reporter} {kept : Facts}
  {hostState : σ} {block : Block} {analysis : Analysis σ}

/-- What a check hands back when its run has ended in a state. -/
def handBack (checker : Checker) (errors : Nat) (isStopped : Bool) (state : RunState σ) :
    Except Fault (Analysis σ) :=
  if isStopped && decide (state.reporter.errorCount = errors) then .error .stoppedWithoutError
  else .ok {
    isCorrect := !isStopped && decide (state.reporter.errorCount = errors)
    reporter := state.reporter
    facts := state.facts
    hostState := state.hostState
    checker :=
      { checker with
        active := state.active, inLoop := state.inLoop, inFunction := state.inFunction } }

theorem analyze_eq (checker : Checker) (host? : Option (Host σ)) (reporter : Reporter)
    (facts : Facts) (hostState : σ) (block : Block) :
    checker.analyze host? reporter facts hostState block =
      checker.runOver host? reporter facts hostState block >>= fun (outcome, state) =>
        checker.handBack reporter.errorCount (outcome matches .error _) state := by
  rw [analyze, runOver]
  congr 1

theorem handBack_eq_ok {errors : Nat} {isStopped : Bool} {state : RunState σ}
    (handedBack : checker.handBack errors isStopped state = .ok analysis) :
    analysis.reporter = state.reporter ∧ analysis.facts = state.facts ∧
      analysis.checker =
        { checker with
          active := state.active, inLoop := state.inLoop, inFunction := state.inFunction } := by
  rw [handBack] at handedBack
  split at handedBack <;> cases handedBack
  exact ⟨rfl, rfl, rfl⟩

/-- With kept facts the same is handed back, together with them. -/
theorem handBack_behind (checker : Checker) (errors : Nat) (isStopped : Bool) (state : RunState σ)
    (kept : Facts) (stale : List (ScopeId × Handle)) :
    let fresh := { checker with active := [] }.handBack errors isStopped state
    let run := checker.handBack errors isStopped (state.behind kept stale)
    (∀ fault, run = .error fault ↔ fresh = .error fault) ∧
      ∀ found, fresh = .ok found → ∃ analysis, run = .ok analysis ∧
        analysis.isCorrect = found.isCorrect ∧ analysis.reporter = found.reporter ∧
        analysis.hostState = found.hostState ∧ analysis.facts = found.facts.behind kept := by
  rw [handBack, handBack, show (state.behind kept stale).reporter = state.reporter from rfl]
  split
  · exact ⟨fun fault => Iff.rfl, fun found isFound => by cases isFound⟩
  · refine ⟨fun fault => by simp only [reduceCtorEq], fun found handedBack => ?_⟩
    cases handedBack
    exact ⟨_, rfl, rfl, rfl, rfl, rfl⟩

/-- Checks leave their scopes in order, and variables of these scopes only. -/
theorem Keeps.isSettled (keeps : checker.Keeps kept) (reporter : Reporter) (hostState : σ) :
    (checker.start reporter kept hostState).IsSettled := by
  have settled : kept.IsOrdered ∧ ∀ entry ∈ checker.active, entry.1 < kept.scopes.size := by
    induction keeps with
    | start setting => exact ⟨Facts.isOrdered_empty, nofun⟩
    | replace before setting ih => exact ⟨ih.1, nofun⟩
    | @analyze τ checker facts before host? reporter hostState block analysis analyzed ih =>
      rw [analyze_eq] at analyzed
      obtain ⟨⟨outcome, after⟩, ran, handedBack⟩ := Except.bind_eq_ok_iff.mp analyzed
      obtain ⟨_, sameFacts, sameChecker⟩ := handBack_eq_ok handedBack
      have started : (checker.start reporter facts hostState).IsSettled := ⟨ih.1, List.forall_mem_nil _, ih.2⟩
      have settled := Walk.isSettled_of_run ran started
      rw [sameFacts, sameChecker]
      exact ⟨settled.toIsOrdered, settled.active⟩
  exact ⟨settled.1, List.forall_mem_nil _, settled.2⟩

/-- A run that starts with kept facts starts behind them. -/
theorem start_behind (checker : Checker) (reporter : Reporter) (kept : Facts) (hostState : σ) :
    checker.start reporter kept hostState =
      ({ checker with active := [] }.start reporter {} hostState).behind kept checker.active := by
  rw [RunState.behind, start, start]
  dsimp only
  rw [Facts.empty_behind]
  rfl

theorem runOver_behind (checker : Checker) (host? : Option (Host σ)) (reporter : Reporter)
    (kept : Facts) (hostState : σ) (block : Block)
    (stale : ∀ entry ∈ checker.active, entry.1 < kept.scopes.size) :
    checker.runOver host? reporter kept hostState block =
      ({ checker with active := [] }.runOver host? reporter {} hostState block).map
        fun (outcome, state) => (outcome, RunState.behind state kept checker.active) := by
  have settled : ({ checker with active := [] }.start reporter {} hostState).IsSettled :=
    ⟨Facts.isOrdered_empty, List.forall_mem_nil _, nofun⟩
  rw [runOver, start_behind]
  exact Setting.checkProgram_behind stale settled block

/-- Facts that are kept do not influence a check: with them it fails as without them, or comes to the
same verdict with the same reports, and leaves the host in the same state, which may be all that the
host was asked. What it finds out is added to the kept facts. -/
theorem analyze_of_kept (checker : Checker) (host? : Option (Host σ)) (reporter : Reporter)
    (kept : Facts) (hostState : σ) (block : Block)
    (stale : ∀ entry ∈ checker.active, entry.1 < kept.scopes.size) :
    let fresh := { checker with active := [] }.analyze host? reporter {} hostState block
    let run := checker.analyze host? reporter kept hostState block
    (∀ fault, run = .error fault ↔ fresh = .error fault) ∧
      ∀ found, fresh = .ok found → ∃ analysis, run = .ok analysis ∧
        analysis.isCorrect = found.isCorrect ∧ analysis.reporter = found.reporter ∧
        analysis.hostState = found.hostState ∧ analysis.facts.Extends kept found.facts := by
  rw [analyze_eq, analyze_eq, checker.runOver_behind host? reporter kept hostState block stale]
  rcases runOver _ host? reporter {} hostState block with fault | ⟨outcome, state⟩
  · exact ⟨fun other => Iff.rfl, fun found isFound => by cases isFound⟩
  · obtain ⟨faults, finds⟩ := checker.handBack_behind reporter.errorCount (outcome matches .error _)
      state kept checker.active
    refine ⟨faults, fun found isFound => ?_⟩
    obtain ⟨analysis, analyzed, isCorrect, sameReporter, sameHost, facts⟩ := finds found isFound
    exact ⟨analysis, analyzed, isCorrect, sameReporter, sameHost,
      facts ▸ found.facts.behind_extends kept⟩

/-- The sample program is correct again when what is known about it is kept, and its nodes have the
scopes and types of the second check. -/
theorem analyze_of_kept_sample : ∃ first second,
    (Workspace.sample.checker []).analyze none default {} () Workspace.sampleProgram = .ok first ∧
      (Workspace.sample.checker []).analyze none default first.facts () Workspace.sampleProgram =
        .ok second ∧
      first.isCorrect = true ∧ second.isCorrect = true ∧ first.facts.scopeOf? (.block 4) = some 2 ∧
      first.facts.scopes.size = 3 ∧ second.facts.scopeOf? (.block 4) = some 5 := by
  let checker := Workspace.sample.checker []
  have finds : (checker.analyze none default {} () Workspace.sampleProgram).map
      (fun analysis => (analysis.isCorrect, analysis.facts.scopeOf? (.block 4),
        analysis.facts.scopes.size)) = .ok (true, some 2, 3) := by
    decide +kernel
  obtain ⟨first, analyzed, found⟩ := Except.map_eq_ok_iff.mp finds
  obtain ⟨isCorrect, found⟩ := Prod.mk.inj found
  obtain ⟨scope, size⟩ := Prod.mk.inj found
  obtain ⟨second, again, same, _, _, extend⟩ := (checker.analyze_of_kept none default first.facts ()
    Workspace.sampleProgram nofun).2 first analyzed
  refine ⟨first, second, analyzed, again, isCorrect, same.trans isCorrect, scope, size, ?_⟩
  rw [extend.scopeOf?, scope, size]
  rfl

end Checker

end YulCheck
