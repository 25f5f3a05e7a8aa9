import YulCheck.Proofs.Build.Builder
import YulCheck.Proofs.Lexical.Resolution
import YulCheck.Proofs.Safety.Declarations
import YulCheck.Proofs.Safety.Statements
import YulCheck.Workspace

/-! # Programs that can be checked

Every program that a builder makes can be checked in its workspace: the run comes to an end, or is
stopped behind an error. Nothing that checking takes for granted fails, whatever the program says and
whatever an orderly host does.
-/

namespace YulCheck

open Walk

variable {σ : Type} {dialect : Dialect}

/-! ### Runs over programs -/

/-- The walk over a program that has all that checking relies on is carried out to its end, or
stopped behind an error. -/
theorem Setting.exists_run_checkProgram (setting : Setting)
    (ready : setting.names.IsReady dialect) {host? : Option (Host σ)}
    (orderly : ∀ host ∈ host?, host.IsOrderly) (place : Place) {block : Block}
    (built : block.IsBuilt setting.names) (distinct : block.owners.Nodup) {state : RunState σ}
    (outermost : state.around = []) (earlier : ∀ entry ∈ state.active, entry.1 < state.facts.scopes.size) :
    ∃ outcome after, (setting.checkProgram place block).run host? state = .ok (outcome, after) ∧
      Run.Ends state.reporter.errorCount (fun _ _ => True) outcome after := by
  rw [checkProgram, run_bind, Run.bind_apply]
  by_cases once : block.DeclaresOnce
  · obtain ⟨facts, scoping, entered⟩ :=
      setting.run_enterDeclarations place host? state outermost distinct once
    have agrees := setting.agrees_lexicalBlock host? place block distinct once earlier scoping
    have isEmpty : Environment.IsBuilt setting.names [] := nofun
    have safe := safe_lexicalBlock ready isEmpty place block built
    obtain ⟨outcome, after, ran, ends⟩ :=
      LexicalWalk.exists_run orderly agrees (safe state.reporter.errorCount)
    rw [erase_lexicalBlock] at ran
    rw [entered]
    exact ⟨outcome, after, ran, ends⟩
  · obtain ⟨outcome, after, entered⟩ :=
      setting.exists_run_enterDeclarations place host? state (block.areShown built)
    obtain ⟨isCounted, notEntered⟩ :=
      setting.errorCount_of_enterDeclarations place distinct once entered
    rw [entered]
    cases outcome with
    | error failure => exact ⟨_, _, rfl, isCounted⟩
    | ok isEntered =>
      cases isEntered with
      | true => exact absurd rfl notEntered
      | false => exact ⟨_, _, rfl, trivial⟩

/-- A checker hands back what it found out about such a program. -/
theorem Checker.exists_analysis (checker : Checker)
    (ready : checker.setting.names.IsReady dialect) {host? : Option (Host σ)}
    (orderly : ∀ host ∈ host?, host.IsOrderly) {block : Block}
    (built : block.IsBuilt checker.setting.names) (distinct : block.owners.Nodup)
    (reporter : Reporter) {facts : Facts} (hostState : σ)
    (earlier : ∀ entry ∈ checker.active, entry.1 < facts.scopes.size) :
    ∃ analysis, checker.analyze host? reporter facts hostState block = .ok analysis := by
  have started : ∀ entry ∈ (checker.start reporter facts hostState).active,
      entry.1 < (checker.start reporter facts hostState).facts.scopes.size := earlier
  obtain ⟨outcome, after, ran, ends⟩ := checker.setting.exists_run_checkProgram ready orderly
    (checker.place block) built distinct rfl started
  rw [analyze, ran]
  cases outcome with
  | ok result => exact ⟨_, rfl⟩
  | error failure =>
    have isCounted : reporter.errorCount < after.reporter.errorCount := ends
    have isNoisy : ¬(true && decide (after.reporter.errorCount = reporter.errorCount)) = true := by
      rw [Bool.true_and, decide_eq_true_iff]
      omega
    exact ⟨_, if_neg isNoisy⟩

/-! ### Workspaces -/

namespace Workspace

/-- Every block that a builder makes can be checked, with any limits, any data objects and any orderly
host: the run never ends with a fault. -/
theorem exists_analyze (settings : Settings) {builder : Builder}
    (reachable : builder.Reachable (settings.dialect.build settings.version)) {block : Block}
    (isMade : .block block ∈ builder.nodes ++ builder.earlier) {host? : Option (Host σ)}
    (orderly : ∀ host ∈ host?, host.IsOrderly) (hostState : σ) (dataNames : List String) :
    ∃ outcome after, (Workspace.mk settings builder.elaboration.table).analyze host? hostState block
      dataNames = .ok (outcome, after) := by
  have regular := BundledDialect.isRegular_build settings.dialect settings.version
  have sound := reachable.isSound regular
  obtain ⟨built, distinct⟩ : block.IsBuilt builder.elaboration.table ∧ block.owners.Nodup :=
    sound.of_mem isMade
  let workspace : Workspace := ⟨settings, builder.elaboration.table⟩
  have noneActive : ∀ entry ∈ (workspace.checker dataNames).active,
      entry.1 < ({} : Facts).scopes.size := nofun
  obtain ⟨analysis, analyzed⟩ := (workspace.checker dataNames).exists_analysis sound.ready orderly
    built distinct workspace.reporter hostState noneActive
  rw [analyze, analyzed]
  exact ⟨_, _, rfl⟩

/-- A program that uses a name of its host, which reports an error about it. -/
theorem exists_analyze_reported :
    let named := (NameTable.ofDialect .generic).define "x"
    let block : Block := .mk 1 .none [.expression .none (.identifier ⟨0, .none, named.1⟩)]
    let rule : HostRule := ⟨none, none, none, [⟨.declaration, 1, "x is hidden"⟩], .known⟩
    ∃ outcome asked, (Workspace.mk { dialect := .generic } named.2).analyze
      (some (.ofRules named.2 [rule])) [] block [] = .ok (outcome, asked) := by
  intro named block rule
  have plain : ∀ other ∈ [rule], other.IsPlain := List.forall_mem_singleton.mpr ⟨rfl, nofun⟩
  have started : Builder.Reachable Dialect.generic _ := .start
  have used := started.step (.make (.identifier (by decide : "x" ≠ "")) (.refl _))
  have stated := used.step (.make (.effect _) (.refl _))
  have made := stated.step (.make (.block [_]) (.refl _))
  refine exists_analyze { dialect := .generic } made List.mem_cons_self ?_ [] []
  rintro _ ⟨rfl⟩
  exact Host.isOrderly_ofRules named.2 plain

end Workspace

end YulCheck
