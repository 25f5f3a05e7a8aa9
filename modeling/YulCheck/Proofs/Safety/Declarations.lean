import YulCheck.Proofs.Build.Tree
import YulCheck.Proofs.Rename.Tree
import YulCheck.Proofs.Safety.Completes
import YulCheck.Proofs.Scope.Opened

/-! # Entering declarations safely

Every scope is opened before something is bound in it. So the declarations of a block can be entered
whatever they declare, and names that are taken can be reported if messages can show them.
-/

namespace YulCheck

variable {table : NameTable}

/-! ### Declared names that can be shown -/

/-- Whether all declared names can be shown. -/
def AreShown (table : NameTable) (declarations : List Declaration) : Prop :=
  ∀ declaration ∈ declarations, ∀ name ∈ declaration.names, table.IsShown name

variable {declarations others : List Declaration}

theorem AreShown.append (first : AreShown table declarations) (second : AreShown table others) :
    AreShown table (declarations ++ others) :=
  List.forall_mem_append.mpr ⟨first, second⟩

theorem AreShown.nameless {declaration : Declaration} (noNames : declaration.names = []) :
    AreShown table [declaration] :=
  List.forall_mem_singleton.mpr (noNames.symm ▸ List.forall_mem_nil _)

/-! ### Names that a builder declares -/

theorem areShown_functionDeclarations {statements : List Statement}
    (built : StatementsBuilt table statements) :
    AreShown table (functionDeclarations statements) := by
  intro declaration member
  obtain ⟨statement, isStatement, isDeclared⟩ := List.mem_filterMap.mp member
  have isBuilt := statementsBuilt_iff.mp built statement isStatement
  cases statement <;> cases isDeclared
  rw [Statement.IsBuilt] at isBuilt
  exact List.forall_mem_singleton.mpr isBuilt.1.2.isShown

theorem areShown_map_locals {locals : List Variable}
    (built : ∀ declared ∈ locals, declared.IsBuilt table) :
    AreShown table (locals.map fun declared => .locals [declared]) := by
  refine List.forall_mem_map.mpr fun declared member => ?_
  exact List.forall_mem_singleton.mpr (built declared member).name

mutual

/-- The names that a builder declares can be shown. -/
theorem Block.areShown (block : Block) (built : block.IsBuilt table) :
    AreShown table block.declarations := by
  obtain ⟨id, span, statements⟩ := block
  rw [Block.IsBuilt] at built
  have opened : AreShown table (.scope (.block id) :: functionDeclarations statements) :=
    (AreShown.nameless rfl).append (areShown_functionDeclarations built)
  exact (opened.append (statements_areShown statements built)).append (.nameless rfl)

theorem statements_areShown (statements : List Statement)
    (built : StatementsBuilt table statements) :
    AreShown table (statementDeclarations statements) := by
  cases statements with
  | nil => exact List.forall_mem_nil _
  | cons statement rest =>
    rw [StatementsBuilt] at built
    exact (statement.areShown built.1).append (statements_areShown rest built.2)

theorem Statement.areShown (statement : Statement) (built : statement.IsBuilt table) :
    AreShown table statement.declarations := by
  cases statement with
  | declaration span locals value =>
    rw [Statement.IsBuilt] at built
    exact List.forall_mem_singleton.mpr
      (List.forall_mem_map.mpr fun declared member => (built.1 declared member).name)
  | function id span name parameters returns body =>
    rw [Statement.IsBuilt] at built
    have opened : AreShown table (.scope (.function id) :: _) :=
      (AreShown.nameless rfl).append (areShown_map_locals built.2.1)
    exact (opened.append (body.areShown built.2.2)).append (AreShown.nameless rfl)
  | conditional span condition body =>
    rw [Statement.IsBuilt] at built
    exact body.areShown built.2
  | «switch» span scrutinee cases =>
    rw [Statement.IsBuilt] at built
    exact cases_areShown cases built.2
  | loop id span pre condition post body =>
    rw [Statement.IsBuilt] at built
    obtain ⟨isPre, _, isPost, isBody⟩ := built
    have resumed : AreShown table (.resume pre.id :: body.declarations) :=
      (AreShown.nameless rfl).append (body.areShown isBody)
    exact (((pre.areShown isPre).append resumed).append (post.areShown isPost)).append (.nameless rfl)
  | block block =>
    rw [Statement.IsBuilt] at built
    exact block.areShown built
  | expression | assignment | «break» | «continue» | leave => exact List.forall_mem_nil _

theorem cases_areShown (cases : List Case) (built : CasesBuilt table cases) :
    AreShown table (caseDeclarations cases) := by
  rcases cases with _ | ⟨⟨span, value?, body⟩, rest⟩
  · exact List.forall_mem_nil _
  · rw [CasesBuilt] at built
    exact (body.areShown built.2.1).append (cases_areShown rest built.2.2)

end

/-! ### Runs that enter declarations -/

variable {σ : Type} {host? : Option (Host σ)}

/-- Whether carrying out a walk from a state ends, or is stopped. -/
def Walk.IsUnbroken {α : Type} (walk : Walk α) (host? : Option (Host σ)) (state : RunState σ) : Prop :=
  ∃ ended, walk.run host? state = .ok ended

namespace Walk.IsUnbroken

variable {α β : Type} {state : RunState σ}

theorem pure (result : α) : (pure result : Walk α).IsUnbroken host? state := ⟨_, rfl⟩

theorem bind {first : Walk α} {next : α → Walk β} (isUnbroken : first.IsUnbroken host? state)
    (rest : ∀ result after, first.run host? state = .ok (.ok result, after) →
      (next result).IsUnbroken host? after) : (first >>= next).IsUnbroken host? state := by
  obtain ⟨⟨outcome, after⟩, ran⟩ := isUnbroken
  rw [IsUnbroken, run_bind, Run.bind_apply, ran]
  cases outcome with
  | error failure => exact ⟨_, rfl⟩
  | ok result => exact rest result after ran

/-- A name that can be shown can be reported. -/
theorem report {place : Place} {name : Handle} (isShown : table.IsShown name)
    (finding : String → Finding) (span : Span) :
    ((liftM (table.shownLabel name) : Walk String) >>= fun label =>
      Setting.report place (finding label) span).IsUnbroken host? state := by
  obtain ⟨label, answered⟩ := isShown
  rw [answered]
  let diagnostic := (finding label).toDiagnostic span
  obtain ⟨outcome, after, reported, _⟩ := Run.exists_report state place diagnostic
  exact ⟨_, (congrFun (Walk.run_ask host? (.report place diagnostic)) state).trans reported⟩

/-- A name can be bound inside of a scope. -/
theorem ask_bind (isInside : state.around ≠ []) (name : Handle) (binding : Binding) :
    (ask (.bind name binding)).IsUnbroken host? state := by
  obtain ⟨scope, outer, around⟩ := List.exists_cons_of_ne_nil isInside
  rw [IsUnbroken, run_ask, Run.answer, Run.bind_request_apply, around]
  dsimp only
  split <;> exact ⟨_, rfl⟩

end Walk.IsUnbroken

namespace Setting

open Walk

variable (setting : Setting) (place : Place) {state : RunState σ}

theorem isUnbroken_enterVariables (isInside : state.around ≠ []) {locals : List Variable}
    (areShown : ∀ declared ∈ locals, setting.names.IsShown declared.name) :
    (setting.enterVariables place locals).IsUnbroken host? state := by
  induction locals generalizing state with
  | nil => exact .pure ()
  | cons declared rest ih =>
    rw [List.forall_mem_cons] at areShown
    refine (IsUnbroken.ask_bind isInside _ _).bind fun isFree after ran => ?_
    cases isFree with
    | true =>
      have staysInside : Request.StaysInside (.bind declared.name (.variable declared.type)) := trivial
      have same : after.around = state.around :=
        Run.around_of_answer staysInside ((congrFun (run_ask host? _) state).symm.trans ran)
      exact ih (same ▸ isInside) areShown.2
    | false => exact .report areShown.1 .variableTaken declared.span

/-- What is declared inside of a scope can be entered if its names can be shown. -/
theorem isUnbroken_enter {declaration : Declaration} (declares : declaration.IsInside)
    (isInside : state.around ≠ []) (areShown : ∀ name ∈ declaration.names, setting.names.IsShown name) :
    (setting.enter place declaration).IsUnbroken host? state := by
  cases declaration with
  | scope | resume | leave => cases declares
  | function span name parameters returns =>
    refine (IsUnbroken.ask_bind isInside name (.function parameters returns)).bind fun isFree after _ => ?_
    cases isFree with
    | true => exact .pure ()
    | false =>
      have same : (expect place false span do
          return .functionTaken (← setting.names.shownLabel name)) =
          ((liftM (setting.names.shownLabel name) : Walk String) >>= fun label =>
            report place (.functionTaken label) span) := by
        cases setting.names.shownLabel name <;> rfl
      rw [same]
      exact .report (areShown name List.mem_cons_self) .functionTaken span
  | locals locals =>
    exact setting.isUnbroken_enterVariables place isInside (List.forall_mem_map.mp areShown)

/-- Nested declarations of names that can be shown can be entered, whatever they are. -/
theorem isUnbroken_enterAll {current? : Option ScopeOwner} {declarations : List Declaration}
    {nestings : List Nesting} (nested : AreNested current? declarations nestings)
    (shown : AreShown setting.names declarations)
    (isInside : current?.isSome = true → state.around ≠ []) :
    (declarations.forM (setting.enter place)).IsUnbroken host? state := by
  induction nested generalizing state with
  | nil => exact .pure ()
  | inside declares =>
    exact (setting.isUnbroken_enter place declares (isInside rfl)
      (List.forall_mem_singleton.mp shown)).bind fun _ _ _ => .pure ()
  | append first _ ihFirst ihSecond =>
    obtain ⟨shownFirst, shownSecond⟩ := List.forall_mem_append.mp shown
    rw [enterAll_append]
    refine (ihFirst shownFirst isInside).bind fun _ middle ran => ?_
    exact ihSecond shownSecond fun isSome =>
      (opened_of_enterAll first ran).1 ▸ isInside isSome
  | scope _ ih =>
    rename_i owner declarations _ _
    have shownInside : AreShown setting.names declarations := fun declaration member =>
      shown declaration (List.mem_append_left _ (List.mem_cons_of_mem _ member))
    rw [enterAll_scope]
    refine IsUnbroken.bind ⟨_, rfl⟩ fun _ middle opened => ?_
    cases opened
    exact (ih shownInside fun _ => List.cons_ne_nil _ _).bind fun _ _ _ => ⟨_, rfl⟩
  | resume first isOpened _ ihFirst ihSecond =>
    rename_i block _ others _ _ _
    obtain ⟨shownFirst, shownSecond⟩ := List.forall_mem_append.mp shown
    have shownInside : AreShown setting.names others := fun declaration member =>
      shownSecond declaration (List.mem_append_left _ (List.mem_cons_of_mem _ member))
    rw [enterAll_append, enterAll_resume]
    refine (ihFirst shownFirst isInside).bind fun _ middle ran => ?_
    obtain ⟨id, owned⟩ := Option.isSome_iff_exists.mp
      ((opened_of_enterAll first ran).2 (.block block) isOpened)
    have resumed : (ask (.resumeScope block)).run host? middle =
        .ok (.ok (), { middle with around := id :: middle.around }) := by
      rw [run_ask, Run.answer, Run.resumeScope_apply, owned]
    refine IsUnbroken.bind ⟨_, resumed⟩ fun _ within entered => ?_
    cases resumed.symm.trans entered
    exact (ihSecond shownInside fun _ => List.cons_ne_nil _ _).bind fun _ _ _ => ⟨_, rfl⟩

/-- Declarations of names that can be shown can be entered, whatever they are. -/
theorem exists_run_enterDeclarations (host? : Option (Host σ)) (state : RunState σ) {block : Block}
    (shown : AreShown setting.names block.declarations) :
    ∃ outcome after, (setting.enterDeclarations place block).run host? state =
      .ok (outcome, after) := by
  have isUnbroken : (setting.enterDeclarations place block).IsUnbroken host? state := by
    have counted : (ask .errorCount).IsUnbroken host? state := ⟨_, rfl⟩
    refine counted.bind fun errors middle _ => ?_
    refine (setting.isUnbroken_enterAll place (block.areNested none) shown nofun).bind fun _ _ _ => ?_
    exact ⟨_, rfl⟩
  obtain ⟨⟨outcome, after⟩, ran⟩ := isUnbroken
  exact ⟨outcome, after, ran⟩

end Setting

end YulCheck
