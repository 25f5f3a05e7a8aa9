import YulCheck.Proofs.Hoist.Acceptance
import YulCheck.Proofs.Mistake.Expressions

/-! # Visited parts

A run that is not stopped comes to every point of a program, from there to the expression at the point,
and so to every call in it and to every argument that is not taken as it is. What it appends while it
carries out such a part are the errors of the part, and warnings.
-/

namespace YulCheck

variable {σ α β : Type}

/-- Whether a run of a walk ends with a result, and the errors that it appends are the given ones, in
their order. -/
structure Walk.RunsTo (walk : Walk α) (state after : RunState σ) (errors : List Diagnostic)
    (result : α) : Prop where
  ran : walk.run none state = .ok (.ok result, after)
  appended : ∃ appended,
    after.reporter.diagnostics.toList = state.reporter.diagnostics.toList ++ appended ∧
      appended.filter (·.isError) = errors

/-- Whether a run comes to a part of its walk, and there appends certain errors and comes to a certain
result. -/
def Walk.IsVisited (part : Walk β) (walk : Walk α) (state : RunState σ) (errors : List Diagnostic)
    (result : β) : Prop :=
  ∃ there behind, Walk.Reaches none part there walk state ∧ part.RunsTo there behind errors result

namespace Walk.IsVisited

variable {γ : Type} {part : Walk γ} {walk : Walk α} {rest : α → Walk β} {state middle : RunState σ}
  {errors : List Diagnostic} {result : γ}

theorem first (visited : part.IsVisited walk state errors result) :
    part.IsVisited (walk >>= rest) state errors result := by
  obtain ⟨there, behind, reaches, runs⟩ := visited
  exact ⟨there, behind, .first reaches, runs⟩

theorem next {given : α} (ran : walk.run none state = .ok (.ok given, middle))
    (visited : part.IsVisited (rest given) middle errors result) :
    part.IsVisited (walk >>= rest) state errors result := by
  obtain ⟨there, behind, reaches, runs⟩ := visited
  exact ⟨there, behind, .next ran reaches, runs⟩

end Walk.IsVisited

/-- A run that agrees with the environments reports what the walk reports. -/
theorem LexicalWalk.runsTo_of_reports {walk : LexicalWalk α} {state after : RunState σ}
    {mistakes : List Diagnostic} {result given : α} (agrees : walk.Agrees none state)
    (finds : walk.erase.Only Request.ReportsFindings)
    (reports : walk.Reports state.reporter.errorCount mistakes result)
    (ran : walk.erase.run none state = .ok (.ok given, after)) :
    walk.erase.RunsTo state after mistakes result := by
  obtain ⟨reported, appended, ends, appends, consists⟩ := exists_ends_of_completed agrees finds ran
  obtain ⟨rfl, rfl⟩ := reports _ _ ends
  exact ⟨ran, appended, appends.diagnostics, consists.errors⟩

/-- A run that agrees with one environment reports what the walk reports there. -/
theorem Walk.runsTo_of_reports {environment : Environment} {walk : Walk α} {state after : RunState σ}
    {mistakes : List Diagnostic} {result given : α}
    (agrees : (walk.within environment).Agrees none state)
    (finds : walk.Only Request.ReportsFindings)
    (reports : walk.Reports environment state.reporter.errorCount mistakes result)
    (ran : walk.run none state = .ok (.ok given, after)) :
    walk.RunsTo state after mistakes result := by
  rw [← LexicalWalk.erase_within environment walk] at finds ran ⊢
  exact LexicalWalk.runsTo_of_reports agrees finds reports ran

/-- What stays at a place and is reported in its environment is what a run appends. -/
theorem RunState.Inside.runsTo {place : Place} {id : ScopeId} {environment : Environment}
    {state after : RunState σ} {walk : Walk α} {mistakes : List Diagnostic} {result given : α}
    (inside : state.Inside place id environment) (isLocal : walk.Only (·.IsLocal place))
    (reports : walk.Reports environment state.reporter.errorCount mistakes result)
    (ran : walk.run none state = .ok (.ok given, after)) :
    walk.RunsTo state after mistakes result := by
  have agrees : (walk.within environment).Agrees none state :=
    LexicalWalk.agrees_within (isLocal.imp fun _ => Request.IsLocal.staysIn) fun _ => inside.answers
  have finds : walk.Only Request.ReportsFindings :=
    isLocal.imp fun _ => Request.IsLocal.reportsFindings
  exact Walk.runsTo_of_reports agrees finds reports ran

/-- A part that a run comes to in the environment of its start appends what is reported there. -/
theorem RunState.Inside.isVisited {place : Place} {id : ScopeId} {environment : Environment}
    {state there after : RunState σ} {walk : Walk α} {part : Walk β} {mistakes : List Diagnostic}
    {given : α} {result : β} (inside : state.Inside place id environment)
    (isLocal : walk.Only (·.IsLocal place))
    (reports : ∀ errors, part.Reports environment errors mistakes result)
    (reaches : Walk.Reaches none part there walk state)
    (ran : walk.run none state = .ok (.ok given, after)) :
    part.IsVisited walk state mistakes result := by
  obtain ⟨_, behind, ranPart⟩ := reaches.exists_run ran
  have stays : walk.Only (·.StaysIn place.block) := isLocal.imp fun _ => Request.IsLocal.staysIn
  exact ⟨there, behind, reaches,
    (inside.at stays reaches).runsTo (reaches.only isLocal) (reports _) ranPart⟩

theorem Walk.eq_of_run_require {host? : Option (Host σ)} {condition : Bool} {fault : Fault}
    {state after : RunState σ}
    (ran : (Walk.require condition fault).run host? state = .ok (.ok (), after)) : state = after := by
  cases condition <;> cases ran
  rfl

theorem Setting.Stays.staysIn {place : Place} {walk : Walk α} (isLocal : Setting.Stays place walk) :
    walk.Only (·.StaysIn place.block) := isLocal.imp fun _ => Request.IsLocal.staysIn

namespace Setting

open Walk

variable {setting : Setting} {host? : Option (Host σ)} {place : Place} {state after : RunState σ}

/-! ### Arguments -/

theorem checkArguments_cons_of_none {callee : Identifier} {required : List (Option LiteralKind)}
    {argument : Expression} (notContent : contentArgument? required.head?.join argument = none)
    (rest : List Expression) :
    setting.checkArguments place callee required (argument :: rest) = (do
      let types ← setting.checkArguments place callee required.tail rest
      checkArgumentKind place callee required.head?.join argument
      let given ← setting.checkExpression place argument
      let type ← setting.singleType place argument given
      return type :: types) := by
  rw [checkArguments]
  simp only [notContent]

/-- The first argument is visited, unless it is taken as it is. -/
theorem reaches_firstArgument {callee : Identifier} {required : List (Option LiteralKind)}
    {argument : Expression} {rest : List Expression} {types : List TypeHandle}
    (notContent : contentArgument? required.head?.join argument = none)
    (ran : (setting.checkArguments place callee required (argument :: rest)).run host? state =
      .ok (.ok types, after)) :
    ∃ there, Reaches host? (setting.checkExpression place argument) there
      (setting.checkArguments place callee required (argument :: rest)) state := by
  rw [checkArguments_cons_of_none notContent] at ran ⊢
  obtain ⟨_, _, ranRest, ran⟩ := run_bind_eq_ok_ok_iff.mp ran
  obtain ⟨_, there, ranKind, _⟩ := run_bind_eq_ok_ok_iff.mp ran
  exact ⟨there, .next ranRest (.next ranKind (.first .here))⟩

/-- What is visited in the other arguments is visited. -/
theorem reaches_otherArguments {callee : Identifier} {required : List (Option LiteralKind)}
    {argument : Expression} {rest : List Expression} {part : Walk β} {there : RunState σ}
    (reaches : Reaches host? part there (setting.checkArguments place callee required.tail rest)
      state) :
    Reaches host? part there (setting.checkArguments place callee required (argument :: rest))
      state := by
  rw [checkArguments]
  exact .first reaches

theorem run_otherArguments {callee : Identifier} {required : List (Option LiteralKind)}
    {argument : Expression} {rest : List Expression} {types : List TypeHandle}
    (ran : (setting.checkArguments place callee required (argument :: rest)).run host? state =
      .ok (.ok types, after)) :
    ∃ types after, (setting.checkArguments place callee required.tail rest).run host? state =
      .ok (.ok types, after) := by
  rw [checkArguments] at ran
  obtain ⟨types, middle, ranRest, _⟩ := run_bind_eq_ok_ok_iff.mp ran
  exact ⟨types, middle, ranRest⟩

/-- Every argument is visited, unless it is taken as it is. -/
theorem reaches_argument {callee : Identifier} {required : List (Option LiteralKind)}
    {arguments : List Expression} {types : List TypeHandle}
    (ran : (setting.checkArguments place callee required arguments).run host? state =
      .ok (.ok types, after)) {position : Nat} {argument : Expression}
    (isArgument : arguments[position]? = some argument)
    (notContent : contentArgument? required[position]?.join argument = none) :
    ∃ there, Reaches host? (setting.checkExpression place argument) there
      (setting.checkArguments place callee required arguments) state := by
  induction arguments generalizing required types after position with
  | nil => cases isArgument
  | cons first rest ih =>
    cases position with
    | zero =>
      cases isArgument
      rw [← List.head?_eq_getElem?] at notContent
      exact reaches_firstArgument notContent ran
    | succ position =>
      obtain ⟨_, _, ranRest⟩ := run_otherArguments ran
      rw [← List.getElem?_tail] at notContent
      obtain ⟨there, reaches⟩ := ih ranRest isArgument notContent
      exact ⟨there, reaches_otherArguments reaches⟩

/-! ### Calls -/

/-- A run of a call comes to its arguments, after it found what is called. -/
theorem reaches_checkArguments {environment : Environment} {scope : ScopeId} {id : NodeId}
    {span : Span} {callee : Identifier} {arguments : List Expression} {types : List TypeHandle}
    (inside : state.Inside place scope environment)
    (ran : (setting.checkExpression place (.call id span callee arguments)).run none state =
      .ok (.ok types, after)) :
    ∃ there, Reaches none
      (setting.checkArguments place callee (setting.literalsOf callee.name) arguments) there
      (setting.checkExpression place (.call id span callee arguments)) state := by
  rw [checkExpression] at ran ⊢
  obtain ⟨_, _, isNamed, ran⟩ := run_bind_eq_ok_ok_iff.mp ran
  obtain rfl := eq_of_run_require isNamed
  obtain ⟨errors, _, counted, ran⟩ := run_bind_eq_ok_ok_iff.mp ran
  obtain ⟨called, _, resolved, ran⟩ := run_bind_eq_ok_ok_iff.mp ran
  obtain ⟨_, there, hasCounted, _⟩ := run_bind_eq_ok_ok_iff.mp ran
  cases counted
  have isCallee := (inside.runsTo (setting.stays_resolveCallee _ _) (reports_resolveCallee callee)
    resolved).ran
  cases isCallee.symm.trans resolved
  exact ⟨there, .next isNamed (.next rfl (.next resolved (.next hasCounted (.first .here))))⟩

mutual

/-- A run comes to every call in an expression. -/
theorem reaches_call {expression : Expression} {id : NodeId} {span : Span} {callee : Identifier}
    {arguments : List Expression} {types : List TypeHandle} {state after : RunState σ}
    (isNode : .call id span callee arguments ∈ expression.nodes)
    (ran : (setting.checkExpression place expression).run host? state = .ok (.ok types, after)) :
    ∃ there, Reaches host? (setting.checkExpression place (.call id span callee arguments)) there
      (setting.checkExpression place expression) state := by
  cases expression with
  | literal | identifier =>
    cases List.mem_singleton.mp isNode
  | call outerId outerSpan outer passed =>
    rw [Expression.nodes, List.mem_append, List.mem_singleton] at isNode
    rcases isNode with inArgument | same
    · rw [checkExpression] at ran ⊢
      obtain ⟨_, _, isNamed, ran⟩ := run_bind_eq_ok_ok_iff.mp ran
      obtain ⟨_, _, counted, ran⟩ := run_bind_eq_ok_ok_iff.mp ran
      obtain ⟨_, _, resolved, ran⟩ := run_bind_eq_ok_ok_iff.mp ran
      obtain ⟨_, _, hasCounted, ran⟩ := run_bind_eq_ok_ok_iff.mp ran
      obtain ⟨_, _, passing, _⟩ := run_bind_eq_ok_ok_iff.mp ran
      obtain ⟨there, reaches⟩ := reaches_callOfArguments inArgument passing
      exact ⟨there, .next isNamed (.next counted (.next resolved (.next hasCounted (.first reaches))))⟩
    · cases same
      exact ⟨state, .here⟩

/-- A run comes to every call in the arguments of a call. -/
theorem reaches_callOfArguments {outer : Identifier} {required : List (Option LiteralKind)}
    {passed : List Expression} {id : NodeId} {span : Span} {callee : Identifier}
    {arguments : List Expression} {types : List TypeHandle} {state after : RunState σ}
    (isNode : .call id span callee arguments ∈ argumentNodes passed)
    (ran : (setting.checkArguments place outer required passed).run host? state =
      .ok (.ok types, after)) :
    ∃ there, Reaches host? (setting.checkExpression place (.call id span callee arguments)) there
      (setting.checkArguments place outer required passed) state := by
  cases passed with
  | nil => cases isNode
  | cons argument rest =>
    rw [argumentNodes, List.mem_append] at isNode
    rcases isNode with inRest | inArgument
    · obtain ⟨_, _, ranRest⟩ := run_otherArguments ran
      obtain ⟨there, reaches⟩ := reaches_callOfArguments inRest ranRest
      exact ⟨there, reaches_otherArguments reaches⟩
    · have notContent : contentArgument? required.head?.join argument = none := by
        cases content : contentArgument? required.head?.join argument with
        | none => rfl
        | some literal =>
          obtain ⟨rfl, _⟩ := contentArgument?_eq_some content
          cases List.mem_singleton.mp inArgument
      obtain ⟨middle, reaches⟩ := reaches_firstArgument notContent ran
      obtain ⟨_, _, checked⟩ := reaches.exists_run ran
      obtain ⟨there, further⟩ := reaches_call inArgument checked
      exact ⟨there, reaches.trans further⟩

end

/-! ### Points -/

/-- A run that comes to a point comes to the expression there, while the environment is what it was. -/
theorem exists_reaches_expression {environment : Environment} {scope : ScopeId}
    {statement : Statement} {value : Expression} (inside : state.Inside place scope environment)
    (evaluates : statement.expression? = some value)
    (ran : (setting.checkPoint place statement).run none state = .ok (.ok (), after)) :
    ∃ there, Reaches none (setting.checkExpression place value) there
      (setting.checkPoint place statement) state ∧ there.Inside place scope environment := by
  have ofCondition (condition : Expression) : Reaches none (setting.checkExpression place condition)
      state (setting.checkCondition place condition) state := .first (.first .here)
  cases statement with
  | expression span expression =>
    cases evaluates
    exact ⟨state, .next rfl (.first .here), inside⟩
  | assignment span targets value =>
    cases evaluates
    obtain ⟨_, _, isGiven, ran⟩ := run_bind_eq_ok_ok_iff.mp ran
    obtain ⟨_, there, compared, _⟩ := run_bind_eq_ok_ok_iff.mp ran
    have reaches : Reaches none (setting.checkExpression place value) there
        (setting.checkAssignment place span targets value) state :=
      .next isGiven (.next compared (.first .here))
    exact ⟨there, reaches, inside.at (Stays.staysIn (setting.stays_checkAssignment _ _ _)) reaches⟩
  | declaration span locals value? =>
    cases evaluates
    have whole : setting.checkPoint place (.declaration span locals (some value)) =
        setting.prepareDeclaration place span locals (some value) >>= fun _ =>
          locals.forM (activateVariable place) := by
      rw [← checkDeclaration_eq]
      rfl
    rw [whole] at ran ⊢
    obtain ⟨_, _, prepared, _⟩ := run_bind_eq_ok_ok_iff.mp ran
    obtain ⟨_, _, asked, ran⟩ := run_bind_eq_ok_ok_iff.mp prepared
    obtain ⟨_, there, checked, _⟩ := run_bind_eq_ok_ok_iff.mp ran
    have reaches : Reaches none (setting.checkExpression place value) there
        (setting.prepareDeclaration place span locals (some value)) state :=
      .next asked (.next checked (.first .here))
    exact ⟨there, .first reaches,
      inside.at (Stays.staysIn (setting.stays_prepareDeclaration _ _ _)) reaches⟩
  | conditional span condition body =>
    cases evaluates
    exact ⟨state, .first (ofCondition _), inside⟩
  | «switch» span scrutinee cases =>
    cases evaluates
    have ran : (setting.checkStatement place (.switch span value cases)).run none state = _ := ran
    rw [checkStatement] at ran
    obtain ⟨_, there, expected, _⟩ := run_bind_eq_ok_ok_iff.mp ran
    have stays : Stays place _ := local_checks.expect
      (!(decide (cases.length = 1) && cases.all (·.value?.isNone))) span
      (only_pure Finding.onlyDefaultCase)
    refine ⟨there, ?_, inside.behind stays.staysIn expected⟩
    show Reaches none _ there (setting.checkStatement place (.switch span value cases)) state
    rw [checkStatement]
    exact .next expected (.first (.first .here))
  | loop id span pre condition post body =>
    cases evaluates
    exact ⟨state, ofCondition _, inside⟩
  | function | «break» | «continue» | leave | block => cases evaluates

/-- A run that comes to a point comes to every call in the expression there, and checks it to its end in
the environment of the point. -/
theorem ArrivesAt.exists_run_call {walk : Walk α} {result : α} {point : Point} {scope : ScopeId}
    {there : RunState σ} {value : Expression} {id : NodeId} {span : Span} {callee : Identifier}
    {arguments : List Expression}
    (arrival : setting.ArrivesAt none point walk state place scope there)
    (evaluates : point.statement.expression? = some value)
    (isNode : .call id span callee arguments ∈ value.nodes)
    (ran : walk.run none state = .ok (.ok result, after)) :
    let call := setting.checkExpression place (.call id span callee arguments)
    ∃ within types behind, Reaches none call within walk state ∧
      within.Inside place scope point.environment ∧
      call.run none within = .ok (.ok types, behind) := by
  obtain ⟨⟨⟩, _, ranPoint⟩ := arrival.reaches.exists_run ran
  obtain ⟨_, reachesValue, inside⟩ := exists_reaches_expression arrival.inside evaluates ranPoint
  obtain ⟨_, _, ranValue⟩ := reachesValue.exists_run ranPoint
  obtain ⟨within, reachesCall⟩ := reaches_call isNode ranValue
  obtain ⟨types, behind, ranCall⟩ := reachesCall.exists_run ranValue
  have stays : Stays place (setting.checkExpression place value) := setting.stays_checkExpression value
  exact ⟨within, types, behind, (arrival.reaches.trans reachesValue).trans reachesCall,
    inside.at stays.staysIn reachesCall, ranCall⟩

end Setting

/-! ### Runs -/

namespace Checker

variable {checker : Checker} {reporter : Reporter} {facts : Facts} {hostState : σ} {block : Block}

/-- A run over a program without double declarations which is not stopped comes to all points of the
program. -/
theorem arrives_of_runOver {host? : Option (Host σ)} {after : RunState σ}
    (distinct : block.owners.Nodup) (once : block.DeclaresOnce)
    (earlier : ∀ entry ∈ checker.active, entry.1 < facts.scopes.size)
    (ran : checker.runOver host? reporter facts hostState block = .ok (.ok (), after)) :
    checker.setting.Arrives host? (block.points [] checker.inLoop checker.inFunction)
      (checker.setting.checkProgram (checker.place block) block)
      (checker.start reporter facts hostState) := by
  let state := checker.start reporter facts hostState
  have earlier : ∀ entry ∈ state.active, entry.1 < state.facts.scopes.size := earlier
  obtain ⟨entered, scoping, entering⟩ :=
    checker.setting.run_enterDeclarations (checker.place block) host? state rfl distinct once
  have resolves := checker.setting.resolves_lexicalBlock host? (checker.place block) block distinct
    once earlier scoping
  rw [runOver, Setting.checkProgram, Walk.run_bind, Run.bind_apply, entering] at ran
  have arrives := resolves.arrives (checker.setting.erase_lexicalBlock [] _ block ▸ ran)
  rw [Setting.erase_lexicalBlock] at arrives
  exact .next entering arrives

/-- Without a host and without a limit of errors, no run over a program that a builder made is
stopped. -/
theorem exists_runOver_of_hasMade {kind : BundledDialect} {version : EvmVersion}
    (hasMade : checker.setting.names.HasMade (kind.build version) block)
    (earlier : ∀ entry ∈ checker.active, entry.1 < facts.scopes.size)
    (noLimit : reporter.errorLimit? = none) (hostState : σ) :
    ∃ after, checker.runOver none reporter facts hostState block = .ok (.ok (), after) := by
  let state := checker.start reporter facts hostState
  have earlier : ∀ entry ∈ state.active, entry.1 < state.facts.scopes.size := earlier
  have isOrderly : ∀ host ∈ (none : Option (Host σ)), host.IsOrderly := nofun
  have neverFails : ∀ host ∈ (none : Option (Host σ)), host.NeverFails := nofun
  have canCheck : checker.setting.CanCheck (kind.build version) block := .of_hasMade hasMade
  obtain ⟨_, after, ran, _⟩ := checker.setting.exists_run_checkProgram canCheck.ready isOrderly
    (checker.place block) canCheck.built canCheck.distinct rfl earlier
  obtain ⟨_, rfl⟩ := Walk.not_stopped_of_run neverFails noLimit ran
  exact ⟨after, ran⟩

end Checker

end YulCheck
