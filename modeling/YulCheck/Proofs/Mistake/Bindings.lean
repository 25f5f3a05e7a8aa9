import YulCheck.Proofs.Mistake.Blocks

/-! # The mistakes of assignments and declarations

An assignment is told which of its targets are repeated, what is wrong about its value, whether there
are as many values as targets, and which targets cannot take their values. A declaration is told about
its names and types, its value, the number of values, and variables of other types than their values.
Its variables can be used behind it, but not in its value.
-/

namespace YulCheck

variable {σ α : Type}

/-! ### Variables of a declaration -/

section

variable {before rest : List Statement} {statement : Statement} {declared : Variable}

/-- What a statement of a block declares is bound in the frame of the block. -/
theorem Frame.binding?_of_mem_locals
    (distinct : (Frame.block (before.reverse ++ statement :: rest) before).names.Nodup)
    (member : declared ∈ statement.locals) (seen : List Statement) :
    (Frame.block (before.reverse ++ statement :: rest) seen).binding? declared.name =
      some (.variable declared.type) := by
  have isBound : declared.binding ∈
      (Frame.block (before.reverse ++ statement :: rest) seen).bindings :=
    List.mem_append_right _ (List.mem_flatMap.mpr
      ⟨statement, List.mem_append_right _ List.mem_cons_self, List.mem_map_of_mem member⟩)
  exact List.lookup_of_mem distinct isBound

/-- A variable is not complete before its own declaration. -/
theorem Frame.isComplete_eq_false
    (distinct : (Frame.block (before.reverse ++ statement :: rest) before).names.Nodup)
    (member : declared ∈ statement.locals) :
    (Frame.block (before.reverse ++ statement :: rest) before).isComplete declared.name = false := by
  rw [names, bindings, List.map_append, List.nodup_append, List.flatMap_append, List.map_append,
    List.nodup_append] at distinct
  obtain ⟨_, ⟨_, _, apart⟩, _⟩ := distinct
  rw [Bool.eq_false_iff, isComplete]
  intro isEarlier
  obtain ⟨other, isOther, isLocal⟩ := List.any_eq_true.mp isEarlier
  obtain ⟨double, isDouble, same⟩ := List.any_eq_true.mp isLocal
  refine apart declared.name ?_ declared.name ?_ rfl
  · exact List.mem_map.mpr ⟨double.binding, List.mem_flatMap.mpr
      ⟨other, List.mem_reverse.mpr isOther, List.mem_map_of_mem isDouble⟩, of_decide_eq_true same⟩
  · exact List.mem_map.mpr ⟨declared.binding, List.mem_flatMap.mpr
      ⟨statement, List.mem_cons_self, List.mem_map_of_mem member⟩, rfl⟩

end

namespace RunState.Inside

variable {state behind : RunState σ} {place : Place} {scope : ScopeId} {environment : Environment}
  {declared : Variable}

/-- Before the next statement its variables are found, but cannot be used. -/
theorem found?_of_awaits {statement : Statement} (inside : state.Inside place scope environment)
    (awaits : environment.Awaits statement) (member : declared ∈ statement.locals) :
    state.found? scope declared.name = some ⟨.variable declared.type, false⟩ := by
  obtain ⟨before, rest, outer, rfl, distinct⟩ := awaits
  rw [inside.describes.found?, Environment.lookup?, Environment.lookupFrom,
    Frame.binding?_of_mem_locals distinct member _, Frame.isComplete_eq_false distinct member]
  rfl

/-- Behind a declaration its variables can be used. -/
theorem found?_behind {setting : Setting} {span : Span} {locals : List Variable}
    {value? : Option Expression} (inside : state.Inside place scope environment)
    (awaits : environment.Awaits (.declaration span locals value?))
    (ran : (setting.checkDeclaration place span locals value?).run none state =
      .ok (.ok (), behind)) (member : declared ∈ locals) :
    behind.found? scope declared.name = some ⟨.variable declared.type, true⟩ := by
  have resolves := @Setting.resolves_checkDeclaration σ setting none state place environment scope
    inside span locals value? (fun _ => Setting.bound_of_awaits inside awaits) (scope + 1)
  rw [← LexicalWalk.erase_within environment (setting.checkDeclaration _ _ _ _)] at ran
  have completes : state.Completes behind scope (Statement.declaration span locals value?).locals
      (scope + 1) (scope + 1) := resolves.completes ran
  obtain ⟨before, rest, outer, rfl, distinct⟩ := awaits
  have insideBehind :=
    Setting.inside_behind inside (Nat.lt_succ_self _) (resolves.scoping ran) completes
  have complete : (Frame.block (before.reverse ++ .declaration span locals value? :: rest)
      (.declaration span locals value? :: before)).isComplete declared.name = true :=
    List.any_eq_true.mpr ⟨_, List.mem_cons_self,
      List.any_eq_true.mpr ⟨declared, member, decide_eq_true rfl⟩⟩
  rw [insideBehind.describes.found?, Environment.lookup?, Environment.lookupFrom,
    Frame.binding?_of_mem_locals distinct member _, complete]
  rfl

end RunState.Inside

/-! ### Visits -/

namespace Setting

open Walk

variable {setting : Setting} {point : Point} {walk : Walk α} {state there after : RunState σ}
  {place : Place} {scope : ScopeId} {result : α} {value : Expression}

/-- A run that comes to a point visits the value there, in the environment of the point. -/
theorem ArrivesAt.exists_runsTo_value
    (arrival : setting.ArrivesAt none point walk state place scope there)
    (evaluates : point.statement.expression? = some value)
    (ran : walk.run none state = .ok (.ok result, after)) :
    ∃ first last, Reaches none (setting.checkExpression place value) first
      (setting.checkPoint place point.statement) there ∧
      first.Inside place scope point.environment ∧
      (setting.checkExpression place value).RunsTo first last
        (setting.assess point.environment value).mistakes
        (setting.assess point.environment value).types := by
  obtain ⟨⟨⟩, _, ranPoint⟩ := arrival.reaches.exists_run ran
  obtain ⟨first, reaches, inside⟩ := exists_reaches_expression arrival.inside evaluates ranPoint
  obtain ⟨_, last, ranValue⟩ := reaches.exists_run ranPoint
  exact ⟨first, last, reaches, inside, inside.runsTo (setting.stays_checkExpression value)
    (reports_checkExpression value _) ranValue⟩

end Setting

namespace Checker

variable {checker : Checker} {reporter : Reporter} {facts : Facts} {block : Block}

/-- Assignments and declarations report exactly their mismatches. Where a run over a program whose names
are declared once is not stopped, it comes to every assignment and to every declaration. For an
assignment it appends the errors about repeated targets, then those in the value, then the error about
the number of values, if it is wrong, and then at most one error for each target that has a value. For a
declaration it appends the errors about names and types, then those in the value, then the error about
the number of values, if it is wrong, and then those about variables of other types than their values.
Wherever the run comes to in the value of a declaration, the variables of the declaration are found but
cannot be used; behind the declaration all of them can. A program that a builder made has such a
run. -/
theorem bindings_report_own_mismatches (distinct : block.owners.Nodup)
    (earlier : ∀ entry ∈ checker.active, entry.1 < facts.scopes.size) (hostState : σ) :
    let setting := checker.setting
    (∀ after, checker.runOver none reporter facts hostState block = .ok (.ok (), after) →
      block.DeclaresOnce →
      ∀ point ∈ block.points [] checker.inLoop checker.inFunction,
        (∀ span targets value, point.statement = .assignment span targets value →
          ∃ (place : Place) (there behind : RunState σ),
            let visit := setting.checkAssignment place span targets value
            Walk.Reaches none visit there (setting.checkProgram (checker.place block) block)
              (checker.start reporter facts hostState) ∧
            visit.RunsTo there behind
              (setting.assignmentMistakes point.environment span targets value) () ∧
            (setting.checkExpression place value).IsVisited visit there
              (setting.assess point.environment value).mistakes
              (setting.assess point.environment value).types) ∧
        (∀ span locals value?, point.statement = .declaration span locals value? →
          ∃ (place : Place) (scope : ScopeId) (there behind : RunState σ),
            let visit := setting.checkDeclaration place span locals value?
            Walk.Reaches none visit there (setting.checkProgram (checker.place block) block)
              (checker.start reporter facts hostState) ∧
            visit.RunsTo there behind
              (setting.declarationMistakes point.environment span locals value?) () ∧
            there.facts.scopeOf? (.block place.block) = some scope ∧
            (∀ declared ∈ locals,
              behind.found? scope declared.name = some ⟨.variable declared.type, true⟩) ∧
            ∀ value, value? = some value → ∃ first last : RunState σ,
              let initializer := setting.checkExpression place value
              Walk.Reaches none initializer first visit there ∧
              initializer.RunsTo first last (setting.assess point.environment value).mistakes
                (setting.assess point.environment value).types ∧
              ∀ {β : Type} (part : Walk β) (within : RunState σ),
                Walk.Reaches none part within initializer first →
                ∀ declared ∈ locals,
                  within.found? scope declared.name = some ⟨.variable declared.type, false⟩)) ∧
    ∀ (kind : BundledDialect) version, reporter.errorLimit? = none →
      setting.names.HasMade (kind.build version) block →
      ∃ after, checker.runOver none reporter facts hostState block = .ok (.ok (), after) := by
  intro setting
  refine ⟨fun after ran once point member => ?_, fun kind version noLimit hasMade =>
    exists_runOver_of_hasMade hasMade earlier noLimit hostState⟩
  obtain ⟨place, scope, there, arrival⟩ := arrives_of_runOver distinct once earlier ran point member
  obtain ⟨behind, runs⟩ := arrival.runsTo ran
  obtain ⟨environment, inLoop, inFunction, statement⟩ := point
  constructor
  · rintro span targets value rfl
    obtain ⟨first, last, reaches, _, evaluated⟩ := arrival.exists_runsTo_value rfl ran
    exact ⟨place, there, behind, arrival.reaches, runs, first, last, reaches, evaluated⟩
  · rintro span locals value? rfl
    have awaits (declared) (isLocal : declared ∈ locals) :
        environment.Awaits (.declaration span locals value?) :=
      arrival.awaits (List.ne_nil_of_mem isLocal)
    refine ⟨place, scope, there, behind, arrival.reaches, runs, arrival.inside.owned, ?_, ?_⟩
    · intro declared isLocal
      exact arrival.inside.found?_behind (awaits declared isLocal) runs.ran isLocal
    · rintro value rfl
      obtain ⟨first, last, reaches, inside, evaluated⟩ := arrival.exists_runsTo_value rfl ran
      refine ⟨first, last, reaches, evaluated, fun part within further declared isLocal => ?_⟩
      have stays : Setting.Stays place (setting.checkExpression place value) :=
        setting.stays_checkExpression value
      exact (inside.at stays.staysIn further).found?_of_awaits (awaits declared isLocal) isLocal

/-- In `{ let a  a, a := 1  let d, e := d }` the assignment repeats a target and has too few values; the
declaration uses one of its own variables, and has too few values as well. -/
theorem bindings_report_own_mismatches_short :
    let names := ["a", "d", "e"].foldl (fun names label => (names.define label).2)
      (NameTable.ofDialect .generic)
    let checker : Checker := { setting := .ofNames names [] }
    let type := checker.setting.defaultType
    let one : Expression := .literal ⟨5, .none, .number, .ofNumeral "1", type⟩
    let targets : List Identifier := [⟨3, ⟨9, 10⟩, ⟨24⟩⟩, ⟨4, ⟨12, 13⟩, ⟨24⟩⟩]
    let locals : List Variable := [⟨6, .none, ⟨25⟩, type⟩, ⟨7, .none, ⟨26⟩, type⟩]
    let use : Expression := .identifier ⟨8, ⟨34, 35⟩, ⟨25⟩⟩
    let block : Block := .mk 1 .none [.declaration .none [⟨2, .none, ⟨24⟩, type⟩] none,
      .assignment ⟨9, 18⟩ targets one, .declaration ⟨20, 35⟩ locals (some use)]
    let program := checker.setting.checkProgram (checker.place block) block
    let start := checker.start .unlimited {} ()
    (∃ place, (checker.setting.checkAssignment place ⟨9, 18⟩ targets one).IsVisited program start
      [(Finding.repeatedTarget "a").toDiagnostic ⟨9, 18⟩,
        (Finding.assignmentCount "a, a" 2 1).toDiagnostic ⟨9, 18⟩] ()) ∧
    ∃ place, (checker.setting.checkDeclaration place ⟨20, 35⟩ locals (some use)).IsVisited program start
      [(Finding.readBeforeDeclaration "d").toDiagnostic ⟨34, 35⟩,
        (Finding.declarationCount "d, e" 2 1).toDiagnostic ⟨20, 35⟩] () := by
  intro names checker type one targets locals use block program start
  let first : Statement := .declaration .none [⟨2, .none, ⟨24⟩, type⟩] none
  let second : Statement := .assignment ⟨9, 18⟩ targets one
  let before : Environment := [.block block.statements [first]]
  let behind : Environment := [.block block.statements [second, first]]
  obtain ⟨once, ends, ofAssignment, ofDeclaration⟩ : block.DeclaresOnce ∧
      (checker.runOver (none : Option (Host Unit)) .unlimited {} () block).map (·.1) =
        .ok (.ok ()) ∧
      checker.setting.assignmentMistakes before ⟨9, 18⟩ targets one =
        [(Finding.repeatedTarget "a").toDiagnostic ⟨9, 18⟩,
          (Finding.assignmentCount "a, a" 2 1).toDiagnostic ⟨9, 18⟩] ∧
      checker.setting.declarationMistakes behind ⟨20, 35⟩ locals (some use) =
        [(Finding.readBeforeDeclaration "d").toDiagnostic ⟨34, 35⟩,
          (Finding.declarationCount "d, e" 2 1).toDiagnostic ⟨20, 35⟩] := by
    decide +kernel
  obtain ⟨⟨_, after⟩, ran, rfl⟩ := Except.map_eq_ok_iff.mp ends
  have isAssignment : (block.points [] false false)[1]? = some ⟨before, false, false, second⟩ := rfl
  have isDeclaration : (block.points [] false false)[2]? =
      some ⟨behind, false, false, .declaration ⟨20, 35⟩ locals (some use)⟩ := rfl
  have told := (@bindings_report_own_mismatches Unit checker .unlimited {} block (by decide) nofun
    ()).1 after ran once
  constructor
  · obtain ⟨place, there, later, reaches, runs, _⟩ :=
      (told _ (List.mem_of_getElem? isAssignment)).1 _ _ _ rfl
    exact ⟨place, there, later, reaches, ofAssignment ▸ runs⟩
  · obtain ⟨place, _, there, later, reaches, runs, _⟩ :=
      (told _ (List.mem_of_getElem? isDeclaration)).2 _ _ _ rfl
    exact ⟨place, there, later, reaches, ofDeclaration ▸ runs⟩

end Checker

end YulCheck
