import YulCheck.Proofs.Mistake.Visited

/-! # The mistakes of calls

A call of a known function is told to have the wrong number of arguments, what is wrong about each of
its arguments, and which of these have other types than their parameters. Nothing else is told about
it, and it has as many values as its function returns, whatever is wrong.
-/

namespace YulCheck

variable {σ : Type}

namespace Setting

/-- Whether a name calls a function with certain types of its parameters and of the values that it
returns: one of the dialect, which is neither `pc` nor missing from the target, or one that the program
binds and that is visible. -/
inductive Calls (setting : Setting) (environment : Environment) (name : Handle) :
    (parameters returns : List TypeHandle) → Prop
  | builtin {builtin : BuiltinSignature}
    (isBuiltin : setting.names.builtin? name = .ok (some builtin))
    (isAvailable : setting.IsAvailable name) :
    Calls setting environment name builtin.parameters builtin.returns
  | bound {parameters returns : List TypeHandle} {isActive : Bool}
    (noBuiltin : setting.names.builtin? name = .ok none)
    (isBound : environment.lookup? name = some ⟨.function parameters returns, isActive⟩) :
    Calls setting environment name parameters returns

/-- The errors in a call of a function with parameters of certain types. -/
def ownMistakes (setting : Setting) (environment : Environment) (callee : Identifier)
    (parameters : List TypeHandle) (arguments : List Expression) : List Diagnostic :=
  mistakeUnless (arguments.length = parameters.length) callee.span
      (.argumentCount (labelText (setting.names.shownLabel callee.name)) parameters.length
        arguments.length) ++
    (arguments.zipIdx.reverse.flatMap (fun (argument, position) =>
        setting.argumentMistakes callee (setting.literalsOf callee.name)[position]?.join argument
          (setting.assess environment argument)) ++
      (parameters.zip arguments).flatMap fun (parameter, argument) =>
        setting.mismatch parameter (setting.argumentType (setting.assess environment argument))
          argument.span)

variable {setting : Setting} {environment : Environment}

theorem refusal?_eq_none {name : Handle} (isAvailable : setting.IsAvailable name) :
    setting.refusal? name = none := by
  rw [refusal?]
  cases labelled : setting.names.label name with
  | error fault => rfl
  | ok label =>
    dsimp only
    cases named : (Instruction.ofName? label).filter (·.isCallable .default) with
    | none => rfl
    | some instruction =>
      obtain ⟨isNamed, callable⟩ := Option.filter_eq_some_iff.mp named
      obtain ⟨notCounter, supported⟩ := isAvailable label instruction labelled isNamed callable
      have unbarred : Gate.barring? setting.version instruction = none :=
        (Gate.barring?_eq_none_iff callable).mpr ((Option.all_eq_true _ _).mpr supported)
      rw [Option.bind_some, barrier?, unbarred]
      exact if_neg notCounter

namespace Calls

variable {name : Handle} {parameters returns : List TypeHandle}

theorem signature? (calls : setting.Calls environment name parameters returns) :
    setting.signature? environment name = some (parameters, returns) := by
  rw [Setting.signature?]
  cases calls with
  | builtin isBuiltin => rw [isBuiltin]
  | bound noBuiltin isBound => rw [noBuiltin, isBound]

/-- Nothing is wrong about the name of a function that can be called. -/
theorem calledMistakes_eq_nil {callee : Identifier}
    (calls : setting.Calls environment callee.name parameters returns) :
    setting.calledMistakes environment callee = [] := by
  rw [calledMistakes, calleeErrors, calleeFinding?]
  cases calls with
  | builtin isBuiltin isAvailable =>
    rw [isBuiltin]
    dsimp only
    rw [refusal?_eq_none isAvailable]
    rfl
  | bound noBuiltin isBound =>
    rw [noBuiltin, isBound]
    rfl

variable {id : NodeId} {span : Span} {callee : Identifier} {arguments : List Expression}

theorem mistakes_assess (calls : setting.Calls environment callee.name parameters returns) :
    (setting.assess environment (.call id span callee arguments)).mistakes =
      setting.ownMistakes environment callee parameters arguments := by
  rw [assess, callMistakes, calls.calledMistakes_eq_nil, countMistakes, calls.signature?,
    argumentsMistakes, parameterMistakes, assessAll_eq_map, List.length_map, List.zipIdx_map,
    List.zip_map_right, ← List.map_reverse, List.flatMap_map, List.flatMap_map]
  rfl

theorem types_assess (calls : setting.Calls environment callee.name parameters returns) :
    (setting.assess environment (.call id span callee arguments)).types =
      if setting.ownMistakes environment callee parameters arguments = [] then returns
      else List.replicate returns.length setting.defaultType := by
  rw [← calls.mistakes_assess, assess, resultTypes, calls.signature?]
  simp only [List.isEmpty_iff, Option.map_some, Option.getD_some, List.map_const']

end Calls

/-! ### Visits -/

open Walk

variable {place : Place} {scope : ScopeId} {state after : RunState σ}

/-- A run of a call visits each argument that is not taken as it is. -/
theorem visits_argument {id : NodeId} {span : Span} {callee : Identifier}
    {arguments : List Expression} {types : List TypeHandle}
    (inside : state.Inside place scope environment)
    (ran : (setting.checkExpression place (.call id span callee arguments)).run none state =
      .ok (.ok types, after)) {position : Nat} {argument : Expression}
    (isArgument : arguments[position]? = some argument)
    (notContent : contentArgument? (setting.literalsOf callee.name)[position]?.join argument = none) :
    (setting.checkExpression place argument).IsVisited
      (setting.checkExpression place (.call id span callee arguments)) state
      (setting.assess environment argument).mistakes (setting.assess environment argument).types := by
  obtain ⟨middle, reaches⟩ := reaches_checkArguments inside ran
  obtain ⟨_, _, ranArguments⟩ := reaches.exists_run ran
  obtain ⟨there, further⟩ := reaches_argument ranArguments isArgument notContent
  exact inside.isVisited (setting.stays_checkExpression _) (reports_checkExpression argument)
    (reaches.trans further) ran

end Setting

namespace Checker

variable {checker : Checker} {reporter : Reporter} {facts : Facts} {block : Block}

/-- A call reports exactly its own mistakes. Where a run over a program whose names are declared once
is not stopped, it comes to every call in the program. If the callee is a function of the dialect that
can be called, or one that is visible, what is appended while the call is checked are the error about
the number of arguments, if it is wrong; then, from the last argument to the first, the errors about
it; and then, from left to right, the errors about arguments of other types than their parameters. The
call has the types that the function returns or, after an error, as many times the default type. Every
argument that is not taken as it is gets visited. A program that a builder made has such a run. -/
theorem calls_report_own_mistakes (distinct : block.owners.Nodup)
    (earlier : ∀ entry ∈ checker.active, entry.1 < facts.scopes.size) (hostState : σ) :
    (∀ after, checker.runOver none reporter facts hostState block = .ok (.ok (), after) →
      block.DeclaresOnce →
      ∀ point ∈ block.points [] checker.inLoop checker.inFunction,
      ∀ value, point.statement.expression? = some value →
      ∀ (id : NodeId) (span : Span) (callee : Identifier) (arguments : List Expression),
        .call id span callee arguments ∈ value.nodes →
      ∀ parameters returns,
        checker.setting.Calls point.environment callee.name parameters returns →
        ∃ (place : Place) (there behind : RunState σ) (mistakes : List Diagnostic)
          (types : List TypeHandle),
          let visit := checker.setting.checkExpression place (.call id span callee arguments)
          Walk.Reaches none visit there (checker.setting.checkProgram (checker.place block) block)
            (checker.start reporter facts hostState) ∧
          visit.RunsTo there behind mistakes types ∧
          mistakes =
            checker.setting.ownMistakes point.environment callee parameters arguments ∧
          types = (if mistakes = [] then returns
            else List.replicate returns.length checker.setting.defaultType) ∧
          ∀ (position : Nat) (argument : Expression), arguments[position]? = some argument →
            Setting.contentArgument? (checker.setting.literalsOf callee.name)[position]?.join
              argument = none →
            (checker.setting.checkExpression place argument).IsVisited visit there
              (checker.setting.assess point.environment argument).mistakes
              (checker.setting.assess point.environment argument).types) ∧
    ∀ (kind : BundledDialect) version, reporter.errorLimit? = none →
      checker.setting.names.HasMade (kind.build version) block →
      ∃ after, checker.runOver none reporter facts hostState block = .ok (.ok (), after) := by
  refine ⟨?_, fun kind version noLimit hasMade =>
    exists_runOver_of_hasMade hasMade earlier noLimit hostState⟩
  intro after ran once point member value evaluates id span callee arguments isNode parameters
    returns calls
  obtain ⟨place, scope, start, arrival⟩ := arrives_of_runOver distinct once earlier ran point member
  obtain ⟨there, _, behind, reaches, inside, ranCall⟩ := arrival.exists_run_call evaluates isNode ran
  have runs := inside.runsTo (checker.setting.stays_checkExpression _)
    (Setting.reports_checkExpression _ _) ranCall
  refine ⟨place, there, behind, _, _, reaches, runs, calls.mistakes_assess, ?_, ?_⟩
  · rw [calls.types_assess, calls.mistakes_assess]
  · exact fun position argument => Setting.visits_argument inside ranCall

/-- In `{ function f(a, b) -> c {} let x := f(f(1)) }` both calls have too few arguments. -/
theorem calls_report_own_mistakes_nested :
    let names := ["f", "a", "b", "c", "x"].foldl (fun names label => (names.define label).2)
      (NameTable.ofDialect .generic)
    let checker : Checker := { setting := .ofNames names [] }
    let type := checker.setting.defaultType
    let one : Expression := .literal ⟨8, .none, .number, .ofNumeral "1", type⟩
    let inner : Expression := .call 6 .none ⟨7, ⟨44, 45⟩, ⟨24⟩⟩ [one]
    let outer : Expression := .call 4 .none ⟨5, ⟨42, 43⟩, ⟨24⟩⟩ [inner]
    let function : Statement := .function 2 .none ⟨24⟩ [⟨9, .none, ⟨25⟩, type⟩, ⟨10, .none, ⟨26⟩, type⟩]
      [⟨11, .none, ⟨27⟩, type⟩] (.mk 3 .none [])
    let block : Block :=
      .mk 1 .none [function, .declaration .none [⟨12, .none, ⟨28⟩, type⟩] (some outer)]
    ∃ place,
      (checker.setting.checkExpression place outer).IsVisited
        (checker.setting.checkProgram (checker.place block) block) (checker.start .unlimited {} ())
        [(Finding.argumentCount "f" 2 1).toDiagnostic ⟨42, 43⟩,
          (Finding.argumentCount "f" 2 1).toDiagnostic ⟨44, 45⟩] [type] := by
  intro names checker type one inner outer function block
  let environment : Environment := [.block block.statements [function]]
  obtain ⟨once, ends, own⟩ : block.DeclaresOnce ∧
      (checker.runOver (none : Option (Host Unit)) .unlimited {} () block).map (·.1) =
        .ok (.ok ()) ∧
      checker.setting.ownMistakes environment ⟨5, ⟨42, 43⟩, ⟨24⟩⟩ [type, type] [inner] =
        [(Finding.argumentCount "f" 2 1).toDiagnostic ⟨42, 43⟩,
          (Finding.argumentCount "f" 2 1).toDiagnostic ⟨44, 45⟩] := by
    decide +kernel
  obtain ⟨⟨_, after⟩, ran, rfl⟩ := Except.map_eq_ok_iff.mp ends
  have isPoint : (block.points [] false false)[1]? = some ⟨environment, false, false,
    .declaration .none [⟨12, .none, ⟨28⟩, type⟩] (some outer)⟩ := rfl
  have isNode : outer.nodes[2]? = some outer := rfl
  obtain ⟨place, there, behind, mistakes, types, reaches, runs, isOwn, rfl, _⟩ :=
    (@calls_report_own_mistakes Unit checker .unlimited {} block (by decide) nofun ()).1
      after ran once _ (List.mem_of_getElem? isPoint) outer rfl 4 .none ⟨5, ⟨42, 43⟩, ⟨24⟩⟩ [inner]
      (List.mem_of_getElem? isNode) [type, type] [type] (.bound rfl rfl)
  obtain rfl := isOwn.trans own
  exact ⟨place, there, behind, reaches, runs⟩

end Checker

end YulCheck
