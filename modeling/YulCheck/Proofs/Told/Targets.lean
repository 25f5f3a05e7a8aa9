import YulCheck.Proofs.Dialect.Versions
import YulCheck.Proofs.Host.Sequence
import YulCheck.Proofs.Judgement.Declared
import YulCheck.Proofs.Report.Limits
import YulCheck.Proofs.Told.Points

/-! # Calls of functions of newer versions

A call of a function that the default version has and the target does not have is told apart from the
call of an unknown function: the message names the instruction and the target. Only for `prevrandao`,
which needs no capability, it is not.
-/

namespace YulCheck

/-- A name with a label of which the dialect has no function is none of its functions. -/
theorem NameTable.IsConsistent.builtin?_eq_none {dialect : Dialect} {unified : Handle → Prop}
    {table : NameTable} (consistent : table.IsConsistent dialect unified) {name : Handle}
    {label : String} (labelled : table.label name = .ok label)
    (isLacking : dialect.builtin? label = none) : table.builtin? name = .ok none := by
  have answered := builtin?_of_lt (HasLabel.lt ⟨label, labelled⟩)
  cases known : if table.builtinRange.contains (table.root name) then table.builtins.lookup name
      else none with
  | none => rw [answered, known]
  | some builtin =>
    rw [known] at answered
    have isName := consistent.describes _ (mem_builtins_of_builtin? answered)
    have shown := consistent.shownLabel_of_builtin? answered
    rw [shownLabel_of_label labelled] at shown
    rw [Except.ok.inj shown, isName.known] at isLacking
    cases isLacking

theorem Instruction.name_of_ofName? {label : String} {instruction : Instruction}
    (named : ofName? label = some instruction) : instruction.name = label :=
  of_decide_eq_true
    (List.find?_some (p := fun other : Instruction => decide (other.name = label)) named)

/-- No gate is told with the number of functions that are not found. -/
theorem Gate.code_ne {gate : Gate} (isGate : gate ∈ all) (label : String) :
    gate.code ≠ (Finding.functionNotFound label).code := by
  have others : ∀ gate ∈ all, gate.code ≠ 4619 := by decide
  exact others gate isGate

/-- Whether a gate closes the instruction with a label to a version. The version lacks what the gate asks
for, which is what the operation code of the instruction needs; the gate tells the version that has it, and
has a number apart from that of functions that are not found. -/
structure Gate.Closes (gate : Gate) (label : String) (version : EvmVersion) : Prop where
  isGate : gate ∈ all
  named : Instruction.ofName? label = some gate.instruction
  needed : gate.instruction.capability? = some gate.capability
  isLacking : version.supports gate.capability = false
  fork : gate.fork = gate.capability.since.title
  isDistinct : gate.code ≠ (Finding.functionNotFound label).code

namespace Setting

variable {setting : Setting} {environment : Environment} {callee : Identifier} {label : String}
  {instruction : Instruction}

/-- Whether a call is one of a function that the default version has and the target does not have, by a
name that nothing binds. -/
structure LacksCalled (setting : Setting) (flavour : Dialect.EvmFlavour) (environment : Environment)
    (callee : Identifier) (label : String) : Prop where
  isFree : environment.lookup? callee.name = none
  labelled : setting.names.label callee.name = .ok label
  known : ((Dialect.evm flavour .default).builtin? label).isSome = true
  isLacking : (Dialect.evm flavour setting.version).builtin? label = none

/-- What is told about a call of a name with the label of an instruction of the default version, if
nothing has the name. -/
theorem calleeErrors_of_instruction (isFree : environment.lookup? callee.name = none)
    (unknown : setting.names.builtin? callee.name = .ok none)
    (labelled : setting.names.label callee.name = .ok label)
    (named : Instruction.ofName? label = some instruction)
    (isCallable : instruction.isCallable .default = true) :
    setting.calleeErrors environment callee =
      [((setting.barrier? instruction).getD (.functionNotFound label)).toDiagnostic callee.span] := by
  have refusal : setting.refusal? callee.name = setting.barrier? instruction := by
    rw [refusal?, labelled]
    dsimp only
    rw [named, Option.filter_some, if_pos isCallable, Option.bind_some]
  rw [calleeErrors, calleeFinding?, unknown, isFree, refusal, NameTable.shownLabel_of_label labelled]
  cases setting.barrier? instruction <;> rfl

/-- The gate that keeps the target from an instruction that it cannot call and the default version can;
there is one unless it is `prevrandao`. -/
theorem barring?_of_lacking (isCallable : instruction.isCallable .default = true)
    (isMissing : instruction.isCallable setting.version = false) :
    instruction = .prevrandao ∧ Gate.barring? setting.version instruction = none ∨
      ∃ gate, Gate.barring? setting.version instruction = some gate := by
  rcases Instruction.gated_of_not_isCallable isCallable isMissing with
    ⟨rfl, _⟩ | ⟨capability, needed, isLacking⟩
  · exact .inl ⟨rfl, (Gate.barring?_eq_none_iff isCallable).mpr rfl⟩
  · refine .inr (Option.ne_none_iff_exists'.mp fun isOpen => ?_)
    have isIn := (Gate.barring?_eq_none_iff isCallable).mp isOpen
    rw [Instruction.isIn, needed, Option.all_some, isLacking] at isIn
    cases isIn

/-- A call of a function that the target lacks is told as one of an instruction that a gate closes; only
`prevrandao` is not found. -/
theorem LacksCalled.isTold {flavour : Dialect.EvmFlavour} {unified : Handle → Prop}
    (lacks : setting.LacksCalled flavour environment callee label)
    (consistent : setting.names.IsConsistent (.evm flavour setting.version) unified)
    (untyped : flavour.isTyped = false) :
    if label = "prevrandao" then
      setting.calleeErrors environment callee =
        [(Finding.functionNotFound label).toDiagnostic callee.span]
    else
      ∃ gate : Gate, gate.Closes label setting.version ∧
        setting.calleeErrors environment callee =
          [(Finding.unavailable gate setting.version).toDiagnostic callee.span] := by
  have unknown := consistent.builtin?_eq_none lacks.labelled lacks.isLacking
  obtain ⟨instruction, named, isCallable, isMissing⟩ :=
    Dialect.exists_instruction_of_lacking untyped lacks.known lacks.isLacking
  have told := calleeErrors_of_instruction lacks.isFree unknown lacks.labelled named isCallable
  rw [barrier?] at told
  rcases setting.barring?_of_lacking isCallable isMissing with ⟨rfl, isOpen⟩ | ⟨gate, isBarring⟩
  · have isName : label = "prevrandao" := (Instruction.name_of_ofName? named).symm
    rw [isOpen] at told
    rw [if_pos isName, told]
    rfl
  · obtain ⟨isGate, rfl, isUnsupported⟩ := Gate.barring?_eq_some_iff.mp isBarring
    have needed := Gate.capability?_of_mem isGate
    have isOther : label ≠ "prevrandao" := by
      rintro rfl
      have isRandom : Instruction.prevrandao = gate.instruction := Option.some.inj named
      rw [← isRandom] at needed
      cases needed
    rw [isBarring] at told
    rw [if_neg isOther]
    exact ⟨gate, ⟨isGate, named, needed, isUnsupported, Gate.fork_of_mem isGate,
      Gate.code_ne isGate label⟩, told⟩

end Setting

namespace Workspace

variable {workspace : Workspace} {block : Block} {flavour : Dialect.EvmFlavour}

/-- Calls of functions that the default version has and the target does not have are told apart from
calls of unknown functions. Without a host and without a limit of errors, what is told about called
functions can be read off the calls of a program whose declarations can be entered. A call of such a
function, where nothing has its name, is told as one of an instruction that a gate closes to the target,
and not as one of a function that is not found; only `prevrandao` is not found. If a builder made the
program, then it can be checked. -/
theorem lacking_calls_told (reachable : workspace.IsReachable)
    (isEvm : workspace.settings.dialect = .evm flavour) (untyped : flavour.isTyped = false)
    (noLimit : workspace.settings.errorLimit? = none) (distinct : block.owners.Nodup)
    {fillReporter : Reporter} {fillFacts : Facts} {fill : DeclarationRun}
    (enters : workspace.names.enterDeclarations fillReporter fillFacts block = .ok fill)
    (isEntered : fill.outcome = .ok true) (dataNames : List String) :
    let setting := (workspace.checker dataNames).setting
    let version := workspace.settings.version
    (∀ outcome, workspace.analyze none () block dataNames = .ok (outcome, ()) →
      outcome.diagnostics.filter (·.concernsCallee) =
        block.calls.flatMap fun (environment, callee) =>
          setting.calleeErrors environment callee) ∧
    (∀ environment callee label, setting.LacksCalled flavour environment callee label →
      if label = "prevrandao" then
        setting.calleeErrors environment callee =
          [(Finding.functionNotFound label).toDiagnostic callee.span]
      else
        ∃ gate : Gate, gate.Closes label version ∧
          setting.calleeErrors environment callee =
            [(Finding.unavailable gate version).toDiagnostic callee.span]) ∧
    (workspace.HasMade block →
      ∃ outcome, workspace.analyze none () block dataNames = .ok (outcome, ())) := by
  intro setting version
  refine ⟨fun outcome analyzed => ?_, ?_, fun hasMade => ?_⟩
  · obtain ⟨analysis, checked, same⟩ := Except.bind_eq_ok_iff.mp analyzed
    cases same
    have once := NameTable.declaresOnce_of_enterDeclarations distinct enters isEntered
    have noneActive : ∀ entry ∈ (workspace.checker dataNames).active,
        entry.1 < ({} : Facts).scopes.size := nofun
    obtain ⟨appended, appends, told⟩ :=
      Checker.exists_told_of_analyze distinct once noneActive noLimit checked
    have isAll : analysis.reporter.diagnostics.toList = appended := appends
    dsimp only
    rw [isAll, ← filter_concernsCallee_filter_isNotable, told]
    exact Setting.filter_concernsCallee_toldAll block
  · obtain ⟨unified, faithful⟩ := reachable.exists_isFaithful
    have consistent : workspace.names.IsConsistent (.evm flavour version) unified := by
      have consistent := faithful.toIsConsistent
      rw [isEvm] at consistent
      exact consistent
    exact fun _ _ _ lacks => lacks.isTold consistent untyped
  · obtain ⟨outcome, state, ran⟩ := hasMade.exists_runOver dataNames workspace.reporter
    exact ⟨_, analyze_of_runOver ran⟩

/-- A workspace for London with names of two functions of later versions. -/
def londonSample : Workspace :=
  let names := NameTable.ofDialect (BundledDialect.build (.evm .plain) .london)
  ⟨{ dialect := .evm .plain, version := .london, errorLimit? := none },
    ((names.define "tload").2.define "prevrandao").2⟩

theorem isReachable_londonSample : londonSample.IsReachable :=
  isReachable_of_names ((NameTable.Reachable.ofDialect.define "tload").define "prevrandao")

/-- The statement `tload(0)`. -/
def londonLoad : Statement :=
  .expression .none
    (.call 2 .none ⟨3, .none, ⟨86⟩⟩ [.literal ⟨4, .none, .number, .ofNumeral "0", .empty⟩])

/-- The statement `prevrandao()` behind it. -/
def londonRandom : Statement :=
  .expression ⟨9, 21⟩ (.call 5 ⟨9, 21⟩ ⟨6, ⟨9, 19⟩, ⟨87⟩⟩ [])

/-- The program of the two statements. -/
def londonProgram : Block := .mk 1 .none [londonLoad, londonRandom]

/-- The gate of the first statement. -/
def loadGate : Gate := ⟨.tload, .transientStorage, 6243, "Cancun"⟩

/-- What is told about the program: that the target lacks the instruction `tload`, and that there is no
function `prevrandao`. -/
def londonErrors : List Diagnostic :=
  [(Finding.unavailable loadGate .london).toDiagnostic .none,
    (Finding.functionNotFound "prevrandao").toDiagnostic ⟨9, 19⟩]

theorem londonSample_answers :
    (londonSample.checker []).setting.names.label ⟨86⟩ = .ok "tload" ∧
      (londonSample.checker []).setting.names.label ⟨87⟩ = .ok "prevrandao" ∧
      (londonSample.names.enterDeclarations default {} londonProgram).map (·.outcome) =
        .ok (.ok true) ∧
      (londonSample.analyze none () londonProgram []).map (·.1.diagnostics) = .ok londonErrors := by
  decide +kernel

theorem exists_analyze_londonSample : ∃ fill outcome,
    londonSample.names.enterDeclarations default {} londonProgram = .ok fill ∧
      fill.outcome = .ok true ∧
      londonSample.analyze none () londonProgram [] = .ok (outcome, ()) ∧
      outcome.diagnostics = londonErrors := by
  obtain ⟨_, _, entered, analyzed⟩ := londonSample_answers
  obtain ⟨fill, enters, isEntered⟩ := Except.map_eq_ok_iff.mp entered
  obtain ⟨⟨outcome, _⟩, analyzed, told⟩ := Except.map_eq_ok_iff.mp analyzed
  exact ⟨fill, outcome, enters, isEntered, analyzed, told⟩

/-- Nothing binds the called names, and London has none of the two functions. -/
theorem lacksCalled_londonSample :
    let setting := (londonSample.checker []).setting
    let statements := [londonLoad, londonRandom]
    setting.LacksCalled .plain [.block statements []] ⟨3, .none, ⟨86⟩⟩ "tload" ∧
      setting.LacksCalled .plain [.block statements [londonLoad]] ⟨6, ⟨9, 19⟩, ⟨87⟩⟩ "prevrandao" := by
  intro setting statements
  obtain ⟨label, otherLabel, _⟩ := londonSample_answers
  have functions : ∀ label ∈ ["tload", "prevrandao"],
      ((Dialect.evm .plain .default).builtin? label).isSome = true ∧
        (Dialect.evm .plain setting.version).builtin? label = none := by
    decide +kernel
  obtain ⟨⟨known, isLacking⟩, others⟩ := List.forall_mem_cons.mp functions
  obtain ⟨otherKnown, otherLacking⟩ := List.forall_mem_singleton.mp others
  exact ⟨⟨rfl, label, known, isLacking⟩, ⟨rfl, otherLabel, otherKnown, otherLacking⟩⟩

theorem calls_londonProgram :
    let statements := [londonLoad, londonRandom]
    londonProgram.calls = [([.block statements []], ⟨3, .none, ⟨86⟩⟩),
      ([.block statements [londonLoad]], ⟨6, ⟨9, 19⟩, ⟨87⟩⟩)] := rfl

/-- The first function is told as one of an instruction that the target lacks, the other one as one that
is not found. -/
theorem lacking_calls_told_london : ∃ outcome,
    londonSample.analyze none () londonProgram [] = .ok (outcome, ()) ∧
      outcome.diagnostics.filter (·.concernsCallee) = londonErrors := by
  obtain ⟨fill, outcome, enters, isEntered, analyzed, _⟩ := exists_analyze_londonSample
  obtain ⟨first, second⟩ := lacksCalled_londonSample
  obtain ⟨isTold, lacking, _⟩ := lacking_calls_told isReachable_londonSample rfl rfl rfl
    (by decide : londonProgram.owners.Nodup) enters isEntered []
  have ofFirst := lacking _ _ _ first
  have ofSecond := lacking _ _ _ second
  rw [if_neg (by decide)] at ofFirst
  rw [if_pos rfl] at ofSecond
  obtain ⟨gate, closes, ofFirst⟩ := ofFirst
  have isLoad : gate = loadGate := by
    have onlyOne : ∀ gate ∈ Gate.all, Instruction.ofName? "tload" = some gate.instruction →
        gate = loadGate := by
      decide
    exact onlyOne gate closes.isGate closes.named
  subst isLoad
  refine ⟨outcome, analyzed, (isTold outcome analyzed).trans ?_⟩
  rw [calls_londonProgram, List.flatMap_cons, List.flatMap_singleton]
  dsimp only
  rw [ofFirst, ofSecond]
  rfl

/-- The call of `prevrandao` is not told as one of an instruction that the target lacks. -/
theorem not_lacking_calls_capability :
    ¬∀ (workspace : Workspace) (flavour : Dialect.EvmFlavour) (block : Block) (outcome : Outcome)
      (fill : DeclarationRun), workspace.IsReachable →
        workspace.settings.dialect = .evm flavour → flavour.isTyped = false →
          workspace.settings.errorLimit? = none → block.owners.Nodup →
            workspace.names.enterDeclarations default {} block = .ok fill → fill.outcome = .ok true →
              workspace.analyze none () block [] = .ok (outcome, ()) →
                ∀ environment callee label, (environment, callee) ∈ block.calls →
                  (workspace.checker []).setting.LacksCalled flavour environment callee label →
                    ∃ gate : Gate,
                      (Finding.unavailable gate workspace.settings.version).toDiagnostic
                        callee.span ∈ outcome.diagnostics := by
  intro isTold
  obtain ⟨fill, outcome, enters, isEntered, analyzed, told⟩ := exists_analyze_londonSample
  obtain ⟨gate, member⟩ := isTold londonSample .plain londonProgram outcome fill
    isReachable_londonSample rfl rfl rfl (by decide) enters isEntered analyzed _ _ _
    (calls_londonProgram ▸ List.mem_cons_of_mem _ List.mem_cons_self) lacksCalled_londonSample.2
  rw [told] at member
  rcases List.mem_cons.mp member with same | other
  · cases congrArg Diagnostic.span same
  · cases congrArg Diagnostic.category (List.mem_singleton.mp other)

end Workspace

end YulCheck
