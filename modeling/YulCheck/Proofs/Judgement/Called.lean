import YulCheck.Dialect.Tabulated
import YulCheck.Proofs.Judgement.Effects
import YulCheck.Proofs.Report.Appended

/-! # The functions of the dialect that a program calls

Effects are ordered by what they allow code to do. The effects that a run notes are the least that are
no weaker than those that were noted before and those of every function of the dialect that the program
calls. So neither the order of the calls nor their number matters, and neither does whether a call is
right.
-/

namespace YulCheck

/-! ### The order of effects -/

namespace Access

/-- How strong an access is. -/
def strength : Access → Nat
  | none => 0
  | read => 1
  | write => 2

theorem join_eq_right_iff {left right : Access} :
    left.join right = right ↔ left.strength ≤ right.strength := by
  cases left <;> cases right <;> decide

end Access

namespace SideEffects

/-- Whether code does no more than a bound allows: it can be moved and removed wherever code with the
effects of the bound can be, and has no stronger access to any state. -/
structure IsWithin (effects bound : SideEffects) : Prop where
  movable : bound.movable → effects.movable
  movableApartFromEffects : bound.movableApartFromEffects → effects.movableApartFromEffects
  removable : bound.removable → effects.removable
  removableIfNoMsize : bound.removableIfNoMsize → effects.removableIfNoMsize
  cannotLoop : bound.cannotLoop → effects.cannotLoop
  otherState : effects.otherState.strength ≤ bound.otherState.strength
  storage : effects.storage.strength ≤ bound.storage.strength
  memory : effects.memory.strength ≤ bound.memory.strength
  transientStorage : effects.transientStorage.strength ≤ bound.transientStorage.strength

/-- Effects are within a bound if they add nothing to it. -/
theorem isWithin_iff {effects bound : SideEffects} :
    effects.IsWithin bound ↔ effects.join bound = bound := by
  rw [join, SideEffects.mk.injEq]
  simp only [Bool.and_eq_right_iff_imp, Access.join_eq_right_iff]
  constructor <;> rintro ⟨a, b, c, d, e, f, g, h, i⟩ <;> exact ⟨a, b, c, d, e, f, g, h, i⟩

namespace IsWithin

variable {effects bound first second : SideEffects}

theorem refl (effects : SideEffects) : effects.IsWithin effects :=
  isWithin_iff.mpr (join_self effects)

theorem antisymm (within : first.IsWithin second) (around : second.IsWithin first) :
    first = second := by
  rw [← isWithin_iff.mp within, join_comm, isWithin_iff.mp around]

theorem join_left (within : effects.IsWithin bound) : effects.IsWithin (first.join bound) := by
  rw [isWithin_iff, ← join_assoc, join_comm effects, join_assoc, isWithin_iff.mp within]

theorem join_right (within : effects.IsWithin bound) : effects.IsWithin (bound.join second) :=
  join_comm second bound ▸ within.join_left

/-- The effects of two pieces of code are the least that are no weaker than those of each. -/
theorem join (left : first.IsWithin bound) (right : second.IsWithin bound) :
    (first.join second).IsWithin bound := by
  rw [isWithin_iff, join_assoc, isWithin_iff.mp right, isWithin_iff.mp left]

theorem joinAll {all : List SideEffects} (each : ∀ effects ∈ all, effects.IsWithin bound) :
    (joinAll all).IsWithin bound := by
  induction all with
  | nil => exact isWithin_iff.mpr (pure_join bound)
  | cons first rest ih =>
    have ofFirst : first.IsWithin bound := each first List.mem_cons_self
    exact ofFirst.join (ih fun effects member => each effects (List.mem_cons_of_mem _ member))

end IsWithin

theorem isWithin_joinAll {all : List SideEffects} {effects : SideEffects} (member : effects ∈ all) :
    effects.IsWithin (joinAll all) := by
  induction member with
  | head rest => exact (IsWithin.refl effects).join_right
  | tail first _ ih => exact ih.join_left

/-- How often and in which order pieces of code occur does not matter for their effects. -/
theorem joinAll_of_same_members {all others : List SideEffects}
    (same : ∀ effects, effects ∈ all ↔ effects ∈ others) : joinAll all = joinAll others :=
  IsWithin.antisymm (.joinAll fun effects member => isWithin_joinAll ((same effects).mp member))
    (.joinAll fun effects member => isWithin_joinAll ((same effects).mpr member))

theorem foldl_join (before : SideEffects) (all : List SideEffects) :
    all.foldl join before = before.join (joinAll all) := by
  induction all generalizing before with
  | nil => exact (join_pure before).symm
  | cons first rest ih =>
    rw [List.foldl_cons, ih, join_assoc]
    rfl

/-- What has no effects of its own can be left out. -/
theorem joinAll_map_getD {ι : Type} (effects? : ι → Option SideEffects) (all : List ι) :
    joinAll (all.map fun one => (effects? one).getD pure) = joinAll (all.filterMap effects?) := by
  induction all with
  | nil => rfl
  | cons one rest ih =>
    rw [List.map_cons, joinAll, List.foldr_cons]
    refine (congrArg (join _) ih).trans ?_
    cases found : effects? one with
    | none =>
      rw [List.filterMap_cons_none found]
      exact pure_join _
    | some effects =>
      rw [List.filterMap_cons_some found]
      rfl

end SideEffects

/-! ### Called functions -/

/-- The name of the function that an expression calls, if it is a call. -/
def Expression.callee? : Expression → Option Handle
  | .call _ _ callee _ => some callee.name
  | .literal _ | .identifier _ => none

/-- The names of the functions that are called in a block, at any depth. -/
def Block.called (block : Block) : List Handle :=
  (block.evaluated.flatMap (·.nodes)).filterMap (·.callee?)

namespace Setting

variable (setting : Setting)

/-- The function of the dialect that a name refers to, if there is one. -/
def builtin? (name : Handle) : Option BuiltinSignature :=
  match setting.names.builtin? name with
  | .ok found => found
  | .error _ => none

/-- The functions of the dialect that are called in a block, at any depth. -/
def calledBuiltins (block : Block) : List BuiltinSignature :=
  block.called.filterMap setting.builtin?

theorem nodeEffects_eq (node : Expression) :
    setting.nodeEffects node =
      ((node.callee?.bind setting.builtin?).map (·.function.effects)).getD .pure := by
  cases node with
  | literal | identifier => rfl
  | call id span callee arguments =>
    rw [nodeEffects, calleeEffects, Expression.callee?, Option.bind_some, builtin?]
    rcases setting.names.builtin? callee.name with fault | _ | builtin <;> rfl

/-- The effects of a program are those of the functions of the dialect that it calls. -/
theorem effectsOf_evaluated (block : Block) :
    setting.effectsOf block.evaluated =
      .joinAll ((setting.calledBuiltins block).map (·.function.effects)) := by
  have described : setting.nodeEffects = fun node =>
      ((node.callee?.bind setting.builtin?).map (·.function.effects)).getD .pure :=
    funext setting.nodeEffects_eq
  rw [effectsOf, described, SideEffects.joinAll_map_getD, calledBuiltins, Block.called,
    List.filterMap_filterMap, List.map_filterMap]

/-- A run adds the effects of the program if it enters the declarations and is not stopped. -/
theorem sideEffects_of_entered {setting : Setting} {place : Place} {host? : Option (Host σ)}
    {block : Block} {state entered after : RunState σ}
    (entering : (setting.enterDeclarations place block).run host? state = .ok (.ok true, entered))
    (ran : (setting.checkProgram place block).run host? state = .ok (.ok (), after)) :
    after.facts.sideEffects = state.facts.sideEffects.join (setting.effectsOf block.evaluated) := by
  obtain ⟨isFree, middle, first, rest⟩ := Run.bind_eq_ok_ok_iff.mp (Walk.run_bind host? _ _ ▸ ran)
  cases entering.symm.trans first
  rw [← (setting.notes_of_enterDeclarations place entering).2]
  exact addsEffects_checkBlock place block _ _ _ rest

end Setting

/-! ### Runs -/

namespace Checker

/-- Whether a check of a block enters its declarations, is not stopped, and hands back an analysis. -/
structure Finishes (checker : Checker) (reporter : Reporter) (facts : Facts) (block : Block)
    (analysis : Analysis Unit) : Prop where
  isEntered : ∃ entered,
    (checker.setting.enterDeclarations (checker.place block) block).run none
      (checker.start reporter facts ()) = .ok (.ok true, entered)
  notStopped : ∃ state, checker.runOver none reporter facts () block = .ok (.ok (), state)
  analyzed : checker.analyze none reporter facts () block = .ok analysis

variable {checker : Checker} {reporter : Reporter} {facts : Facts} {block : Block}
  {analysis : Analysis Unit}

theorem Finishes.sideEffects (finishes : checker.Finishes reporter facts block analysis) :
    analysis.facts.sideEffects = facts.sideEffects.join
      (.joinAll ((checker.setting.calledBuiltins block).map (·.function.effects))) := by
  obtain ⟨entered, entering⟩ := finishes.isEntered
  obtain ⟨state, ran⟩ := finishes.notStopped
  cases (analyze_of_runOver Host.onlyReports_none ran).symm.trans finishes.analyzed
  rw [← checker.setting.effectsOf_evaluated]
  exact Setting.sideEffects_of_entered entering ran

/-- The effects that a check notes, whatever its verdict, are those that were noted before together
with those of all functions of the dialect that are called in the program: each at least once and in
any order. They are no weaker than those of any of the functions, and the same as those of every other
program that calls the same ones. -/
theorem sideEffects_eq_foldl_called (finishes : checker.Finishes reporter facts block analysis) :
    (∀ functions : List BuiltinSignature,
      (∀ function, function ∈ functions ↔ function ∈ checker.setting.calledBuiltins block) →
        analysis.facts.sideEffects =
          (functions.map (·.function.effects)).foldl .join facts.sideEffects) ∧
      (∀ function ∈ checker.setting.calledBuiltins block,
        function.function.effects.IsWithin analysis.facts.sideEffects) ∧
      ∀ other otherAnalysis, checker.Finishes reporter facts other otherAnalysis →
        (∀ function, function ∈ checker.setting.calledBuiltins other ↔
          function ∈ checker.setting.calledBuiltins block) →
          otherAnalysis.facts.sideEffects = analysis.facts.sideEffects := by
  have sameEffects {functions : List BuiltinSignature}
      (same : ∀ function, function ∈ functions ↔ function ∈ checker.setting.calledBuiltins block) :
      SideEffects.joinAll (functions.map (·.function.effects)) =
        .joinAll ((checker.setting.calledBuiltins block).map (·.function.effects)) :=
    SideEffects.joinAll_of_same_members fun effects => by simp only [List.mem_map, same]
  refine ⟨fun functions same => ?_, fun function member => ?_, fun other otherAnalysis ends same => ?_⟩
  · rw [SideEffects.foldl_join, sameEffects same, finishes.sideEffects]
  · have isCalled : function.function.effects ∈
        (checker.setting.calledBuiltins block).map (·.function.effects) := List.mem_map_of_mem member
    rw [finishes.sideEffects]
    exact (SideEffects.isWithin_joinAll isCalled).join_left
  · rw [ends.sideEffects, sameEffects same, finishes.sideEffects]

/-- A dialect with a function that writes to the storage and one that reads from it. -/
def storageTables : DialectTables where
  types := [""]
  defaultType := ""
  boolType := ""
  functions :=
    [{ Builtin.untyped "store" 2 0 with effects := { SideEffects.changing with storage := .write } },
      { Builtin.untyped "load" 1 1 with effects := { SideEffects.observing with storage := .read } }]
  names? := none
  negation? := none
  operations := fun _ => []
  hashes := []
  version? := none

/-- A program that calls both functions without arguments is wrong, and has the effects of both in any
order. -/
theorem sideEffects_of_wrong_calls :
    let names := NameTable.ofDialect storageTables.toDialect
    let checker : Checker := { setting := .ofNames names [] }
    let block : Block := .mk 0 .none
      [.expression .none (.call 2 .none ⟨1, .none, names.builtinNamed "store"⟩ []),
        .expression .none (.call 4 .none ⟨3, .none, names.builtinNamed "load"⟩ [])]
    ∃ analysis, checker.Finishes default {} block analysis ∧ analysis.isCorrect = false ∧
      analysis.facts.sideEffects = ((checker.setting.calledBuiltins block).reverse.map
        (·.function.effects)).foldl .join .pure ∧
      (checker.setting.calledBuiltins block).map (·.function.name) = ["store", "load"] := by
  intro names checker block
  obtain ⟨enters, ends, rejected, called⟩ :
      ((checker.setting.enterDeclarations (checker.place block) block).run none
          (checker.start default {} ())).map (·.1) = .ok (.ok true) ∧
        (checker.runOver none default {} () block).map (·.1) = .ok (.ok ()) ∧
        (checker.analyze none default {} () block).map (·.isCorrect) = .ok false ∧
        (checker.setting.calledBuiltins block).map (·.function.name) = ["store", "load"] := by
    decide +kernel
  obtain ⟨⟨_, entered⟩, entering, rfl⟩ := Except.map_eq_ok_iff.mp enters
  obtain ⟨⟨_, state⟩, ran, rfl⟩ := Except.map_eq_ok_iff.mp ends
  obtain ⟨analysis, analyzed, isWrong⟩ := Except.map_eq_ok_iff.mp rejected
  have finishes : checker.Finishes default {} block analysis :=
    ⟨⟨entered, entering⟩, ⟨state, ran⟩, analyzed⟩
  refine ⟨analysis, finishes, isWrong, ?_, called⟩
  exact (sideEffects_eq_foldl_called finishes).1 _ fun function => List.mem_reverse

end Checker

end YulCheck
