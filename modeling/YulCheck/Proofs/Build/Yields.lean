import YulCheck.Proofs.Build.Tree
import YulCheck.Source.Elaborate

/-! # Steps of elaborations

Every step of an elaboration leaves a name table that is ready if it was ready before, and makes parts
of a tree in which checking finds all that it relies on. `Elaborate.Yields` tells that of one step; it
holds of steps one after another if what the first of them makes stays what it is.
-/

namespace YulCheck

variable {dialect : Dialect} {α β : Type}

/-- Whether an elaboration has gone on to another state with a table that is ready. -/
structure Elaboration.Extends (dialect : Dialect) (state after : Elaboration) : Prop where
  ready : after.table.IsReady dialect
  grows : state.table.Grows after.table
  nextId : state.nextId ≤ after.nextId
  /-- If programs can have the first table, then they can have the last one. -/
  reaches : state.table.Reachable dialect → after.table.Reachable dialect

namespace Elaboration.Extends

variable {state middle after : Elaboration}

/-- Elaborations may go on without new names. -/
theorem of_same (ready : state.table.IsReady dialect) (same : after.table = state.table)
    (nextId : state.nextId ≤ after.nextId) : state.Extends dialect after :=
  ⟨same ▸ ready, same ▸ .refl _, nextId, fun reachable => same ▸ reachable⟩

theorem refl (ready : state.table.IsReady dialect) : state.Extends dialect state :=
  .of_same ready rfl (Nat.le_refl _)

theorem trans (first : state.Extends dialect middle) (second : middle.Extends dialect after) :
    state.Extends dialect after :=
  ⟨second.ready, first.grows.trans second.grows, Nat.le_trans first.nextId second.nextId,
    fun reachable => second.reaches (first.reaches reachable)⟩

theorem keepsBuilt (isExtended : state.Extends dialect after)
    (ready : state.table.IsReady dialect) : state.table.KeepsBuilt after.table :=
  isExtended.grows.keepsBuilt ready.back

end Elaboration.Extends

/-- Whether a step of an elaboration leaves a table that is ready, and has a result with a property
there. -/
structure Elaborate.Yields (dialect : Dialect) (make : Elaborate α) (state : Elaboration)
    (property : α → Elaboration → Prop) : Prop where
  isExtended : state.Extends dialect (make.run state).2
  holds : property (make.run state).1 (make.run state).2

/-- Whether a property of results stays true in elaborations that go on. -/
def Elaboration.Lasts (dialect : Dialect) (property : α → Elaboration → Prop) : Prop :=
  ∀ (result : α) (state after : Elaboration), state.table.IsReady dialect →
    state.Extends dialect after → property result state → property result after

namespace Elaborate

open Elaboration

variable {make : Elaborate α} {next : α → Elaborate β} {state : Elaboration}
  {property weaker : α → Elaboration → Prop} {last : β → Elaboration → Prop}

namespace Yields

theorem imp (yields : Yields dialect make state property)
    (implies : ∀ result after, property result after → weaker result after) :
    Yields dialect make state weaker :=
  ⟨yields.isExtended, implies _ _ yields.holds⟩

theorem pure (ready : state.table.IsReady dialect) {result : α} (holds : property result state) :
    Yields dialect (pure result) state property :=
  ⟨.refl ready, holds⟩

theorem bind (first : Yields dialect make state property)
    (rest : ∀ result middle, state.Extends dialect middle → property result middle →
      Yields dialect (next result) middle last) :
    Yields dialect (make >>= next) state last :=
  have second := rest _ _ first.isExtended first.holds
  ⟨first.isExtended.trans second.isExtended, second.holds⟩

/-- A step with a result that is made of the first one. -/
theorem map (first : Yields dialect make state property) {change : α → β}
    (implies : ∀ result after, property result after → last (change result) after) :
    Yields dialect (change <$> make) state last :=
  ⟨first.isExtended, implies _ _ first.holds⟩

/-- A step with a result that is made of the first one and of what was there before. -/
theorem map_of_extends (first : Yields dialect make state property) {change : α → β}
    (implies : ∀ result after, state.Extends dialect after → property result after →
      last (change result) after) :
    Yields dialect (change <$> make) state last :=
  ⟨first.isExtended, implies _ _ first.isExtended first.holds⟩

/-- Steps one after another, with results that all have a lasting property. -/
theorem mapM {make : α → Elaborate β} {elements : List α}
    (each : ∀ element ∈ elements, ∀ after, state.Extends dialect after →
      Yields dialect (make element) after last)
    (ready : state.table.IsReady dialect) (lasts : Lasts dialect last) :
    Yields dialect (elements.mapM make) state fun results after =>
      results.length = elements.length ∧ ∀ result ∈ results, last result after := by
  induction elements generalizing state with
  | nil => exact pure ready ⟨rfl, nofun⟩
  | cons element rest ih =>
    rw [List.mapM_cons]
    rw [List.forall_mem_cons] at each
    refine (each.1 state (.refl ready)).bind fun first middle isExtended firstHolds => ?_
    refine (ih (fun other member after later => each.2 other member after (isExtended.trans later))
      isExtended.ready).bind fun results after later others => ?_
    refine pure later.ready ⟨congrArg (· + 1) others.1, ?_⟩
    rw [List.forall_mem_cons]
    exact ⟨lasts first middle after isExtended.ready later firstHolds, others.2⟩

end Yields

/-! ### Single steps -/

theorem yields_get (ready : state.table.IsReady dialect) :
    Yields dialect get state fun result after => result = state ∧ after = state :=
  ⟨.refl ready, rfl, rfl⟩

theorem yields_freshId (ready : state.table.IsReady dialect) :
    Yields dialect freshId state fun id after => state.nextId ≤ id ∧ id < after.nextId where
  isExtended := .of_same ready rfl (Nat.le_succ _)
  holds := ⟨Nat.le_refl _, Nat.lt_succ_self _⟩

theorem yields_currentSpan (ready : state.table.IsReady dialect) :
    Yields dialect currentSpan state fun _ _ => True :=
  ⟨.refl ready, trivial⟩

theorem yields_locate (ready : state.table.IsReady dialect) (location : Option Source.Location) :
    Yields dialect (locate location) state fun _ _ => True := by
  cases location with
  | none => exact Yields.pure ready trivial
  | some location => exact ⟨.of_same ready rfl (Nat.le_refl _), trivial⟩

variable (regular : dialect.IsRegular)

include regular

/-- A label is given a name that is named, and not empty if the label is not. -/
theorem yields_define (ready : state.table.IsReady dialect) (label : String) :
    Yields dialect (define label) state fun name after =>
      after.table.HasLabel name ∧ (label ≠ "" → name ≠ .empty) := by
  have defined := ready.define regular label
  obtain ⟨_, isNamed, notEmpty⟩ := ready.toIsOrderly.define label
  exact ⟨⟨defined, NameTable.grows_define state.table label, Nat.le_refl _, (.define · label)⟩,
    defined.hasLabel_of_named isNamed, notEmpty⟩

omit regular in
theorem run_typeLabel (label : String) (state : Elaboration) :
    (typeLabel label).run state =
      if label.isEmpty = true then (state.table.predefined.defaultType, state)
      else if (state.table.typeNamed label).isEmpty = true then (define label).run state
      else (state.table.typeNamed label, state) := by
  show (if label.isEmpty = true then pure state.table.predefined.defaultType
    else if (state.table.typeNamed label).isEmpty = true then define label
    else pure (state.table.typeNamed label) : Elaborate TypeHandle).run state = _
  split
  · rfl
  · split <;> rfl

theorem yields_typeLabel (ready : state.table.IsReady dialect) (label : String) :
    Yields dialect (typeLabel label) state fun type after => after.table.HasLabel type := by
  have ran := run_typeLabel label state
  split at ran
  · constructor <;> rw [ran]
    · exact .refl ready
    · exact ready.hasLabel_of_isType ready.defaultType
  · split at ran
    · have defined := yields_define regular ready label
      constructor <;> rw [ran]
      · exact defined.isExtended
      · exact defined.holds.1
    · rename_i isNamed
      constructor <;> rw [ran]
      · exact .refl ready
      · exact ready.hasLabel_typeNamed fun isEmpty => isNamed (Handle.isEmpty_iff.mpr isEmpty)

end Elaborate

end YulCheck
