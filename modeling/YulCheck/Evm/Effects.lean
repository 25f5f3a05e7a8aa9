/-! # Side effects

What a builtin function may do to the state of the machine, and how it may leave the control flow.
-/

namespace YulCheck

/-- How one kind of state may be accessed. -/
inductive Access
  | none
  | read
  | write
deriving DecidableEq, Repr

namespace Access

/-- The name of an access. -/
def name : Access → String
  | none => "none"
  | read => "read"
  | write => "write"

/-- The stronger of two accesses. -/
def join : Access → Access → Access
  | write, _ | _, write => write
  | read, _ | _, read => read
  | none, none => none

theorem join_comm (left right : Access) : left.join right = right.join left := by
  cases left <;> cases right <;> rfl

theorem join_assoc (first second third : Access) :
    (first.join second).join third = first.join (second.join third) := by
  cases first <;> cases second <;> cases third <;> rfl

@[simp]
theorem join_self (access : Access) : access.join access = access := by
  cases access <;> rfl

@[simp]
theorem none_join (access : Access) : none.join access = access := by
  cases access <;> rfl

end Access

/-- What code may do to the state of the machine. -/
structure SideEffects where
  /-- The code can be moved and duplicated freely. -/
  movable : Bool
  /-- The code can be moved where the accesses below allow it. -/
  movableApartFromEffects : Bool
  /-- The code can be removed where its result is not used. -/
  removable : Bool
  /-- The code can be removed where nothing observes the size of the memory. -/
  removableIfNoMsize : Bool
  /-- The code does not loop. -/
  cannotLoop : Bool
  otherState : Access
  storage : Access
  memory : Access
  transientStorage : Access
deriving DecidableEq, Repr

namespace SideEffects

/-- Code that depends on nothing and changes nothing. -/
def pure : SideEffects := ⟨true, true, true, true, true, .none, .none, .none, .none⟩

/-- Code that may do anything. -/
def worst : SideEffects :=
  ⟨false, false, false, false, false, .write, .write, .write, .write⟩

instance : Inhabited SideEffects := ⟨pure⟩

/-- The effects of two pieces of code together. -/
def join (left right : SideEffects) : SideEffects where
  movable := left.movable && right.movable
  movableApartFromEffects := left.movableApartFromEffects && right.movableApartFromEffects
  removable := left.removable && right.removable
  removableIfNoMsize := left.removableIfNoMsize && right.removableIfNoMsize
  cannotLoop := left.cannotLoop && right.cannotLoop
  otherState := left.otherState.join right.otherState
  storage := left.storage.join right.storage
  memory := left.memory.join right.memory
  transientStorage := left.transientStorage.join right.transientStorage

theorem join_comm (left right : SideEffects) : left.join right = right.join left := by
  simp only [join, Bool.and_comm, Access.join_comm]

theorem join_assoc (first second third : SideEffects) :
    (first.join second).join third = first.join (second.join third) := by
  simp only [join, Bool.and_assoc, Access.join_assoc]

@[simp]
theorem join_self (effects : SideEffects) : effects.join effects = effects := by
  simp only [join, Bool.and_self, Access.join_self]

@[simp]
theorem pure_join (effects : SideEffects) : pure.join effects = effects := by
  simp only [join, pure, Bool.true_and, Access.none_join]

/-- Code that observes state: it cannot be moved freely. -/
def observing : SideEffects := { pure with movable := false }

/-- Code that changes state: it can be neither moved freely nor removed. -/
def changing : SideEffects :=
  { pure with movable := false, removable := false, removableIfNoMsize := false }

end SideEffects

/-- How code may leave the current control flow. -/
structure ControlFlow where
  canTerminate : Bool
  canRevert : Bool
  canContinue : Bool
deriving DecidableEq, Repr

namespace ControlFlow

/-- Code that always goes on with what follows it. -/
def continuing : ControlFlow := ⟨false, false, true⟩

instance : Inhabited ControlFlow := ⟨continuing⟩

end ControlFlow

end YulCheck
