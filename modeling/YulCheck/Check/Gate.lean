import YulCheck.Evm.Instruction

/-! # Gated instructions

The instructions that exist only from some version on, as checking knows them: a table of its own, apart
from the one that tells which operation codes a version has. Both agree on all instructions that programs
can call.
-/

namespace YulCheck

/-- An instruction that exists only from some version on. -/
structure Gate where
  instruction : Instruction
  /-- What a version has to support that has the instruction. -/
  capability : Capability
  /-- The number that is reported if the target does not have the instruction. -/
  code : Nat
  /-- The name of the first version with the instruction, as messages give it. -/
  fork : String
deriving DecidableEq, Repr

namespace Gate

/-- The gated instructions. -/
def all : List Gate :=
  [⟨.returndatacopy, .returndata, 7756, "Byzantium"⟩,
    ⟨.returndatasize, .returndata, 4778, "Byzantium"⟩,
    ⟨.staticcall, .staticCall, 1503, "Byzantium"⟩,
    ⟨.shl, .bitwiseShifting, 6612, "Constantinople"⟩,
    ⟨.shr, .bitwiseShifting, 7458, "Constantinople"⟩,
    ⟨.sar, .bitwiseShifting, 2054, "Constantinople"⟩,
    ⟨.create2, .create2, 6166, "Constantinople"⟩,
    ⟨.extcodehash, .extCodeHash, 7110, "Constantinople"⟩,
    ⟨.chainid, .chainId, 1561, "Istanbul"⟩,
    ⟨.selfbalance, .selfBalance, 7721, "Istanbul"⟩,
    ⟨.basefee, .baseFee, 5430, "London"⟩,
    ⟨.blobbasefee, .blobBaseFee, 6679, "Cancun"⟩,
    ⟨.blobhash, .blobHash, 8314, "Cancun"⟩,
    ⟨.mcopy, .mcopy, 7755, "Cancun"⟩,
    ⟨.tstore, .transientStorage, 6243, "Cancun"⟩,
    ⟨.tload, .transientStorage, 6243, "Cancun"⟩]

/-- The gate that keeps a version from an instruction. -/
def barring? (version : EvmVersion) (instruction : Instruction) : Option Gate :=
  all.find? fun gate => gate.instruction = instruction && !version.supports gate.capability

variable {gate : Gate} {instruction : Instruction} {version : EvmVersion} {capability : Capability}

/-- Messages name the version that introduced the instruction. -/
theorem fork_of_mem (isGate : gate ∈ all) : gate.fork = gate.capability.since.title := by
  have names : ∀ gate ∈ all, gate.fork = gate.capability.since.title := by decide
  exact names gate isGate

/-! ### Agreement with the operation codes -/

theorem capability?_of_mem (isGate : gate ∈ all) :
    gate.instruction.capability? = some gate.capability := by
  have needs : ∀ gate ∈ all, gate.instruction.capability? = some gate.capability := by decide
  exact needs gate isGate

/-- Every instruction that can be called and needs a capability has a gate. -/
theorem exists_of_capability? (isCallable : instruction.isCallable version = true)
    (needed : instruction.capability? = some capability) :
    ∃ gate ∈ all, gate.instruction = instruction ∧ gate.capability = capability := by
  cases instruction with
  | push0 => cases isCallable
  | _ => cases needed <;> decide

/-- No instruction has two gates. -/
theorem eq_of_instruction_eq {other : Gate} (isGate : gate ∈ all) (isOther : other ∈ all)
    (same : gate.instruction = other.instruction) : gate = other := by
  have distinct : ∀ gate ∈ all, ∀ other ∈ all, gate.instruction = other.instruction → gate = other := by
    decide
  exact distinct gate isGate other isOther same

/-- A gate keeps a version from its instruction if the version lacks what the gate asks for. -/
theorem barring?_eq_some_iff :
    barring? version instruction = some gate ↔
      gate ∈ all ∧ gate.instruction = instruction ∧ version.supports gate.capability = false := by
  have passes (other : Gate) :
      (decide (other.instruction = instruction) && !version.supports other.capability) = true ↔
        other.instruction = instruction ∧ version.supports other.capability = false := by
    rw [Bool.and_eq_true, decide_eq_true_iff, Bool.not_eq_true']
  have isFirst {first : Gate} (isBarring : barring? version instruction = some first) :
      first.instruction = instruction ∧ version.supports first.capability = false := by
    have isPassed := List.find?_some isBarring
    exact (passes first).mp isPassed
  constructor
  · exact fun isBarring => ⟨List.mem_of_find?_eq_some isBarring, isFirst isBarring⟩
  · rintro ⟨isGate, isBarred⟩
    cases found : barring? version instruction with
    | none => exact absurd ((passes gate).mpr isBarred) (List.find?_eq_none.mp found gate isGate)
    | some other =>
      have isOther := List.mem_of_find?_eq_some found
      have sameInstruction := (isFirst found).1.trans isBarred.1.symm
      rw [eq_of_instruction_eq isOther isGate sameInstruction]

/-- Both tables agree on the instructions that can be called in some version: one is gated exactly where
its operation code is missing. Only `push0`, which cannot be called, has an operation code of its own and
no gate. -/
theorem barring?_eq_none_iff {other : EvmVersion} (isCallable : instruction.isCallable other = true) :
    barring? version instruction = none ↔ instruction.isIn version = true := by
  rw [barring?, List.find?_eq_none, Instruction.isIn]
  constructor
  · intro noGate
    cases needed : instruction.capability? with
    | none => rfl
    | some capability =>
      obtain ⟨gate, isGate, rfl, rfl⟩ := exists_of_capability? isCallable needed
      have isOpen := noGate gate isGate
      rwa [decide_eq_true rfl, Bool.true_and, Bool.not_eq_true', Bool.not_eq_false] at isOpen
  · intro isIn gate isGate isBarring
    rw [Bool.and_eq_true, decide_eq_true_iff, Bool.not_eq_true'] at isBarring
    obtain ⟨rfl, isMissing⟩ := isBarring
    rw [capability?_of_mem isGate, Option.all_some, isMissing] at isIn
    cases isIn

end Gate

end YulCheck
