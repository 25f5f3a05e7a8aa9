import YulCheck.Evm.Effects
import YulCheck.Evm.Version

/-! # EVM instructions

The instructions of the EVM with their names, the number of their inputs and outputs on the stack,
their side effects, and the versions that have them.
-/

namespace YulCheck

/-- An instruction of the EVM. The numbered families are `push` 1 to 32, `dup` 1 to 16, `swap` 1 to
16 and `log` 0 to 4; the instruction `return` is `ret`. -/
inductive Instruction
  | stop | add | mul | sub | div | sdiv | mod | smod | addmod | mulmod | exp | signextend | lt
  | gt | slt | sgt | eq | iszero | and | or | xor | not | byte | shl | shr | sar | keccak256
  | address | balance | origin | caller | callvalue | calldataload | calldatasize | calldatacopy
  | codesize | codecopy | gasprice | extcodesize | extcodecopy | returndatasize | returndatacopy
  | extcodehash | blockhash | coinbase | timestamp | number | difficulty | prevrandao | gaslimit
  | chainid | selfbalance | basefee | blobhash | blobbasefee | pop | mload | mstore | mstore8
  | sload | sstore | jump | jumpi | pc | msize | gas | jumpdest | tload | tstore | mcopy | push0
  | create | call | callcode | ret | delegatecall | create2 | staticcall | revert | invalid
  | selfdestruct
  | push (bytes : Nat) | dup (depth : Nat) | swap (depth : Nat) | log (topics : Nat)
deriving DecidableEq, Repr

/-- How an instruction is written, and the number of its inputs and outputs on the stack. -/
structure InstructionSignature where
  name : String
  inputs : Nat
  outputs : Nat
deriving DecidableEq, Repr

namespace Instruction

/-- The instructions that do not belong to a numbered family. -/
def single : List Instruction :=
  [stop, add, mul, sub, div, sdiv, mod, smod, addmod, mulmod, exp, signextend, lt, gt, slt, sgt,
    eq, iszero, and, or, xor, not, byte, shl, shr, sar, keccak256, address, balance, origin,
    caller, callvalue, calldataload, calldatasize, calldatacopy, codesize, codecopy, gasprice,
    extcodesize, extcodecopy, returndatasize, returndatacopy, extcodehash, blockhash, coinbase,
    timestamp, number, difficulty, prevrandao, gaslimit, chainid, selfbalance, basefee, blobhash,
    blobbasefee, pop, mload, mstore, mstore8, sload, sstore, jump, jumpi, pc, msize, gas, jumpdest,
    tload, tstore, mcopy, push0, create, call, callcode, ret, delegatecall, create2, staticcall,
    revert, invalid, selfdestruct]

/-- The numbered instructions of a family, from the first number to the last. -/
def family (member : Nat → Instruction) (first last : Nat) : List Instruction :=
  (List.range (last + 1 - first)).map fun offset => member (first + offset)

/-- All instructions. -/
def all : List Instruction :=
  single ++ family push 1 32 ++ family dup 1 16 ++ family swap 1 16 ++ family log 0 4

/-- The name and arity of an instruction. -/
def signature : Instruction → InstructionSignature
  | stop => ⟨"stop", 0, 0⟩
  | add => ⟨"add", 2, 1⟩
  | mul => ⟨"mul", 2, 1⟩
  | sub => ⟨"sub", 2, 1⟩
  | div => ⟨"div", 2, 1⟩
  | sdiv => ⟨"sdiv", 2, 1⟩
  | mod => ⟨"mod", 2, 1⟩
  | smod => ⟨"smod", 2, 1⟩
  | addmod => ⟨"addmod", 3, 1⟩
  | mulmod => ⟨"mulmod", 3, 1⟩
  | exp => ⟨"exp", 2, 1⟩
  | signextend => ⟨"signextend", 2, 1⟩
  | lt => ⟨"lt", 2, 1⟩
  | gt => ⟨"gt", 2, 1⟩
  | slt => ⟨"slt", 2, 1⟩
  | sgt => ⟨"sgt", 2, 1⟩
  | eq => ⟨"eq", 2, 1⟩
  | iszero => ⟨"iszero", 1, 1⟩
  | and => ⟨"and", 2, 1⟩
  | or => ⟨"or", 2, 1⟩
  | xor => ⟨"xor", 2, 1⟩
  | not => ⟨"not", 1, 1⟩
  | byte => ⟨"byte", 2, 1⟩
  | shl => ⟨"shl", 2, 1⟩
  | shr => ⟨"shr", 2, 1⟩
  | sar => ⟨"sar", 2, 1⟩
  | keccak256 => ⟨"keccak256", 2, 1⟩
  | address => ⟨"address", 0, 1⟩
  | balance => ⟨"balance", 1, 1⟩
  | origin => ⟨"origin", 0, 1⟩
  | caller => ⟨"caller", 0, 1⟩
  | callvalue => ⟨"callvalue", 0, 1⟩
  | calldataload => ⟨"calldataload", 1, 1⟩
  | calldatasize => ⟨"calldatasize", 0, 1⟩
  | calldatacopy => ⟨"calldatacopy", 3, 0⟩
  | codesize => ⟨"codesize", 0, 1⟩
  | codecopy => ⟨"codecopy", 3, 0⟩
  | gasprice => ⟨"gasprice", 0, 1⟩
  | extcodesize => ⟨"extcodesize", 1, 1⟩
  | extcodecopy => ⟨"extcodecopy", 4, 0⟩
  | returndatasize => ⟨"returndatasize", 0, 1⟩
  | returndatacopy => ⟨"returndatacopy", 3, 0⟩
  | extcodehash => ⟨"extcodehash", 1, 1⟩
  | blockhash => ⟨"blockhash", 1, 1⟩
  | coinbase => ⟨"coinbase", 0, 1⟩
  | timestamp => ⟨"timestamp", 0, 1⟩
  | number => ⟨"number", 0, 1⟩
  | difficulty => ⟨"difficulty", 0, 1⟩
  | prevrandao => ⟨"prevrandao", 0, 1⟩
  | gaslimit => ⟨"gaslimit", 0, 1⟩
  | chainid => ⟨"chainid", 0, 1⟩
  | selfbalance => ⟨"selfbalance", 0, 1⟩
  | basefee => ⟨"basefee", 0, 1⟩
  | blobhash => ⟨"blobhash", 1, 1⟩
  | blobbasefee => ⟨"blobbasefee", 0, 1⟩
  | pop => ⟨"pop", 1, 0⟩
  | mload => ⟨"mload", 1, 1⟩
  | mstore => ⟨"mstore", 2, 0⟩
  | mstore8 => ⟨"mstore8", 2, 0⟩
  | sload => ⟨"sload", 1, 1⟩
  | sstore => ⟨"sstore", 2, 0⟩
  | jump => ⟨"jump", 1, 0⟩
  | jumpi => ⟨"jumpi", 2, 0⟩
  | pc => ⟨"pc", 0, 1⟩
  | msize => ⟨"msize", 0, 1⟩
  | gas => ⟨"gas", 0, 1⟩
  | jumpdest => ⟨"jumpdest", 0, 0⟩
  | tload => ⟨"tload", 1, 1⟩
  | tstore => ⟨"tstore", 2, 0⟩
  | mcopy => ⟨"mcopy", 3, 0⟩
  | push0 => ⟨"push0", 0, 1⟩
  | create => ⟨"create", 3, 1⟩
  | call => ⟨"call", 7, 1⟩
  | callcode => ⟨"callcode", 7, 1⟩
  | ret => ⟨"return", 2, 0⟩
  | delegatecall => ⟨"delegatecall", 6, 1⟩
  | create2 => ⟨"create2", 4, 1⟩
  | staticcall => ⟨"staticcall", 6, 1⟩
  | revert => ⟨"revert", 2, 0⟩
  | invalid => ⟨"invalid", 0, 0⟩
  | selfdestruct => ⟨"selfdestruct", 1, 0⟩
  | push bytes => ⟨s!"push{bytes}", 0, 1⟩
  | dup depth => ⟨s!"dup{depth}", depth, depth + 1⟩
  | swap depth => ⟨s!"swap{depth}", depth + 1, depth + 1⟩
  | log topics => ⟨s!"log{topics}", topics + 2, 0⟩

/-- How an instruction is written. -/
def name (instruction : Instruction) : String := instruction.signature.name

/-- The instruction of a name. -/
def ofName? (name : String) : Option Instruction := all.find? (·.name = name)

/-! ### Families -/

/-- Whether a constant is put on the stack. -/
def isPush : Instruction → Bool
  | push0 | push _ => true
  | _ => false

/-- Whether an element of the stack is copied. -/
def isDup : Instruction → Bool
  | dup _ => true
  | _ => false

/-- Whether two elements of the stack are exchanged. -/
def isSwap : Instruction → Bool
  | swap _ => true
  | _ => false

/-- Whether the instruction is about jumps. -/
def isJump : Instruction → Bool
  | jump | jumpi | jumpdest => true
  | _ => false

/-! ### Effects -/

/-- Whether the program ends with this instruction. -/
def isTerminating : Instruction → Bool
  | stop | ret | revert | invalid | selfdestruct => true
  | _ => false

/-- Whether all changes are undone. -/
def isReverting : Instruction → Bool
  | revert | invalid => true
  | _ => false

/-- How an instruction leaves the control flow. -/
def controlFlow (instruction : Instruction) : ControlFlow :=
  if instruction.isTerminating then
    ⟨!instruction.isReverting, instruction.isReverting, false⟩
  else .continuing

open SideEffects in
/-- What an instruction may do to the state of the machine. -/
def sideEffects : Instruction → SideEffects
  | balance | extcodesize | extcodehash | selfbalance | returndatasize =>
    { observing with otherState := .read }
  | mload | keccak256 => { observing with memory := .read }
  | sload => { observing with storage := .read }
  | tload => { observing with transientStorage := .read }
  | gas | pc => { observing with movableApartFromEffects := false, otherState := .read }
  | msize => { observing with movableApartFromEffects := false, memory := .read }
  | mstore | mstore8 | calldatacopy | codecopy | mcopy => { changing with memory := .write }
  | extcodecopy | returndatacopy => { changing with otherState := .read, memory := .write }
  | sstore => { changing with storage := .write }
  | tstore => { changing with transientStorage := .write }
  | log _ => { changing with otherState := .write, memory := .read }
  | ret | revert => { changing with movableApartFromEffects := false, memory := .write }
  | stop | invalid | selfdestruct =>
    { changing with movableApartFromEffects := false, otherState := .write }
  | create | create2 | call | callcode | delegatecall | staticcall | jump | jumpi | jumpdest => worst
  | _ => pure

/-! ### Availability -/

/-- The capability without which an instruction does not exist. The instructions `difficulty` and
`prevrandao` share one operation code, so neither of them depends on a capability. -/
def capability? : Instruction → Option Capability
  | returndatacopy | returndatasize => some .returndata
  | staticcall => some .staticCall
  | shl | shr | sar => some .bitwiseShifting
  | create2 => some .create2
  | extcodehash => some .extCodeHash
  | chainid => some .chainId
  | selfbalance => some .selfBalance
  | basefee => some .baseFee
  | push0 => some .push0
  | blobhash => some .blobHash
  | blobbasefee => some .blobBaseFee
  | mcopy => some .mcopy
  | tload | tstore => some .transientStorage
  | _ => none

/-- Whether a version has the operation code of an instruction. -/
def isIn (instruction : Instruction) (version : EvmVersion) : Bool :=
  instruction.capability?.all version.supports

/-- Whether an instruction can be called as a function. Programs never handle the stack or jump
themselves, and the version decides which name the operation code of `prevrandao` has. -/
def isCallable (instruction : Instruction) (version : EvmVersion) : Bool :=
  !(instruction.isPush || instruction.isDup || instruction.isSwap || instruction.isJump)
    && instruction.isIn version
    && match instruction with
      | prevrandao => version.supports .prevRandao
      | difficulty => !version.supports .prevRandao
      | _ => true

/-- The capability before which the name of an instruction is free for other use. -/
def reservedSince? : Instruction → Option Capability
  | basefee => some .baseFee
  | prevrandao => some .prevRandao
  | blobhash => some .blobHash
  | blobbasefee => some .blobBaseFee
  | mcopy => some .mcopy
  | tstore | tload => some .transientStorage
  | _ => none

/-- Whether the name of an instruction is reserved in a version. -/
def isReservedIn (instruction : Instruction) (version : EvmVersion) : Bool :=
  instruction.reservedSince?.all version.supports

end Instruction

end YulCheck
