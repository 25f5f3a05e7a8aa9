import YulCheck.Fault

/-! # EVM versions

The hard forks of the EVM in the order of their release, and what each of them introduced.
-/

namespace YulCheck

/-- A version of the EVM. -/
inductive EvmVersion
  | homestead
  | tangerineWhistle
  | spuriousDragon
  | byzantium
  | constantinople
  | petersburg
  | istanbul
  | berlin
  | london
  | paris
  | shanghai
  | cancun
  | prague
deriving DecidableEq, Repr

namespace EvmVersion

/-- All versions in the order of their release. -/
def all : List EvmVersion :=
  [homestead, tangerineWhistle, spuriousDragon, byzantium, constantinople, petersburg, istanbul,
    berlin, london, paris, shanghai, cancun, prague]

/-- The version that is used unless another one is asked for. -/
def default : EvmVersion := cancun

instance : Inhabited EvmVersion := ⟨default⟩

/-- Versions are ordered by release. -/
instance : LE EvmVersion := ⟨fun older newer => older.ctorIdx ≤ newer.ctorIdx⟩

instance : DecidableLE EvmVersion :=
  fun older newer => inferInstanceAs (Decidable (older.ctorIdx ≤ newer.ctorIdx))

/-- The name of a version. -/
def name : EvmVersion → String
  | homestead => "homestead"
  | tangerineWhistle => "tangerineWhistle"
  | spuriousDragon => "spuriousDragon"
  | byzantium => "byzantium"
  | constantinople => "constantinople"
  | petersburg => "petersburg"
  | istanbul => "istanbul"
  | berlin => "berlin"
  | london => "london"
  | paris => "paris"
  | shanghai => "shanghai"
  | cancun => "cancun"
  | prague => "prague"

/-- The name of a version at the start of a phrase. -/
def title (version : EvmVersion) : String := version.name.capitalize

/-- The version of a name. -/
def ofName? (name : String) : Except Failure EvmVersion :=
  match all.find? (·.name = name) with
  | some version => .ok version
  | none => .error (.unknownVersion name)

end EvmVersion

/-- Something that a version of the EVM introduced. -/
inductive Capability
  | returndata
  | staticCall
  | bitwiseShifting
  | create2
  | extCodeHash
  | chainId
  | selfBalance
  | baseFee
  | prevRandao
  | push0
  | blobBaseFee
  | blobHash
  | mcopy
  | transientStorage
deriving DecidableEq, Repr

namespace Capability

/-- The first version with a capability. -/
def since : Capability → EvmVersion
  | returndata | staticCall => .byzantium
  | bitwiseShifting | create2 | extCodeHash => .constantinople
  | chainId | selfBalance => .istanbul
  | baseFee => .london
  | prevRandao => .paris
  | push0 => .shanghai
  | blobBaseFee | blobHash | mcopy | transientStorage => .cancun

end Capability

/-- Whether a version has a capability. -/
def EvmVersion.supports (version : EvmVersion) (capability : Capability) : Bool :=
  capability.since ≤ version

end YulCheck
