import YulCheck.Dialect.Evm
import YulCheck.Dialect.Generic

/-! # The bundled dialects -/

namespace YulCheck

/-- The dialects that can be asked for by name. -/
inductive BundledDialect
  | generic
  | evm (flavour : Dialect.EvmFlavour)
deriving DecidableEq, Repr

namespace BundledDialect

/-- All bundled dialects. -/
def all : List BundledDialect := [generic, evm .plain, evm .objects, evm .typed]

/-- The dialect that is used unless another one is asked for. -/
def default : BundledDialect := evm .plain

instance : Inhabited BundledDialect := ⟨default⟩

/-- The name of a dialect. -/
def name : BundledDialect → String
  | generic => "generic"
  | evm flavour => flavour.name

/-- The dialect of a name. -/
def ofName? (name : String) : Except Failure BundledDialect :=
  match all.find? (·.name = name) with
  | some dialect => .ok dialect
  | none => .error (.unknownDialect name)

/-- The dialect for a version of the EVM, which matters only to the dialects for the EVM. -/
def build (dialect : BundledDialect) (version : EvmVersion) : Dialect :=
  match dialect with
  | generic => Dialect.generic
  | evm flavour => Dialect.evm flavour version

end BundledDialect

end YulCheck
