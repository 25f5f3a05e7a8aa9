import YulCheck.AscendingList
import YulCheck.Dialect.Basic

/-! # Dialects from tables

A dialect given by the list of its functions and by tables of names, for tests and for hosts with
functions of their own.
-/

namespace YulCheck

/-- The tables that make up a dialect. -/
structure DialectTables where
  types : List String
  defaultType : String
  boolType : String
  functions : List Builtin
  /-- The names that every program can refer to; those of all functions unless they are given. -/
  names? : Option (List String)
  /-- The name of the function that negates a truth value. -/
  negation? : Option String
  /-- For an operation, the names of its functions by type. -/
  operations : TypeOperation → List (String × String)
  /-- The names of the hash functions by type. -/
  hashes : List (String × String)
  version? : Option EvmVersion

namespace DialectTables

/-- The function of a name. -/
def function? (tables : DialectTables) (name : String) : Option Builtin :=
  tables.functions.find? (·.name = name)

/-- The dialect with these tables. -/
def toDialect (tables : DialectTables) : Dialect where
  name := "custom"
  defaultType := tables.defaultType
  boolType := tables.boolType
  types := tables.types
  builtin? := tables.function?
  builtinNames := AscendingList.ofList (tables.names?.getD (tables.functions.map (·.name)))
  operation? := fun operation type =>
    ((tables.operations operation).lookup type).bind tables.function?
  negation? := tables.negation?.bind tables.function?
  hashName := fun type => (tables.hashes.lookup type).getD ""
  version? := tables.version?

end DialectTables

end YulCheck
