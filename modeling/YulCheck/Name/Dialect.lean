import YulCheck.Name.Table

/-! # The name table of a dialect

The table that holds the names of a dialect and nothing else: the empty name, the types, the
functions in ascending order, and the names that the library refers to.
-/

namespace YulCheck.NameTable

/-- The table without names. -/
def blank (dialect : Dialect) : NameTable where
  dialect := dialect
  entries := #[]
  owners := []
  types := []
  typeRange := ⟨0, 0⟩
  builtinRange := ⟨0, 0⟩
  builtins := []
  verbatims := []
  predefined := {}
  typeBuiltins := []
  negation? := none
  ghostCount := 0

/-- The table with one more type. The type without a label is the empty name. -/
def addType (table : NameTable) (label : String) : NameTable :=
  if label.isEmpty then
    { table with
      types := table.types ++ [(.empty, "")]
      typeRange := { table.typeRange with first := 0 } }
  else
    let (name, table) := table.define label
    { table with
      types := table.types ++ [(name, label)]
      typeRange := { table.typeRange with first := 1 } }

/-- The table with all types. -/
def addTypes (table : NameTable) : NameTable :=
  let table := table.dialect.types.foldl addType table
  { table with typeRange := { table.typeRange with stop := table.size } }

/-- The table with one more function of the dialect. -/
def addBuiltin (table : NameTable) (label : String) : NameTable :=
  let (name, table) := table.define label
  match table.dialect.builtin? label with
  | some function => table.describe name function
  | none => table

/-- The table with the base of the `verbatim` family and all functions. The range of the functions is
empty until all of them are in the table, so that each of them is new. -/
def addBuiltins (table : NameTable) : NameTable :=
  let first := table.size
  let table := { table with builtinRange := ⟨first, first⟩ }
  let (verbatim, table) := table.define "@ verbatim"
  let table := { table with predefined := { table.predefined with verbatim } }
  let labels := table.dialect.builtinNames.filter (!·.isEmpty)
  let table := labels.foldl addBuiltin table
  { table with builtinRange := ⟨first, table.size⟩ }

/-- The name of a function, or of an ordinary label where the dialect has no such function. -/
def builtinOrDefine (table : NameTable) (label : String) : Handle × NameTable :=
  if table.dialect.builtinNames.contains label then (table.builtinNamed label, table)
  else table.define label

/-- The table with the names of the functions that the library refers to. -/
def addPredefined (table : NameTable) : NameTable :=
  let boolType := table.typeNamed table.dialect.boolType
  let defaultType := table.typeNamed table.dialect.defaultType
  let (dataoffset, table) := table.builtinOrDefine "dataoffset"
  let (datasize, table) := table.builtinOrDefine "datasize"
  let (selfdestruct, table) := table.builtinOrDefine "selfdestruct"
  let (tstore, table) := table.builtinOrDefine "tstore"
  let (memoryguard, table) := table.builtinOrDefine "memoryguard"
  let (eq, table) := table.builtinOrDefine "eq"
  let (add, table) := table.builtinOrDefine "add"
  let (sub, table) := table.builtinOrDefine "sub"
  { table with
    predefined :=
      { table.predefined with
        boolType, defaultType, dataoffset, datasize, selfdestruct, tstore, memoryguard, eq, add,
        sub } }

/-- The names of the functions that the dialect provides for a type. -/
def builtinsForType (table : NameTable) (label : String) : TypeBuiltins where
  operations := TypeOperation.all.filterMap fun operation =>
    (table.dialect.operation? operation label).map fun function =>
      (operation, table.builtinNamed function.name)
  hash := table.builtinNamed (table.dialect.hashName label)

/-- The table with what the dialect provides for its types. -/
def addTypeBuiltins (table : NameTable) : NameTable :=
  let labels := if table.types.isEmpty then [""] else table.types.map (·.2)
  { table with
    typeBuiltins := labels.map table.builtinsForType
    negation? := table.dialect.negation?.map fun function => table.builtinNamed function.name }

/-- The table with the labels that stand for the literals 0, 1 and 32. -/
def addPlaceholders (table : NameTable) : NameTable :=
  let (placeholderZero, table) := table.define "@ 0"
  let (placeholderOne, table) := table.define "@ 1"
  let (placeholderThirtyTwo, table) := table.define "@ 32"
  { table with
    predefined :=
      { table.predefined with placeholderZero, placeholderOne, placeholderThirtyTwo } }

/-- The name table of a dialect. -/
def ofDialect (dialect : Dialect) : NameTable :=
  ((blank dialect).append "").2.addTypes.addBuiltins.addPredefined.addTypeBuiltins.addPlaceholders

end YulCheck.NameTable
