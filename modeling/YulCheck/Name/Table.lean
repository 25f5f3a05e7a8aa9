import YulCheck.Dialect.Verbatim

/-! # Name tables

A name table gives every name of a program a handle: the types and functions of the dialect first,
then whatever programs declare. A name has a label, or is an alias of an earlier name that receives a
label later. Handles are never taken back.

The table can be asked for the label of a handle, for the handle of a label, and for what the dialect
says about a name. It grows by `define`, `derive` and `defineGhost`.
-/

namespace YulCheck

/-- What is known about the label of a name. -/
inductive NameTable.Entry
  /-- The name has this label. -/
  | labelled (label : String)
  /-- The name is an alias without a label. -/
  | alias (base : Handle)
deriving DecidableEq, Repr

/-- A function of the dialect, with its types given by their handles. -/
structure BuiltinSignature where
  name : Handle
  parameters : List TypeHandle
  returns : List TypeHandle
  function : Builtin
deriving DecidableEq, Repr

/-- The names that the library itself refers to. -/
structure PredefinedNames where
  /-- The base of all functions of the `verbatim` family. -/
  verbatim : Handle := .empty
  boolType : TypeHandle := .empty
  defaultType : TypeHandle := .empty
  datasize : Handle := .empty
  dataoffset : Handle := .empty
  selfdestruct : Handle := .empty
  memoryguard : Handle := .empty
  eq : Handle := .empty
  add : Handle := .empty
  sub : Handle := .empty
  tstore : Handle := .empty
  placeholderZero : Handle := .empty
  placeholderOne : Handle := .empty
  placeholderThirtyTwo : Handle := .empty
deriving DecidableEq, Repr

/-- The names of the functions that the dialect provides for one type. -/
structure TypeBuiltins where
  operations : List (TypeOperation × Handle)
  hash : Handle
deriving DecidableEq, Repr

/-- The names with handles from `first` up to, but not including, `stop`. -/
structure HandleRange where
  first : Nat
  stop : Nat
deriving DecidableEq, Repr

/-- Whether a handle is in a range. -/
def HandleRange.contains (range : HandleRange) (name : Handle) : Bool :=
  range.first ≤ name.index && name.index < range.stop

theorem HandleRange.contains_iff {range : HandleRange} {name : Handle} :
    range.contains name = true ↔ range.first ≤ name.index ∧ name.index < range.stop := by
  rw [HandleRange.contains, Bool.and_eq_true, decide_eq_true_iff, decide_eq_true_iff]

/-- The names of a dialect and of the programs that are written in it. -/
structure NameTable where
  dialect : Dialect
  entries : Array NameTable.Entry
  /-- For every label the name that had it first. -/
  owners : List (String × Handle)
  /-- The types of the dialect with their labels. -/
  types : List (TypeHandle × String)
  typeRange : HandleRange
  builtinRange : HandleRange
  /-- The functions of the dialect by name; the first entry of a name counts. -/
  builtins : List (Handle × BuiltinSignature)
  /-- The functions of the `verbatim` family by their numbers of parameters and returned values. -/
  verbatims : List ((Nat × Nat) × Handle)
  predefined : PredefinedNames
  /-- One entry per type, or a single one in dialects that list no type. -/
  typeBuiltins : List TypeBuiltins
  negation? : Option Handle
  ghostCount : Nat

namespace NameTable

/-- The number of names. -/
def size (table : NameTable) : Nat := table.entries.size

/-- Whether a handle is of this table. -/
def contains (table : NameTable) (name : Handle) : Bool := name.index < table.size

/-- Refuse handles that are not of this table. -/
def require (table : NameTable) (name : Handle) : Except Fault Unit :=
  if table.contains name then .ok () else .error (.outOfTable name)

theorem require_eq_ok_iff {table : NameTable} {name : Handle} :
    table.require name = .ok () ↔ name.index < table.size := by
  simp [require, contains]

/-! ### Aliases -/

/-- The name that a chain of aliases ends in, followed for at most the given number of steps. -/
def followAliases (entries : Array Entry) : (steps : Nat) → Handle → Handle
  | 0, name => name
  | steps + 1, name =>
    match entries[name.index]? with
    | some (.alias base) => followAliases entries steps base
    | _ => name

/-- The name that a chain of aliases ends in. Aliases refer to earlier names, so the chain is no
longer than the handle is great. -/
def root (table : NameTable) (name : Handle) : Handle :=
  followAliases table.entries name.index name

/-- The name that a name is an alias of, directly or not; the name itself if it is no alias. -/
def base (table : NameTable) (name : Handle) : Except Fault Handle := do
  table.require name
  return table.root name

/-- Whether a name is an alias without a label. -/
def isAlias (table : NameTable) (name : Handle) : Except Fault Bool := do
  table.require name
  return table.entries[name.index]? matches some (.alias _)

/-- Whether a name belongs to the `verbatim` family. -/
def isVerbatim (table : NameTable) (name : Handle) : Except Fault Bool := do
  return (← table.base name) = table.predefined.verbatim

/-! ### Functions of the dialect -/

/-- Whether a name, or the name that it is an alias of, is one of the dialect's. -/
def isOfDialect (table : NameTable) (name : Handle) : Except Fault Bool := do
  return table.builtinRange.contains (← table.base name)

/-- The function that a name refers to, if the dialect has one. -/
def builtin? (table : NameTable) (name : Handle) : Except Fault (Option BuiltinSignature) := do
  return if ← table.isOfDialect name then table.builtins.lookup name else none

/-! ### Labels -/

/-- The label of a name. Aliases have none, apart from those of the `verbatim` family, which have the
names of their functions. -/
def label (table : NameTable) (name : Handle) : Except Fault String := do
  table.require name
  match table.entries[name.index]? with
  | some (.labelled label) => return label
  | _ =>
    if ← table.isVerbatim name then
      match ← table.builtin? name with
      | some signature => return signature.function.name
      | none => throw (.verbatimUndescribed name)
    else throw (.unlabelled name)

/-- The label of the name that a name is an alias of. -/
def baseLabel (table : NameTable) (name : Handle) : Except Fault String := do
  table.label (← table.base name)

/-- The label of a name in messages; aliases are shown as the name that they are aliases of. -/
def shownLabel (table : NameTable) (name : Handle) : Except Fault String := do
  if (← table.isAlias name) && !(← table.isVerbatim name) then table.baseLabel name
  else table.label name

/-! ### Handles of labels -/

/-- The name that had a label first, or the empty name. -/
def named (table : NameTable) (label : String) : Handle :=
  (table.owners.lookup label).getD .empty

/-- The label that the entry at the end of a chain of aliases has. -/
def rootLabel? (table : NameTable) (name : Handle) : Option String :=
  match table.entries[(table.root name).index]? with
  | some (.labelled label) => some label
  | _ => none

/-- The first name among those of the dialect that has, or is an alias of, a label; otherwise the
empty name. -/
def builtinNamed (table : NameTable) (label : String) : Handle :=
  let range := table.builtinRange
  let offset? := (List.range (range.stop - range.first)).find? fun offset =>
    table.rootLabel? ⟨range.first + offset⟩ = some label
  (offset?.map fun offset => ⟨range.first + offset⟩).getD .empty

/-- The type of a label, or the empty name. -/
def typeNamed (table : NameTable) (label : String) : TypeHandle :=
  ((table.types.find? (·.2 = label)).map (·.1)).getD .empty

/-! ### Types -/

/-- Whether a name is a type of the dialect. -/
def isType (table : NameTable) (name : Handle) : Bool := table.typeRange.contains name

/-- What the dialect provides for a type. -/
def builtinsOf (table : NameTable) (type : TypeHandle) : Except Fault (Option TypeBuiltins) := do
  table.require type
  if table.types.isEmpty then return table.typeBuiltins[0]?
  match table.types.findIdx? (·.1 = type) with
  | some position => return table.typeBuiltins[position]?
  | none => throw (.notAType type)

/-- The function for an operation on a type, if the dialect has one. -/
def operationOn? (table : NameTable) (operation : TypeOperation) (type : TypeHandle) :
    Except Fault (Option BuiltinSignature) := do
  let functions ← table.builtinsOf type
  match functions.bind (·.operations.lookup operation) with
  | some name => table.builtin? name
  | none => return none

/-- The name of the function that hashes values of a type, or the empty name. -/
def hashOf (table : NameTable) (type : TypeHandle) : Except Fault Handle := do
  return ((← table.builtinsOf type).map (·.hash)).getD .empty

/-- The function that negates a truth value, if the dialect has one. -/
def negation (table : NameTable) : Except Fault (Option BuiltinSignature) :=
  match table.negation? with
  | some name => table.builtin? name
  | none => return none

/-- Whether literals of a kind may have a type: truth values only their own, all others any. -/
def admitsLiteral (table : NameTable) (kind : LiteralKind) (type : TypeHandle) : Bool :=
  kind ≠ .boolean || type = table.predefined.boolType

@[simp]
theorem admitsLiteral_string (table : NameTable) (type : TypeHandle) :
    table.admitsLiteral .string type = true := rfl

/-- The kind and value of the literal that variables of a type have at first. -/
def initialLiteral (table : NameTable) (type : TypeHandle) : LiteralKind × LiteralValue :=
  let predefined := table.predefined
  if type = predefined.boolType ∧ type ≠ predefined.defaultType then
    (.boolean, .ofBool false)
  else (.number, .ofNumeral "0")

/-- Whether the dialect is for the EVM. -/
def isForEvm (table : NameTable) : Bool := table.dialect.version?.isSome

/-! ### New names -/

/-- A new name with a label. It owns the label unless another name does. -/
def append (table : NameTable) (label : String) : Handle × NameTable :=
  let name : Handle := ⟨table.size⟩
  let owners :=
    if (table.owners.lookup label).isSome then table.owners else (label, name) :: table.owners
  (name, { table with entries := table.entries.push (.labelled label), owners })

/-- A new name without a label. -/
def appendAlias (table : NameTable) (base : Handle) : Handle × NameTable :=
  (⟨table.size⟩, { table with entries := table.entries.push (.alias base) })

@[simp]
theorem size_append (table : NameTable) (label : String) :
    (table.append label).2.size = table.size + 1 := by
  simp [append, size]

@[simp]
theorem size_appendAlias (table : NameTable) (base : Handle) :
    (table.appendAlias base).2.size = table.size + 1 := by
  simp [appendAlias, size]

/-- A new alias of a name. -/
def derive (table : NameTable) (base : Handle) : Except Fault (Handle × NameTable) := do
  table.require base
  return table.appendAlias base

/-- The function of a name with its types given by their handles. -/
def signature (table : NameTable) (name : Handle) (function : Builtin) :
    BuiltinSignature where
  name := name
  parameters := function.parameters.map table.typeNamed
  returns := function.returns.map table.typeNamed
  function := function

/-- The table with a function of the dialect described. -/
def describe (table : NameTable) (name : Handle) (function : Builtin) : NameTable :=
  { table with builtins := (name, table.signature name function) :: table.builtins }

/-- The name of a function of the `verbatim` family: one alias of the family's base for every pair of
numbers of parameters and returned values. -/
def defineVerbatim (table : NameTable) (function : Builtin) : Handle × NameTable :=
  let arity := (function.parameters.length, function.returns.length)
  match table.verbatims.lookup arity with
  | some name => (name, table)
  | none =>
    let (name, table) := table.appendAlias table.predefined.verbatim
    let table := table.describe name function
    (name, { table with verbatims := (arity, name) :: table.verbatims })

/-- The name of a label, which is new if there was none. -/
def define (table : NameTable) (label : String) : Handle × NameTable :=
  match table.dialect.builtin? label with
  | some function =>
    if Verbatim.startsWith Verbatim.stem function.name then table.defineVerbatim function
    else
      let existing := table.builtinNamed label
      if existing.isEmpty then table.append label else (existing, table)
  | none =>
    if label.isEmpty ∧ table.size ≠ 0 then (.empty, table)
    else
      let existing := table.named label
      if existing.isEmpty then table.append label else (existing, table)

/-- The label of a name that no program declares. -/
def ghostLabel (number : Nat) : String := s!"GHOST[{number}]"

/-- The name of the next ghost label. -/
def defineGhost (table : NameTable) : Handle × NameTable :=
  { table with ghostCount := table.ghostCount + 1 }.define (ghostLabel table.ghostCount)

end NameTable

end YulCheck
