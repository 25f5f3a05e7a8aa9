import YulCheck.Name.Table
import YulCheck.Source.Basic
import YulCheck.Tree.Basic

/-! # Program trees from source trees

Elaboration looks up the names of a source tree in a name table, which grows by those that are new,
and numbers the nodes. Children come before the node that they belong to, so the last number is that
of the outermost block. A position stays in force until the next one is noted.
-/

namespace YulCheck

/-- The state of an elaboration: the names so far, the next number, the position in force. -/
structure Elaboration where
  table : NameTable
  nextId : NodeId := 0
  span : Span := .none

/-- A step of an elaboration. -/
abbrev Elaborate := StateM Elaboration

namespace Elaborate

/-- A new number. -/
def freshId : Elaborate NodeId :=
  modifyGet fun state => (state.nextId, { state with nextId := state.nextId + 1 })

/-- The position in force. -/
def currentSpan : Elaborate Span := do return (← get).span

/-- Put a position in force. -/
def setSpan (span : Span) : Elaborate Unit := modify ({ · with span })

/-- Put the position of a node in force, if it has one. -/
def locate (location : Option Source.Location) : Elaborate Unit :=
  match location with
  | some location => setSpan location.span
  | none => pure ()

/-- The handle of a label. -/
def define (label : String) : Elaborate Handle :=
  modifyGet fun state =>
    let (name, table) := state.table.define label
    (name, { state with table })

/-- The handle that a written name stands for. A given handle takes the place of the empty label. -/
def name : Source.Name → Elaborate Handle
  | .label text => define text
  | .handle name => do
    let _ ← define ""
    return name

/-- The handle of the label of a type. The empty label is the default type, and labels that are no
types are defined as ordinary names. -/
def typeLabel (label : String) : Elaborate TypeHandle := do
  let table := (← get).table
  if label.isEmpty then return table.predefined.defaultType
  let type := table.typeNamed label
  if type.isEmpty then define label else return type

/-- The handle that a written type stands for. -/
def type : Source.Name → Elaborate TypeHandle
  | .label text => typeLabel text
  | .handle type => return type

/-- A use of a name. -/
def identifier (written : Source.Name) : Elaborate Identifier := do
  let name ← name written
  return ⟨← freshId, ← currentSpan, name⟩

/-- A declared variable. -/
def declared (written : Source.Variable) : Elaborate Variable := do
  let id ← freshId
  let name ← name written.name
  return ⟨id, ← currentSpan, name, ← type (written.type.getD (.label ""))⟩

/-- A declared variable of the default type whose name exists already. -/
def redeclared (name : Handle) : Elaborate Variable := do
  return ⟨← freshId, ← currentSpan, name, (← get).table.predefined.defaultType⟩

/-- The variables of a declaration. If all of them are given by handles and have no types of their
own, nothing is looked up for them. -/
def declaredTogether (written : List Source.Variable) : Elaborate (List Variable) :=
  match written.mapM Source.Variable.existing? with
  | some names => names.mapM redeclared
  | none => written.mapM declared

/-- Give names the positions that are noted for them, as far as there are any. -/
def placeIdentifiers : List Identifier → List Span → List Identifier
  | identifier :: rest, span :: spans => { identifier with span } :: placeIdentifiers rest spans
  | identifiers, _ => identifiers

/-- Give variables the positions that are noted for them, as far as there are any. -/
def placeVariables : List Variable → List Span → List Variable
  | declared :: rest, span :: spans => { declared with span } :: placeVariables rest spans
  | locals, _ => locals

/-- The positions that are noted for the names in a node. -/
def nameSpans (location : Option Source.Location) : List Span :=
  (location.map (·.names)).getD []

/-- A literal of a kind, with its value and type. -/
def makeLiteral (kind : LiteralKind) (value : LiteralValue) (type : TypeHandle) :
    Elaborate Literal := do
  return ⟨← freshId, ← currentSpan, kind, value, type⟩

/-- A literal. The position is put in force before it is made. -/
def literal (location : Option Source.Location) : Source.Literal → Elaborate Literal
  | .number text label => do
    locate location
    makeLiteral .number (.ofNumeral text) (← typeLabel (label.getD ""))
  | .boolean flag label => do
    locate location
    let type ← match label with
      | some label => typeLabel label
      | none => pure (← get).table.predefined.boolType
    makeLiteral .boolean (.ofBool flag) type
  | .string text => do
    locate location
    makeLiteral .string (.ofText text) (← get).table.predefined.defaultType
  | .value kind value written => do
    locate location
    makeLiteral kind value (← type written)
  | .located inner written => literal (some (inner.inside location)) written

/-- String literals in places where a function takes literals are text of any length. -/
def unbindArguments (required : Nat → Option LiteralKind) :
    (index : Nat) → List Expression → List Expression
  | _, [] => []
  | index, .literal constant :: rest =>
    let constant :=
      if constant.kind = .string ∧ (required index).isSome then
        { constant with value := constant.value.toUnlimited }
      else constant
    .literal constant :: unbindArguments required (index + 1) rest
  | index, argument :: rest => argument :: unbindArguments required (index + 1) rest

/-- The literals that a called function takes as its arguments. -/
def requiredLiterals (callee : Source.Name) (name : Handle) (table : NameTable) :
    Nat → Option LiteralKind :=
  match callee, table.builtin? name with
  | .label _, .ok (some signature) => signature.function.literalArgument?
  | _, _ => fun _ => none

/-! ### Nodes -/

/-- A node that is made of others alone, with its position if it has one. -/
def located {α : Type} (location : Option Source.Location) (make : Span → α) : Elaborate α := do
  locate location
  return make (← currentSpan)

/-- An identifier as a value. -/
def makeUse (location : Option Source.Location) (written : Source.Name) : Elaborate Expression := do
  locate location
  return .identifier (← identifier written)

/-- A call with arguments that are elaborated already. -/
def makeCall (location : Option Source.Location) (written : Source.Name)
    (arguments : List Expression) : Elaborate Expression := do
  locate location
  let callee ← identifier written
  let required := requiredLiterals written callee.name (← get).table
  let id ← freshId
  let callee := ((placeIdentifiers [callee] (nameSpans location)).head?).getD callee
  return .call id (← currentSpan) callee (unbindArguments required 0 arguments)

/-- A block of statements that are elaborated already. -/
def makeBlock (statements : List Statement) : Elaborate Block := do
  return .mk (← freshId) (← currentSpan) statements

/-- An assignment of a value that is elaborated already. -/
def makeAssignment (location : Option Source.Location) (targets : List Source.Name)
    (value : Expression) : Elaborate Statement := do
  locate location
  let targets ← targets.mapM identifier
  return .assignment (← currentSpan) (placeIdentifiers targets (nameSpans location)) value

/-- A declaration with a value that is elaborated already, if it has one. -/
def makeDeclaration (location : Option Source.Location) (locals : List Source.Variable)
    (value : Option Expression) : Elaborate Statement := do
  locate location
  let locals ← declaredTogether locals
  return .declaration (← currentSpan) (placeVariables locals (nameSpans location)) value

/-- A function with a body that is elaborated already. -/
def makeFunction (location : Option Source.Location) (written : Source.Name)
    (parameters returns : List Source.Variable) (body : Block) : Elaborate Statement := do
  locate location
  let name ← name written
  let parameters ← parameters.mapM declared
  let returns ← returns.mapM declared
  let spans := nameSpans location
  return .function (← freshId) (← currentSpan) name (placeVariables parameters spans)
    (placeVariables returns (spans.drop parameters.length)) body

/-- A loop of parts that are elaborated already. -/
def makeLoop (location : Option Source.Location) (pre : Block) (condition : Expression)
    (post body : Block) : Elaborate Statement := do
  locate location
  return .loop (← freshId) (← currentSpan) pre condition post body

/-- A case of parts that are elaborated already. -/
def makeCase (span : Option Span) (value : Option Literal) (body : Block) : Elaborate Case := do
  if let some span := span then setSpan span
  return .mk (← currentSpan) value body

/-! ### Trees -/

mutual

/-- An expression, with its position if it has one. -/
def expression (location : Option Source.Location) : Source.Expression → Elaborate Expression
  | .literal written => do return .literal (← literal location written)
  | .identifier written => makeUse location written
  | .call written writtenArguments => do
    makeCall location written (← expressions writtenArguments)
  | .located inner written => expression (some (inner.inside location)) written

/-- Expressions from left to right. -/
def expressions : List Source.Expression → Elaborate (List Expression)
  | [] => return []
  | written :: rest => do
    let first ← expression none written
    return first :: (← expressions rest)

end

mutual

/-- A statement, with its position if it has one. -/
def statement (location : Option Source.Location) : Source.Statement → Elaborate Statement
  | .expression written => do
    let value ← expression none written
    located location fun span => .expression span value
  | .assignment targets written => do
    makeAssignment location targets (← expression none written)
  | .declaration locals written => do
    let value ← match written with
      | some written => some <$> expression none written
      | none => pure none
    makeDeclaration location locals value
  | .function written parameters returns body => do
    let body ← makeBlock (← statements body)
    makeFunction location written parameters returns body
  | .conditional condition body => do
    let condition ← expression none condition
    let body ← makeBlock (← statements body)
    located location fun span => .conditional span condition body
  | .switch scrutinee writtenCases => do
    let scrutinee ← expression none scrutinee
    let cases ← cases writtenCases
    located location fun span => .switch span scrutinee cases
  | .loop pre condition post body => do
    let pre ← makeBlock (← statements pre)
    let condition ← expression none condition
    let post ← makeBlock (← statements post)
    let body ← makeBlock (← statements body)
    makeLoop location pre condition post body
  | .break => located location .break
  | .continue => located location .continue
  | .leave => located location .leave
  | .block body => do
    let body ← statements body
    locate location
    return .block (← makeBlock body)
  | .located inner written => statement (some (inner.inside location)) written

/-- Statements in their order. -/
def statements : List Source.Statement → Elaborate (List Statement)
  | [] => return []
  | written :: rest => do
    let first ← statement none written
    return first :: (← statements rest)

/-- Cases in their order. -/
def cases : List Source.Case → Elaborate (List Case)
  | [] => return []
  | .mk span value body :: rest => do
    let value ← match value with
      | some written => some <$> literal none written
      | none => pure none
    let body ← makeBlock (← statements body)
    let first ← makeCase span value body
    return first :: (← cases rest)

end

end Elaborate

namespace NameTable

/-- The block of a list of statements, and the table with the names in it. -/
def elaborate (table : NameTable) (statements : List Source.Statement) : Block × NameTable :=
  let program : Elaborate Block := do Elaborate.makeBlock (← Elaborate.statements statements)
  let (block, state) := program.run { table }
  (block, state.table)

end NameTable

end YulCheck
