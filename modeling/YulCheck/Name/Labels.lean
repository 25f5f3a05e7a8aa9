import YulCheck.Name.Table
import YulCheck.Tree.Names

/-! # Labels for aliases

A program that is to be printed needs a label for every name in it. The aliases in a block receive
the label of the name that they are aliases of, followed by a number where that label is taken.
-/

namespace YulCheck.NameTable

/-- The labels that an alias may receive: the base itself, then the base with `_1`, `_2` and so on. -/
def candidate (base : String) : (number : Nat) → String
  | 0 => base
  | number + 1 => s!"{base}_{number + 1}"

/-- The first candidate that is not taken, among those up to `count` from `number` on. -/
def freshFrom (base : String) (taken : List String) : (count number : Nat) → String
  | 0, number => candidate base number
  | count + 1, number =>
    let label := candidate base number
    if taken.contains label then freshFrom base taken count (number + 1) else label

/-- The first candidate that is not taken. All candidates differ, so it is among the first ones, one
more than labels are taken. -/
def freshLabel (base : String) (taken : List String) : String :=
  freshFrom base taken taken.length 0

/-- Whether a name receives a label: it is an alias, and not of the `verbatim` family. -/
def needsLabel (table : NameTable) (name : Handle) : Except Fault Bool := do
  return (← table.isAlias name) && !(← table.isVerbatim name)

/-- The labels of the dialect and of the given names that have one. -/
def usedLabels (table : NameTable) (names : List Handle) : Except Fault (List String) := do
  let ofDialect ← (List.range table.builtinRange.stop).mapM fun index => table.label ⟨index⟩
  let ofProgram ← names.mapM fun name => do
    if ← table.needsLabel name then return none else return some (← table.label name)
  return ofDialect ++ ofProgram.filterMap id

/-- A generation under way: the table, the labels that are used, and the labels that were chosen and
that no name had before. -/
structure Labelling where
  table : NameTable
  used : List String
  chosen : List (Handle × String)

namespace Labelling

/-- Choose the label of one alias. If another name has it already, the alias becomes that name;
otherwise the label is given to the alias when all labels are chosen. -/
def label (reserved : List String) (labelling : Labelling) (name : Handle) :
    Except Fault Labelling := do
  let { table, used, chosen } := labelling
  let label := freshLabel (← table.baseLabel name) (used ++ reserved)
  let owner := table.named label
  if owner.isEmpty then
    return { table, used := label :: used, chosen := chosen ++ [(name, label)] }
  else
    let entry := (table.entries[owner.index]?).getD (.labelled label)
    let table := { table with entries := table.entries.setIfInBounds name.index entry }
    return { table, used := label :: used, chosen }

end Labelling

/-- Give a label to a name. The name owns the label unless another name does. -/
def assign (table : NameTable) (name : Handle) (label : String) : NameTable :=
  let owners :=
    if (table.owners.lookup label).isSome then table.owners else (label, name) :: table.owners
  { table with entries := table.entries.setIfInBounds name.index (.labelled label), owners }

/-- Give every alias in a block a label that is neither used in the block, nor of the dialect, nor
reserved. -/
def labelAliases (table : NameTable) (block : Block) (reserved : List String) :
    Except Fault NameTable := do
  let names := block.names
  let used ← table.usedLabels names
  let programNames := names.filter fun name => table.builtinRange.stop ≤ name.index
  let aliases ← programNames.filterM table.needsLabel
  let labelling ← aliases.foldlM (Labelling.label reserved) ⟨table, used, []⟩
  return labelling.chosen.foldl (fun table (name, label) => table.assign name label) labelling.table

end YulCheck.NameTable
