import YulCheck.Name.Dialect
import YulCheck.Proofs.Name.Answers

/-! # Name tables that grow

What `define` does to a table, case by case, and what every table keeps while it grows: the dialect
with its types and functions, and all that it says about the names in it.
-/

namespace YulCheck.NameTable

variable {table middle after : NameTable} {name base : Handle} {label : String}
  {function : Builtin}

/-! ### New names -/

/-- A new name for a function of the `verbatim` family. -/
def appendVerbatim (table : NameTable) (function : Builtin) : Handle × NameTable :=
  let (name, after) := table.appendAlias table.predefined.verbatim
  let arity := (function.parameters.length, function.returns.length)
  (name, { after.describe name function with verbatims := (arity, name) :: table.verbatims })

/-- What `define` does: it finds a name, or appends one. -/
inductive Defines (table : NameTable) (label : String) : Handle × NameTable → Prop
  | empty (isEmpty : label = "") : Defines table label (.empty, table)
  | verbatim {arity : Nat × Nat} {name : Handle} (listed : (arity, name) ∈ table.verbatims) :
    Defines table label (name, table)
  | builtin (isNamed : table.builtinNamed label ≠ .empty) :
    Defines table label (table.builtinNamed label, table)
  | owner {name : Handle} (owned : (label, name) ∈ table.owners) (isNamed : name ≠ .empty) :
    Defines table label (name, table)
  | append : Defines table label (table.append label)
  | appendVerbatim {function : Builtin} (known : table.dialect.builtin? label = some function) :
    Defines table label (table.appendVerbatim function)

theorem mem_owners_of_named (isNamed : table.named label ≠ .empty) :
    (label, table.named label) ∈ table.owners := by
  rw [named] at isNamed ⊢
  cases found : table.owners.lookup label with
  | none =>
    rw [found] at isNamed
    exact absurd rfl isNamed
  | some name => exact List.mem_of_lookup_eq_some found

theorem defines_define (table : NameTable) (label : String) :
    Defines table label (table.define label) := by
  rw [define]
  cases known : table.dialect.builtin? label with
  | some function =>
    dsimp only
    split
    · rw [defineVerbatim]
      dsimp only
      split
      · rename_i listed
        exact .verbatim (List.mem_of_lookup_eq_some listed)
      · exact .appendVerbatim known
    · split
      · exact .append
      · rename_i isNamed
        exact .builtin fun isEmpty => isNamed (Handle.isEmpty_iff.mpr isEmpty)
  | none =>
    dsimp only
    split
    · rename_i isEmpty
      exact .empty (String.isEmpty_iff.mp isEmpty.1)
    · split
      · exact .append
      · rename_i isNamed
        have notEmpty : table.named label ≠ .empty :=
          fun isEmpty => isNamed (Handle.isEmpty_iff.mpr isEmpty)
        exact .owner (mem_owners_of_named notEmpty) notEmpty

/-- The names of labels that are no functions are those of their owners. -/
theorem define_of_free (isFree : table.dialect.builtin? label = none) (hasLabel : label ≠ "") :
    (∃ name, (label, name) ∈ table.owners ∧ name ≠ .empty ∧ table.define label = (name, table)) ∨
      table.define label = table.append label := by
  rw [define, isFree]
  dsimp only
  rw [if_neg fun isEmpty => hasLabel (String.isEmpty_iff.mp isEmpty.1)]
  split
  · exact .inr rfl
  · rename_i isNamed
    have notEmpty : table.named label ≠ .empty :=
      fun isEmpty => isNamed (Handle.isEmpty_iff.mpr isEmpty)
    exact .inl ⟨table.named label, mem_owners_of_named notEmpty, notEmpty, rfl⟩

/-! ### What is kept -/

/-- Whether a table has grown to another one: nothing is forgotten, and what the dialect says about
the names of the first table is the same. -/
structure Grows (table after : NameTable) : Prop where
  dialect : after.dialect = table.dialect
  types : after.types = table.types
  typeRange : after.typeRange = table.typeRange
  builtinRange : after.builtinRange = table.builtinRange
  predefined : after.predefined = table.predefined
  size : table.size ≤ after.size
  entries : ∀ index < table.size, after.entries[index]? = table.entries[index]?
  builtins : ∀ name, name.index < table.size →
    after.builtins.lookup name = table.builtins.lookup name

namespace Grows

theorem refl (table : NameTable) : table.Grows table :=
  ⟨rfl, rfl, rfl, rfl, rfl, Nat.le_refl _, fun _ _ => rfl, fun _ _ => rfl⟩

theorem trans (first : table.Grows middle) (second : middle.Grows after) : table.Grows after where
  dialect := second.dialect.trans first.dialect
  types := second.types.trans first.types
  typeRange := second.typeRange.trans first.typeRange
  builtinRange := second.builtinRange.trans first.builtinRange
  predefined := second.predefined.trans first.predefined
  size := Nat.le_trans first.size second.size
  entries index inTable :=
    (second.entries index (Nat.lt_of_lt_of_le inTable first.size)).trans
      (first.entries index inTable)
  builtins name inTable :=
    (second.builtins name (Nat.lt_of_lt_of_le inTable first.size)).trans
      (first.builtins name inTable)

end Grows

theorem getElem?_push_of_lt {entries : Array Entry} {index : Nat} (inTable : index < entries.size)
    (entry : Entry) : (entries.push entry)[index]? = entries[index]? := by
  rw [Array.getElem?_push, if_neg (Nat.ne_of_lt inTable)]

theorem grows_append (table : NameTable) (label : String) : table.Grows (table.append label).2 where
  dialect := rfl
  types := rfl
  typeRange := rfl
  builtinRange := rfl
  predefined := rfl
  size := by rw [size_append]; omega
  entries _ inTable := getElem?_push_of_lt inTable _
  builtins _ _ := rfl

theorem grows_appendAlias (table : NameTable) (base : Handle) :
    table.Grows (table.appendAlias base).2 where
  dialect := rfl
  types := rfl
  typeRange := rfl
  builtinRange := rfl
  predefined := rfl
  size := by rw [size_appendAlias]; omega
  entries _ inTable := getElem?_push_of_lt inTable _
  builtins _ _ := rfl

theorem grows_appendVerbatim (table : NameTable) (function : Builtin) :
    table.Grows (table.appendVerbatim function).2 where
  dialect := rfl
  types := rfl
  typeRange := rfl
  builtinRange := rfl
  predefined := rfl
  size := (table.grows_appendAlias table.predefined.verbatim).size
  entries _ inTable := getElem?_push_of_lt inTable _
  builtins name inTable := by
    have isOther : (name == (⟨table.size⟩ : Handle)) = false := by
      rw [beq_eq_false_iff_ne]
      rintro rfl
      exact Nat.lt_irrefl _ inTable
    show ((⟨table.size⟩, _) :: table.builtins).lookup name = _
    rw [List.lookup_cons, isOther]

theorem grows_define (table : NameTable) (label : String) : table.Grows (table.define label).2 := by
  have defined := defines_define table label
  revert defined
  cases table.define label with
  | mk name after =>
    intro defined
    cases defined with
    | empty | verbatim | builtin | owner => exact Grows.refl table
    | append => exact table.grows_append label
    | appendVerbatim => exact table.grows_appendVerbatim _

theorem grows_defineGhost (table : NameTable) : table.Grows table.defineGhost.2 := by
  have counted : table.Grows { table with ghostCount := table.ghostCount + 1 } :=
    ⟨rfl, rfl, rfl, rfl, rfl, Nat.le_refl _, fun _ _ => rfl, fun _ _ => rfl⟩
  exact counted.trans (grows_define _ (ghostLabel table.ghostCount))

theorem derive_eq_ok (derived : table.derive base = .ok (name, after)) :
    base.index < table.size ∧ table.appendAlias base = (name, after) := by
  rw [derive] at derived
  by_cases inTable : base.index < table.size
  · rw [require_of_lt inTable] at derived
    exact ⟨inTable, Except.ok.inj derived⟩
  · rw [require, contains, decide_eq_false inTable] at derived
    cases derived

theorem grows_derive (derived : table.derive base = .ok (name, after)) : table.Grows after := by
  have appended := (derive_eq_ok derived).2
  rw [show after = (table.appendAlias base).2 by rw [appended]]
  exact table.grows_appendAlias base

/-! ### Predefined names -/

/-- The functions that the library refers to, in the order in which they get their names. -/
def predefinedLabels : List String :=
  ["dataoffset", "datasize", "selfdestruct", "tstore", "memoryguard", "eq", "add", "sub"]

/-- The table with the names of functions, or of ordinary labels. -/
def withBuiltins (table : NameTable) (labels : List String) : NameTable :=
  labels.foldl (fun table label => (table.builtinOrDefine label).2) table

/-- What `addPredefined` does: it names functions, and notes some of the names. -/
theorem addPredefined_eq (table : NameTable) : ∃ predefined : PredefinedNames,
    table.addPredefined = { table.withBuiltins predefinedLabels with predefined } ∧
      predefined.verbatim = (table.withBuiltins predefinedLabels).predefined.verbatim ∧
      predefined.boolType = table.typeNamed table.dialect.boolType ∧
      predefined.defaultType = table.typeNamed table.dialect.defaultType := by
  rw [addPredefined, withBuiltins, predefinedLabels]
  simp only [List.foldl_cons, List.foldl_nil]
  -- The names are taken apart one by one, so that no comparison has to look into them.
  rcases table.builtinOrDefine "dataoffset" with ⟨dataoffset, behindDataoffset⟩
  rcases behindDataoffset.builtinOrDefine "datasize" with ⟨datasize, behindDatasize⟩
  rcases behindDatasize.builtinOrDefine "selfdestruct" with ⟨selfdestruct, behindSelfdestruct⟩
  rcases behindSelfdestruct.builtinOrDefine "tstore" with ⟨tstore, behindTstore⟩
  rcases behindTstore.builtinOrDefine "memoryguard" with ⟨memoryguard, behindMemoryguard⟩
  rcases behindMemoryguard.builtinOrDefine "eq" with ⟨eq, behindEq⟩
  rcases behindEq.builtinOrDefine "add" with ⟨add, behindAdd⟩
  exact ⟨_, rfl, rfl, rfl, rfl⟩
end YulCheck.NameTable
