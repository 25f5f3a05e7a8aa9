import YulCheck.Name.Table

/-! # What a name table answers

The answers of a name table about the names in it. Handles of other tables are refused, and nothing
else is, apart from the labels of aliases.
-/

theorem List.mem_of_lookup_eq_some {κ α : Type} [BEq κ] [LawfulBEq κ] {table : List (κ × α)}
    {key : κ} {value : α} (found : table.lookup key = some value) : (key, value) ∈ table := by
  obtain ⟨before, after, rfl, _⟩ := List.lookup_eq_some_iff.mp found
  exact List.mem_append_right before List.mem_cons_self

/-- What is answered in two steps is answered in each of them. -/
theorem Except.bind_eq_ok_iff {ε α β : Type} {first : Except ε α} {next : α → Except ε β}
    {result : β} :
    first >>= next = .ok result ↔ ∃ value, first = .ok value ∧ next value = .ok result := by
  cases first with
  | error fault => exact iff_of_false nofun nofun
  | ok value =>
    constructor
    · exact fun rest => ⟨value, rfl, rest⟩
    · rintro ⟨_, ⟨rfl⟩, rest⟩
      exact rest

theorem Except.map_eq_ok_iff {ε α β : Type} {first : Except ε α} {change : α → β} {result : β} :
    first.map change = .ok result ↔ ∃ value, first = .ok value ∧ change value = result := by
  cases first with
  | error fault => exact iff_of_false nofun nofun
  | ok value =>
    constructor
    · exact fun same => ⟨value, rfl, Except.ok.inj same⟩
    · rintro ⟨_, ⟨rfl⟩, rfl⟩
      rfl

theorem Except.toOption_eq_some_iff {ε α : Type} {given : Except ε α} {result : α} :
    given.toOption = some result ↔ given = .ok result := by
  cases given with
  | error fault => exact iff_of_false nofun nofun
  | ok value =>
    constructor
    · rintro ⟨⟩
      rfl
    · rintro ⟨⟩
      rfl

namespace YulCheck.NameTable

variable {table : NameTable} {name : Handle}

/-- Whether a name is an alias without a label. -/
def hasAlias (table : NameTable) (name : Handle) : Bool :=
  table.entries[name.index]? matches some (.alias _)

theorem require_of_lt (inTable : name.index < table.size) : table.require name = .ok () :=
  require_eq_ok_iff.mpr inTable

theorem base_of_lt (inTable : name.index < table.size) :
    table.base name = .ok (table.root name) := by
  rw [base, require_of_lt inTable]
  rfl

theorem isAlias_of_lt (inTable : name.index < table.size) :
    table.isAlias name = .ok (table.hasAlias name) := by
  rw [isAlias, require_of_lt inTable]
  rfl

theorem isVerbatim_of_lt (inTable : name.index < table.size) :
    table.isVerbatim name = .ok (decide (table.root name = table.predefined.verbatim)) := by
  rw [isVerbatim, base_of_lt inTable]
  rfl

theorem builtin?_of_lt (inTable : name.index < table.size) :
    table.builtin? name =
      .ok (if table.builtinRange.contains (table.root name) then table.builtins.lookup name
        else none) := by
  rw [builtin?, isOfDialect, base_of_lt inTable]
  rfl

/-- Only the names of a table have answers. -/
theorem lt_of_isAlias {isAlias : Bool} (answered : table.isAlias name = .ok isAlias) :
    name.index < table.size ∧ table.hasAlias name = isAlias := by
  by_cases inTable : name.index < table.size
  · rw [isAlias_of_lt inTable] at answered
    cases answered
    exact ⟨inTable, rfl⟩
  · rw [NameTable.isAlias, require, contains, decide_eq_false inTable] at answered
    cases answered

theorem lt_of_isVerbatim {isVerbatim : Bool} (answered : table.isVerbatim name = .ok isVerbatim) :
    name.index < table.size := by
  by_cases inTable : name.index < table.size
  · exact inTable
  · rw [NameTable.isVerbatim, base, require, contains, decide_eq_false inTable] at answered
    cases answered

theorem lt_of_builtin? {builtin? : Option BuiltinSignature}
    (answered : table.builtin? name = .ok builtin?) : name.index < table.size := by
  by_cases inTable : name.index < table.size
  · exact inTable
  · rw [NameTable.builtin?, isOfDialect, base, require, contains, decide_eq_false inTable] at answered
    cases answered

/-- A function of the dialect is found in the list of functions. -/
theorem lookup_of_builtin? {builtin : BuiltinSignature}
    (answered : table.builtin? name = .ok (some builtin)) :
    table.builtins.lookup name = some builtin := by
  rw [builtin?_of_lt (lt_of_builtin? answered)] at answered
  split at answered
  · exact Except.ok.inj answered
  · cases answered

theorem mem_builtins_of_builtin? {builtin : BuiltinSignature}
    (answered : table.builtin? name = .ok (some builtin)) : (name, builtin) ∈ table.builtins :=
  List.mem_of_lookup_eq_some (lookup_of_builtin? answered)

/-- Names that are no aliases have the label of their entry. -/
theorem label_of_entry {label : String}
    (entry : table.entries[name.index]? = some (.labelled label)) :
    table.label name = .ok label := by
  have inTable : name.index < table.size := (Array.getElem?_eq_some_iff.mp entry).1
  rw [NameTable.label, require_of_lt inTable, entry]
  rfl

/-- Aliases of the `verbatim` family have the names of their functions. -/
theorem label_of_alias (inTable : name.index < table.size) (hasAlias : table.hasAlias name = true) :
    table.label name =
      if table.root name = table.predefined.verbatim then
        table.builtin? name >>= fun
          | some signature => .ok signature.function.name
          | none => .error (.verbatimUndescribed name)
      else .error (.unlabelled name) := by
  rw [NameTable.hasAlias] at hasAlias
  rw [NameTable.label, require_of_lt inTable, isVerbatim_of_lt inTable]
  rcases entry : table.entries[name.index]? with _ | ⟨owned | base⟩
  · rw [entry] at hasAlias
    cases hasAlias
  · rw [entry] at hasAlias
    cases hasAlias
  · by_cases verbatim : table.root name = table.predefined.verbatim
    · rw [if_pos verbatim, decide_eq_true verbatim]
      show (table.builtin? name >>= _ : Except Fault String) = _
      congr 1
    · rw [if_neg verbatim, decide_eq_false verbatim]
      rfl

/-- Aliases have no labels, apart from those of the `verbatim` family. -/
theorem label_ne_ok_of_alias (isAlias : table.isAlias name = .ok true)
    (isVerbatim : table.isVerbatim name = .ok false) (label : String) :
    table.label name ≠ .ok label := by
  obtain ⟨inTable, hasAlias⟩ := lt_of_isAlias isAlias
  rw [isVerbatim_of_lt inTable] at isVerbatim
  have notVerbatim : table.root name ≠ table.predefined.verbatim :=
    of_decide_eq_false (Except.ok.inj isVerbatim)
  rw [label_of_alias inTable hasAlias, if_neg notVerbatim]
  nofun

end YulCheck.NameTable
