import YulCheck.Proofs.Dialect.Names

/-! # Dialects with plain labels

The labels of a dialect can be told apart if they are distinct and none of them looks like one that the
library makes up: those that start with `@`, and those of the `verbatim` family.
-/

namespace YulCheck.Dialect

/-- The labels of the types of a dialect. A dialect that lists no type has the empty one. -/
def typeLabels (dialect : Dialect) : List String :=
  if dialect.types.isEmpty then [""] else dialect.types

theorem typeLabels_ne_nil (dialect : Dialect) : dialect.typeLabels ≠ [] := by
  rw [typeLabels]
  split
  · nofun
  · rename_i isTyped
    exact mt List.isEmpty_iff.mpr isTyped

/-- Whether the labels of a dialect are distinct, and none of them looks like one that the library makes
up. -/
structure IsPlain (dialect : Dialect) : Prop where
  /-- The empty label is for dialects without other types. -/
  types : dialect.types = [""] ∨ "" ∉ dialect.types ∧ dialect.types.Nodup
  builtinNames : dialect.builtinNames.Nodup
  named : ∀ label function, dialect.builtin? label = some function → function.name = label
  unmarked : ∀ label ∈ dialect.types ++ dialect.builtinNames, label.toList.head? ≠ some '@'
  /-- Only the stem itself may start like the names of the `verbatim` family, and has no function. -/
  verbatim : ∀ label ∈ dialect.types ++ dialect.builtinNames,
    Verbatim.startsWith Verbatim.stem label = true →
      label = Verbatim.stem ∧ dialect.builtin? label = none
  defaultType : dialect.defaultType ∈ dialect.typeLabels
  boolType : dialect.boolType ∈ dialect.typeLabels

namespace IsPlain

variable {dialect : Dialect} {label : String} {function : Builtin}

/-- A function is of the `verbatim` family if its label starts like those of the family. -/
theorem isVerbatim_eq (plain : dialect.IsPlain) (known : dialect.builtin? label = some function) :
    function.isVerbatim = Verbatim.startsWith Verbatim.stem label := by
  rw [Builtin.isVerbatim, plain.named label function known]

theorem isVerbatim_of_mem (plain : dialect.IsPlain)
    (member : label ∈ dialect.types ++ dialect.builtinNames)
    (known : dialect.builtin? label = some function) : function.isVerbatim = false := by
  rw [plain.isVerbatim_eq known, Bool.eq_false_iff]
  intro starts
  rw [(plain.verbatim label member starts).2] at known
  cases known

theorem ne_verbatimBase (plain : dialect.IsPlain)
    (member : label ∈ dialect.types ++ dialect.builtinNames) : label ≠ verbatimBase := by
  rintro rfl
  exact plain.unmarked _ member (by decide)

end IsPlain

end YulCheck.Dialect
