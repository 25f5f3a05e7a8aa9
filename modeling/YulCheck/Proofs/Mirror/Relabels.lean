import YulCheck.Proofs.Judgement.Typing
import YulCheck.Proofs.Name.Generated

/-! # Tables that differ by labels

What checking asks a name table about, apart from labels in messages: functions, the `verbatim` family,
the labels of functions and those by which declared names are shown. A table with generated labels
gives the same answers, and names that were allowed to be declared still are.
-/

namespace YulCheck

namespace NameTable

/-- Whether a table answers what another one does, except that the labels by which names are shown may
come from those by which they were shown. -/
structure Relabels (table after : NameTable) : Prop where
  same : ∃ entries owners, after = { table with entries, owners }
  builtin? : ∀ name answer, table.builtin? name = .ok answer → after.builtin? name = .ok answer
  isVerbatim : ∀ name answer, table.isVerbatim name = .ok answer →
    after.isVerbatim name = .ok answer
  /-- Functions keep their labels. -/
  ofBuiltin : ∀ name builtin, table.builtin? name = .ok (some builtin) →
    after.isAlias name = table.isAlias name ∧ after.label name = table.label name
  shown : ∀ name label, table.shownLabel name = .ok label →
    ∃ other, after.shownLabel name = .ok other ∧ ComesFrom label other

namespace Generates

variable {dialect : Dialect} {unified : Handle → Prop} {table after : NameTable} {name : Handle}
  {block : Block} {labels : List (Handle × String)} {used reserved : List String}
  (generates : table.Generates block reserved used labels after)
  (faithful : table.IsFaithful dialect unified)

include generates faithful

/-- Names are shown by labels that come from those by which they were shown. -/
theorem shownLabel {label : String} (shown : table.shownLabel name = .ok label) :
    ∃ other, after.shownLabel name = .ok other ∧ ComesFrom label other := by
  have orderly := faithful.toIsOrderly
  have inTable : name.index < table.size := IsShown.lt ⟨label, shown⟩
  have inAfter : name.index < after.size := generates.size_eq.symm ▸ inTable
  have predefined : after.predefined = table.predefined := by
    obtain ⟨entries, owners, rfl, _⟩ := generates.exists_eq
    rfl
  have family : after.root name = table.predefined.verbatim ↔
      table.root name = table.predefined.verbatim := by
    rw [generates.outcome]
    exact generates.awaited.root_eq_verbatim_iff orderly name
  by_cases isVerbatim : table.root name = table.predefined.verbatim
  · -- Names of the `verbatim` family keep their labels.
    refine ⟨label, ?_, .base⟩
    have hasLabel : ¬table.AwaitsLabel name := fun awaits => awaits.isOther isVerbatim
    rw [shownLabel_of_lt inTable, decide_eq_true isVerbatim, Bool.not_true, Bool.and_false,
      if_neg Bool.false_ne_true] at shown
    rw [shownLabel_of_lt inAfter, predefined, decide_eq_true (family.mpr isVerbatim), Bool.not_true,
      Bool.and_false, if_neg Bool.false_ne_true,
      generates.label_of_not_awaits orderly faithful.toIsConsistent inTable hasLabel]
    exact shown
  · obtain ⟨base, atRoot⟩ := orderly.exists_label_root inTable
    rw [shownLabel_of_root inTable isVerbatim atRoot] at shown
    obtain rfl := Except.ok.inj shown
    obtain ⟨other, found, comes⟩ :=
      generates.keepsBases orderly name base (rootLabel?_eq_some_iff.mpr atRoot)
    refine ⟨other, ?_, comes⟩
    refine shownLabel_of_root inAfter ?_ (rootLabel?_eq_some_iff.mp found)
    rw [predefined]
    exact fun isBase => isVerbatim (family.mp isBase)

/-- A generation of labels changes nothing but labels. -/
theorem relabels : table.Relabels after where
  same := by
    obtain ⟨entries, owners, same, _⟩ := generates.exists_eq
    exact ⟨entries, owners, same⟩
  builtin? name answer known := by
    rw [generates.builtin? faithful.toIsOrderly faithful.toIsConsistent (lt_of_builtin? known)]
    exact known
  isVerbatim name answer known := by
    rw [generates.isVerbatim faithful.toIsOrderly (lt_of_isVerbatim known)]
    exact known
  ofBuiltin name builtin known := by
    have inTable := lt_of_builtin? known
    have named := faithful.toIsConsistent.isNamed (lookup_of_builtin? known)
    exact ⟨generates.isAlias_of_not_awaits inTable named.not_awaits,
      generates.label_of_not_awaits faithful.toIsOrderly faithful.toIsConsistent inTable
        named.not_awaits⟩
  shown name label shown := generates.shownLabel faithful shown

end Generates

/-- Labels for the aliases of a block are generated by relabelling. -/
theorem Reachable.relabels {dialect : Dialect} {table after : NameTable} {block : Block}
    {reserved : List String} (reachable : table.Reachable dialect)
    (catalogued : dialect.IsCatalogued) (regular : dialect.IsRegular)
    (labelled : table.labelAliases block reserved = .ok after) : table.Relabels after := by
  obtain ⟨unified, faithful⟩ := reachable.exists_isFaithful catalogued regular
  obtain ⟨used, labels, generates⟩ := exists_generates faithful.toIsOrderly labelled
  exact generates.relabels faithful

end NameTable

/-! ### Declared names -/

namespace Setting

variable {setting : Setting} {name : Handle} {base label : String}

theorem hasConsecutiveDots_cons (first : Char) (rest : List Char) :
    hasConsecutiveDots (first :: rest) =
      (decide (first = '.' ∧ rest.head? = some '.') || hasConsecutiveDots rest) := by
  cases rest with
  | nil => simp [hasConsecutiveDots]
  | cons second rest =>
    by_cases both : first = '.' ∧ second = '.'
    · obtain ⟨rfl, rfl⟩ := both
      simp [hasConsecutiveDots]
    · rw [hasConsecutiveDots]
      · simp [both]
      · rintro _ rfl same
        exact both ⟨rfl, (List.cons.inj same).1⟩

/-- No two dots follow each other where there were none and none are added. -/
theorem hasConsecutiveDots_append {front rest : List Char} (noDots : hasConsecutiveDots front = false)
    (others : '.' ∉ rest) : hasConsecutiveDots (front ++ rest) = false := by
  induction front with
  | nil =>
    rw [List.nil_append]
    induction rest with
    | nil => rfl
    | cons first rest ih =>
      rw [List.mem_cons, not_or] at others
      rw [hasConsecutiveDots_cons, ih others.2, Bool.or_false, decide_eq_false_iff_not]
      exact fun both => others.1 both.1.symm
  | cons first front ih =>
    rw [hasConsecutiveDots_cons, Bool.or_eq_false_iff, decide_eq_false_iff_not] at noDots
    rw [List.cons_append, hasConsecutiveDots_cons, ih noDots.2, Bool.or_false,
      decide_eq_false_iff_not]
    rintro ⟨isDot, isNext⟩
    cases front with
    | nil => exact others (List.mem_of_head? isNext)
    | cons second front => exact noDots.1 ⟨isDot, isNext⟩

/-- Whether a label may be the one of a declared name. -/
structure IsDeclarable (dialect : Dialect) (label : String) : Prop where
  noDot : label.toList.getLast? ≠ some '.'
  noDots : hasConsecutiveDots label.toList = false
  isAllowed : dialect.isReserved label = false

theorem nameIsFree_iff :
    setting.NameIsFree name ↔ ∃ label, setting.names.shownLabel name = .ok label ∧
      IsDeclarable setting.names.dialect label := by
  constructor
  · rintro ⟨label, shown, noDot, noDots, isAllowed⟩
    exact ⟨label, shown, noDot, noDots, isAllowed⟩
  · rintro ⟨label, shown, declarable⟩
    exact ⟨label, shown, declarable.noDot, declarable.noDots, declarable.isAllowed⟩

/-- A number makes no difference: it has no dots, and reserved labels are none that have one. -/
theorem IsDeclarable.candidate {dialect : Dialect} (declarable : IsDeclarable dialect label)
    (catalogued : dialect.IsCatalogued) (number : Nat) :
    IsDeclarable dialect (NameTable.candidate label (number + 1)) where
  noDot := by
    obtain ⟨digit, isLast, isDigit⟩ := NameTable.getLast?_candidate_succ label number
    rw [isLast]
    rintro ⟨rfl⟩
    exact absurd isDigit (by decide)
  noDots := by
    rw [NameTable.toList_candidate_succ]
    refine hasConsecutiveDots_append declarable.noDots
      (List.not_mem_cons_of_ne_of_not_mem (by decide) fun isDigit => ?_)
    exact absurd (Nat.isDigit_of_mem_toDigits (by decide) (by decide) isDigit) (by decide)
  isAllowed := by
    refine Bool.eq_false_iff.mpr fun isReserved => ?_
    have isAllowed := declarable.isAllowed
    rw [catalogued.reserved label number isReserved] at isAllowed
    cases isAllowed

/-- A label that comes from one of a declared name may be one as well. -/
theorem IsDeclarable.of_comesFrom {dialect : Dialect} (declarable : IsDeclarable dialect base)
    (catalogued : dialect.IsCatalogued) (comes : NameTable.ComesFrom base label) :
    IsDeclarable dialect label :=
  comes.keeps declarable fun _ number before => before.candidate catalogued number

end Setting

end YulCheck
