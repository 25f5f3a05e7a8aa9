import YulCheck.Proofs.Name.Candidates
import YulCheck.Proofs.Name.Labelled

/-! # Names that are given labels

What changes when aliases outside of the `verbatim` family are given labels: chains of aliases end at
names with new labels, and everything else stays as it is. The table remains ready for programs.
-/

namespace YulCheck.NameTable

variable {dialect : Dialect} {table middle : NameTable} {name other base : Handle} {label : String}
  {labels : List (Handle × String)}

/-! ### Ends of chains -/

theorem root_of_alias (back : RefersBack table.entries)
    (isAlias : table.entries[name.index]? = some (.alias base)) :
    table.root name = table.root base := by
  have earlier := back _ _ isAlias
  have follow (count : Nat) (enough : base.index < count) :
      followAliases table.entries count name = table.root base := by
    cases count with
    | zero => exact absurd enough (Nat.not_lt_zero _)
    | succ steps =>
      rw [followAliases, isAlias]
      exact followAliases_eq_of_le back (Nat.le_of_lt_succ enough) (Nat.le_refl _)
  exact follow name.index earlier

theorem root_of_labelled (labelled : table.entries[name.index]? = some (.labelled label)) :
    table.root name = name :=
  followAliases_of_labelled labelled name.index

/-- A handle that is of no name is the end of its own chain. -/
theorem root_of_outside (outside : table.entries[name.index]? = none) : table.root name = name := by
  have follow (count : Nat) : followAliases table.entries count name = name := by
    cases count with
    | zero => rfl
    | succ steps => rw [followAliases, outside]
  exact follow name.index

/-- The end of a chain is the end of its own chain. -/
theorem IsOrderly.root_root (orderly : table.IsOrderly) (name : Handle) :
    table.root (table.root name) = table.root name := by
  rcases entry : table.entries[(table.root name).index]? with _ | ⟨label | base⟩
  · exact root_of_outside entry
  · exact root_of_labelled entry
  · exact absurd entry (followAliases_ne_alias orderly.back (Nat.le_refl _) base)

theorem rootLabel?_eq_some_iff :
    table.rootLabel? name = some label ↔
      table.entries[(table.root name).index]? = some (.labelled label) := by
  rw [rootLabel?]
  constructor
  · intro found
    split at found
    · rename_i labelled
      rw [labelled, Option.some.inj found]
    · cases found
  · intro labelled
    rw [labelled]

/-! ### Names that await a label -/

/-- Whether a name is an alias outside of the `verbatim` family. -/
structure AwaitsLabel (table : NameTable) (name : Handle) : Prop where
  isAlias : ∃ base, table.entries[name.index]? = some (.alias base)
  isOther : table.root name ≠ table.predefined.verbatim

theorem AwaitsLabel.lt (awaits : table.AwaitsLabel name) : name.index < table.size := by
  obtain ⟨base, isAlias⟩ := awaits.isAlias
  exact (Array.getElem?_eq_some_iff.mp isAlias).1

theorem hasAlias_iff :
    table.hasAlias name = true ↔ ∃ base, table.entries[name.index]? = some (.alias base) := by
  rw [hasAlias]
  constructor
  · intro isAlias
    split at isAlias
    · exact ⟨_, by assumption⟩
    · cases isAlias
  · rintro ⟨base, isAlias⟩
    rw [isAlias]

/-- A name is found to need a label if and only if it awaits one. -/
theorem needsLabel_eq_iff {needs : Bool} :
    table.needsLabel name = .ok needs ↔
      name.index < table.size ∧ (needs = true ↔ table.AwaitsLabel name) := by
  rw [needsLabel]
  constructor
  · intro answered
    obtain ⟨isAlias, first, answered⟩ := Except.bind_eq_ok_iff.mp answered
    obtain ⟨inTable, rfl⟩ := lt_of_isAlias first
    rw [isVerbatim_of_lt inTable] at answered
    obtain rfl := Except.ok.inj answered
    refine ⟨inTable, ?_⟩
    rw [Bool.and_eq_true, hasAlias_iff, Bool.not_eq_true', decide_eq_false_iff_not]
    exact ⟨fun both => ⟨both.1, both.2⟩, fun awaits => ⟨awaits.isAlias, awaits.isOther⟩⟩
  · rintro ⟨inTable, same⟩
    rw [isAlias_of_lt inTable, isVerbatim_of_lt inTable]
    show Except.ok _ = Except.ok needs
    congr 1
    rw [Bool.eq_iff_iff, same, Bool.and_eq_true, hasAlias_iff, Bool.not_eq_true',
      decide_eq_false_iff_not]
    exact ⟨fun both => ⟨both.1, both.2⟩, fun awaits => ⟨awaits.isAlias, awaits.isOther⟩⟩

theorem awaitsLabel_iff :
    table.AwaitsLabel name ↔ table.isAlias name = .ok true ∧ table.isVerbatim name = .ok false := by
  constructor
  · intro awaits
    rw [isAlias_of_lt awaits.lt, isVerbatim_of_lt awaits.lt, hasAlias_iff.mpr awaits.isAlias,
      decide_eq_false awaits.isOther]
    exact ⟨rfl, rfl⟩
  · rintro ⟨isAlias, isVerbatim⟩
    obtain ⟨inTable, hasAlias⟩ := lt_of_isAlias isAlias
    rw [isVerbatim_of_lt inTable] at isVerbatim
    exact ⟨hasAlias_iff.mp hasAlias, of_decide_eq_false (Except.ok.inj isVerbatim)⟩

theorem AwaitsLabel.not_hasLabel (awaits : table.AwaitsLabel name) : ¬table.HasLabel name := by
  rintro ⟨label, labelled⟩
  obtain ⟨isAlias, isVerbatim⟩ := awaitsLabel_iff.mp awaits
  exact label_ne_ok_of_alias isAlias isVerbatim label labelled

/-- A name has a label if it awaits none and, being an alias of the `verbatim` family, has a
function. -/
theorem hasLabel_of_not_awaits (inTable : name.index < table.size)
    (notAwaits : ¬table.AwaitsLabel name)
    (described : table.isAlias name = .ok true → table.isVerbatim name = .ok true →
      ∃ signature, table.builtin? name = .ok (some signature)) : table.HasLabel name := by
  rcases entry : table.entries[name.index]? with _ | ⟨label | base⟩
  · exact absurd inTable (Nat.not_lt_of_le (Array.getElem?_eq_none_iff.mp entry))
  · exact ⟨label, label_of_entry entry⟩
  · have hasAlias : table.hasAlias name = true := hasAlias_iff.mpr ⟨base, entry⟩
    have isVerbatim : table.root name = table.predefined.verbatim :=
      by_contra fun isOther => notAwaits ⟨⟨base, entry⟩, isOther⟩
    rw [isAlias_of_lt inTable, hasAlias, isVerbatim_of_lt inTable,
      decide_eq_true isVerbatim] at described
    obtain ⟨signature, known⟩ := described rfl rfl
    refine ⟨signature.function.name, ?_⟩
    rw [label_of_alias inTable hasAlias, if_pos isVerbatim, known]
    rfl

/-- Named names do not await a label. -/
theorem IsNamed.not_awaits (named : table.IsNamed name) : ¬table.AwaitsLabel name := by
  intro awaits
  obtain ⟨base, isAlias⟩ := awaits.isAlias
  rcases named with ⟨label, labelled⟩ | described
  · rw [labelled] at isAlias
    cases isAlias
  · exact awaits.isOther described.root

/-! ### A label for one name -/

@[simp]
theorem size_assign (table : NameTable) (name : Handle) (label : String) :
    (table.assign name label).size = table.size :=
  Array.size_setIfInBounds

theorem getElem?_assign_self (inTable : name.index < table.size) (label : String) :
    (table.assign name label).entries[name.index]? = some (.labelled label) :=
  Array.getElem?_setIfInBounds_self.trans (if_pos inTable)

theorem getElem?_assign_ne {index : Nat} (isOther : index ≠ name.index) (label : String) :
    (table.assign name label).entries[index]? = table.entries[index]? :=
  Array.getElem?_setIfInBounds_ne isOther.symm

/-- A label that has an owner keeps it; otherwise the name owns it. -/
theorem mem_owners_assign {entry : String × Handle}
    (owned : entry ∈ (table.assign name label).owners) :
    entry ∈ table.owners ∨ entry = (label, name) := by
  have unfolded : (table.assign name label).owners =
      if (table.owners.lookup label).isSome then table.owners
      else (label, name) :: table.owners := rfl
  rw [unfolded] at owned
  split at owned
  · exact .inl owned
  · exact (List.mem_cons.mp owned).symm

theorem RefersBack.assign (back : RefersBack table.entries) (name : Handle) (label : String) :
    RefersBack (table.assign name label).entries := by
  intro index base isAlias
  by_cases isOther : index = name.index
  · subst isOther
    rw [NameTable.assign, Array.getElem?_setIfInBounds_self] at isAlias
    split at isAlias <;> cases isAlias
  · rw [getElem?_assign_ne isOther] at isAlias
    exact back index base isAlias

/-- A chain of aliases ends where it did, or at the name that was given a label. -/
theorem root_assign (back : RefersBack table.entries) (inTable : name.index < table.size)
    (label : String) (other : Handle) :
    (table.assign name label).root other = table.root other ∨
      (table.assign name label).root other = name ∧ table.root other = table.root name := by
  induction index : other.index using Nat.strongRecOn generalizing other with
  | ind index ih =>
  subst index
  by_cases isSame : other.index = name.index
  · obtain rfl : other = name := congrArg Handle.mk isSame
    exact .inr ⟨root_of_labelled (getElem?_assign_self inTable label), rfl⟩
  · have entry : (table.assign name label).entries[other.index]? = table.entries[other.index]? :=
      getElem?_assign_ne isSame label
    rcases known : table.entries[other.index]? with _ | ⟨owned | base⟩
    · exact .inl ((root_of_outside (entry.trans known)).trans (root_of_outside known).symm)
    · exact .inl ((root_of_labelled (entry.trans known)).trans (root_of_labelled known).symm)
    · rw [root_of_alias back known, root_of_alias (back.assign name label) (entry.trans known)]
      exact ih base.index (back _ _ known) base rfl

section Step

variable (orderly : table.IsOrderly) (awaits : table.AwaitsLabel name)

include awaits

theorem AwaitsLabel.ne_of_labelled {label : String}
    (labelled : table.entries[other.index]? = some (.labelled label)) :
    other.index ≠ name.index := by
  intro same
  obtain ⟨base, isAlias⟩ := awaits.isAlias
  rw [same, isAlias] at labelled
  cases labelled

include orderly

theorem IsOrderly.isDescribed_assign (label : String) (described : table.IsDescribed other) :
    (table.assign name label).IsDescribed other where
  isAlias := by
    have isOther : other.index ≠ name.index := by
      intro same
      obtain rfl : other = name := congrArg Handle.mk same
      exact awaits.isOther described.root
    rw [getElem?_assign_ne isOther]
    exact described.isAlias
  root := by
    rcases root_assign orderly.back awaits.lt label other with same | ⟨_, sameRoot⟩
    · exact same.trans described.root
    · exact absurd (sameRoot.symm.trans described.root) awaits.isOther
  function := described.function

theorem IsOrderly.isNamed_assign (label : String) (named : table.IsNamed other) :
    (table.assign name label).IsNamed other := by
  rcases named with ⟨owned, labelled⟩ | described
  · refine .inl ⟨owned, ?_⟩
    rw [getElem?_assign_ne (awaits.ne_of_labelled labelled)]
    exact labelled
  · exact .inr (orderly.isDescribed_assign awaits label described)

theorem IsOrderly.assign (label : String) : (table.assign name label).IsOrderly where
  first := by
    have first : table.entries[Handle.empty.index]? = _ := orderly.first
    exact (getElem?_assign_ne (awaits.ne_of_labelled first) label).trans first
  back := orderly.back.assign name label
  owners entry owned := by
    rcases mem_owners_assign owned with owned | rfl
    · have labelled := orderly.owners entry owned
      rw [getElem?_assign_ne (awaits.ne_of_labelled labelled)]
      exact labelled
    · exact getElem?_assign_self awaits.lt label
  verbatim := by
    obtain ⟨base, labelled⟩ := orderly.verbatim
    exact ⟨base, (getElem?_assign_ne (awaits.ne_of_labelled labelled) label).trans labelled⟩
  verbatims entry listed :=
    (orderly.verbatims entry listed).imp id (orderly.isDescribed_assign awaits label)
  builtins other inRange :=
    orderly.isNamed_assign awaits label (orderly.builtins other inRange)

/-- The other names still await their labels. -/
theorem IsOrderly.awaitsLabel_assign (label : String) (isOther : other ≠ name)
    (waits : table.AwaitsLabel other) : (table.assign name label).AwaitsLabel other where
  isAlias := by
    rw [getElem?_assign_ne fun same => isOther (congrArg Handle.mk same)]
    exact waits.isAlias
  isOther := by
    rcases root_assign orderly.back awaits.lt label other with same | ⟨atName, _⟩
    · rw [same]
      exact waits.isOther
    · rw [atName]
      intro isVerbatim
      obtain ⟨base, labelled⟩ := orderly.verbatim
      exact awaits.ne_of_labelled labelled (congrArg Handle.index isVerbatim.symm)

end Step

/-! ### Labels for many names -/

/-- The table with labels for names, given one after another. -/
def assignAll (table : NameTable) (labels : List (Handle × String)) : NameTable :=
  labels.foldl (fun table (name, label) => table.assign name label) table

theorem assignAll_cons (table : NameTable) (entry : Handle × String)
    (rest : List (Handle × String)) :
    table.assignAll (entry :: rest) = (table.assign entry.1 entry.2).assignAll rest := rfl

theorem assignAll_concat (table : NameTable) (labels : List (Handle × String)) (name : Handle)
    (label : String) :
    table.assignAll (labels ++ [(name, label)]) = (table.assignAll labels).assign name label := by
  rw [assignAll, List.foldl_append]
  rfl

/-- Nothing but entries and owners of labels changes. -/
theorem exists_assignAll_eq (table : NameTable) (labels : List (Handle × String)) :
    ∃ entries owners, table.assignAll labels = { table with entries, owners } ∧
      entries.size = table.size := by
  induction labels generalizing table with
  | nil => exact ⟨table.entries, table.owners, rfl, rfl⟩
  | cons entry rest ih =>
    obtain ⟨entries, owners, same, size⟩ := ih (table.assign entry.1 entry.2)
    rw [assignAll_cons, same]
    exact ⟨entries, owners, rfl, size.trans (size_assign table entry.1 entry.2)⟩

@[simp]
theorem size_assignAll (table : NameTable) (labels : List (Handle × String)) :
    (table.assignAll labels).size = table.size := by
  obtain ⟨entries, owners, same, size⟩ := exists_assignAll_eq table labels
  rw [same]
  exact size

/-- Names without a new label keep their entries. -/
theorem getElem?_assignAll_of_ne {index : Nat} (isOther : ∀ entry ∈ labels, entry.1.index ≠ index) :
    (table.assignAll labels).entries[index]? = table.entries[index]? := by
  induction labels generalizing table with
  | nil => rfl
  | cons entry rest ih =>
    rw [List.forall_mem_cons] at isOther
    rw [assignAll_cons, ih isOther.2, getElem?_assign_ne (Ne.symm isOther.1)]

/-- Whether labels are for distinct names that await one. -/
structure Awaited (table : NameTable) (labels : List (Handle × String)) : Prop where
  distinct : (labels.map (·.1)).Nodup
  awaits : ∀ entry ∈ labels, table.AwaitsLabel entry.1

namespace Awaited

/-- If labels are awaited, so are those behind the first one when that is given. -/
theorem tail {entry : Handle × String} {rest : List (Handle × String)}
    (awaited : table.Awaited (entry :: rest)) (orderly : table.IsOrderly) :
    (table.assign entry.1 entry.2).Awaited rest := by
  obtain ⟨isNew, distinct⟩ := List.nodup_cons.mp awaited.distinct
  refine ⟨distinct, fun other member => ?_⟩
  have isOther : other.1 ≠ entry.1 := fun same => isNew (List.mem_map.mpr ⟨other, member, same⟩)
  exact orderly.awaitsLabel_assign (awaited.awaits entry List.mem_cons_self) entry.2 isOther
    (awaited.awaits other (List.mem_cons_of_mem _ member))

/-- What holds of a table, and still holds when one more name has its label, holds when all have. -/
theorem induct (property : NameTable → Prop) (awaited : table.Awaited labels)
    (orderly : table.IsOrderly) (holds : property table)
    (assigned : ∀ middle : NameTable, middle.IsOrderly → property middle →
      ∀ entry ∈ labels, middle.AwaitsLabel entry.1 → property (middle.assign entry.1 entry.2)) :
    property (table.assignAll labels) := by
  induction labels generalizing table with
  | nil => exact holds
  | cons entry rest ih =>
    have awaits := awaited.awaits entry List.mem_cons_self
    have first := assigned table orderly holds entry List.mem_cons_self awaits
    refine ih (awaited.tail orderly) (orderly.assign awaits entry.2) first ?_
    exact fun middle isOrderly before other member =>
      assigned middle isOrderly before other (List.mem_cons_of_mem _ member)

variable (awaited : table.Awaited labels) (orderly : table.IsOrderly)

include awaited

theorem getElem?_assignAll {entry : Handle × String} (member : entry ∈ labels) :
    (table.assignAll labels).entries[entry.1.index]? = some (.labelled entry.2) := by
  have inTable := (awaited.awaits entry member).lt
  have distinct := awaited.distinct
  clear awaited
  induction labels generalizing table with
  | nil => cases member
  | cons first rest ih =>
    obtain ⟨isNew, distinct⟩ := List.nodup_cons.mp distinct
    rw [assignAll_cons]
    rcases List.mem_cons.mp member with rfl | member
    · rw [getElem?_assignAll_of_ne, getElem?_assign_self inTable]
      intro other isLater same
      exact isNew (List.mem_map.mpr ⟨other, isLater, congrArg Handle.mk same⟩)
    · exact ih member ((size_assign table first.1 first.2).symm ▸ inTable) distinct

include orderly

theorem isOrderly : (table.assignAll labels).IsOrderly :=
  induct IsOrderly awaited orderly orderly
    fun _ isOrderly _ _ _ awaits => isOrderly.assign awaits _

/-- Chains end where they did, or at names whose chains ended there. -/
theorem root_root (name : Handle) :
    table.root ((table.assignAll labels).root name) = table.root name := by
  have keeps := induct (fun middle => ∀ name, table.root (middle.root name) = table.root name)
    awaited orderly orderly.root_root fun middle isOrderly before entry _ awaits other => by
      rcases root_assign isOrderly.back awaits.lt entry.2 other with same | ⟨atName, sameRoot⟩
      · rw [same]
        exact before other
      · rw [atName, ← before entry.1, ← sameRoot]
        exact before other
  exact keeps name

theorem isDescribed (described : table.IsDescribed name) :
    (table.assignAll labels).IsDescribed name :=
  induct (·.IsDescribed name) awaited orderly described
    fun _ isOrderly before _ _ awaits => isOrderly.isDescribed_assign awaits _ before

theorem isNamed (named : table.IsNamed name) : (table.assignAll labels).IsNamed name :=
  induct (·.IsNamed name) awaited orderly named
    fun _ isOrderly before _ _ awaits => isOrderly.isNamed_assign awaits _ before

end Awaited

/-- A table in which labels are given remains ready for programs. -/
theorem IsReady.assignAll (ready : table.IsReady dialect) (awaited : table.Awaited labels) :
    (table.assignAll labels).IsReady dialect := by
  have orderly := awaited.isOrderly ready.toIsOrderly
  have named {name : Handle} (named : table.IsNamed name) :
      (table.assignAll labels).IsNamed name := awaited.isNamed ready.toIsOrderly named
  obtain ⟨entries, owners, same, _⟩ := exists_assignAll_eq table labels
  rw [same] at orderly named ⊢
  exact {
    toIsOrderly := orderly
    toKnowsTypes := ready.toKnowsTypes.of_same rfl rfl rfl rfl
    toKnowsPredefined := ⟨ready.inRange, ready.defaultType, ready.boolType⟩
    ofType := fun type isType => named (ready.ofType type isType)
    listed := fun entry listed => named (ready.listed entry listed) }

/-! ### Labels and the labels that they come from -/

/-- Whether the label at the end of every chain of aliases comes from the one that was there. -/
def KeepsBases (table after : NameTable) : Prop :=
  ∀ name base, table.rootLabel? name = some base →
    ∃ label, after.rootLabel? name = some label ∧ ComesFrom base label

theorem KeepsBases.refl (table : NameTable) : table.KeepsBases table :=
  fun _ base found => ⟨base, found, .base⟩

/-- A name may be given a label that comes from the one at the end of its chain. -/
theorem KeepsBases.assign (keeps : table.KeepsBases middle) (orderly : middle.IsOrderly)
    (awaits : middle.AwaitsLabel name)
    (comes : ∀ base, middle.rootLabel? name = some base → ComesFrom base label) :
    table.KeepsBases (middle.assign name label) := by
  intro other base found
  obtain ⟨before, atRoot, comesBefore⟩ := keeps other base found
  rcases root_assign orderly.back awaits.lt label other with same | ⟨atName, sameRoot⟩
  · refine ⟨before, ?_, comesBefore⟩
    rw [rootLabel?_eq_some_iff] at atRoot ⊢
    rw [same, getElem?_assign_ne (awaits.ne_of_labelled atRoot)]
    exact atRoot
  · refine ⟨label, ?_, comesBefore.trans (comes before ?_)⟩
    · rw [rootLabel?_eq_some_iff, atName]
      exact getElem?_assign_self awaits.lt label
    · rw [rootLabel?, ← sameRoot]
      exact atRoot

end YulCheck.NameTable
