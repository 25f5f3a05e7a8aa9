import YulCheck.Proofs.Name.Owners

/-! # How labels are generated

Labels are generated in two rounds: an alias whose label has an owner becomes that name at once, and
all others receive their labels at the end. The outcome is the same as if all labels were given one
after another: distinct labels that are not taken, each of which comes from the label at the end of
its name's chain of aliases.
-/

/-- Where elements are visited, each of them leads to a result, and each result comes from one. -/
theorem Except.forall_of_mapM_eq_ok {ε α β : Type} {visit : α → Except ε β} {elements : List α}
    {results : List β} (visited : elements.mapM visit = .ok results) :
    (∀ element ∈ elements, ∃ result ∈ results, visit element = .ok result) ∧
      ∀ result ∈ results, ∃ element ∈ elements, visit element = .ok result := by
  induction elements generalizing results with
  | nil =>
    cases visited
    exact ⟨nofun, nofun⟩
  | cons element rest ih =>
    rw [List.mapM_cons] at visited
    obtain ⟨first, isFirst, visited⟩ := Except.bind_eq_ok_iff.mp visited
    obtain ⟨others, areOthers, visited⟩ := Except.bind_eq_ok_iff.mp visited
    cases visited
    obtain ⟨lead, come⟩ := ih areOthers
    rw [List.forall_mem_cons, List.forall_mem_cons]
    refine ⟨⟨⟨first, List.mem_cons_self, isFirst⟩, fun other member => ?_⟩,
      ⟨⟨element, List.mem_cons_self, isFirst⟩, fun result member => ?_⟩⟩
    · obtain ⟨result, isOne, isResult⟩ := lead other member
      exact ⟨result, List.mem_cons_of_mem _ isOne, isResult⟩
    · obtain ⟨other, isOne, isResult⟩ := come result member
      exact ⟨other, List.mem_cons_of_mem _ isOne, isResult⟩

/-- All elements are visited if each of them can be. -/
theorem Except.exists_mapM_eq_ok {ε α β : Type} {visit : α → Except ε β} {elements : List α}
    (visits : ∀ element ∈ elements, ∃ result, visit element = .ok result) :
    ∃ results, elements.mapM visit = .ok results := by
  induction elements with
  | nil => exact ⟨[], rfl⟩
  | cons element rest ih =>
    rw [List.forall_mem_cons] at visits
    obtain ⟨⟨first, isFirst⟩, visits⟩ := visits
    obtain ⟨others, areOthers⟩ := ih visits
    rw [List.mapM_cons]
    exact ⟨first :: others, Except.bind_eq_ok_iff.mpr ⟨first, isFirst,
      Except.bind_eq_ok_iff.mpr ⟨others, areOthers, rfl⟩⟩⟩

/-- Elements are filtered by the answers to a question, if it has one for each of them. -/
theorem Except.filterM_eq_ok {ε α : Type} {question : α → Except ε Bool} {answer : α → Bool}
    {elements : List α} (answers : ∀ element ∈ elements, question element = .ok (answer element)) :
    elements.filterM question = .ok (elements.filter answer) := by
  have filtered (kept : List α) : elements.filterAuxM question kept =
      .ok ((elements.filter answer).reverse ++ kept) := by
    induction elements generalizing kept with
    | nil => rfl
    | cons element rest ih =>
      rw [List.forall_mem_cons] at answers
      rw [List.filterAuxM, answers.1, List.filter_cons]
      show List.filterAuxM question rest (bif answer element then element :: kept else kept) = _
      rw [ih answers.2]
      cases answer element with
      | false => rfl
      | true =>
        rw [cond_true, if_pos rfl, List.reverse_cons, List.append_assoc]
        rfl
  rw [List.filterM, filtered]
  show Except.ok ((elements.filter answer).reverse ++ []).reverse = _
  rw [List.append_nil, List.reverse_reverse]

namespace YulCheck

/-- The names of a block ascend. -/
theorem Block.pairwise_names (block : Block) : block.names.Pairwise (· < ·) :=
  AscendingList.pairwise_ofList block.occurrences

/-- No name is in ascending ones twice. -/
theorem nodup_of_ascending {names : List Handle} (ascending : names.Pairwise (· < ·)) :
    names.Nodup := by
  refine ascending.imp fun less => ?_
  rintro rfl
  exact Nat.lt_irrefl _ less

namespace NameTable

variable {dialect : Dialect} {table after : NameTable} {name : Handle} {label : String}
  {names : List Handle} {labels : List (Handle × String)} {used reserved : List String}
  {block : Block}

/-! ### One name -/

/-- What is done for one name: its label is chosen for the second round if it names nothing, and given
at once if it does. -/
inductive Labelling.Labels (labelling : Labelling) (name : Handle) (label : String) : Labelling → Prop
  | chosen (isNew : labelling.table.named label = .empty) :
    Labels labelling name label
      ⟨labelling.table, label :: labelling.used, labelling.chosen ++ [(name, label)]⟩
  | given (isNamed : labelling.table.named label ≠ .empty) :
    Labels labelling name label
      ⟨labelling.table.assign name label, label :: labelling.used, labelling.chosen⟩

theorem Labelling.exists_label {labelling : Labelling} (orderly : labelling.table.IsOrderly)
    (inTable : name.index < labelling.table.size) (reserved : List String) :
    ∃ base next, labelling.table.baseLabel name = .ok base ∧
      labelling.table.rootLabel? name = some base ∧ labelling.label reserved name = .ok next ∧
      labelling.Labels name (freshLabel base (labelling.used ++ reserved)) next := by
  obtain ⟨table, used, chosen⟩ := labelling
  obtain ⟨base, labelled⟩ := orderly.exists_label_root inTable
  have answered := baseLabel_of_root inTable labelled
  have atRoot := rootLabel?_eq_some_iff.mpr labelled
  simp only [Labelling.label, answered]
  by_cases isNew : table.named (freshLabel base (used ++ reserved)) = .empty
  · refine ⟨base, _, rfl, atRoot, ?_, .chosen isNew⟩
    exact if_pos (Handle.isEmpty_iff.mpr isNew)
  · -- The entry of the owner is its label.
    have entry := orderly.owners _ (mem_owners_of_named isNew)
    refine ⟨base, _, rfl, atRoot, ?_, .given isNew⟩
    refine (if_neg fun isEmpty => isNew (Handle.isEmpty_iff.mp isEmpty)).trans ?_
    rw [entry, Option.getD_some, assign_of_owned (owned_of_named isNew)]
    rfl

/-! ### All names -/

/-- Whether labels may be given to names: they are distinct, not taken, and come from the labels that
the names have at the ends of their chains. -/
structure AreFresh (table : NameTable) (taken : List String) (labels : List (Handle × String)) :
    Prop where
  distinct : (labels.map (·.2)).Nodup
  isFree : ∀ entry ∈ labels, entry.2 ∉ taken
  comes : ∀ entry ∈ labels, ∃ base, table.rootLabel? entry.1 = some base ∧ ComesFrom base entry.2

theorem AreFresh.concat {taken : List String} (fresh : table.AreFresh taken labels)
    (isFree : label ∉ taken) (isNew : label ∉ labels.map (·.2))
    (comes : ∃ base, table.rootLabel? name = some base ∧ ComesFrom base label) :
    table.AreFresh taken (labels ++ [(name, label)]) where
  distinct := by
    rw [List.map_append, List.map_singleton, List.nodup_append]
    refine ⟨fresh.distinct, List.nodup_singleton label, fun one isOne other isOther => ?_⟩
    obtain rfl := List.mem_singleton.mp isOther
    rintro rfl
    exact isNew isOne
  isFree := by
    rw [List.forall_mem_append, List.forall_mem_singleton]
    exact ⟨fresh.isFree, isFree⟩
  comes := by
    rw [List.forall_mem_append, List.forall_mem_singleton]
    exact ⟨fresh.comes, comes⟩

/-- Whether a generation has come to a state when labels were chosen for some names, one after another:
those whose labels named something have become what they name, and the labels are used. -/
structure Labelling.IsAfter (table : NameTable) (used reserved : List String)
    (before : List (Handle × String)) (labelling : Labelling) : Prop where
  ran : (before.map (·.1)).foldlM (Labelling.label reserved) ⟨table, used, []⟩ = .ok labelling
  table : labelling.table = table.unifyAll before
  used : ∀ label, label ∈ labelling.used ↔ label ∈ used ∨ label ∈ before.map (·.2)

theorem Labelling.IsAfter.step {labelling next : Labelling}
    (isAfter : labelling.IsAfter table used reserved labels)
    (labelled : labelling.label reserved name = .ok next) (isNext : labelling.Labels name label next) :
    next.IsAfter table used reserved (labels ++ [(name, label)]) where
  ran := by
    rw [List.map_append, List.foldlM_append, isAfter.ran]
    show List.foldlM (Labelling.label reserved) labelling [name] = _
    rw [List.foldlM_cons, labelled]
    rfl
  table := by
    cases isNext with
    | chosen isNew =>
      rw [isAfter.table, named_unifyAll] at isNew
      rw [unifyAll_concat_of_new isNew]
      exact isAfter.table
    | given isNamed =>
      rw [isAfter.table, named_unifyAll] at isNamed
      rw [unifyAll_concat_of_named isNamed]
      exact congrArg (·.assign name label) isAfter.table
  used other := by
    have used : next.used = label :: labelling.used := by cases isNext <;> rfl
    rw [used, List.mem_cons, isAfter.used, List.map_append, List.mem_append, List.map_singleton,
      List.mem_singleton, or_comm, or_assoc]

/-- Whether every label is the first candidate that is neither used nor reserved when it is chosen, of
the base that its name has by then. -/
def Picks (table : NameTable) (used reserved : List String) (labels : List (Handle × String)) : Prop :=
  ∀ before name label behind, labels = before ++ (name, label) :: behind →
    ∃ labelling base, Labelling.IsAfter table used reserved before labelling ∧
      labelling.table.baseLabel name = .ok base ∧
      IsFirstFree (fun other => other ∈ labelling.used ∨ other ∈ reserved) base label

theorem Picks.concat (picks : table.Picks used reserved labels) {labelling : Labelling} {base : String}
    (isAfter : labelling.IsAfter table used reserved labels)
    (answered : labelling.table.baseLabel name = .ok base)
    (first : IsFirstFree (fun other => other ∈ labelling.used ∨ other ∈ reserved) base label) :
    table.Picks used reserved (labels ++ [(name, label)]) := by
  intro before other otherLabel behind split
  rcases List.eq_nil_or_concat behind with rfl | ⟨between, last, rfl⟩
  · obtain ⟨rfl, same⟩ := List.append_inj' split rfl
    cases same
    exact ⟨labelling, base, isAfter, answered, first⟩
  · rw [List.concat_eq_append, ← List.cons_append, ← List.append_assoc] at split
    exact picks before other otherLabel between (List.append_inj' split rfl).1

/-- Whether a generation leads to the table in which some labels are given one after another, once
those that were chosen are given in the second round. -/
structure Labelling.Settles (table : NameTable) (labels : List (Handle × String))
    (labelling : Labelling) : Prop where
  settled : labelling.table.assignAll labelling.chosen = table.assignAll labels
  chosen : ∀ entry ∈ labelling.chosen, entry.1 ∈ labels.map (·.1)
  orderly : labelling.table.IsOrderly
  keeps : table.KeepsBases labelling.table
  awaits : ∀ name, table.AwaitsLabel name → name ∉ labels.map (·.1) →
    labelling.table.AwaitsLabel name

theorem Labelling.Settles.step {labelling next : Labelling} (settles : labelling.Settles table labels)
    (waits : table.AwaitsLabel name) (isNew : name ∉ labels.map (·.1))
    (isNext : labelling.Labels name label next)
    (comes : ∀ base, labelling.table.rootLabel? name = some base → ComesFrom base label) :
    next.Settles table (labels ++ [(name, label)]) := by
  have names : (labels ++ [(name, label)]).map (·.1) = labels.map (·.1) ++ [name] := List.map_append
  cases isNext with
  | chosen =>
    refine ⟨?_, fun entry member => ?_, settles.orderly, settles.keeps, fun other waiting isOther => ?_⟩
    · rw [assignAll_concat, assignAll_concat, settles.settled]
    · rw [names, List.mem_append]
      rcases List.mem_append.mp member with member | isLast
      · exact .inl (settles.chosen entry member)
      · obtain rfl := List.mem_singleton.mp isLast
        exact .inr List.mem_cons_self
    · rw [names, List.mem_append, not_or] at isOther
      exact settles.awaits other waiting isOther.1
  | given isNamed =>
    have waitsNow := settles.awaits name waits isNew
    have notChosen : name ∉ labelling.chosen.map (·.1) := by
      intro member
      obtain ⟨entry, isChosen, rfl⟩ := List.mem_map.mp member
      exact isNew (settles.chosen entry isChosen)
    refine ⟨?_, fun entry member => ?_, settles.orderly.assign waitsNow label,
      settles.keeps.assign settles.orderly waitsNow comes, fun other waiting isOther => ?_⟩
    · rw [assignAll_concat, assignAll_assign (owned_of_named isNamed) notChosen, settles.settled]
    · rw [names, List.mem_append]
      exact .inl (settles.chosen entry member)
    · rw [names, List.mem_append, not_or, List.mem_singleton] at isOther
      exact settles.orderly.awaitsLabel_assign waitsNow label isOther.2
        (settles.awaits other waiting isOther.1)

/-- Whether a generation is where it should be when it has decided on some labels. -/
structure Labelling.Decided (table : NameTable) (used reserved : List String)
    (labels : List (Handle × String)) (labelling : Labelling) : Prop where
  isAfter : labelling.IsAfter table used reserved labels
  settles : labelling.Settles table labels
  picks : table.Picks used reserved labels
  fresh : table.AreFresh (used ++ reserved) labels

/-- One more name gets its label, and something is decided for it. -/
theorem Labelling.Decided.step {labelling : Labelling}
    (decided : labelling.Decided table used reserved labels) (orderly : table.IsOrderly)
    (awaits : table.AwaitsLabel name) (isNew : name ∉ labels.map (·.1)) :
    ∃ label next, labelling.label reserved name = .ok next ∧
      next.Decided table used reserved (labels ++ [(name, label)]) := by
  obtain ⟨isAfter, settles, picks, fresh⟩ := decided
  obtain ⟨base, next, answered, atRoot, labelled, isNext⟩ :=
    Labelling.exists_label settles.orderly (settles.awaits name awaits isNew).lt reserved
  have first := (isFirstFree_freshLabel base (labelling.used ++ reserved)).congr
    fun _ => List.mem_append
  generalize freshLabel base (labelling.used ++ reserved) = label at isNext first
  have isFresh := first.isFree
  rw [not_or, isAfter.used, not_or] at isFresh
  obtain ⟨⟨notUsed, notDecided⟩, notReserved⟩ := isFresh
  have isFree : label ∉ used ++ reserved :=
    fun member => (List.mem_append.mp member).elim notUsed notReserved
  have comes : ∀ other, labelling.table.rootLabel? name = some other → ComesFrom other label := by
    intro other atOther
    obtain rfl := Option.some.inj (atRoot.symm.trans atOther)
    exact first.comesFrom
  -- The label at the end of the chain comes from the one that was there at first.
  have comesAtFirst : ∃ origin, table.rootLabel? name = some origin ∧ ComesFrom origin label := by
    obtain ⟨origin, atFirst⟩ := orderly.exists_label_root awaits.lt
    have found := rootLabel?_eq_some_iff.mpr atFirst
    obtain ⟨later, atLater, comesLater⟩ := settles.keeps name origin found
    exact ⟨origin, found, comesLater.trans (comes later atLater)⟩
  exact ⟨label, next, labelled, isAfter.step labelled isNext,
    settles.step awaits isNew isNext comes, picks.concat isAfter answered first,
    fresh.concat isFree notDecided comesAtFirst⟩

theorem Labelling.decided_start (orderly : table.IsOrderly) (used reserved : List String) :
    Labelling.Decided table used reserved [] ⟨table, used, []⟩ where
  isAfter := ⟨rfl, rfl, fun _ => ⟨.inl, fun either => either.elim id nofun⟩⟩
  settles := ⟨rfl, nofun, orderly, KeepsBases.refl table, fun _ waits _ => waits⟩
  picks before _ _ _ split := absurd split.symm (List.append_ne_nil_of_right_ne_nil before nofun)
  fresh := ⟨List.nodup_nil, nofun, nofun⟩

/-- All names get their labels, behind those that something is decided for. -/
theorem Labelling.Decided.foldlM {labelling : Labelling}
    (decided : labelling.Decided table used reserved labels) (orderly : table.IsOrderly)
    (awaits : ∀ name ∈ names, table.AwaitsLabel name)
    (distinct : (labels.map (·.1) ++ names).Nodup) :
    ∃ all last, names.foldlM (Labelling.label reserved) labelling = .ok last ∧
      last.Decided table used reserved all ∧ all.map (·.1) = labels.map (·.1) ++ names := by
  induction names generalizing labels labelling with
  | nil => exact ⟨labels, labelling, rfl, decided, (List.append_nil _).symm⟩
  | cons name rest ih =>
    have isNew : name ∉ labels.map (·.1) := by
      intro member
      exact (List.nodup_append.mp distinct).2.2 name member name List.mem_cons_self rfl
    obtain ⟨label, next, labelled, decidedLater⟩ :=
      decided.step orderly (awaits name List.mem_cons_self) isNew
    have names : (labels ++ [(name, label)]).map (·.1) = labels.map (·.1) ++ [name] :=
      List.map_append
    have order : labels.map (·.1) ++ [name] ++ rest = labels.map (·.1) ++ name :: rest :=
      List.append_assoc _ _ _
    obtain ⟨all, last, ran, decidedLast, allNames⟩ := ih decidedLater
      (fun other member => awaits other (List.mem_cons_of_mem _ member))
      (by rw [names, order]; exact distinct)
    refine ⟨all, last, ?_, decidedLast, by rw [allNames, names, order]⟩
    rw [List.foldlM_cons, labelled]
    exact ran

/-! ### Generations -/

/-- What is known about the labels that are taken: those of the dialect and of the names in a list
that have one are, and no others. -/
structure ListsUsed (table : NameTable) (names : List Handle) (used : List String) : Prop where
  ofDialect : ∀ index < table.builtinRange.stop, ∃ label ∈ used, table.label ⟨index⟩ = .ok label
  inTable : ∀ name ∈ names, name.index < table.size
  ofProgram : ∀ name ∈ names, ¬table.AwaitsLabel name → ∃ label ∈ used, table.label name = .ok label
  only : ∀ label ∈ used, (∃ index < table.builtinRange.stop, table.label ⟨index⟩ = .ok label) ∨
    ∃ name ∈ names, ¬table.AwaitsLabel name ∧ table.label name = .ok label

theorem listsUsed_of_usedLabels (listed : table.usedLabels names = .ok used) :
    table.ListsUsed names used := by
  obtain ⟨ofDialect, dialectListed, listed⟩ := Except.bind_eq_ok_iff.mp listed
  obtain ⟨ofProgram, programListed, listed⟩ := Except.bind_eq_ok_iff.mp listed
  cases listed
  obtain ⟨labels, ofLabels⟩ := Except.forall_of_mapM_eq_ok dialectListed
  obtain ⟨answers, ofAnswers⟩ := Except.forall_of_mapM_eq_ok programListed
  refine ⟨fun index inRange => ?_, fun name member => ?_, fun name member hasLabel => ?_,
    fun label member => ?_⟩
  · obtain ⟨label, isListed, isLabel⟩ := labels index (List.mem_range.mpr inRange)
    exact ⟨label, List.mem_append_left _ isListed, isLabel⟩
  · obtain ⟨label?, _, answered⟩ := answers name member
    obtain ⟨needs, asked, _⟩ := Except.bind_eq_ok_iff.mp answered
    exact (needsLabel_eq_iff.mp asked).1
  · obtain ⟨label?, isListed, answered⟩ := answers name member
    obtain ⟨needs, asked, answered⟩ := Except.bind_eq_ok_iff.mp answered
    have needsNone : ¬needs = true := fun needs => hasLabel ((needsLabel_eq_iff.mp asked).2.mp needs)
    rw [if_neg needsNone] at answered
    obtain ⟨label, isLabel, answered⟩ := Except.bind_eq_ok_iff.mp answered
    cases answered
    refine ⟨label, List.mem_append_right _ ?_, isLabel⟩
    exact List.mem_filterMap.mpr ⟨some label, isListed, rfl⟩
  · rcases List.mem_append.mp member with isListed | isListed
    · obtain ⟨index, inRange, isLabel⟩ := ofLabels label isListed
      exact .inl ⟨index, List.mem_range.mp inRange, isLabel⟩
    · obtain ⟨_, isListed, rfl⟩ := List.mem_filterMap.mp isListed
      obtain ⟨name, isName, answered⟩ := ofAnswers _ isListed
      obtain ⟨needs, asked, answered⟩ := Except.bind_eq_ok_iff.mp answered
      split at answered
      · cases answered
      · rename_i needsNone
        obtain ⟨label, isLabel, answered⟩ := Except.bind_eq_ok_iff.mp answered
        cases answered
        exact .inr ⟨name, isName, fun awaits => needsNone ((needsLabel_eq_iff.mp asked).2.mpr awaits),
          isLabel⟩

/-- Whether labels can be generated for a block: the names of the dialect have labels, and so have those
in the block that do not await one. -/
structure CanLabel (table : NameTable) (names : List Handle) : Prop where
  ofDialect : ∀ index < table.builtinRange.stop, table.HasLabel ⟨index⟩
  inTable : ∀ name ∈ names, name.index < table.size
  ofProgram : ∀ name ∈ names, ¬table.AwaitsLabel name → table.HasLabel name

theorem CanLabel.exists_usedLabels (canLabel : table.CanLabel names) :
    ∃ used, table.usedLabels names = .ok used := by
  obtain ⟨ofDialect, dialectListed⟩ := Except.exists_mapM_eq_ok fun index member =>
    canLabel.ofDialect index (List.mem_range.mp member)
  classical
  obtain ⟨ofProgram, programListed⟩ : ∃ ofProgram, names.mapM (fun name => do
      if ← table.needsLabel name then return none else return some (← table.label name)) =
        .ok ofProgram := by
    refine Except.exists_mapM_eq_ok fun name member => ?_
    have asked : table.needsLabel name = .ok (decide (table.AwaitsLabel name)) :=
      needsLabel_eq_iff.mpr ⟨canLabel.inTable name member, decide_eq_true_iff⟩
    by_cases awaits : table.AwaitsLabel name
    · refine ⟨none, Except.bind_eq_ok_iff.mpr ⟨_, asked, ?_⟩⟩
      exact if_pos (decide_eq_true awaits)
    · obtain ⟨label, isLabel⟩ := canLabel.ofProgram name member awaits
      refine ⟨some label, Except.bind_eq_ok_iff.mpr ⟨_, asked, ?_⟩⟩
      refine (if_neg fun needs => awaits (of_decide_eq_true needs)).trans ?_
      exact Except.bind_eq_ok_iff.mpr ⟨label, isLabel, rfl⟩
  exact ⟨_, Except.bind_eq_ok_iff.mpr ⟨ofDialect, dialectListed,
    Except.bind_eq_ok_iff.mpr ⟨ofProgram, programListed, rfl⟩⟩⟩

/-- Labels are generated for the names in a block that await one and are not of the dialect, in the order
of their handles. -/
theorem ListsUsed.exists_aliases (lists : table.ListsUsed block.names used) :
    ∃ aliases, (block.names.filter fun name => table.builtinRange.stop ≤ name.index).filterM
        table.needsLabel = .ok aliases ∧
      (∀ name, name ∈ aliases ↔
        name ∈ block.names ∧ table.builtinRange.stop ≤ name.index ∧ table.AwaitsLabel name) ∧
      aliases.Pairwise (· < ·) := by
  classical
  have answers : ∀ name ∈ block.names.filter fun name => table.builtinRange.stop ≤ name.index,
      table.needsLabel name = .ok (decide (table.AwaitsLabel name)) := fun name member =>
    needsLabel_eq_iff.mpr ⟨lists.inTable name (List.mem_filter.mp member).1, decide_eq_true_iff⟩
  refine ⟨_, Except.filterM_eq_ok answers, fun name => ?_, (block.pairwise_names.filter _).filter _⟩
  rw [List.mem_filter, List.mem_filter, decide_eq_true_iff, decide_eq_true_iff, and_assoc]

/-- What a generation of labels for a block does. -/
structure Generates (table : NameTable) (block : Block) (reserved used : List String)
    (labels : List (Handle × String)) (after : NameTable) : Prop where
  lists : table.ListsUsed block.names used
  awaited : table.Awaited labels
  fresh : table.AreFresh (used ++ reserved) labels
  picks : table.Picks used reserved labels
  ascending : (labels.map (·.1)).Pairwise (· < ·)
  complete : ∀ name ∈ block.names, table.builtinRange.stop ≤ name.index → table.AwaitsLabel name →
    name ∈ labels.map (·.1)
  inBlock : ∀ entry ∈ labels, entry.1 ∈ block.names ∧ table.builtinRange.stop ≤ entry.1.index
  outcome : after = table.assignAll labels

/-- Once the labels that are used are known, labels are given to the aliases in a block that are neither
of the dialect nor of the `verbatim` family. -/
theorem exists_labelAliases_of_used (orderly : table.IsOrderly)
    (listed : table.usedLabels block.names = .ok used) (reserved : List String) :
    ∃ labels after, table.labelAliases block reserved = .ok after ∧
      table.Generates block reserved used labels after := by
  have lists := listsUsed_of_usedLabels listed
  obtain ⟨aliases, filtered, awaits, ascending⟩ := lists.exists_aliases
  have distinct := nodup_of_ascending ascending
  obtain ⟨labels, last, ran, decided, names⟩ :=
    (Labelling.decided_start orderly used reserved).foldlM orderly
      (fun name member => ((awaits name).mp member).2.2) distinct
  rw [List.map_nil, List.nil_append] at names
  have isAlias : ∀ entry ∈ labels, entry.1 ∈ aliases := fun entry member =>
    names ▸ List.mem_map_of_mem member
  refine ⟨labels, _, ?_, ⟨lists, ⟨names ▸ distinct, fun entry member => ?_⟩, decided.fresh,
    decided.picks, names ▸ ascending, fun name inBlock isOther waits => ?_, fun entry member => ?_,
    decided.settles.settled⟩⟩
  · rw [labelAliases]
    exact Except.bind_eq_ok_iff.mpr ⟨used, listed, Except.bind_eq_ok_iff.mpr ⟨aliases, filtered,
      Except.bind_eq_ok_iff.mpr ⟨last, ran, rfl⟩⟩⟩
  · exact ((awaits entry.1).mp (isAlias entry member)).2.2
  · rw [names]
    exact (awaits name).mpr ⟨inBlock, isOther, waits⟩
  · have known := (awaits entry.1).mp (isAlias entry member)
    exact ⟨known.1, known.2.1⟩

theorem exists_generates (orderly : table.IsOrderly)
    (labelled : table.labelAliases block reserved = .ok after) :
    ∃ used labels, table.Generates block reserved used labels after := by
  obtain ⟨used, listed, _⟩ := Except.bind_eq_ok_iff.mp labelled
  obtain ⟨labels, last, same, generates⟩ := exists_labelAliases_of_used orderly listed reserved
  obtain rfl := Except.ok.inj (labelled.symm.trans same)
  exact ⟨used, labels, generates⟩

end NameTable

end YulCheck
