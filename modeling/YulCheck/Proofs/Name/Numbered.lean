import YulCheck.Proofs.Dialect.Plain
import YulCheck.Proofs.Name.Faithful

/-! # Types in their order

The types of a dialect get the first names of its table behind the empty one, in their order, if their
labels are plain. Labels that are added later change nothing about them, nor about the functions that are
found.
-/

/-- An element is found by what tells it apart from the others. -/
theorem List.find?_of_nodup {α β : Type} [DecidableEq β] {key : α → β} {elements : List α}
    {element : α} (distinct : (elements.map key).Nodup) (member : element ∈ elements) :
    elements.find? (fun other => key other = key element) = some element := by
  induction elements with
  | nil => cases member
  | cons first rest ih =>
    obtain ⟨isNew, distinct⟩ := List.nodup_cons.mp distinct
    rcases List.mem_cons.mp member with rfl | member
    · exact List.find?_cons_of_pos (decide_eq_true rfl)
    · rw [List.find?_cons_of_neg, ih distinct member]
      intro same
      exact isNew (List.mem_map.mpr ⟨element, member, (of_decide_eq_true same).symm⟩)

/-- So is its position. -/
theorem List.findIdx?_of_nodup {α β : Type} [DecidableEq β] {key : α → β} {elements : List α}
    {element : α} {position : Nat} (distinct : (elements.map key).Nodup)
    (isAt : elements[position]? = some element) :
    elements.findIdx? (fun other => key other = key element) = some position := by
  induction elements generalizing position with
  | nil => cases isAt
  | cons first rest ih =>
    obtain ⟨isNew, distinct⟩ := List.nodup_cons.mp distinct
    cases position with
    | zero =>
      obtain rfl := Option.some.inj isAt
      rw [List.findIdx?_cons, if_pos (decide_eq_true rfl)]
    | succ position =>
      have differs : ¬decide (key first = key element) = true := by
        intro same
        refine isNew (List.mem_map.mpr ⟨element, List.mem_of_getElem? isAt, ?_⟩)
        exact (of_decide_eq_true same).symm
      rw [List.findIdx?_cons, if_neg differs, ih distinct isAt]
      rfl

namespace YulCheck.NameTable

variable {dialect : Dialect} {table middle after : NameTable} {name : Handle} {label : String}
  {function : Builtin}

/-! ### Labels that are added -/

/-- Whether no name of a table is an alias. -/
def HasNoAlias (table : NameTable) : Prop :=
  ∀ (index : Nat) (base : Handle), table.entries[index]? ≠ some (.alias base)

theorem HasNoAlias.root_eq (noAlias : table.HasNoAlias) (name : Handle) : table.root name = name := by
  rcases entry : table.entries[name.index]? with _ | ⟨label | base⟩
  · exact root_of_outside entry
  · exact root_of_labelled entry
  · exact absurd entry (noAlias name.index base)

/-- Whether a table has further names behind those of another one, and the same types. -/
structure Extends (table after : NameTable) : Prop where
  dialect : after.dialect = table.dialect
  types : after.types = table.types
  typeRange : after.typeRange = table.typeRange
  size : table.size ≤ after.size
  entries : ∀ index < table.size, after.entries[index]? = table.entries[index]?
  noAlias : table.HasNoAlias → after.HasNoAlias

/-- Whether these names are no functions of the dialect. -/
structure AddsLabels (table after : NameTable) : Prop extends table.Extends after where
  builtinRange : after.builtinRange = table.builtinRange
  builtins : after.builtins = table.builtins

theorem Extends.trans (first : table.Extends middle) (second : middle.Extends after) :
    table.Extends after where
  dialect := second.dialect.trans first.dialect
  types := second.types.trans first.types
  typeRange := second.typeRange.trans first.typeRange
  size := Nat.le_trans first.size second.size
  entries index inTable :=
    (second.entries index (Nat.lt_of_lt_of_le inTable first.size)).trans (first.entries index inTable)
  noAlias noAlias := second.noAlias (first.noAlias noAlias)

theorem Extends.getElem? (extended : table.Extends after)
    (labelled : table.entries[name.index]? = some (.labelled label)) :
    after.entries[name.index]? = some (.labelled label) :=
  (extended.entries _ (Array.getElem?_eq_some_iff.mp labelled).1).trans labelled

theorem Extends.typeNamed_eq (extended : table.Extends after) (label : String) :
    after.typeNamed label = table.typeNamed label := by
  rw [typeNamed, typeNamed, extended.types]

namespace AddsLabels

theorem refl (table : NameTable) : table.AddsLabels table :=
  ⟨⟨rfl, rfl, rfl, Nat.le_refl _, fun _ _ => rfl, id⟩, rfl, rfl⟩

theorem trans (first : table.AddsLabels middle) (second : middle.AddsLabels after) :
    table.AddsLabels after where
  toExtends := first.toExtends.trans second.toExtends
  builtinRange := second.builtinRange.trans first.builtinRange
  builtins := second.builtins.trans first.builtins

theorem append (table : NameTable) (label : String) : table.AddsLabels (table.append label).2 where
  dialect := rfl
  types := rfl
  typeRange := rfl
  size := (grows_append table label).size
  entries := (grows_append table label).entries
  noAlias noAlias index base isAlias := by
    rw [show (table.append label).2.entries = table.entries.push (.labelled label) from rfl,
      Array.getElem?_push] at isAlias
    split at isAlias
    · cases isAlias
    · exact noAlias index base isAlias
  builtinRange := rfl
  builtins := rfl

/-- Only names of the `verbatim` family become aliases when they are defined. -/
theorem define (isOther : ∀ function, table.dialect.builtin? label = some function →
    function.isVerbatim = false) : table.AddsLabels (table.define label).2 := by
  have added := adds_define table label
  generalize (table.define label).2 = after at added
  cases added with
  | same => exact refl table
  | label => exact append table label
  | verbatim known isVerbatim =>
    rw [isOther _ known] at isVerbatim
    cases isVerbatim

theorem predefine (table : NameTable) (predefined : PredefinedNames) :
    table.AddsLabels { table with predefined } :=
  ⟨⟨rfl, rfl, rfl, Nat.le_refl _, fun _ _ => rfl, id⟩, rfl, rfl⟩

theorem withBuiltins {labels : List String}
    (areOther : ∀ label ∈ labels, ∀ function, table.dialect.builtin? label = some function →
      function.isVerbatim = false) : table.AddsLabels (table.withBuiltins labels) := by
  induction labels generalizing table with
  | nil => exact refl table
  | cons label rest ih =>
    rw [List.forall_mem_cons] at areOther
    have first : table.AddsLabels (table.builtinOrDefine label).2 := by
      rw [builtinOrDefine]
      split
      · exact refl table
      · exact define areOther.1
    exact first.trans (ih (first.dialect.symm ▸ areOther.2))

section Library

variable (areOther : ∀ label, Verbatim.startsWith Verbatim.stem label = false →
  ∀ function, table.dialect.builtin? label = some function → function.isVerbatim = false)

include areOther

/-- The library refers to no name of the `verbatim` family but its base. -/
theorem addPredefined : table.AddsLabels table.addPredefined := by
  obtain ⟨predefined, same, _⟩ := table.addPredefined_eq
  have outside : ∀ label ∈ predefinedLabels, Verbatim.startsWith Verbatim.stem label = false := by
    decide
  have named : table.AddsLabels (table.withBuiltins predefinedLabels) :=
    withBuiltins fun label member => areOther label (outside label member)
  rw [same]
  exact named.trans (predefine _ predefined)

theorem addPlaceholders : table.AddsLabels table.addPlaceholders := by
  have zero : table.AddsLabels (table.define "@ 0").2 := define (areOther "@ 0" (by decide))
  have one := zero.trans (define (zero.dialect.symm ▸ areOther "@ 1" (by decide)))
  have thirtyTwo := one.trans (define (one.dialect.symm ▸ areOther "@ 32" (by decide)))
  rw [NameTable.addPlaceholders]
  dsimp only
  generalize ((table.define "@ 0").2.define "@ 1").2.define "@ 32" = last at thirtyTwo
  exact thirtyTwo.trans (predefine _ _)

end Library

/-- The functions of the dialect are found where they were. -/
theorem builtinNamed_eq (adds : table.AddsLabels after) (noAlias : table.HasNoAlias)
    (within : table.builtinRange.stop ≤ table.size) (label : String) :
    after.builtinNamed label = table.builtinNamed label := by
  refine builtinNamed_congr adds.builtinRange (fun name inRange => ?_) label
  have inTable := Nat.lt_of_lt_of_le (HandleRange.contains_iff.mp inRange).2 within
  rw [rootLabel?, rootLabel?, noAlias.root_eq, (adds.noAlias noAlias).root_eq, adds.entries _ inTable]

end AddsLabels

/-! ### Types -/

/-- A label is new where no function is found and no name owns it. -/
theorem define_of_new {start : Nat} (range : table.builtinRange = ⟨start, start⟩)
    (isOther : ∀ function, table.dialect.builtin? label = some function →
      function.isVerbatim = false)
    (hasLabel : label ≠ "") (isNew : ∀ entry ∈ table.owners, entry.1 ≠ label) :
    table.define label = table.append label := by
  cases known : table.dialect.builtin? label with
  | some function =>
    exact define_of_function known (isOther function known) (builtinNamed_of_isEmpty range label)
  | none =>
    rcases define_of_free known hasLabel with ⟨name, owned, _⟩ | appended
    · exact absurd rfl (isNew _ owned)
    · exact appended

/-- Whether the types of a table are those of its dialect: each label has a name of its own, and what
they are listed by leads from one to the other. -/
structure MirrorsTypes (dialect : Dialect) (table : NameTable) : Prop where
  listed : (if table.types.isEmpty then [""] else table.types.map (·.2)) = dialect.typeLabels
  isType_iff : ∀ name, table.isType name = true ↔
    ∃ label ∈ dialect.typeLabels, name = table.typeNamed label
  named : ∀ label ∈ dialect.typeLabels,
    table.entries[(table.typeNamed label).index]? = some (.labelled label)
  /-- The only type of a dialect without labels for types is the empty name. -/
  unnamed : dialect.typeLabels = [""] → table.typeNamed "" = .empty
  positions : ∀ position label, dialect.typeLabels[position]? = some label →
    (if table.types.isEmpty then some 0
      else table.types.findIdx? (·.1 = table.typeNamed label)) = some position

theorem MirrorsTypes.of_extends (mirrors : table.MirrorsTypes dialect)
    (extended : table.Extends after) : after.MirrorsTypes dialect where
  listed := extended.types ▸ mirrors.listed
  isType_iff name := by
    rw [isType, extended.typeRange]
    simp only [extended.typeNamed_eq]
    exact mirrors.isType_iff name
  named label member := by
    rw [extended.typeNamed_eq]
    exact extended.getElem? (mirrors.named label member)
  unnamed isEmpty := (extended.typeNamed_eq "").trans (mirrors.unnamed isEmpty)
  positions position label isAt := by
    rw [extended.typeNamed_eq, extended.types]
    exact mirrors.positions position label isAt

/-- Whether some types with labels are the only names of a table but for the empty one, in their order. -/
structure NumbersTypes (dialect : Dialect) (done : List String) (table : NameTable) : Prop
    extends table.IsPlain where
  isOf : table.dialect = dialect
  range : table.builtinRange = ⟨0, 0⟩
  size : table.size = done.length + 1
  types : table.types = (done.zipIdx 1).map fun entry => (⟨entry.2⟩, entry.1)
  numbered : ∀ position label, done[position]? = some label →
    table.entries[position + 1]? = some (.labelled label)
  owned : ∀ entry ∈ table.owners, entry.1 ∈ "" :: done
  typeRange : done ≠ [] → table.typeRange.first = 1

namespace NumbersTypes

variable {done : List String}

theorem blank (dialect : Dialect) : ((blank dialect).append "").2.NumbersTypes dialect [] where
  toIsPlain := isPlain_blank dialect
  isOf := rfl
  range := rfl
  size := rfl
  types := rfl
  numbered := nofun
  owned entry member := by
    obtain rfl := List.mem_singleton.mp member
    exact List.mem_cons_self
  typeRange isOne := absurd rfl isOne

/-- The name behind the last type has the next label. -/
theorem numbered_append (numbers : table.NumbersTypes dialect done) {position : Nat} {other : String}
    (isAt : (done ++ [label])[position]? = some other) :
    (table.append label).2.entries[position + 1]? = some (.labelled other) := by
  rw [List.getElem?_append] at isAt
  split at isAt
  · rename_i isOld
    rw [(grows_append table label).entries _ (numbers.size ▸ Nat.succ_lt_succ isOld)]
    exact numbers.numbered position other isAt
  · rw [List.getElem?_singleton] at isAt
    split at isAt
    · rename_i isLast
      obtain rfl := Option.some.inj isAt
      have position_eq : position + 1 = table.size := by
        rw [numbers.size]
        omega
      rw [position_eq]
      exact table.getElem?_append_size label
    · cases isAt

theorem addType (numbers : table.NumbersTypes dialect done)
    (isOther : ∀ function, dialect.builtin? label = some function → function.isVerbatim = false)
    (hasLabel : label ≠ "") (isNew : label ∉ done) :
    (table.addType label).NumbersTypes dialect (done ++ [label]) := by
  have defined : table.define label = table.append label := by
    refine define_of_new numbers.range (numbers.isOf ▸ isOther) hasLabel fun entry owned => ?_
    rintro rfl
    exact (List.mem_cons.mp (numbers.owned entry owned)).elim hasLabel isNew
  have appended := isPlain_append numbers.toIsPlain label
  rw [NameTable.addType, if_neg (mt String.isEmpty_iff.mp hasLabel)]
  dsimp only
  rw [defined]
  refine ⟨⟨appended.first, appended.labelled, appended.owners, appended.builtins,
    appended.verbatims⟩, numbers.isOf, numbers.range, ?_, ?_,
    fun position other isAt => numbers.numbered_append isAt, fun entry owned => ?_, fun _ => rfl⟩
  · show (table.append label).2.size = _
    rw [size_append, numbers.size, List.length_append]
    rfl
  · show table.types ++ [(⟨table.size⟩, label)] = _
    rw [numbers.types, numbers.size, List.zipIdx_append, List.map_append, Nat.add_comm]
    rfl
  · rw [← List.cons_append, List.mem_append]
    rcases mem_owners_append owned with owned | rfl
    · exact .inl (numbers.owned entry owned)
    · exact .inr List.mem_cons_self

theorem foldl_addType {labels : List String} (numbers : table.NumbersTypes dialect done)
    (areOther : ∀ label ∈ labels, ∀ function, dialect.builtin? label = some function →
      function.isVerbatim = false)
    (named : "" ∉ labels) (distinct : (done ++ labels).Nodup) :
    (labels.foldl NameTable.addType table).NumbersTypes dialect (done ++ labels) := by
  induction labels generalizing table done with
  | nil =>
    rw [List.append_nil]
    exact numbers
  | cons label rest ih =>
    rw [List.forall_mem_cons] at areOther
    rw [List.mem_cons, not_or] at named
    rw [List.append_cons] at distinct ⊢
    have isNew : label ∉ done := by
      intro isDone
      have apart := List.nodup_append.mp (List.nodup_append.mp distinct).1
      exact apart.2.2 label isDone label List.mem_cons_self rfl
    exact ih (numbers.addType areOther.1 (Ne.symm named.1) isNew) areOther.2 named.2 distinct

section Position

variable (numbers : table.NumbersTypes dialect done) {position : Nat} (isAt : done[position]? = some label)

include numbers isAt

theorem getElem?_types : table.types[position]? = some (⟨position + 1⟩, label) := by
  rw [numbers.types, List.getElem?_map, List.getElem?_zipIdx, isAt, Nat.add_comm 1]
  rfl

theorem typeNamed_eq (distinct : done.Nodup) : table.typeNamed label = ⟨position + 1⟩ := by
  have labels : table.types.map (·.2) = done := by
    rw [numbers.types, List.map_map]
    exact List.zipIdx_map_fst 1 done
  have found := List.find?_of_nodup (labels.symm ▸ distinct)
    (List.mem_of_getElem? (numbers.getElem?_types isAt))
  rw [typeNamed, found]
  rfl

theorem findIdx?_types : table.types.findIdx? (·.1 = ⟨position + 1⟩) = some position := by
  have handles : table.types.map (·.1) = (List.range' 1 done.length).map Handle.mk := by
    rw [numbers.types, List.map_map, ← List.zipIdx_map_snd, List.map_map]
    rfl
  have distinct : (table.types.map (·.1)).Nodup := by
    rw [handles]
    exact List.Nodup.map (fun _ _ => Handle.mk.inj) List.nodup_range'
  exact List.findIdx?_of_nodup distinct (numbers.getElem?_types isAt)

end Position

end NumbersTypes

/-- Whether nothing but the types of a dialect is in a table. -/
structure HoldsTypes (dialect : Dialect) (table : NameTable) : Prop
    extends table.IsPlain, table.MirrorsTypes dialect where
  isOf : table.dialect = dialect
  owned : ∀ entry ∈ table.owners, entry.1 ∈ "" :: dialect.types

/-- Where no type has a label, the empty name is the only type. -/
theorem mirrorsTypes_of_untyped (labels : dialect.typeLabels = [""])
    (first : table.entries[0]? = some (.labelled "")) (typeRange : table.typeRange = ⟨0, 1⟩)
    (types : table.types = [] ∨ table.types = [(.empty, "")]) : table.MirrorsTypes dialect := by
  have isEmpty : table.typeNamed "" = .empty := by
    rcases types with none | one
    · rw [typeNamed, none]
      rfl
    · rw [typeNamed, one]
      rfl
  refine ⟨?_, fun name => ?_, fun label member => ?_, fun _ => isEmpty, fun position label isAt => ?_⟩
  · rw [labels]
    rcases types with none | one
    · rw [none]
      rfl
    · rw [one]
      rfl
  · rw [labels, isType, typeRange]
    constructor
    · intro inRange
      have isFirst : name.index = 0 := Nat.lt_one_iff.mp (HandleRange.contains_iff.mp inRange).2
      exact ⟨"", List.mem_cons_self, isEmpty.symm ▸ congrArg Handle.mk isFirst⟩
    · rintro ⟨label, member, rfl⟩
      obtain rfl := List.mem_singleton.mp member
      rw [isEmpty]
      rfl
  · rw [labels] at member
    obtain rfl := List.mem_singleton.mp member
    rw [isEmpty]
    exact first
  · rw [labels, List.getElem?_singleton] at isAt
    split at isAt
    · rename_i isFirst
      obtain rfl := Option.some.inj isAt
      rw [isEmpty, isFirst]
      rcases types with none | one
      · rw [none]
        rfl
      · rw [one]
        rfl
    · cases isAt

theorem NumbersTypes.mirrorsTypes (numbers : table.NumbersTypes dialect dialect.types)
    (isTyped : dialect.types ≠ []) (named : "" ∉ dialect.types) (distinct : dialect.types.Nodup)
    (stop : table.typeRange.stop = table.size) : table.MirrorsTypes dialect := by
  have labels : dialect.typeLabels = dialect.types := if_neg (mt List.isEmpty_iff.mp isTyped)
  have listed : table.types.map (·.2) = dialect.types := by
    rw [numbers.types, List.map_map]
    exact List.zipIdx_map_fst 1 dialect.types
  have notEmpty : ¬table.types.isEmpty = true := by
    rw [List.isEmpty_iff]
    intro isEmpty
    rw [isEmpty] at listed
    exact isTyped listed.symm
  refine ⟨?_, fun name => ?_, fun label member => ?_, fun isEmpty => ?_, fun position label isAt => ?_⟩
  · rw [if_neg notEmpty, listed, labels]
  · have first := numbers.typeRange isTyped
    rw [labels, isType, HandleRange.contains_iff, first, stop, numbers.size]
    constructor
    · rintro ⟨isBehind, inTable⟩
      have isAt : dialect.types[name.index - 1]? = some dialect.types[name.index - 1] :=
        List.getElem?_eq_getElem (by omega)
      refine ⟨_, List.mem_of_getElem? isAt, ?_⟩
      rw [numbers.typeNamed_eq isAt distinct, Nat.sub_add_cancel isBehind]
    · rintro ⟨label, member, rfl⟩
      obtain ⟨position, isAt⟩ := List.mem_iff_getElem?.mp member
      have isOne := (List.getElem?_eq_some_iff.mp isAt).1
      rw [numbers.typeNamed_eq isAt distinct]
      exact ⟨Nat.succ_pos position, Nat.succ_lt_succ isOne⟩
  · obtain ⟨position, isAt⟩ := List.mem_iff_getElem?.mp (labels ▸ member)
    rw [numbers.typeNamed_eq isAt distinct]
    exact numbers.numbered position label isAt
  · rw [labels] at isEmpty
    exact absurd (isEmpty ▸ List.mem_cons_self) named
  · rw [labels] at isAt
    rw [if_neg notEmpty, numbers.typeNamed_eq isAt distinct]
    exact numbers.findIdx?_types isAt

/-- The empty name is there before all types, and owns the empty label. -/
theorem holdsTypes_of_untyped (labels : dialect.typeLabels = [""])
    {types : List (TypeHandle × String)} (listed : types = [] ∨ types = [(.empty, "")]) :
    { ((blank dialect).append "").2 with types, typeRange := ⟨0, 1⟩ }.HoldsTypes dialect := by
  have plain := isPlain_blank dialect
  have numbers := NumbersTypes.blank dialect
  exact ⟨⟨plain.first, plain.labelled, plain.owners, plain.builtins, plain.verbatims⟩,
    mirrorsTypes_of_untyped labels plain.first rfl listed, rfl, fun entry owned =>
      List.mem_cons.mpr (.inl (List.mem_singleton.mp (numbers.owned entry owned)))⟩

/-- The range of the types may be closed behind the last name. -/
theorem NumbersTypes.close {done : List String} (numbers : table.NumbersTypes dialect done) :
    { table with typeRange := { table.typeRange with stop := table.size } }.NumbersTypes dialect
      done where
  first := numbers.first
  labelled := numbers.labelled
  owners := numbers.owners
  builtins := numbers.builtins
  verbatims := numbers.verbatims
  isOf := numbers.isOf
  range := numbers.range
  size := numbers.size
  types := numbers.types
  numbered := numbers.numbered
  owned := numbers.owned
  typeRange := numbers.typeRange

theorem holdsTypes_addTypes (plain : dialect.IsPlain) :
    ((blank dialect).append "").2.addTypes.HoldsTypes dialect := by
  by_cases isTyped : dialect.types = []
  · have none : ((blank dialect).append "").2.dialect.types = [] := isTyped
    have labels : dialect.typeLabels = [""] := by
      rw [Dialect.typeLabels, isTyped]
      rfl
    rw [addTypes, none]
    exact holdsTypes_of_untyped labels (.inl rfl)
  rcases plain.types with untyped | ⟨named, distinct⟩
  · have labels : dialect.typeLabels = [""] := by
      rw [Dialect.typeLabels, untyped]
      rfl
    rw [addTypes_of_untyped untyped]
    exact holdsTypes_of_untyped labels (.inr rfl)
  · have areOther : ∀ label ∈ dialect.types, ∀ function, dialect.builtin? label = some function →
        function.isVerbatim = false := fun label member function =>
      plain.isVerbatim_of_mem (List.mem_append_left _ member)
    have numbers : (dialect.types.foldl addType ((blank dialect).append "").2).NumbersTypes dialect
        dialect.types := (NumbersTypes.blank dialect).foldl_addType areOther named distinct
    have closed := numbers.close
    exact ⟨closed.toIsPlain, closed.mirrorsTypes isTyped named distinct rfl, closed.isOf, closed.owned⟩

end YulCheck.NameTable
