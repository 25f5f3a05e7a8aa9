import YulCheck.Proofs.Name.Numbered

/-! # Functions in their order

The functions of a dialect with plain labels get the names behind the types, each of them a new one. The
functions that are described are those of these names.
-/

namespace YulCheck.NameTable

variable {dialect : Dialect} {table after : NameTable} {name : Handle} {label other : String}
  {function : Builtin} {range : HandleRange} {start : Nat} {done : List String}

/-! ### Labels in a range -/

/-- Whether a name in a range has a label. -/
structure IsAt (range : HandleRange) (table : NameTable) (label : String) (name : Handle) : Prop where
  inRange : range.contains name = true
  labelled : table.entries[name.index]? = some (.labelled label)

theorem IsAt.of_extends (isAt : table.IsAt range label name) (extended : table.Extends after) :
    after.IsAt range label name :=
  ⟨isAt.inRange, extended.getElem? isAt.labelled⟩

/-- The labels in a range of old names are those that were there. -/
theorem isAt_extends_iff (extended : table.Extends after) (within : range.stop ≤ table.size) :
    after.IsAt range label name ↔ table.IsAt range label name := by
  refine ⟨fun isAt => ⟨isAt.inRange, ?_⟩, fun isAt => isAt.of_extends extended⟩
  rw [← extended.entries _ (Nat.lt_of_lt_of_le (HandleRange.contains_iff.mp isAt.inRange).2 within)]
  exact isAt.labelled

/-- The label of a new name is there beside those that were. -/
theorem isAt_append_iff (isBehind : start ≤ table.size) :
    (table.append label).2.IsAt ⟨start, (table.append label).2.size⟩ other name ↔
      table.IsAt ⟨start, table.size⟩ other name ∨ name = ⟨table.size⟩ ∧ other = label := by
  have adds := AddsLabels.append table label
  have isLast := table.getElem?_append_size label
  have size := table.size_append label
  constructor
  · rintro ⟨inRange, labelled⟩
    obtain ⟨isOne, inTable⟩ := HandleRange.contains_iff.mp inRange
    dsimp only at isOne inTable
    by_cases isOld : name.index < table.size
    · rw [adds.entries _ isOld] at labelled
      exact .inl ⟨HandleRange.contains_iff.mpr ⟨isOne, isOld⟩, labelled⟩
    · have isNew : name = ⟨table.size⟩ := congrArg Handle.mk (by omega : name.index = table.size)
      rw [isNew, isLast] at labelled
      cases labelled
      exact .inr ⟨isNew, rfl⟩
  · rintro (isAt | ⟨rfl, rfl⟩)
    · obtain ⟨isOne, inTable⟩ := HandleRange.contains_iff.mp isAt.inRange
      exact ⟨HandleRange.contains_iff.mpr ⟨isOne, Nat.lt_of_lt_of_le inTable adds.size⟩,
        adds.getElem? isAt.labelled⟩
    · exact ⟨HandleRange.contains_iff.mpr ⟨isBehind, size ▸ Nat.lt_succ_self _⟩, isLast⟩

/-! ### The names of functions -/

/-- What is said about a name changes no other name. -/
theorem extends_describe (table : NameTable) (name : Handle) (function : Builtin) :
    table.Extends (table.describe name function) :=
  ⟨rfl, rfl, rfl, Nat.le_refl _, fun _ _ => rfl, id⟩

/-- Whether the names in a range have labels of their own among those that were given, beside the base of
the `verbatim` family. -/
structure Spans (range : HandleRange) (done : List String) (table : NameTable) : Prop where
  within : range.stop ≤ table.size
  positive : 0 < range.first
  labels : ∀ label name, table.IsAt range label name → label = Dialect.verbatimBase ∨ label ∈ done
  distinct : ∀ label left right, table.IsAt range label left → table.IsAt range label right →
    left = right

/-- Whether those of the labels that are functions are in the range, and these are the functions that
are described. -/
structure ListsBuiltins (dialect : Dialect) (range : HandleRange) (done : List String)
    (table : NameTable) : Prop extends table.Spans range done where
  found : ∀ label ∈ done, ∀ function, dialect.builtin? label = some function →
    ∃ name, table.IsAt range label name
  described : ∀ name signature, table.builtins.lookup name = some signature ↔
    ∃ label ∈ done, ∃ function, dialect.builtin? label = some function ∧
      table.IsAt range label name ∧ signature = table.signature name function

theorem signature_eq (types : after.types = table.types) (name : Handle) (function : Builtin) :
    after.signature name function = table.signature name function := by
  have sameName : after.typeNamed = table.typeNamed := by
    funext label
    rw [typeNamed, typeNamed, types]
  rw [signature, signature, sameName]

/-- A label without a function is no function among others. -/
theorem mem_cons_iff_of_function (isFree : dialect.builtin? label = none)
    (known : dialect.builtin? other = some function) : other ∈ label :: done ↔ other ∈ done := by
  rw [List.mem_cons, or_iff_right]
  rintro rfl
  rw [isFree] at known
  cases known

namespace ListsBuiltins

/-- Other names behind those that were there change nothing. -/
theorem of_extends (lists : table.ListsBuiltins dialect range done) (extended : table.Extends after)
    (builtins : after.builtins = table.builtins) : after.ListsBuiltins dialect range done := by
  have isAt (label : String) (name : Handle) :
      after.IsAt range label name ↔ table.IsAt range label name :=
    isAt_extends_iff extended lists.within
  refine ⟨⟨Nat.le_trans lists.within extended.size, lists.positive, ?_, ?_⟩, ?_, ?_⟩
  · simp only [isAt]
    exact lists.labels
  · simp only [isAt]
    exact lists.distinct
  · simp only [isAt]
    exact lists.found
  · simp only [isAt, builtins, signature_eq extended.types]
    exact lists.described

/-- The order of the labels does not matter. -/
theorem of_mem_iff (lists : table.ListsBuiltins dialect range done) {labels : List String}
    (same : ∀ label, label ∈ labels ↔ label ∈ done) : table.ListsBuiltins dialect range labels := by
  refine ⟨⟨lists.within, lists.positive, ?_, lists.distinct⟩, ?_, ?_⟩
  · simp only [same]
    exact lists.labels
  · simp only [same]
    exact lists.found
  · simp only [same]
    exact lists.described

/-- A label without a function may be skipped. -/
theorem skip (lists : table.ListsBuiltins dialect range done)
    (isFree : dialect.builtin? label = none) : table.ListsBuiltins dialect range (label :: done) := by
  have isDone {other : String} {function : Builtin} (known : dialect.builtin? other = some function) :
      other ∈ label :: done ↔ other ∈ done := mem_cons_iff_of_function isFree known
  refine ⟨⟨lists.within, lists.positive, fun other name isAt =>
    (lists.labels other name isAt).imp_right (List.mem_cons_of_mem _), lists.distinct⟩,
    fun other member function known => lists.found other ((isDone known).mp member) function known,
    fun name signature => (lists.described name signature).trans (exists_congr fun other => ?_)⟩
  constructor
  · rintro ⟨member, function, known, isOne⟩
    exact ⟨(isDone known).mpr member, function, known, isOne⟩
  · rintro ⟨member, function, known, isOne⟩
    exact ⟨(isDone known).mp member, function, known, isOne⟩

end ListsBuiltins

section Append

variable (isNew : label ∉ done) (isOther : label ≠ Dialect.verbatimBase)

include isNew isOther

theorem Spans.not_isAt (spans : table.Spans range done) (name : Handle) :
    ¬table.IsAt range label name := by
  intro isAt
  exact (spans.labels label name isAt).elim isOther isNew

/-- A new label is no other label in the range. -/
theorem Spans.append (spans : table.Spans ⟨start, table.size⟩ done) (isBehind : start ≤ table.size) :
    (table.append label).2.Spans ⟨start, (table.append label).2.size⟩ (label :: done) := by
  have notThere := spans.not_isAt isNew isOther
  refine ⟨Nat.le_refl _, spans.positive, fun other name isAt => ?_,
    fun other left right leftAt rightAt => ?_⟩
  · rcases (isAt_append_iff isBehind).mp isAt with before | ⟨_, rfl⟩
    · exact (spans.labels other name before).imp_right (List.mem_cons_of_mem _)
    · exact .inr List.mem_cons_self
  · rcases (isAt_append_iff isBehind).mp leftAt with leftBefore | ⟨rfl, rfl⟩
    · rcases (isAt_append_iff isBehind).mp rightAt with rightBefore | ⟨rfl, rfl⟩
      · exact spans.distinct other left right leftBefore rightBefore
      · exact absurd leftBefore (notThere left)
    · rcases (isAt_append_iff isBehind).mp rightAt with rightBefore | ⟨rfl, _⟩
      · exact absurd rightBefore (notThere right)
      · rfl

variable (lists : table.ListsBuiltins dialect ⟨start, table.size⟩ done)

include lists

/-- The function of a new label is found by its name, and the others where they were. -/
theorem ListsBuiltins.lookup_cons_iff (known : dialect.builtin? label = some function)
    (name : Handle) (signature : BuiltinSignature) :
    ((⟨table.size⟩, table.signature ⟨table.size⟩ function) :: table.builtins).lookup name =
        some signature ↔
      ∃ other ∈ label :: done, ∃ function, dialect.builtin? other = some function ∧
        (table.IsAt ⟨start, table.size⟩ other name ∨ name = ⟨table.size⟩ ∧ other = label) ∧
          signature = table.signature name function := by
  by_cases isLast : name = ⟨table.size⟩
  · subst isLast
    rw [List.lookup_cons_self]
    constructor
    · intro same
      exact ⟨label, List.mem_cons_self, function, known, .inr ⟨rfl, rfl⟩, (Option.some.inj same).symm⟩
    · rintro ⟨other, _, otherFunction, otherKnown, before | ⟨_, rfl⟩, rfl⟩
      · exact absurd (HandleRange.contains_iff.mp before.inRange).2 (Nat.lt_irrefl _)
      · rw [Option.some.inj (known.symm.trans otherKnown)]
  · rw [List.lookup_cons, beq_false_of_ne isLast]
    refine (lists.described name signature).trans (exists_congr fun other => ?_)
    constructor
    · rintro ⟨member, otherFunction, otherKnown, before, same⟩
      exact ⟨List.mem_cons_of_mem _ member, otherFunction, otherKnown, .inl before, same⟩
    · rintro ⟨member, otherFunction, otherKnown, before | ⟨isName, _⟩, same⟩
      · rcases List.mem_cons.mp member with rfl | member
        · exact absurd before (lists.not_isAt isNew isOther name)
        · exact ⟨member, otherFunction, otherKnown, before, same⟩
      · exact absurd isName isLast

variable (isBehind : start ≤ table.size)

include isBehind

/-- A new label without a function changes no function. -/
theorem ListsBuiltins.append (isFree : dialect.builtin? label = none) :
    (table.append label).2.ListsBuiltins dialect ⟨start, (table.append label).2.size⟩
      (label :: done) := by
  refine ⟨lists.toSpans.append isNew isOther isBehind, fun other member function known => ?_,
    fun name signature => (lists.described name signature).trans ?_⟩
  · have isDone := (mem_cons_iff_of_function isFree known).mp member
    obtain ⟨name, isAt⟩ := lists.found other isDone function known
    exact ⟨name, (isAt_append_iff isBehind).mpr (.inl isAt)⟩
  · constructor
    · rintro ⟨other, member, function, known, isAt, rfl⟩
      exact ⟨other, List.mem_cons_of_mem _ member, function, known,
        (isAt_append_iff isBehind).mpr (.inl isAt), (signature_eq rfl name function).symm⟩
    · rintro ⟨other, member, function, known, isAt, rfl⟩
      rcases (isAt_append_iff isBehind).mp isAt with before | ⟨_, rfl⟩
      · exact ⟨other, (mem_cons_iff_of_function isFree known).mp member, function, known, before,
          signature_eq rfl name function⟩
      · rw [isFree] at known
        cases known

/-- A new label with a function is described by this function. -/
theorem ListsBuiltins.describe (known : dialect.builtin? label = some function) :
    ((table.append label).2.describe ⟨table.size⟩ function).ListsBuiltins dialect
      ⟨start, (table.append label).2.size⟩ (label :: done) := by
  have spans := lists.toSpans.append isNew isOther isBehind
  have isAt (other : String) (name : Handle) :
      ((table.append label).2.describe ⟨table.size⟩ function).IsAt
        ⟨start, (table.append label).2.size⟩ other name ↔
      table.IsAt ⟨start, table.size⟩ other name ∨ name = ⟨table.size⟩ ∧ other = label :=
    (isAt_extends_iff (extends_describe _ _ _) (Nat.le_refl _)).trans (isAt_append_iff isBehind)
  have signature (name : Handle) (other : Builtin) :
      ((table.append label).2.describe ⟨table.size⟩ function).signature name other =
        table.signature name other := signature_eq rfl name other
  refine ⟨⟨spans.within, spans.positive, ?_, ?_⟩, fun other member otherFunction otherKnown => ?_, ?_⟩
  · simp only [isAt, ← isAt_append_iff isBehind]
    exact spans.labels
  · simp only [isAt, ← isAt_append_iff isBehind]
    exact spans.distinct
  · simp only [isAt]
    rcases List.mem_cons.mp member with rfl | member
    · exact ⟨⟨table.size⟩, .inr ⟨rfl, rfl⟩⟩
    · obtain ⟨name, before⟩ := lists.found other member otherFunction otherKnown
      exact ⟨name, .inl before⟩
  · simp only [isAt, signature]
    exact lists.lookup_cons_iff isNew isOther known

end Append

/-! ### All functions -/

/-- Whether the functions with the labels `done` are added behind the names of a table. -/
structure AddsBuiltins (dialect : Dialect) (before : NameTable) (done : List String)
    (table : NameTable) : Prop
    extends table.ListsBuiltins dialect ⟨before.size, table.size⟩ done where
  extended : before.Extends table
  isOf : table.dialect = dialect
  /-- As long as functions are added, none of them is found. -/
  builtinRange : table.builtinRange = ⟨before.size, before.size⟩

namespace AddsBuiltins

variable {before : NameTable}

/-- The base of the `verbatim` family is the first of the names behind the types. -/
theorem withVerbatim (holds : table.HoldsTypes dialect) :
    table.AddsBuiltins dialect [] table.withVerbatim := by
  let ranged : NameTable := { table with builtinRange := ⟨table.size, table.size⟩ }
  have extended : table.Extends table.withVerbatim :=
    have started : table.Extends ranged := ⟨rfl, rfl, rfl, Nat.le_refl _, fun _ _ => rfl, id⟩
    started.trans ((AddsLabels.append ranged Dialect.verbatimBase).trans (.predefine _ _)).toExtends
  have size : table.withVerbatim.size = table.size + 1 := table.size_append Dialect.verbatimBase
  have isFirst (label : String) (name : Handle)
      (isAt : table.withVerbatim.IsAt ⟨table.size, table.withVerbatim.size⟩ label name) :
      name = ⟨table.size⟩ ∧ label = Dialect.verbatimBase := by
    obtain ⟨isBehind, inTable⟩ := HandleRange.contains_iff.mp isAt.inRange
    rw [size] at inTable
    obtain rfl : name = ⟨table.size⟩ :=
      congrArg Handle.mk (Nat.le_antisymm (Nat.le_of_lt_succ inTable) isBehind)
    have labelled := isAt.labelled
    rw [show table.withVerbatim.entries[table.size]? = _ from
      ranged.getElem?_append_size Dialect.verbatimBase] at labelled
    cases labelled
    exact ⟨rfl, rfl⟩
  refine ⟨⟨⟨Nat.le_refl _, holds.size_pos, fun label name isAt =>
    .inl (isFirst label name isAt).2, fun label left right leftAt rightAt => ?_⟩,
    List.forall_mem_nil _, fun name signature => ?_⟩, extended, holds.isOf, rfl⟩
  · rw [(isFirst label left leftAt).1, (isFirst label right rightAt).1]
  · rw [show table.withVerbatim.builtins = [] from holds.builtins]
    constructor
    · nofun
    · rintro ⟨label, member, _⟩
      cases member

theorem addBuiltin (adds : before.AddsBuiltins dialect done table) (plain : dialect.IsPlain)
    (member : label ∈ dialect.builtinNames) (hasLabel : label ≠ "") (isNew : label ∉ done) :
    before.AddsBuiltins dialect (label :: done) (table.addBuiltin label) := by
  have isMember := List.mem_append_right dialect.types member
  have isOther := plain.ne_verbatimBase isMember
  have appended := adds.extended.trans (AddsLabels.append table label).toExtends
  cases known : dialect.builtin? label with
  | none =>
    have isFree : table.dialect.builtin? label = none := adds.isOf ▸ known
    rw [addBuiltin_of_free isFree]
    rcases define_of_free isFree hasLabel with ⟨name, _, _, defined⟩ | defined
    · rw [defined]
      exact ⟨adds.skip known, adds.extended, adds.isOf, adds.builtinRange⟩
    · rw [defined]
      exact ⟨adds.append isNew isOther adds.extended.size known, appended, adds.isOf,
        adds.builtinRange⟩
  | some function =>
    have isKnown : table.dialect.builtin? label = some function := adds.isOf ▸ known
    rw [addBuiltin_of_function isKnown, define_of_function isKnown
      (plain.isVerbatim_of_mem isMember known) (builtinNamed_of_isEmpty adds.builtinRange label)]
    exact ⟨adds.describe isNew isOther adds.extended.size known,
      appended.trans (extends_describe _ _ _), adds.isOf, adds.builtinRange⟩

theorem foldl_addBuiltin {labels : List String} (adds : before.AddsBuiltins dialect done table)
    (plain : dialect.IsPlain) (areMembers : ∀ label ∈ labels, label ∈ dialect.builtinNames)
    (named : "" ∉ labels) (areNew : ∀ label ∈ labels, label ∉ done) (distinct : labels.Nodup) :
    before.AddsBuiltins dialect (labels.reverse ++ done)
      (labels.foldl NameTable.addBuiltin table) := by
  induction labels generalizing table done with
  | nil => exact adds
  | cons label rest ih =>
    rw [List.forall_mem_cons] at areMembers areNew
    rw [List.mem_cons, not_or] at named
    obtain ⟨isNew, distinct⟩ := List.nodup_cons.mp distinct
    rw [List.reverse_cons, List.append_assoc]
    refine ih (adds.addBuiltin plain areMembers.1 (Ne.symm named.1) areNew.1) areMembers.2 named.2
      ?_ distinct
    intro other member isDone
    rcases List.mem_cons.mp isDone with rfl | isDone
    · exact isNew member
    · exact areNew.2 other member isDone

end AddsBuiltins

end YulCheck.NameTable
