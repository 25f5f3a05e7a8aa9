import Mathlib.Data.List.Find
import YulCheck.Proofs.Name.Types

/-! # Names with labels

In every table that grows from that of a dialect, aliases refer to earlier names, and what `define`
finds or appends has a label: that of its entry, or that of its function if it is an alias of the
`verbatim` family. A name that was derived from another one is shown by the label of that one.
-/

namespace YulCheck.NameTable

variable {dialect : Dialect} {table after : NameTable} {name base : Handle} {label : String}
  {function : Builtin}

/-! ### Chains of aliases -/

/-- Whether every alias refers to an earlier name. -/
def RefersBack (entries : Array Entry) : Prop :=
  ∀ (index : Nat) (base : Handle), entries[index]? = some (Entry.alias base) → base.index < index

theorem RefersBack.push {entries : Array Entry} (back : RefersBack entries) {entry : Entry}
    (fits : ∀ base, entry = .alias base → base.index < entries.size) :
    RefersBack (entries.push entry) := by
  intro index base isAlias
  rw [Array.getElem?_push] at isAlias
  split at isAlias
  · rename_i isLast
    rw [isLast]
    exact fits base (Option.some.inj isAlias)
  · exact back index base isAlias

/-- A chain of aliases stays among the names before the one that it starts from. -/
theorem followAliases_le {entries : Array Entry} (back : RefersBack entries) (steps : Nat)
    (name : Handle) : (followAliases entries steps name).index ≤ name.index := by
  induction steps generalizing name with
  | zero => exact Nat.le_refl _
  | succ steps ih =>
    rw [followAliases]
    split
    · rename_i base isAlias
      have earlier := back _ _ isAlias
      have further := ih base
      omega
    · exact Nat.le_refl _

/-- A chain of aliases that is followed far enough ends in a name that is no alias. -/
theorem followAliases_ne_alias {entries : Array Entry} (back : RefersBack entries) {steps : Nat}
    {name : Handle} (enough : name.index ≤ steps) (base : Handle) :
    entries[(followAliases entries steps name).index]? ≠ some (.alias base) := by
  induction steps generalizing name with
  | zero =>
    intro isAlias
    have earlier := back _ _ isAlias
    rw [followAliases] at earlier
    omega
  | succ steps ih =>
    rw [followAliases]
    split
    · rename_i next isAlias
      have earlier := back _ _ isAlias
      exact ih (by omega)
    · rename_i isNoAlias
      exact isNoAlias base

/-- It does not matter how far a chain of aliases is followed, once that is far enough. -/
theorem followAliases_eq_of_le {entries : Array Entry} (back : RefersBack entries)
    {steps more : Nat} {name : Handle} (enough : name.index ≤ steps) (isMore : name.index ≤ more) :
    followAliases entries steps name = followAliases entries more name := by
  induction steps generalizing name more with
  | zero =>
    cases more with
    | zero => rfl
    | succ more =>
      rw [followAliases, followAliases]
      split
      · rename_i base isAlias
        have earlier := back _ _ isAlias
        omega
      · rfl
  | succ steps ih =>
    cases more with
    | zero =>
      rw [followAliases, followAliases]
      split
      · rename_i base isAlias
        have earlier := back _ _ isAlias
        omega
      · rfl
    | succ more =>
      rw [followAliases, followAliases]
      split
      · rename_i base isAlias
        have earlier := back _ _ isAlias
        exact ih (by omega) (by omega)
      · rfl

/-- What comes behind a name does not matter to its chain of aliases. -/
theorem followAliases_congr {entries others : Array Entry} (back : RefersBack entries)
    {name : Handle} (same : ∀ index ≤ name.index, others[index]? = entries[index]?) (steps : Nat) :
    followAliases others steps name = followAliases entries steps name := by
  induction steps generalizing name with
  | zero => rfl
  | succ steps ih =>
    rw [followAliases, followAliases, same _ (Nat.le_refl _)]
    split
    · rename_i base isAlias
      have earlier := back _ _ isAlias
      exact ih fun index before => same index (by omega)
    · rfl

/-- A name that is no alias is the end of its chain. -/
theorem followAliases_of_labelled {entries : Array Entry}
    (labelled : entries[name.index]? = some (.labelled label)) (steps : Nat) :
    followAliases entries steps name = name := by
  cases steps with
  | zero => rfl
  | succ steps => rw [followAliases, labelled]

theorem Grows.root (grows : table.Grows after) (back : RefersBack table.entries)
    (inTable : name.index < table.size) : after.root name = table.root name :=
  followAliases_congr back (fun index before => grows.entries index (by omega)) name.index

/-! ### Named names -/

/-- Whether a name is an alias of the `verbatim` family with a function. -/
structure IsDescribed (table : NameTable) (name : Handle) : Prop where
  isAlias : ∃ base, table.entries[name.index]? = some (.alias base)
  root : table.root name = table.predefined.verbatim
  function : (table.builtins.lookup name).isSome = true

/-- Whether a name has the label of its entry or of its function. -/
def IsNamed (table : NameTable) (name : Handle) : Prop :=
  (∃ label, table.entries[name.index]? = some (.labelled label)) ∨ table.IsDescribed name

theorem IsDescribed.lt (described : table.IsDescribed name) : name.index < table.size := by
  obtain ⟨base, isAlias⟩ := described.isAlias
  exact (Array.getElem?_eq_some_iff.mp isAlias).1

theorem IsNamed.lt (named : table.IsNamed name) : name.index < table.size := by
  rcases named with ⟨label, labelled⟩ | described
  · exact (Array.getElem?_eq_some_iff.mp labelled).1
  · exact described.lt

theorem Grows.isDescribed (grows : table.Grows after) (back : RefersBack table.entries)
    (described : table.IsDescribed name) : after.IsDescribed name where
  isAlias := by
    rw [grows.entries _ described.lt]
    exact described.isAlias
  root := by
    rw [grows.root back described.lt, grows.predefined]
    exact described.root
  function := by
    rw [grows.builtins name described.lt]
    exact described.function

theorem Grows.isNamed (grows : table.Grows after) (back : RefersBack table.entries)
    (named : table.IsNamed name) : after.IsNamed name := by
  have inTable := named.lt
  rcases named with ⟨label, labelled⟩ | described
  · exact .inl ⟨label, (grows.entries _ inTable).trans labelled⟩
  · exact .inr (grows.isDescribed back described)

/-! ### Functions by their labels -/

/-- A name that is found for a label is one of the dialect's, and has the label or is an alias of a name
that has it. -/
theorem builtinNamed_spec (isNamed : table.builtinNamed label ≠ .empty) :
    table.builtinRange.contains (table.builtinNamed label) = true ∧
      table.rootLabel? (table.builtinNamed label) = some label := by
  rw [builtinNamed] at isNamed ⊢
  cases found : (List.range (table.builtinRange.stop - table.builtinRange.first)).find? fun offset =>
      table.rootLabel? ⟨table.builtinRange.first + offset⟩ = some label with
  | none =>
    rw [found] at isNamed
    exact absurd rfl isNamed
  | some offset =>
    have inRange := List.mem_range.mp (List.mem_of_find?_eq_some found)
    refine ⟨HandleRange.contains_iff.mpr ?_, of_decide_eq_true (List.find?_some found :)⟩
    show _ ≤ _ + offset ∧ _ + offset < _
    omega

/-- Where the names of the dialect have the same labels, the same ones are found. -/
theorem builtinNamed_congr (builtinRange : after.builtinRange = table.builtinRange)
    (labels : ∀ name, table.builtinRange.contains name = true →
      after.rootLabel? name = table.rootLabel? name) (label : String) :
    after.builtinNamed label = table.builtinNamed label := by
  rw [builtinNamed, builtinNamed, builtinRange]
  congr 2
  refine List.find?_congr fun offset member => ?_
  have inRange := List.mem_range.mp member
  rw [labels _ (HandleRange.contains_iff.mpr ?_)]
  show _ ≤ _ + offset ∧ _ + offset < _
  omega

/-! ### Orderly tables -/

/-- Whether the entries of a table fit together, apart from what the dialect says about them. -/
structure IsOrderly (table : NameTable) : Prop where
  first : table.entries[0]? = some (.labelled "")
  back : RefersBack table.entries
  owners : ∀ entry ∈ table.owners, table.entries[entry.2.index]? = some (.labelled entry.1)
  /-- The base of the `verbatim` family is no alias. -/
  verbatim : ∃ label, table.entries[table.predefined.verbatim.index]? = some (.labelled label)
  verbatims : ∀ entry ∈ table.verbatims, entry.2 ≠ .empty ∧ table.IsDescribed entry.2
  builtins : ∀ name, table.builtinRange.contains name = true → table.IsNamed name

namespace IsOrderly

theorem size_pos (orderly : table.IsOrderly) : 0 < table.size :=
  (Array.getElem?_eq_some_iff.mp orderly.first).1

theorem verbatim_lt (orderly : table.IsOrderly) : table.predefined.verbatim.index < table.size := by
  obtain ⟨label, labelled⟩ := orderly.verbatim
  exact (Array.getElem?_eq_some_iff.mp labelled).1

/-- What is the same in a table that grew, apart from the new names. -/
theorem of_grows (orderly : table.IsOrderly) (grows : table.Grows after)
    (back : RefersBack after.entries)
    (owners : ∀ entry ∈ after.owners, after.entries[entry.2.index]? = some (.labelled entry.1))
    (verbatims : ∀ entry ∈ after.verbatims, entry.2 ≠ .empty ∧ after.IsDescribed entry.2) :
    after.IsOrderly where
  first := (grows.entries 0 orderly.size_pos).trans orderly.first
  back := back
  owners := owners
  verbatim := by
    rw [grows.predefined, grows.entries _ orderly.verbatim_lt]
    exact orderly.verbatim
  verbatims := verbatims
  builtins name isBuiltin := by
    rw [grows.builtinRange] at isBuiltin
    exact grows.isNamed orderly.back (orderly.builtins name isBuiltin)

theorem owners_of_grows (orderly : table.IsOrderly) (grows : table.Grows after)
    {entry : String × Handle} (owned : entry ∈ table.owners) :
    after.entries[entry.2.index]? = some (.labelled entry.1) := by
  have labelled := orderly.owners entry owned
  exact (grows.entries _ (Array.getElem?_eq_some_iff.mp labelled).1).trans labelled

theorem verbatims_of_grows (orderly : table.IsOrderly) (grows : table.Grows after)
    {entry : (Nat × Nat) × Handle} (listed : entry ∈ table.verbatims) :
    entry.2 ≠ .empty ∧ after.IsDescribed entry.2 :=
  ⟨(orderly.verbatims entry listed).1,
    grows.isDescribed orderly.back (orderly.verbatims entry listed).2⟩

theorem append (orderly : table.IsOrderly) (label : String) : (table.append label).2.IsOrderly := by
  refine orderly.of_grows (grows_append table label) (orderly.back.push nofun) ?_ ?_
  · intro entry owned
    rcases mem_owners_append owned with owned | rfl
    · exact orderly.owners_of_grows (grows_append table label) owned
    · exact table.getElem?_append_size label
  · exact fun entry listed => orderly.verbatims_of_grows (grows_append table label) listed

theorem appendAlias (orderly : table.IsOrderly) (inTable : base.index < table.size) :
    (table.appendAlias base).2.IsOrderly := by
  refine orderly.of_grows (grows_appendAlias table base) (orderly.back.push ?_) ?_ ?_
  · rintro _ ⟨rfl⟩
    exact inTable
  · exact fun entry owned => orderly.owners_of_grows (grows_appendAlias table base) owned
  · exact fun entry listed => orderly.verbatims_of_grows (grows_appendAlias table base) listed

/-- A new alias has the root of the name that it is an alias of. -/
theorem root_appendAlias (orderly : table.IsOrderly) (inTable : base.index < table.size) :
    (table.appendAlias base).2.root ⟨table.size⟩ = table.root base := by
  have back := (orderly.appendAlias inTable).back
  have isAlias : (table.appendAlias base).2.entries[table.size]? = some (.alias base) :=
    Array.getElem?_push_size
  have follow (count : Nat) (positive : 0 < count) (enough : base.index ≤ count - 1) :
      followAliases (table.appendAlias base).2.entries count ⟨table.size⟩ =
        followAliases (table.appendAlias base).2.entries base.index base := by
    cases count with
    | zero => exact absurd positive (Nat.lt_irrefl 0)
    | succ steps =>
      rw [followAliases, isAlias]
      exact followAliases_eq_of_le back enough (Nat.le_refl _)
  apply (follow table.size orderly.size_pos (by omega)).trans
  exact (grows_appendAlias table base).root orderly.back inTable

/-- A new alias of the `verbatim` family is described. -/
theorem isDescribed_appendVerbatim (orderly : table.IsOrderly) (function : Builtin) :
    (table.appendVerbatim function).2.IsDescribed ⟨table.size⟩ where
  isAlias := ⟨table.predefined.verbatim, Array.getElem?_push_size⟩
  root := by
    obtain ⟨label, labelled⟩ := orderly.verbatim
    exact (orderly.root_appendAlias orderly.verbatim_lt).trans (followAliases_of_labelled labelled _)
  function := by
    show (List.lookup _ ((⟨table.size⟩, _) :: table.builtins)).isSome = true
    rw [List.lookup_cons, beq_self_eq_true]
    rfl

theorem appendVerbatim (orderly : table.IsOrderly) (function : Builtin) :
    (table.appendVerbatim function).2.IsOrderly := by
  have grows := grows_appendVerbatim table function
  refine orderly.of_grows grows (orderly.back.push ?_) ?_ ?_
  · rintro _ ⟨rfl⟩
    exact orderly.verbatim_lt
  · exact fun entry owned => orderly.owners_of_grows grows owned
  · intro entry listed
    rcases List.mem_cons.mp listed with rfl | listed
    · refine ⟨fun isEmpty => ?_, orderly.isDescribed_appendVerbatim function⟩
      have zero : table.size = 0 := congrArg Handle.index isEmpty
      have positive := orderly.size_pos
      omega
    · exact orderly.verbatims_of_grows grows listed

/-- What `define` finds or appends is named, and the names of labels are not empty. -/
theorem define (orderly : table.IsOrderly) (label : String) :
    (table.define label).2.IsOrderly ∧ (table.define label).2.IsNamed (table.define label).1 ∧
      (label ≠ "" → (table.define label).1 ≠ .empty) := by
  have isNew : (⟨table.size⟩ : Handle) ≠ .empty := by
    intro isEmpty
    have zero : table.size = 0 := congrArg Handle.index isEmpty
    have positive := orderly.size_pos
    omega
  have defined := defines_define table label
  revert defined
  cases table.define label with
  | mk name after =>
    intro defined
    cases defined with
    | empty isEmpty => exact ⟨orderly, .inl ⟨"", orderly.first⟩, absurd isEmpty⟩
    | verbatim listed =>
      obtain ⟨isNamed, described⟩ := orderly.verbatims _ listed
      exact ⟨orderly, .inr described, fun _ => isNamed⟩
    | builtin isNamed =>
      exact ⟨orderly, orderly.builtins _ (builtinNamed_spec isNamed).1, fun _ => isNamed⟩
    | owner owned isNamed =>
      exact ⟨orderly, .inl ⟨label, orderly.owners _ owned⟩, fun _ => isNamed⟩
    | append =>
      exact ⟨orderly.append label, .inl ⟨label, table.getElem?_append_size label⟩, fun _ => isNew⟩
    | appendVerbatim known =>
      exact ⟨orderly.appendVerbatim _, .inr (orderly.isDescribed_appendVerbatim _), fun _ => isNew⟩

theorem derive (orderly : table.IsOrderly) (derived : table.derive base = .ok (name, after)) :
    after.IsOrderly := by
  obtain ⟨inTable, appended⟩ := derive_eq_ok derived
  obtain rfl := congrArg Prod.snd appended
  exact orderly.appendAlias inTable

end IsOrderly

end YulCheck.NameTable
