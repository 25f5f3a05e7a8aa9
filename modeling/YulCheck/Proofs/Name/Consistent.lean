import YulCheck.Proofs.Dialect.Names
import YulCheck.Proofs.Name.Labelling

/-! # Names, labels and functions that belong together

In the tables of a dialect a function has the name that it should have: that of its label, or the
alias of the `verbatim` family for its arity. No other name has a label of the family, and every label
has one owner. A name with the label of another owner was given it by a generation of labels.
-/

namespace YulCheck

/-- The numbers of parameters and of returned values. -/
def Builtin.arity (function : Builtin) : Nat × Nat :=
  (function.parameters.length, function.returns.length)

namespace NameTable

variable {dialect : Dialect} {unified : Handle → Prop} {table after : NameTable}
  {name other base : Handle} {label : String} {function : Builtin}

/-! ### What a label adds to a table -/

/-- What `define` adds to a table: nothing, a label without an owner, or a function of the `verbatim`
family with a new arity. -/
inductive Adds (table : NameTable) (label : String) : NameTable → Prop
  | same : Adds table label table
  | label
    (isOther : ∀ function, table.dialect.builtin? label = some function →
      function.isVerbatim = false ∧ table.builtinNamed label = .empty)
    (isNew : table.dialect.builtin? label = none →
      table.named label = .empty ∧ (label = "" → table.size = 0)) :
    Adds table label (table.append label).2
  | verbatim {function : Builtin} (known : table.dialect.builtin? label = some function)
    (isVerbatim : function.isVerbatim = true)
    (isNew : table.verbatims.lookup function.arity = none) :
    Adds table label (table.appendVerbatim function).2

theorem adds_define (table : NameTable) (label : String) :
    table.Adds label (table.define label).2 := by
  rw [define]
  cases known : table.dialect.builtin? label with
  | some function =>
    dsimp only
    split
    · rename_i isVerbatim
      rw [defineVerbatim]
      dsimp only
      split
      · exact .same
      · rename_i isNew
        exact .verbatim known isVerbatim isNew
    · rename_i isOther
      split
      · rename_i isNew
        refine .label (fun other same => ?_)
          fun isNone => absurd (known.symm.trans isNone) (Option.some_ne_none _)
        obtain rfl := Option.some.inj (known.symm.trans same)
        exact ⟨Bool.eq_false_iff.mpr isOther, Handle.isEmpty_iff.mp isNew⟩
      · exact .same
  | none =>
    dsimp only
    split
    · exact .same
    · rename_i notEmpty
      split
      · rename_i isNew
        refine .label (fun other same => absurd (same.symm.trans known) (Option.some_ne_none _))
          fun _ => ⟨Handle.isEmpty_iff.mp isNew, fun isEmpty => ?_⟩
        by_contra hasNames
        exact notEmpty ⟨String.isEmpty_iff.mpr isEmpty, hasNames⟩
      · exact .same

/-! ### Consistent tables -/

/-- Whether a name is the one that a function should have. -/
structure IsNameOf (dialect : Dialect) (table : NameTable) (name : Handle) (function : Builtin) :
    Prop where
  known : dialect.builtin? function.name = some function
  listed : function.isVerbatim = false →
    table.entries[name.index]? = some (.labelled function.name)
  family : function.isVerbatim = true →
    table.IsDescribed name ∧ table.verbatims.lookup function.arity = some name

/-- Whether the labels and the functions in a table belong together. Names that are `unified` may have
the labels of others. -/
structure IsConsistent (dialect : Dialect) (unified : Handle → Prop) (table : NameTable) :
    Prop where
  /-- The names of the `verbatim` family are no labels. -/
  outside : ∀ (name : Handle) (label : String),
    table.entries[name.index]? = some (.labelled label) →
      ∀ function, dialect.builtin? label = some function → function.isVerbatim = false
  describes : ∀ entry ∈ table.builtins, table.IsNameOf dialect entry.1 entry.2.function
  owned : ∀ (name : Handle) (label : String),
    table.entries[name.index]? = some (.labelled label) →
      table.owners.lookup label = some name ∨ unified name

theorem IsNameOf.mono (isName : table.IsNameOf dialect name function)
    (labels : ∀ label, table.entries[name.index]? = some (.labelled label) →
      after.entries[name.index]? = some (.labelled label))
    (described : table.IsDescribed name → after.IsDescribed name)
    (arities : table.verbatims.lookup function.arity = some name →
      after.verbatims.lookup function.arity = some name) : after.IsNameOf dialect name function where
  known := isName.known
  listed isOther := labels _ (isName.listed isOther)
  family isVerbatim := (isName.family isVerbatim).imp described arities

/-- The names of functions of the dialect are named. -/
theorem IsConsistent.isNamed (consistent : table.IsConsistent dialect unified)
    {signature : BuiltinSignature} (known : table.builtins.lookup name = some signature) :
    table.IsNamed name := by
  have isName := consistent.describes _ (List.mem_of_lookup_eq_some known)
  cases isVerbatim : signature.function.isVerbatim with
  | false => exact .inl ⟨_, isName.listed isVerbatim⟩
  | true => exact .inr (isName.family isVerbatim).1

/-- Only the empty name is found for a label without an owner. -/
theorem IsOrderly.lookup_of_named (orderly : table.IsOrderly) (isNew : table.named label = .empty)
    (hasLabel : label ≠ "") : table.owners.lookup label = none := by
  rw [named] at isNew
  cases owned : table.owners.lookup label with
  | none => rfl
  | some owner =>
    rw [owned, Option.getD_some] at isNew
    have labelled := orderly.owners _ (List.mem_of_lookup_eq_some owned)
    subst isNew
    have same := orderly.first.symm.trans labelled
    cases same
    exact absurd rfl hasLabel

namespace IsConsistent

/-- Everything but labels and functions may change. -/
theorem of_same (consistent : table.IsConsistent dialect unified)
    (entries : after.entries = table.entries) (owners : after.owners = table.owners)
    (builtins : after.builtins = table.builtins) (verbatims : after.verbatims = table.verbatims)
    (verbatim : after.predefined.verbatim = table.predefined.verbatim) :
    after.IsConsistent dialect unified where
  outside := entries ▸ consistent.outside
  describes entry listed := by
    refine (consistent.describes entry (builtins ▸ listed)).mono (fun _ => entries ▸ id)
      (fun described => ⟨entries ▸ described.isAlias, ?_, builtins ▸ described.function⟩)
      (verbatims ▸ id)
    rw [root, entries, verbatim]
    exact described.root
  owned := by
    rw [entries, owners]
    exact consistent.owned

/-- What holds of the functions still holds when a table grows, as long as no arity gets another
name. -/
theorem describes_of_grows (consistent : table.IsConsistent dialect unified)
    (grows : table.Grows after) (back : RefersBack table.entries)
    (arities : ∀ arity name, table.verbatims.lookup arity = some name →
      after.verbatims.lookup arity = some name) :
    ∀ entry ∈ table.builtins, after.IsNameOf dialect entry.1 entry.2.function := by
  intro entry listed
  refine (consistent.describes entry listed).mono (fun label labelled => ?_)
    (grows.isDescribed back) (arities _ _)
  exact (grows.entries _ (Array.getElem?_eq_some_iff.mp labelled).1).trans labelled

/-- A label without an owner may be added, unless it is of the `verbatim` family. -/
theorem append (consistent : table.IsConsistent dialect unified) (back : RefersBack table.entries)
    (isOther : ∀ function, dialect.builtin? label = some function → function.isVerbatim = false)
    (isNew : table.owners.lookup label = none) :
    (table.append label).2.IsConsistent dialect unified := by
  have grows := grows_append table label
  have entries (index : Nat) : (table.append label).2.entries[index]? =
      if index = table.size then some (.labelled label) else table.entries[index]? :=
    Array.getElem?_push
  have owners : (table.append label).2.owners = (label, ⟨table.size⟩) :: table.owners := by
    rw [NameTable.append, isNew]
    rfl
  refine ⟨fun name other labelled => ?_, ?_, fun name other labelled => ?_⟩
  · rw [entries] at labelled
    split at labelled
    · cases labelled
      exact isOther
    · exact consistent.outside name other labelled
  · exact consistent.describes_of_grows grows back fun _ _ => id
  · rw [entries] at labelled
    rw [owners, List.lookup_cons]
    split at labelled
    · rename_i isLast
      cases labelled
      rw [beq_self_eq_true]
      exact .inl (congrArg (some ∘ Handle.mk) isLast.symm)
    · refine (consistent.owned name other labelled).imp_left fun owned => ?_
      have differs : (other == label) = false := by
        rw [beq_eq_false_iff_ne]
        rintro rfl
        rw [isNew] at owned
        cases owned
      rw [differs]
      exact owned

/-- Aliases may be added. -/
theorem appendAlias (consistent : table.IsConsistent dialect unified)
    (back : RefersBack table.entries) (base : Handle) : (table.appendAlias base).2.IsConsistent dialect unified := by
  have labels {index : Nat} {label : String}
      (labelled : (table.appendAlias base).2.entries[index]? = some (.labelled label)) :
      table.entries[index]? = some (.labelled label) := by
    rw [NameTable.appendAlias, Array.getElem?_push] at labelled
    split at labelled
    · cases labelled
    · exact labelled
  exact ⟨fun name label labelled => consistent.outside name label (labels labelled),
    consistent.describes_of_grows (grows_appendAlias table base) back fun _ _ => id,
    fun name label labelled => consistent.owned name label (labels labelled)⟩

/-- A function may be described under its name. -/
theorem describe (consistent : table.IsConsistent dialect unified)
    (isName : (table.describe name function).IsNameOf dialect name function) :
    (table.describe name function).IsConsistent dialect unified where
  outside := consistent.outside
  describes := by
    refine List.forall_mem_cons.mpr ⟨isName, fun entry listed => ?_⟩
    refine (consistent.describes entry listed).mono (fun _ => id) (fun described => ?_) id
    refine ⟨described.isAlias, described.root, ?_⟩
    show (List.lookup _ ((name, _) :: table.builtins)).isSome = true
    rw [List.lookup_cons]
    split
    · rfl
    · exact described.function
  owned := consistent.owned

/-- A function of the `verbatim` family may be added if no other one has its arity. -/
theorem appendVerbatim (consistent : table.IsConsistent dialect unified)
    (orderly : table.IsOrderly) (known : dialect.builtin? function.name = some function)
    (isVerbatim : function.isVerbatim = true)
    (isNew : table.verbatims.lookup function.arity = none) :
    (table.appendVerbatim function).2.IsConsistent dialect unified := by
  have aliased := consistent.appendAlias orderly.back table.predefined.verbatim
  have verbatims : (table.appendVerbatim function).2.verbatims =
      (function.arity, ⟨table.size⟩) :: table.verbatims := rfl
  have isName : (table.appendVerbatim function).2.IsNameOf dialect ⟨table.size⟩ function := by
    refine ⟨known, fun isOther => ?_, fun _ => ⟨orderly.isDescribed_appendVerbatim function, ?_⟩⟩
    · rw [isVerbatim] at isOther
      cases isOther
    · rw [verbatims, List.lookup_cons, beq_self_eq_true]
  have arities (arity : Nat × Nat) (name : Handle)
      (listed : table.verbatims.lookup arity = some name) :
      (table.appendVerbatim function).2.verbatims.lookup arity = some name := by
    have differs : (arity == function.arity) = false := by
      rw [beq_eq_false_iff_ne]
      rintro rfl
      rw [isNew] at listed
      cases listed
    rw [verbatims, List.lookup_cons, differs]
    exact listed
  refine ⟨aliased.outside, ?_, aliased.owned⟩
  exact List.forall_mem_cons.mpr ⟨isName,
    consistent.describes_of_grows (grows_appendVerbatim table function) orderly.back arities⟩

/-- Labels may be defined, if those of functions without a name have no owner. -/
theorem define (consistent : table.IsConsistent dialect unified) (catalogued : dialect.IsCatalogued)
    (orderly : table.IsOrderly) (isOf : table.dialect = dialect)
    (isNew : ∀ function, dialect.builtin? label = some function → function.isVerbatim = false →
      table.builtinNamed label = .empty → table.owners.lookup label = none) :
    (table.define label).2.IsConsistent dialect unified := by
  have added := adds_define table label
  generalize (table.define label).2 = after at added
  subst isOf
  cases added with
  | same => exact consistent
  | label isOther isFree =>
    refine consistent.append orderly.back (fun function known => (isOther function known).1) ?_
    cases known : table.dialect.builtin? label with
    | some function => exact isNew function known (isOther function known).1 (isOther function known).2
    | none =>
      obtain ⟨isNamed, isFirst⟩ := isFree known
      refine orderly.lookup_of_named isNamed fun isEmpty => ?_
      have hasNames := orderly.size_pos
      have none := isFirst isEmpty
      omega
  | verbatim known isVerbatim isFirst =>
    rw [← catalogued.named _ _ known] at known
    exact consistent.appendVerbatim orderly known isVerbatim isFirst

end IsConsistent

end NameTable

end YulCheck
