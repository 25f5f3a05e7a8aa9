import YulCheck.Proofs.Name.Fresh
import YulCheck.Proofs.Name.Indexed

/-! # The representation of names

What the tables of a name table say about each other, whatever programs add and whatever labels are
generated: chains of aliases end, labels and their owners belong to each other, and so do the arities
of the `verbatim` family and its aliases.
-/

namespace YulCheck.NameTable

variable {dialect : Dialect} {unified : Handle → Prop} {table : NameTable} {name : Handle}
  {label : String}

/-! ### Chains of aliases -/

/-- Whether a chain of aliases leads from a name to another one. -/
inductive LeadsTo (entries : Array Entry) : Handle → Handle → Prop
  | refl (name : Handle) : LeadsTo entries name name
  | step {name base last : Handle} (isAlias : entries[name.index]? = some (.alias base))
    (rest : LeadsTo entries base last) : LeadsTo entries name last

theorem leadsTo_followAliases (entries : Array Entry) (steps : Nat) (name : Handle) :
    LeadsTo entries name (followAliases entries steps name) := by
  induction steps generalizing name with
  | zero => exact .refl name
  | succ steps ih =>
    rw [followAliases]
    split
    · rename_i base isAlias
      exact .step isAlias (ih base)
    · exact .refl name

/-- What holds of a base. -/
structure IsBaseOf (table : NameTable) (base name : Handle) : Prop where
  answered : table.base name = .ok base
  leads : LeadsTo table.entries name base
  isLast : table.isAlias base = .ok false
  le : base.index ≤ name.index
  idempotent : table.base base = .ok base

/-- Every name of an orderly table has a base. -/
theorem IsOrderly.isBaseOf_root (orderly : table.IsOrderly) (inTable : name.index < table.size) :
    table.IsBaseOf (table.root name) name := by
  have le : (table.root name).index ≤ name.index := followAliases_le orderly.back name.index name
  have rootInTable := Nat.lt_of_le_of_lt le inTable
  refine ⟨base_of_lt inTable, leadsTo_followAliases table.entries name.index name, ?_, le, ?_⟩
  · obtain ⟨label, labelled⟩ := orderly.exists_label_root inTable
    rw [isAlias_of_lt rootInTable, hasAlias, labelled]
  · rw [base_of_lt rootInTable, orderly.root_root]

/-! ### Represented names -/

/-- Whether the parts of a table represent names and labels. -/
structure IsRepresented (table : NameTable) : Prop where
  /-- Aliases refer to earlier names. -/
  aliases : RefersBack table.entries
  bases : ∀ name : Handle, name.index < table.size → ∃ base, table.IsBaseOf base name
  /-- Labels have owners. -/
  owned : ∀ (name : Handle) (label : String),
    table.entries[name.index]? = some (.labelled label) →
      (table.owners.lookup label).isSome = true
  /-- Owners are no aliases, and have the labels that they own. -/
  owners : ∀ entry ∈ table.owners, table.entries[entry.2.index]? = some (.labelled entry.1)
  labels : ∀ label, table.named label ≠ .empty → table.label (table.named label) = .ok label
  /-- Arities lead to aliases of the `verbatim` family, with functions of these arities. -/
  family : ∀ parameters returns name,
    table.verbatims.lookup (parameters, returns) = some name →
      table.isAlias name = .ok true ∧ table.base name = .ok table.predefined.verbatim ∧
        ∃ signature, table.builtin? name = .ok (some signature) ∧
          signature.parameters.length = parameters ∧ signature.returns.length = returns
  /-- No name belongs to two arities. -/
  arities : ∀ left right name, table.verbatims.lookup left = some name →
    table.verbatims.lookup right = some name → left = right

theorem IsOrderly.label_named (orderly : table.IsOrderly) (isNamed : table.named label ≠ .empty) :
    table.label (table.named label) = .ok label :=
  label_of_entry (orderly.owners _ (mem_owners_of_named isNamed))

/-- An alias of the `verbatim` family has a function of its arity. -/
theorem IsIndexed.exists_builtin? (indexed : table.IsIndexed) (orderly : table.IsOrderly)
    (inRange : table.builtinRange.contains table.predefined.verbatim = true)
    {arity : Nat × Nat} (listed : table.verbatims.lookup arity = some name) :
    ∃ signature, table.builtin? name = .ok (some signature) ∧
      (signature.parameters.length, signature.returns.length) = arity := by
  have hasArity := indexed.family arity name listed
  have inTable : name.index < table.size := (Array.getElem?_eq_some_iff.mp hasArity.isAlias).1
  obtain ⟨signature, known, isArity⟩ := hasArity.function
  refine ⟨signature, ?_, ?_⟩
  · rw [builtin?_of_lt inTable, hasArity.root_eq orderly, if_pos inRange, known]
  · rw [← isArity]
    exact (indexed.typed _ (List.mem_of_lookup_eq_some known)).symm

theorem IsFaithful.represented (faithful : table.IsFaithful dialect unified)
    (indexed : table.IsIndexed) : table.IsRepresented where
  aliases := faithful.back
  bases name inTable := ⟨table.root name, faithful.toIsOrderly.isBaseOf_root inTable⟩
  owned := indexed.owned
  owners := faithful.owners
  labels label isNamed := faithful.toIsOrderly.label_named isNamed
  family parameters returns name listed := by
    have hasArity := indexed.family _ name listed
    have inTable : name.index < table.size := (Array.getElem?_eq_some_iff.mp hasArity.isAlias).1
    obtain ⟨signature, known, arity⟩ :=
      indexed.exists_builtin? faithful.toIsOrderly faithful.inRange listed
    refine ⟨?_, ?_, signature, known, congrArg Prod.fst arity, congrArg Prod.snd arity⟩
    · rw [isAlias_of_lt inTable, hasAlias, hasArity.isAlias]
    · rw [base_of_lt inTable, hasArity.root_eq faithful.toIsOrderly]
  arities left right name leftListed rightListed := by
    obtain ⟨leftSignature, leftKnown, rfl⟩ := (indexed.family left name leftListed).function
    obtain ⟨rightSignature, rightKnown, rfl⟩ := (indexed.family right name rightListed).function
    obtain rfl := Option.some.inj (leftKnown.symm.trans rightKnown)
    rfl

/-! ### All tables of the bundled dialects -/

section Bundled

variable {kind : BundledDialect} {version : EvmVersion}

/-- The names of every table that programs can have are represented. -/
theorem Reachable.isRepresented (reachable : table.Reachable (kind.build version)) :
    table.IsRepresented := by
  have catalogued := kind.isCatalogued_build version
  have regular := kind.isRegular_build version
  obtain ⟨unified, history⟩ := reachable_iff_exists_history.mp reachable
  exact (history.isFaithful catalogued regular).represented
    (history.isIndexed catalogued regular)

/-- The alias in the sample leads to the name `x`, which owns its label. -/
theorem isRepresented_aliasSample :
    aliasSample.IsRepresented ∧ aliasSample.isAlias ⟨25⟩ = .ok true ∧
      aliasSample.base ⟨25⟩ = .ok ⟨24⟩ ∧ aliasSample.named "x" = ⟨24⟩ :=
  ⟨reachable_aliasSample.isRepresented, by decide +kernel, by decide +kernel, by decide +kernel⟩

end Bundled

end YulCheck.NameTable
