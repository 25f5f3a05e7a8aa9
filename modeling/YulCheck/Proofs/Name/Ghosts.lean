import YulCheck.Proofs.Name.Issued
import YulCheck.Proofs.Name.Owned

/-! # Ghosts

A ghost gets the name of the next ghost label. Neither the dialect nor a generation of labels gives such
a label to a name, so the ghost is a new name, unless a program defined its label before. Ghosts differ
from each other and from all aliases that were derived, and from what programs define other than the
labels of ghosts.
-/

namespace YulCheck.NameTable

variable {dialect : Dialect} {unified : Handle → Prop} {table after : NameTable}
  {name base : Handle} {label : String}

/-! ### The labels of ghosts -/

theorem toList_ghostLabel (number : Nat) :
    (ghostLabel number).toList = "GHOST[".toList ++ (Nat.toDigits 10 number ++ [']']) := by
  simp [ghostLabel, toString]

theorem getLast?_ghostLabel (number : Nat) : (ghostLabel number).toList.getLast? = some ']' := by
  rw [toList_ghostLabel, ← List.append_assoc, List.getLast?_concat]

theorem ghostLabel_injective : Function.Injective ghostLabel := by
  intro first second same
  have texts := congrArg String.toList same
  rw [toList_ghostLabel, toList_ghostLabel, List.append_cancel_left_eq,
    List.append_cancel_right_eq] at texts
  have digits := congrArg (fun digits => Nat.ofDigitChars 10 digits 0) texts
  rwa [Nat.ofDigitChars_toDigits (by decide) (by decide),
    Nat.ofDigitChars_toDigits (by decide) (by decide)] at digits

/-- Whether a label does not end like those of ghosts. -/
def EndsOtherwise (label : String) : Prop := label.toList.getLast? ≠ some ']'

instance (label : String) : Decidable (EndsOtherwise label) :=
  inferInstanceAs (Decidable (_ ≠ _))

theorem EndsOtherwise.ne_ghostLabel (isOther : EndsOtherwise label) (number : Nat) :
    label ≠ ghostLabel number := by
  rintro rfl
  exact isOther (getLast?_ghostLabel number)

/-- No numbered candidate is the label of a ghost. -/
theorem endsOtherwise_candidate (base : String) (number : Nat) :
    EndsOtherwise (candidate base (number + 1)) := by
  obtain ⟨digit, isLast, isDigit⟩ := getLast?_candidate_succ base number
  intro isBracket
  rw [isLast] at isBracket
  cases isBracket
  exact absurd isDigit (by decide)

/-! ### The labels of the bundled dialects -/

theorem endsOtherwise_of_mem_evmBuiltins {flavour : Dialect.EvmFlavour} {version : EvmVersion}
    {function : Builtin} (member : function ∈ Dialect.evmBuiltins flavour version) :
    EndsOtherwise function.name := by
  have names : ∀ label ∈ Dialect.untypedNames ++ Dialect.typedNames, EndsOtherwise label := by
    decide +kernel
  exact names _ (Dialect.name_mem_of_mem_evmBuiltins member)

/-- No name of a bundled dialect ends like the labels of ghosts. -/
theorem ownsOnly_endsOtherwise (kind : BundledDialect) (version : EvmVersion) :
    (ofDialect (kind.build version)).OwnsOnly EndsOtherwise := by
  have library : ∀ label ∈ libraryLabels, EndsOtherwise label := by decide
  cases kind with
  | generic =>
    have types : ∀ label ∈ Dialect.generic.types, EndsOtherwise label := by decide
    exact ownsOnly_ofDialect types nofun library
  | evm flavour =>
    have types : ∀ label ∈ flavour.types, EndsOtherwise label := by cases flavour <;> decide
    refine ownsOnly_ofDialect types (fun label member => ?_) library
    rcases List.mem_cons.mp (AscendingList.mem_ofList.mp member) with rfl | isName
    · decide
    · obtain ⟨function, isOne, rfl⟩ := List.mem_map.mp isName
      exact endsOtherwise_of_mem_evmBuiltins isOne

/-- No function of a bundled dialect has the label of a ghost. -/
theorem builtin?_ghostLabel (kind : BundledDialect) (version : EvmVersion) (number : Nat) :
    (kind.build version).builtin? (ghostLabel number) = none := by
  cases kind with
  | generic => rfl
  | evm flavour =>
    rw [Option.eq_none_iff_forall_ne_some]
    intro function found
    obtain ⟨isName, ⟨⟨arity, parsed⟩, _⟩ | ⟨isOne, _⟩⟩ := Dialect.evm_builtin?_cases found
    · have isLetter := Verbatim.getLast?_of_parse? parsed
      rw [getLast?_ghostLabel] at isLetter
      exact absurd isLetter (by decide)
    · exact (endsOtherwise_of_mem_evmBuiltins isOne).ne_ghostLabel number isName

/-! ### Owners of ghost labels -/

/-- A label that is defined changes the owner of no other label. -/
theorem lookup_define_ne {other : String} (isOther : other ≠ label) :
    (table.define label).2.owners.lookup other = table.owners.lookup other := by
  have added := adds_define table label
  generalize (table.define label).2 = after at added
  cases added with
  | same | verbatim => rfl
  | label =>
    rw [owners_append]
    exact lookup_assign_ne isOther table ⟨table.size⟩

/-- A name that owns a label once it is defined owned it before, or is new. -/
theorem lookup_define_cases {other : String}
    (owned : (table.define label).2.owners.lookup other = some name) :
    table.owners.lookup other = some name ∨ name = ⟨table.size⟩ := by
  have added := adds_define table label
  generalize (table.define label).2 = after at added owned
  cases added with
  | same | verbatim => exact .inl owned
  | label =>
    rw [owners_append] at owned
    by_cases isSame : other = label
    · subst isSame
      cases before : table.owners.lookup other with
      | none =>
        rw [lookup_assign_self before] at owned
        exact .inr (Option.some.inj owned).symm
      | some owner =>
        rw [lookup_assign before] at owned
        exact .inl owned
    · rw [lookup_assign_ne isSame] at owned
      exact .inl owned

theorem ghostCount_define (table : NameTable) (label : String) :
    (table.define label).2.ghostCount = table.ghostCount := by
  have added := adds_define table label
  generalize (table.define label).2 = after at added
  cases added with
  | same | label | verbatim => rfl

/-- Generated labels are no labels of ghosts, unless these have owners. -/
theorem Generates.lookup_ghostLabel {block : Block} {labels : List (Handle × String)}
    {reserved used : List String} (generates : table.Generates block reserved used labels after)
    (indexed : table.IsIndexed) (number : Nat) :
    after.owners.lookup (ghostLabel number) = table.owners.lookup (ghostLabel number) := by
  rw [generates.outcome]
  cases owned : table.owners.lookup (ghostLabel number) with
  | some owner => exact lookup_assignAll owned labels
  | none =>
    have areOther : ∀ entry ∈ labels, ghostLabel number ≠ entry.2 := by
      intro entry member
      obtain ⟨base, atRoot, comes⟩ := generates.fresh.comes entry member
      have baseOwned := indexed.owned _ base (rootLabel?_eq_some_iff.mp atRoot)
      refine comes.keeps ?_ fun label other _ => ?_
      · rintro rfl
        rw [owned] at baseOwned
        cases baseOwned
      · exact ((endsOtherwise_candidate label other).ne_ghostLabel number).symm
    rw [lookup_assignAll_of_ne areOther, owned]

/-! ### What was issued -/

/-- The ghosts among the names that were issued. -/
def ghosts (issues : List Issue) : List Handle :=
  issues.filterMap fun
    | .ghost name => some name
    | _ => none

theorem mem_ghosts_iff {issues : List Issue} : name ∈ ghosts issues ↔ .ghost name ∈ issues := by
  rw [ghosts, List.mem_filterMap]
  constructor
  · rintro ⟨issue, member, same⟩
    cases issue with
    | define | derive => cases same
    | ghost =>
      cases same
      exact member
  · exact fun member => ⟨_, member, rfl⟩

/-- Whether a table keeps what it said about a name when it was issued. A label that was defined keeps its
name; a ghost owns the label of an earlier ghost; aliases own no label of a ghost. -/
def Issue.IsKept (table : NameTable) : Issue → Prop
  | .define label name =>
    table.label name = .ok label ∧
      ∀ number, label = ghostLabel number → table.owners.lookup label = some name
  | .derive _ name =>
    name.index < table.size ∧ ∀ number, table.owners.lookup (ghostLabel number) ≠ some name
  | .ghost name =>
    ∃ number < table.ghostCount, table.owners.lookup (ghostLabel number) = some name

/-- Whether the names of a table that own labels of ghosts are kept, and no others are added but new ones. -/
structure KeepsGhosts (table after : NameTable) : Prop extends table.KeepsNames after where
  label : ∀ name label, table.label name = .ok label → after.label name = .ok label
  ghostCount : table.ghostCount ≤ after.ghostCount
  owned : ∀ number name, after.owners.lookup (ghostLabel number) = some name →
    table.owners.lookup (ghostLabel number) = some name ∨ name = ⟨table.size⟩

theorem Issue.IsKept.keep {issue : Issue} (isKept : issue.IsKept table)
    (keeps : table.KeepsGhosts after) : issue.IsKept after := by
  cases issue with
  | define label name =>
    exact ⟨keeps.label name label isKept.1, fun number isGhost =>
      keeps.owners label name (isKept.2 number isGhost)⟩
  | derive base name =>
    refine ⟨Nat.lt_of_lt_of_le isKept.1 keeps.size, fun number owned => ?_⟩
    rcases keeps.owned number name owned with before | rfl
    · exact isKept.2 number before
    · exact Nat.lt_irrefl _ isKept.1
  | ghost name =>
    obtain ⟨number, isEarlier, owned⟩ := isKept
    exact ⟨number, Nat.lt_of_lt_of_le isEarlier keeps.ghostCount, keeps.owners _ name owned⟩

/-- Whether a table knows which labels of ghosts have owners: those of ghosts, and those that were
defined. -/
structure RecordsGhosts (issues : List Issue) (table : NameTable) : Prop where
  areKept : ∀ issue ∈ issues, issue.IsKept table
  owned : ∀ number, (table.owners.lookup (ghostLabel number)).isSome = true →
    number < table.ghostCount ∨ ∃ name, .define (ghostLabel number) name ∈ issues
  distinct : (ghosts issues).Nodup

/-! ### All tables of the bundled dialects -/

section Bundled

variable {kind : BundledDialect} {version : EvmVersion} {issues : List Issue}

/-- No name owns two labels. -/
theorem IsOrderly.eq_of_owned (orderly : table.IsOrderly) {left right : String}
    (ownsLeft : table.owners.lookup left = some name)
    (ownsRight : table.owners.lookup right = some name) : left = right := by
  have isLeft := orderly.owners _ (List.mem_of_lookup_eq_some ownsLeft)
  have isRight := orderly.owners _ (List.mem_of_lookup_eq_some ownsRight)
  rw [isLeft] at isRight
  cases isRight
  rfl

/-- The label of a ghost is owned by its name once it is defined. -/
theorem IsFaithful.lookup_define_ghostLabel (faithful : table.IsFaithful (kind.build version) unified)
    (number : Nat) :
    (table.define (ghostLabel number)).2.owners.lookup (ghostLabel number) =
      some (table.define (ghostLabel number)).1 := by
  have isOf : (table.define (ghostLabel number)).2.dialect.builtin? (ghostLabel number) = none := by
    rw [(grows_define table _).dialect, faithful.isOf]
    exact builtin?_ghostLabel kind version number
  have interns := faithful.interns_define (ghostLabel number)
  generalize (table.define (ghostLabel number)).1 = name at interns
  cases interns with
  | verbatim known | builtin known =>
    rw [isOf] at known
    cases known
  | empty _ isEmpty =>
    have isOther := getLast?_ghostLabel number
    rw [isEmpty] at isOther
    cases isOther
  | owner _ _ owned => exact owned

/-- What evolves keeps the owners of labels of ghosts, as long as no others are added but new names. -/
theorem Reachable.keepsGhosts (reachable : table.Reachable (kind.build version))
    (evolves : table.Evolves after) (ghostCount : table.ghostCount ≤ after.ghostCount)
    (owned : ∀ number name, after.owners.lookup (ghostLabel number) = some name →
      table.owners.lookup (ghostLabel number) = some name ∨ name = ⟨table.size⟩) :
    table.KeepsGhosts after where
  toKeepsNames := reachable.keepsNames evolves
  label := (reachable.keepsAnswers_of_evolves evolves).label
  ghostCount := ghostCount
  owned := owned

namespace RecordsGhosts

theorem ofDialect : RecordsGhosts [] (ofDialect (kind.build version)) where
  areKept := nofun
  owned number isOwned := by
    obtain ⟨owner, owned⟩ := Option.isSome_iff_exists.mp isOwned
    have isOther := ownsOnly_endsOtherwise kind version _ (List.mem_of_lookup_eq_some owned)
    exact absurd rfl (isOther.ne_ghostLabel number)
  distinct := List.nodup_nil

theorem define (records : RecordsGhosts issues table)
    (reachable : table.Reachable (kind.build version)) (label : String) :
    RecordsGhosts (.define label (table.define label).1 :: issues) (table.define label).2 := by
  have ghostCount := ghostCount_define table label
  have keeps := reachable.keepsGhosts (.define .refl label) (Nat.le_of_eq ghostCount.symm)
    fun _ _ => lookup_define_cases
  obtain ⟨unified, faithful⟩ :=
    reachable.exists_isFaithful (kind.isCatalogued_build version) (kind.isRegular_build version)
  refine ⟨List.forall_mem_cons.mpr ⟨⟨(reachable.label_of_evolves label .refl).2, ?_⟩,
    fun issue member => (records.areKept issue member).keep keeps⟩, fun number isOwned => ?_,
    records.distinct⟩
  · rintro number rfl
    exact faithful.lookup_define_ghostLabel number
  · by_cases isSame : ghostLabel number = label
    · subst isSame
      exact .inr ⟨_, List.mem_cons_self⟩
    · rw [lookup_define_ne isSame] at isOwned
      rw [ghostCount]
      exact (records.owned number isOwned).imp_right (.imp fun _ => List.mem_cons_of_mem _)

theorem derive (records : RecordsGhosts issues table)
    (reachable : table.Reachable (kind.build version))
    (derived : table.derive base = .ok (name, after)) :
    RecordsGhosts (.derive base name :: issues) after := by
  obtain ⟨unified, faithful⟩ :=
    reachable.exists_isFaithful (kind.isCatalogued_build version) (kind.isRegular_build version)
  obtain ⟨inTable, appended⟩ := derive_eq_ok derived
  have isLast : name = ⟨table.size⟩ := (congrArg Prod.fst appended).symm
  have size : after.size = table.size + 1 := by
    rw [← table.size_appendAlias base, appended]
  have evolves : table.Evolves after := .derive .refl derived
  obtain rfl := congrArg Prod.snd appended
  have keeps := reachable.keepsGhosts evolves (Nat.le_refl _) fun _ _ => .inl
  refine ⟨List.forall_mem_cons.mpr ⟨⟨?_, fun number owned => ?_⟩,
    fun issue member => (records.areKept issue member).keep keeps⟩, fun number isOwned => ?_,
    records.distinct⟩
  · rw [isLast, size]
    exact Nat.lt_succ_self _
  · have labelled := faithful.owners _ (List.mem_of_lookup_eq_some owned)
    rw [isLast] at labelled
    exact Nat.lt_irrefl _ (Array.getElem?_eq_some_iff.mp labelled).1
  · exact (records.owned number isOwned).imp_right (.imp fun _ => List.mem_cons_of_mem _)

theorem defineGhost (records : RecordsGhosts issues table)
    (reachable : table.Reachable (kind.build version)) :
    RecordsGhosts (.ghost table.defineGhost.1 :: issues) table.defineGhost.2 := by
  have catalogued := kind.isCatalogued_build version
  have regular := kind.isRegular_build version
  obtain ⟨unified, faithful⟩ := reachable.exists_isFaithful catalogued regular
  have counted := faithful.count (table.ghostCount + 1)
  have ghostCount : table.defineGhost.2.ghostCount = table.ghostCount + 1 := ghostCount_define _ _
  have isOwner := counted.lookup_define_ghostLabel table.ghostCount
  have keeps := reachable.keepsGhosts (.defineGhost .refl) (ghostCount.symm ▸ Nat.le_succ _)
    fun _ _ => lookup_define_cases
  have isGhost : Issue.IsKept table.defineGhost.2 (.ghost table.defineGhost.1) :=
    ⟨table.ghostCount, ghostCount.symm ▸ Nat.lt_succ_self _, isOwner⟩
  refine ⟨List.forall_mem_cons.mpr ⟨isGhost, fun issue member =>
    (records.areKept issue member).keep keeps⟩, fun number isOwned => ?_,
    List.nodup_cons.mpr ⟨fun member => ?_, records.distinct⟩⟩
  · rw [ghostCount]
    by_cases isSame : number = table.ghostCount
    · exact .inl (isSame ▸ Nat.lt_succ_self _)
    · have sameOwner : table.defineGhost.2.owners.lookup (ghostLabel number) =
          table.owners.lookup (ghostLabel number) :=
        lookup_define_ne (ghostLabel_injective.ne isSame)
      rw [sameOwner] at isOwned
      exact (records.owned number isOwned).imp Nat.lt_succ_of_lt
        (.imp fun _ => List.mem_cons_of_mem _)
  · obtain ⟨number, isEarlier, owned⟩ := records.areKept _ (mem_ghosts_iff.mp member)
    have orderly := (faithful.defineGhost catalogued regular).toIsOrderly
    have same := orderly.eq_of_owned (keeps.owners _ _ owned) isOwner
    rw [ghostLabel_injective same] at isEarlier
    exact Nat.lt_irrefl _ isEarlier

theorem labelAliases (records : RecordsGhosts issues table)
    (reachable : table.Reachable (kind.build version)) {block : Block} {reserved : List String}
    (labelled : table.labelAliases block reserved = .ok after) : RecordsGhosts issues after := by
  have catalogued := kind.isCatalogued_build version
  have regular := kind.isRegular_build version
  obtain ⟨unified, history⟩ := reachable_iff_exists_history.mp reachable
  have faithful := history.isFaithful catalogued regular
  obtain ⟨used, labels, generates⟩ := exists_generates faithful.toIsOrderly labelled
  have sameOwners := generates.lookup_ghostLabel (history.isIndexed catalogued regular)
  have ghostCount : after.ghostCount = table.ghostCount := by
    obtain ⟨entries, owners, same, _⟩ := generates.exists_eq
    rw [same]
  have keeps := reachable.keepsGhosts (.labelAliases .refl labelled) (Nat.le_of_eq ghostCount.symm)
    fun number name owned => .inl (sameOwners number ▸ owned)
  refine ⟨fun issue member => (records.areKept issue member).keep keeps, fun number isOwned => ?_,
    records.distinct⟩
  rw [sameOwners] at isOwned
  rw [ghostCount]
  exact records.owned number isOwned

end RecordsGhosts

theorem Issued.recordsGhosts (issued : Issued (kind.build version) table issues) :
    RecordsGhosts issues table := by
  have isReachable {table : NameTable} {issues : List Issue}
      (issued : Issued (kind.build version) table issues) :
      table.Reachable (kind.build version) := reachable_iff_exists_issued.mpr ⟨issues, issued⟩
  induction issued with
  | ofDialect => exact .ofDialect
  | define before label ih => exact ih.define (isReachable before) label
  | derive before derived ih => exact ih.derive (isReachable before) derived
  | defineGhost before ih => exact ih.defineGhost (isReachable before)
  | labelAliases before labelled ih => exact ih.labelAliases (isReachable before) labelled

/-- The next ghost is a new name, unless its label has an owner. -/
theorem IsFaithful.contains_defineGhost_iff
    (faithful : table.IsFaithful (kind.build version) unified) :
    table.contains table.defineGhost.1 = true ↔
      (table.owners.lookup (ghostLabel table.ghostCount)).isSome = true := by
  have counted := faithful.count (table.ghostCount + 1)
  rw [contains, decide_eq_true_iff]
  constructor
  · intro inTable
    rcases lookup_define_cases (counted.lookup_define_ghostLabel table.ghostCount) with
      owned | isNew
    · exact Option.isSome_iff_exists.mpr ⟨_, owned⟩
    · rw [show table.defineGhost.1 = ⟨table.size⟩ from isNew] at inTable
      exact absurd inTable (Nat.lt_irrefl _)
  · intro isOwned
    obtain ⟨owner, owned⟩ := Option.isSome_iff_exists.mp isOwned
    have labelled := faithful.owners _ (List.mem_of_lookup_eq_some owned)
    have hasLabel := ((by decide : EndsOtherwise "").ne_ghostLabel table.ghostCount).symm
    have isNamed : owner ≠ .empty := by
      rintro rfl
      have same := Option.some.inj (faithful.first.symm.trans labelled)
      exact hasLabel (Entry.labelled.inj same).symm
    have interns : { table with ghostCount := table.ghostCount + 1 }.Interns
        (ghostLabel table.ghostCount) owner :=
      .owner (counted.isOf ▸ builtin?_ghostLabel kind version _) hasLabel owned isNamed
    rw [show table.defineGhost.1 = owner from congrArg Prod.fst interns.define_eq]
    exact (Array.getElem?_eq_some_iff.mp labelled).1

/-- The next ghost is a new name, unless its label was defined. Ghosts are distinct and no aliases, and
labels that programs define have no ghosts for names, apart from the labels of ghosts. -/
theorem Issued.ghosts_fresh (issued : Issued (kind.build version) table issues) :
    (table.contains table.defineGhost.1 = true ↔
        ∃ name, .define (ghostLabel table.ghostCount) name ∈ issues) ∧
      (ghosts issues).Nodup ∧
      ∀ name ∈ ghosts issues, (∀ base, .derive base name ∉ issues) ∧
        ∀ label, .define label name ∈ issues →
          ∃ number < table.ghostCount, label = ghostLabel number := by
  have records := issued.recordsGhosts
  have reachable := reachable_iff_exists_issued.mpr ⟨issues, issued⟩
  obtain ⟨unified, faithful⟩ :=
    reachable.exists_isFaithful (kind.isCatalogued_build version) (kind.isRegular_build version)
  refine ⟨?_, records.distinct, fun name isGhost => ?_⟩
  · rw [faithful.contains_defineGhost_iff]
    constructor
    · intro isOwned
      exact (records.owned _ isOwned).resolve_left (Nat.lt_irrefl _)
    · rintro ⟨name, isDefined⟩
      rw [(records.areKept _ isDefined).2 _ rfl]
      rfl
  · obtain ⟨number, isEarlier, owned⟩ := records.areKept _ (mem_ghosts_iff.mp isGhost)
    refine ⟨fun base isDerived => (records.areKept _ isDerived).2 number owned,
      fun label isDefined => ⟨number, isEarlier, ?_⟩⟩
    have isLabel := label_of_entry (faithful.owners _ (List.mem_of_lookup_eq_some owned))
    rw [(records.areKept _ isDefined).1] at isLabel
    exact Except.ok.inj isLabel

/-- The table with a name that has the label of the second ghost. -/
def claimedSample : NameTable := ((ofDialect .generic).define "GHOST[1]").2

/-- The table with the first ghost beside that name. -/
def ghostSample : NameTable := claimedSample.defineGhost.2

theorem ghostSample_answers :
    ((ofDialect .generic).define "GHOST[1]").1 = ⟨24⟩ ∧ claimedSample.defineGhost.1 = ⟨25⟩ ∧
      claimedSample.ghostCount = 0 ∧ ghostSample.ghostCount = 1 ∧
      ghostSample.contains ghostSample.defineGhost.1 = true := by
  decide +kernel

theorem issued_claimedSample :
    Issued (BundledDialect.generic.build .default) claimedSample [.define "GHOST[1]" ⟨24⟩] := by
  rw [← ghostSample_answers.1]
  exact Issued.ofDialect.define "GHOST[1]"

theorem issued_ghostSample :
    Issued (BundledDialect.generic.build .default) ghostSample
      [.ghost ⟨25⟩, .define "GHOST[1]" ⟨24⟩] := by
  rw [← ghostSample_answers.2.1]
  exact issued_claimedSample.defineGhost

/-- In the sample, the first ghost is a new name, and the second one is not, since its label was
defined. -/
theorem ghosts_fresh_sample :
    claimedSample.contains claimedSample.defineGhost.1 = false ∧
      ghostSample.contains ghostSample.defineGhost.1 = true := by
  obtain ⟨_, _, noGhosts, oneGhost, _⟩ := ghostSample_answers
  have firstIsOld := issued_claimedSample.ghosts_fresh.1
  have secondIsOld := issued_ghostSample.ghosts_fresh.1
  rw [noGhosts] at firstIsOld
  rw [oneGhost] at secondIsOld
  constructor
  · rw [← Bool.not_eq_true, firstIsOld]
    rintro ⟨name, isDefined⟩
    have sameLabel := (Issue.define.inj (List.mem_singleton.mp isDefined)).1
    exact absurd (ghostLabel_injective sameLabel : 0 = 1) Nat.zero_ne_one
  · exact secondIsOld.mpr ⟨⟨24⟩, List.mem_cons_of_mem _ (List.mem_singleton.mpr rfl)⟩

/-- Not every ghost is a new name: in the sample, the second one is a name that a program defined. -/
theorem not_all_ghosts_new :
    ¬∀ (kind : BundledDialect) (version : EvmVersion) (table : NameTable),
      table.Reachable (kind.build version) → table.contains table.defineGhost.1 = false := by
  intro areNew
  have reachable := reachable_iff_exists_issued.mpr ⟨_, issued_ghostSample⟩
  have isNew := areNew .generic .default ghostSample reachable
  rw [ghostSample_answers.2.2.2.2] at isNew
  cases isNew

end Bundled

end YulCheck.NameTable
