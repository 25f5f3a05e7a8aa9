import YulCheck.Proofs.Name.Kept

/-! # Issued names and how messages show them

Programs get the names of a table by labels, as aliases of other names, or as ghosts. Every name can be
shown in a message, whatever has been issued and whatever labels have been generated, with one exception:
an alias that was derived from a name of the `verbatim` family. It is taken for a function of the family
but has none, so it has no label, and that of its base is not looked up.
-/

namespace YulCheck.NameTable

variable {dialect : Dialect} {unified : Handle → Prop} {table after : NameTable}
  {name base : Handle} {label : String}

/-! ### Issued names -/

/-- A name that was issued, and what for. -/
inductive Issue
  | define (label : String) (name : Handle)
  | derive (base name : Handle)
  | ghost (name : Handle)

/-- The name tables of a dialect that programs can have, with the names that were issued, the latest
first. -/
inductive Issued (dialect : Dialect) : NameTable → List Issue → Prop
  | ofDialect : Issued dialect (ofDialect dialect) []
  | define {table : NameTable} {issues : List Issue} (before : Issued dialect table issues)
    (label : String) :
    Issued dialect (table.define label).2 (.define label (table.define label).1 :: issues)
  | derive {table after : NameTable} {issues : List Issue} (before : Issued dialect table issues)
    {base name : Handle} (derived : table.derive base = .ok (name, after)) :
    Issued dialect after (.derive base name :: issues)
  | defineGhost {table : NameTable} {issues : List Issue} (before : Issued dialect table issues) :
    Issued dialect table.defineGhost.2 (.ghost table.defineGhost.1 :: issues)
  | labelAliases {table after : NameTable} {issues : List Issue} (before : Issued dialect table issues)
    {block : Block} {reserved : List String}
    (labelled : table.labelAliases block reserved = .ok after) : Issued dialect after issues

/-- Every table that programs can have has issued some names. -/
theorem reachable_iff_exists_issued :
    table.Reachable dialect ↔ ∃ issues, Issued dialect table issues := by
  constructor
  · intro reachable
    induction reachable with
    | ofDialect => exact ⟨_, .ofDialect⟩
    | define _ label ih => exact ih.imp' _ fun _ issued => issued.define label
    | derive _ derived ih => exact ih.imp' _ fun _ issued => issued.derive derived
    | defineGhost _ ih => exact ih.imp' _ fun _ issued => issued.defineGhost
    | labelAliases _ labelled ih => exact ih.imp fun _ issued => issued.labelAliases labelled
  · rintro ⟨issues, issued⟩
    induction issued with
    | ofDialect => exact .ofDialect
    | define _ label ih => exact ih.define label
    | derive _ derived ih => exact ih.derive derived
    | defineGhost _ ih => exact ih.defineGhost
    | labelAliases _ labelled ih => exact ih.labelAliases labelled

/-! ### Strays of the `verbatim` family -/

/-- Whether a name is an alias in the `verbatim` family without a function. -/
structure IsStray (table : NameTable) (name : Handle) : Prop where
  isAlias : table.isAlias name = .ok true
  isVerbatim : table.isVerbatim name = .ok true
  noFunction : table.builtin? name = .ok none

/-- Strays have no label that messages could show. -/
theorem IsStray.shownLabel_eq (stray : table.IsStray name) :
    table.shownLabel name = .error (.verbatimUndescribed name) := by
  obtain ⟨inTable, hasAlias⟩ := lt_of_isAlias stray.isAlias
  have isVerbatim := stray.isVerbatim
  rw [isVerbatim_of_lt inTable] at isVerbatim
  have root := of_decide_eq_true (Except.ok.inj isVerbatim)
  rw [shownLabel_of_lt inTable, hasAlias, decide_eq_true root, label_of_alias inTable hasAlias,
    if_pos root, stray.noFunction]
  rfl

/-- All other names of a table are shown by a label. -/
theorem IsOrderly.isShown_iff (orderly : table.IsOrderly) (inTable : name.index < table.size) :
    table.IsShown name ↔ ¬table.IsStray name := by
  constructor
  · rintro ⟨label, isShown⟩ stray
    rw [stray.shownLabel_eq] at isShown
    cases isShown
  · intro isOther
    by_cases root : table.root name = table.predefined.verbatim
    · refine (hasLabel_of_not_awaits inTable (fun awaits => awaits.isOther root)
        fun isAlias isVerbatim => ?_).isShown
      rcases answered : table.builtin? name with fault | signature?
      · rw [builtin?_of_lt inTable] at answered
        cases answered
      · rcases signature? with _ | signature
        · exact absurd ⟨isAlias, isVerbatim, answered⟩ isOther
        · exact ⟨signature, rfl⟩
    · exact orderly.isShown inTable root

theorem IsNamed.not_isStray (named : table.IsNamed name)
    (inRange : table.builtinRange.contains table.predefined.verbatim = true) :
    ¬table.IsStray name := by
  intro stray
  obtain ⟨label, isShown⟩ := (named.hasLabel inRange).isShown
  rw [stray.shownLabel_eq] at isShown
  cases isShown

theorem isStray_iff_of_same (isAlias : after.isAlias name = table.isAlias name)
    (isVerbatim : after.isVerbatim name = table.isVerbatim name)
    (builtin? : after.builtin? name = table.builtin? name) :
    after.IsStray name ↔ table.IsStray name := by
  constructor
  · rintro ⟨first, second, third⟩
    exact ⟨isAlias ▸ first, isVerbatim ▸ second, builtin? ▸ third⟩
  · rintro ⟨first, second, third⟩
    exact ⟨isAlias ▸ first, isVerbatim ▸ second, builtin? ▸ third⟩

/-- Whether the names of a table remain strays in another one, or remain none. -/
structure KeepsStrays (table after : NameTable) : Prop where
  size : table.size ≤ after.size
  isVerbatim : ∀ name : Handle, name.index < table.size →
    after.isVerbatim name = table.isVerbatim name
  isStray_iff : ∀ name : Handle, name.index < table.size →
    (after.IsStray name ↔ table.IsStray name)

theorem Grows.keepsStrays (grows : table.Grows after) (back : RefersBack table.entries) :
    table.KeepsStrays after where
  size := grows.size
  isVerbatim _ inTable := grows.isVerbatim back inTable
  isStray_iff _ inTable :=
    isStray_iff_of_same (grows.isAlias inTable) (grows.isVerbatim back inTable)
      (grows.builtin? back inTable)

/-- Generated labels are for other aliases. -/
theorem Generates.keepsStrays {block : Block} {labels : List (Handle × String)}
    {reserved used : List String} (generates : table.Generates block reserved used labels after)
    (faithful : table.IsFaithful dialect unified) : table.KeepsStrays after where
  size := Nat.le_of_eq generates.size_eq.symm
  isVerbatim _ inTable := generates.isVerbatim faithful.toIsOrderly inTable
  isStray_iff name inTable := by
    have isVerbatim := generates.isVerbatim faithful.toIsOrderly inTable
    by_cases awaits : table.AwaitsLabel name
    · have isOther := (awaitsLabel_iff.mp awaits).2
      refine iff_of_false (fun stray => ?_) fun stray => ?_
      · cases (isVerbatim ▸ isOther).symm.trans stray.isVerbatim
      · cases isOther.symm.trans stray.isVerbatim
    · exact isStray_iff_of_same (generates.isAlias_of_not_awaits inTable awaits) isVerbatim
        (generates.builtin? faithful.toIsOrderly faithful.toIsConsistent inTable)

/-- A new alias is a stray if and only if it is derived from a name of the `verbatim` family. -/
theorem IsFaithful.isStray_appendAlias_iff (faithful : table.IsFaithful dialect unified)
    (inTable : base.index < table.size) :
    (table.appendAlias base).2.IsStray (table.appendAlias base).1 ↔
      table.isVerbatim base = .ok true := by
  show (table.appendAlias base).2.IsStray ⟨table.size⟩ ↔ _
  have isLast : (⟨table.size⟩ : Handle).index < (table.appendAlias base).2.size := by
    rw [size_appendAlias]
    exact Nat.lt_succ_self _
  have isVerbatim : (table.appendAlias base).2.isVerbatim ⟨table.size⟩ = table.isVerbatim base := by
    rw [isVerbatim_of_lt isLast, isVerbatim_of_lt inTable,
      faithful.toIsOrderly.root_appendAlias inTable]
    rfl
  have noFunction : table.builtins.lookup ⟨table.size⟩ = none := by
    rw [Option.eq_none_iff_forall_ne_some]
    intro signature known
    exact Nat.lt_irrefl _ (faithful.toIsConsistent.isNamed known).lt
  constructor
  · exact fun stray => isVerbatim ▸ stray.isVerbatim
  · intro isFamily
    refine ⟨?_, isVerbatim.trans isFamily, ?_⟩
    · rw [isAlias_of_lt isLast, hasAlias_iff.mpr ⟨base, Array.getElem?_push_size⟩]
    · rw [builtin?_of_lt isLast]
      show Except.ok (ite _ (table.builtins.lookup (⟨table.size⟩ : Handle)) none) = _
      rw [noFunction, ite_self]

theorem IsFaithful.isStray_derive_iff (faithful : table.IsFaithful dialect unified)
    (derived : table.derive base = .ok (name, after)) :
    after.IsStray name ↔ table.isVerbatim base = .ok true := by
  obtain ⟨inTable, appended⟩ := derive_eq_ok derived
  have isStray := faithful.isStray_appendAlias_iff inTable
  rw [appended] at isStray
  exact isStray

theorem derive_of_lt (inTable : base.index < table.size) :
    table.derive base = .ok (⟨table.size⟩, (table.appendAlias base).2) := by
  rw [derive, require_of_lt inTable]
  rfl

/-- A name that is new when a label is defined has the label. -/
theorem IsOrderly.isNamed_define (orderly : table.IsOrderly) (label : String)
    (isNew : table.size ≤ name.index) (inTable : name.index < (table.define label).2.size) :
    (table.define label).2.IsNamed name := by
  rcases size_define table label with same | ⟨size, isLast⟩
  · omega
  · have isName : name = (table.define label).1 := by
      rw [isLast]
      exact congrArg Handle.mk (by omega : name.index = table.size)
    rw [isName]
    exact (orderly.define label).2.1

/-! ### Strays by what was issued -/

/-- Whether the aliases that were issued are names of a table, and those of the `verbatim` family are its
strays. -/
structure Records (issues : List Issue) (table : NameTable) : Prop where
  inTable : ∀ base name, .derive base name ∈ issues →
    base.index < table.size ∧ name.index < table.size
  isStray_iff : ∀ name : Handle, name.index < table.size →
    (table.IsStray name ↔ ∃ base, .derive base name ∈ issues ∧ table.isVerbatim base = .ok true)

namespace Records

variable {issues later : List Issue}

/-- Aliases that were issued, and their bases, are names of every later table. -/
theorem lt_of_keeps (records : Records issues table) (keeps : table.KeepsStrays after)
    (issued : .derive base name ∈ issues) :
    base.index < after.size ∧ name.index < after.size :=
  (records.inTable base name issued).imp (Nat.lt_of_lt_of_le · keeps.size)
    (Nat.lt_of_lt_of_le · keeps.size)

/-- Names that are no strays may be added, if no alias is issued. -/
theorem keep (records : Records issues table) (keeps : table.KeepsStrays after)
    (same : ∀ base name, .derive base name ∈ later ↔ .derive base name ∈ issues)
    (named : ∀ name : Handle, table.size ≤ name.index → name.index < after.size →
      ¬after.IsStray name) : Records later after where
  inTable base name issued := records.lt_of_keeps keeps ((same base name).mp issued)
  isStray_iff name inTable := by
    have sameBase (base : Handle) :
        .derive base name ∈ later ∧ after.isVerbatim base = .ok true ↔
          .derive base name ∈ issues ∧ table.isVerbatim base = .ok true := by
      rw [same base name]
      refine and_congr_right fun issued => ?_
      rw [keeps.isVerbatim base (records.inTable base name issued).1]
    rw [exists_congr sameBase]
    by_cases isOld : name.index < table.size
    · rw [keeps.isStray_iff name isOld, records.isStray_iff name isOld]
    · refine iff_of_false (named name (Nat.le_of_not_lt isOld) inTable) ?_
      rintro ⟨base, issued, _⟩
      exact isOld (records.inTable base name issued).2

/-- An alias that is issued is a stray if its base is of the `verbatim` family. -/
theorem derive (records : Records issues table) (faithful : table.IsFaithful dialect unified)
    (derived : table.derive base = .ok (name, after)) :
    Records (.derive base name :: issues) after := by
  have keeps := (grows_derive derived).keepsStrays faithful.back
  have isStray := faithful.isStray_derive_iff derived
  obtain ⟨inTable, appended⟩ := derive_eq_ok derived
  have isLast : name = ⟨table.size⟩ := (congrArg Prod.fst appended).symm
  have size : after.size = table.size + 1 := by
    rw [← table.size_appendAlias base, appended]
  refine ⟨fun origin other issued => ?_, fun other isName => ?_⟩
  · rcases List.mem_cons.mp issued with same | issued
    · cases same
      rw [size, isLast]
      exact ⟨Nat.lt_succ_of_lt inTable, Nat.lt_succ_self _⟩
    · exact records.lt_of_keeps keeps issued
  · by_cases isOld : other.index < table.size
    · rw [keeps.isStray_iff other isOld, records.isStray_iff other isOld]
      refine exists_congr fun origin => ?_
      have isOther : Issue.derive origin other ≠ .derive base name := by
        rintro ⟨⟩
        rw [isLast] at isOld
        exact Nat.lt_irrefl _ isOld
      rw [List.mem_cons, or_iff_right isOther]
      refine and_congr_right fun issued => ?_
      rw [keeps.isVerbatim origin (records.inTable origin other issued).1]
    · obtain rfl : other = name := by
        rw [isLast]
        exact congrArg Handle.mk (by omega : other.index = table.size)
      rw [isStray]
      constructor
      · intro isFamily
        exact ⟨base, List.mem_cons_self, (keeps.isVerbatim base inTable).trans isFamily⟩
      · rintro ⟨origin, issued, isFamily⟩
        rcases List.mem_cons.mp issued with same | issued
        · cases same
          rw [← keeps.isVerbatim base inTable]
          exact isFamily
        · exact absurd (records.inTable origin other issued).2 isOld

end Records

/-- The strays of a table that programs can have are the aliases that were derived from names of the
`verbatim` family. -/
theorem Issued.records {issues : List Issue} (issued : Issued dialect table issues)
    (catalogued : dialect.IsCatalogued) (regular : dialect.IsRegular) : Records issues table := by
  have isFaithful {table : NameTable} {issues : List Issue} (issued : Issued dialect table issues) :
      ∃ unified, table.IsFaithful dialect unified :=
    (reachable_iff_exists_issued.mpr ⟨issues, issued⟩).exists_isFaithful catalogued regular
  induction issued with
  | ofDialect =>
    have whole := (isWhole_ofDialect regular).1
    have inRange := (isWhole_ofDialect regular).2.inRange
    refine ⟨nofun, fun name inTable => ?_⟩
    exact iff_of_false ((whole.named name inTable).not_isStray inRange) nofun
  | @define table issues before label ih =>
    obtain ⟨unified, faithful⟩ := isFaithful before
    refine ih.keep ((grows_define table label).keepsStrays faithful.back) (fun base name => ?_)
      fun name isNew inTable => ?_
    · rw [List.mem_cons, or_iff_right nofun]
    · have ready := (isFaithful (before.define label)).choose_spec
      exact (faithful.toIsOrderly.isNamed_define label isNew inTable).not_isStray ready.inRange
  | derive before derived ih =>
    obtain ⟨unified, faithful⟩ := isFaithful before
    exact ih.derive faithful derived
  | @defineGhost table issues before ih =>
    obtain ⟨unified, faithful⟩ := isFaithful before
    refine ih.keep ((grows_defineGhost table).keepsStrays faithful.back) (fun base name => ?_)
      fun name isNew inTable => ?_
    · rw [List.mem_cons, or_iff_right nofun]
    · have ready := (isFaithful before.defineGhost).choose_spec
      have counted := faithful.toIsReady.count (table.ghostCount + 1)
      exact (counted.toIsOrderly.isNamed_define (ghostLabel table.ghostCount) isNew
        inTable).not_isStray ready.inRange
  | labelAliases before labelled ih =>
    obtain ⟨unified, faithful⟩ := isFaithful before
    obtain ⟨used, labels, generates⟩ := exists_generates faithful.toIsOrderly labelled
    refine ih.keep (generates.keepsStrays faithful) (fun _ _ => Iff.rfl) fun name isNew inTable => ?_
    rw [generates.size_eq] at inTable
    exact absurd inTable (Nat.not_lt_of_le isNew)

/-! ### All tables of the bundled dialects -/

section Bundled

variable {kind : BundledDialect} {version : EvmVersion} {issues : List Issue}

/-- Every name of a table that programs can have is shown by a label, unless it was derived from a name
of the `verbatim` family. -/
theorem Issued.isShown_unless_of_verbatim (issued : Issued (kind.build version) table issues)
    (inTable : name.index < table.size) :
    (∃ label, table.shownLabel name = .ok label) ↔
      ¬∃ base, .derive base name ∈ issues ∧ table.isVerbatim base = .ok true := by
  have catalogued := kind.isCatalogued_build version
  have regular := kind.isRegular_build version
  obtain ⟨unified, faithful⟩ :=
    (reachable_iff_exists_issued.mpr ⟨issues, issued⟩).exists_isFaithful catalogued regular
  rw [← (issued.records catalogued regular).isStray_iff name inTable]
  exact faithful.toIsOrderly.isShown_iff inTable

/-- A function of the `verbatim` family that is named in the table of the dialect with objects. -/
def familySample : Handle × NameTable :=
  (ofDialect ((BundledDialect.evm .objects).build .default)).define "verbatim_1i_1o"

/-- The table with an alias of the function. -/
def straySample : NameTable := (familySample.2.appendAlias ⟨94⟩).2

set_option maxRecDepth 10000 in
theorem straySample_answers :
    familySample.2.size = 95 ∧ straySample.isVerbatim ⟨94⟩ = .ok true ∧
      straySample.shownLabel ⟨95⟩ = .error (.verbatimUndescribed ⟨95⟩) := by
  decide +kernel

theorem derive_familySample : familySample.2.derive ⟨94⟩ = .ok (⟨95⟩, straySample) := by
  have size := straySample_answers.1
  have inTable : (⟨94⟩ : Handle).index < familySample.2.size := size ▸ by decide
  rw [derive_of_lt inTable, size]
  rfl

theorem issued_straySample :
    Issued ((BundledDialect.evm .objects).build .default) straySample
      [.derive ⟨94⟩ ⟨95⟩, .define "verbatim_1i_1o" familySample.1] :=
  (Issued.ofDialect.define "verbatim_1i_1o").derive derive_familySample

/-- In the sample, the function of the `verbatim` family has a label, and its alias has none. -/
theorem isShown_unless_of_verbatim_sample :
    (∃ label, straySample.shownLabel ⟨94⟩ = .ok label) ∧
      ¬∃ label, straySample.shownLabel ⟨95⟩ = .ok label := by
  obtain ⟨size, isVerbatim, _⟩ := straySample_answers
  have grown : straySample.size = 96 := by
    rw [straySample, size_appendAlias, size]
  have functionIsIn : (⟨94⟩ : Handle).index < straySample.size := grown ▸ by decide
  have aliasIsIn : (⟨95⟩ : Handle).index < straySample.size := grown ▸ by decide
  rw [issued_straySample.isShown_unless_of_verbatim functionIsIn,
    issued_straySample.isShown_unless_of_verbatim aliasIsIn, not_not]
  refine ⟨?_, ⟨94⟩, List.mem_cons_self, isVerbatim⟩
  rintro ⟨base, member, _⟩
  simp at member

/-- Not every name of a table is shown by a label: the alias in the sample is not. -/
theorem not_all_names_shown :
    ¬∀ (kind : BundledDialect) (version : EvmVersion) (table : NameTable) (name : Handle),
      table.Reachable (kind.build version) → name.index < table.size →
        ∃ label, table.shownLabel name = .ok label := by
  intro allShown
  obtain ⟨size, _, notShown⟩ := straySample_answers
  have inTable : 95 < straySample.size := by
    rw [straySample, size_appendAlias, size]
    decide
  have reachable := reachable_iff_exists_issued.mpr ⟨_, issued_straySample⟩
  obtain ⟨label, isShown⟩ := allShown _ _ straySample ⟨95⟩ reachable inTable
  rw [notShown] at isShown
  cases isShown

end Bundled

end YulCheck.NameTable
