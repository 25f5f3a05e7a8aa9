import YulCheck.Proofs.Dialect.Versions
import YulCheck.Proofs.Judgement.Typing
import YulCheck.Proofs.Lexical.Checks
import YulCheck.Proofs.Name.Predefined
import YulCheck.Proofs.Rename.Passing

/-! # Expressions under other names

Checking an expression under other names passes where checking the expression does, also for a newer
target and with more data objects known. A name matters for what it is bound to and for the function of
the dialect that it may be; declared names have to be shown by labels that may be declared. Everywhere
else names occur in messages about errors only. A called name that nothing binds is never accepted.
-/

namespace YulCheck

/-- Whether the name of a function stays one in another table, with the same label. -/
structure NameTable.KeepsFunction (table after : NameTable) (name : Handle) : Prop where
  builtin? : after.builtin? name = table.builtin? name
  isAlias : after.isAlias name = table.isAlias name
  isVerbatim : ∀ answer, table.isVerbatim name = .ok answer → after.isVerbatim name = .ok answer
  label : after.label name = table.label name

namespace Setting

open Walk

/-- The setting with another name table. -/
abbrev withNames (setting : Setting) (names : NameTable) : Setting := { setting with names }

/-- Whether programs can be renamed when they are checked with another table, which differs by labels
only: names of functions stay, and other names become such ones that may be declared if they may. -/
structure Admits (setting : Setting) (renames : Renaming) (after : NameTable) : Prop where
  same : ∃ entries owners, after = { setting.names with entries, owners }
  isNamed : ∀ name ∈ renames.domain, name.isEmpty = false → (renames.change name).isEmpty = false
  isFree : ∀ name ∈ renames.domain, setting.NameIsFree name →
    (setting.withNames after).NameIsFree (renames.change name)
  isOther : ∀ name ∈ renames.domain, setting.names.builtin? name = .ok none →
    after.builtin? (renames.change name) = .ok none
  isFunction : ∀ name ∈ renames.domain, ∀ builtin, setting.names.builtin? name = .ok (some builtin) →
    renames.change name = name ∧ setting.names.KeepsFunction after name

/-- Whether programs can be renamed when they are checked in another setting: with a table that admits
it, for a target that is no older, and with all data objects that were known. -/
structure AdmitsIn (setting : Setting) (renames : Renaming) (later : Setting) : Prop
    extends setting.Admits renames later.names where
  version : setting.version ≤ later.version
  dataNames : setting.dataNames ⊆ later.dataNames
  /-- A target that refuses `tstore` finds it by its label; newer ones warn of it. -/
  refuses : later.version.supports .transientStorage = true →
    setting.version.supports .transientStorage = true ∨ setting.names.NamesTstore

variable {setting later : Setting} {renames : Renaming} {after : NameTable} {place : Place}
  {errors : Nat}

/-- The target and the data objects may stay as they are. -/
theorem Admits.withNames (admits : setting.Admits renames after) :
    setting.AdmitsIn renames (setting.withNames after) where
  toAdmits := admits
  version := Nat.le_refl _
  dataNames := List.Subset.refl _
  refuses := .inl

theorem AdmitsIn.exists_eq (admits : setting.AdmitsIn renames later) :
    ∃ entries owners version dataNames,
      later = ⟨{ setting.names with entries, owners }, version, dataNames⟩ := by
  obtain ⟨names, version, dataNames⟩ := later
  obtain ⟨entries, owners, same⟩ := admits.same
  exact ⟨entries, owners, version, dataNames, congrArg (Setting.mk · version dataNames) same⟩

/-! ### Errors -/

/-- What is reported in place of another error does not matter, nor does a weaker condition. -/
theorem renamed_expect_of_imp {condition weaker : Bool} (implies : condition = true → weaker = true)
    {span otherSpan : Span} {finding : Walk Finding} (finds : FindsError finding)
    (other : Walk Finding) :
    (expect place condition span finding).RenamedBy renames errors
      (expect place weaker otherSpan other) := by
  intro state _ last _ knows passes
  obtain ⟨holds, rfl⟩ := (passes_expect_iff finds).mp passes
  rw [implies holds]
  exact ⟨knows, passes_pure_iff.mpr ⟨rfl, rfl⟩⟩

theorem renamed_expect {condition : Bool} {span otherSpan : Span} {finding : Walk Finding}
    (finds : FindsError finding) (other : Walk Finding) :
    (expect place condition span finding).RenamedBy renames errors
      (expect place condition otherSpan other) := renamed_expect_of_imp id finds other

/-- A report of an error never passes, whatever it takes to make it. -/
theorem renamed_labelled {α : Type} {label : Except Fault String} {finding : String → Finding}
    (isError : ∀ label, (finding label).category.isError = true) {span : Span} (next : Unit → Walk α)
    (second : Walk α) :
    ((liftM label : Walk String) >>= fun label =>
      report place (finding label) span >>= next).RenamedBy renames errors second := by
  refine .of_not_passes second fun state result last _ passes => ?_
  obtain ⟨label, _, reported⟩ := passes_lift_bind_iff.mp passes
  exact not_passes_report_bind (isError label) reported

/-! ### Walks without names -/

theorem renamed_noteTypes (expression : NodeId) (types : List TypeHandle) :
    (ask (.noteTypes expression types)).RenamedBy renames errors
      (ask (.noteTypes expression types)) := .ask_of_nameless (by trivial)

/-- Whether a walk binds no name, looks none up, activates none and asks the host about none. -/
abbrev IsNameless {α : Type} (walk : Walk α) : Prop := walk.Only (·.IsNameless)

theorem nameless_checks : AllowsChecks place (·.IsNameless) where
  report _ _ := trivial
  warnOnce _ := trivial
  errorCount := trivial
  noteTypes _ _ := trivial

/-! ### Names and types -/

/-- The check of a declared name passes if and only if the name may be declared. -/
theorem passes_checkName_iff {name : Handle} {span : Span} {state last : RunState Unit} :
    (setting.checkName place name span).Passes state () last ↔
      setting.NameIsFree name ∧ last = state := by
  rw [checkName, passes_lift_bind_iff]
  constructor
  · rintro ⟨label, shown, passes⟩
    rw [passes_expect_bind_iff (finds_pure rfl), passes_expect_bind_iff (finds_pure rfl),
      passes_expect_iff (finds_pure rfl), bne_iff_ne, Bool.not_eq_true', Bool.not_eq_true'] at passes
    obtain ⟨noDot, noDots, isAllowed, rfl⟩ := passes
    exact ⟨⟨label, shown, noDot, noDots, isAllowed⟩, rfl⟩
  · rintro ⟨⟨label, shown, noDot, noDots, isAllowed⟩, rfl⟩
    refine ⟨label, shown, ?_⟩
    rw [passes_expect_bind_iff (finds_pure rfl), passes_expect_bind_iff (finds_pure rfl),
      passes_expect_iff (finds_pure rfl), bne_iff_ne, Bool.not_eq_true', Bool.not_eq_true']
    exact ⟨noDot, noDots, isAllowed, rfl⟩

section Admitted

variable (admits : setting.AdmitsIn renames later)

include admits

theorem renamed_checkName {name : Handle} (isKnown : name ∈ renames.domain) (span : Span) :
    (setting.checkName place name span).RenamedBy renames errors
      (later.checkName place (renames.change name) span) := by
  intro state _ last _ knows passes
  obtain ⟨isFree, rfl⟩ := passes_checkName_iff.mp passes
  exact ⟨knows, passes_checkName_iff.mpr ⟨admits.isFree name isKnown isFree, rfl⟩⟩

theorem renamed_requireName {name : Handle} (isKnown : name ∈ renames.domain) {fault : Fault} :
    (require (!name.isEmpty) fault).RenamedBy renames errors
      (require (!(renames.change name).isEmpty) fault) := by
  refine .require fun named => ?_
  rw [Bool.not_eq_true'] at named ⊢
  exact admits.isNamed name isKnown named

theorem renamed_checkType (type : TypeHandle) (span : Span) :
    (setting.checkType place type span).RenamedBy renames errors
      (later.checkType place type span) := by
  obtain ⟨entries, owners, version, dataNames, rfl⟩ := admits.exists_eq
  exact renamed_expect (finds_bind fun _ => finds_pure rfl) _

theorem renamed_checkVariable {declared : Variable} (isKnown : declared.name ∈ renames.domain) :
    (setting.checkVariable place declared).RenamedBy renames errors
      (later.checkVariable place (declared.rename renames.change)) :=
  (renamed_checkName admits isKnown _).bind fun _ => renamed_checkType admits _ _

omit admits in
theorem renamed_checkSameType (expected given : TypeHandle) (span otherSpan : Span) :
    (setting.checkSameType place expected given span).RenamedBy renames errors
      (later.checkSameType place expected given otherSpan) :=
  renamed_expect (finds_bind fun _ => finds_bind fun _ => finds_pure rfl) _

/-! ### Literals and identifiers -/

theorem renamed_checkLiteral (literal : Literal) :
    (setting.checkLiteral place literal).RenamedBy renames errors
      (later.checkLiteral place literal) := by
  refine (renamed_checkType admits _ _).bind fun _ => ?_
  refine (RenamedBy.of_nameless (nameless_checks.checkValue literal)).bind fun hasRightValue => ?_
  obtain ⟨entries, owners, version, dataNames, rfl⟩ := admits.exists_eq
  refine (renamed_expect (finds_bind fun _ => finds_pure rfl) _).bind fun _ => ?_
  exact (RenamedBy.require id).bind fun _ => .pure _

theorem renamed_checkIdentifier {use : Identifier} (isKnown : use.name ∈ renames.domain) :
    (setting.checkIdentifier place use).RenamedBy renames errors
      (later.checkIdentifier place (use.rename renames.change)) := by
  refine (renamed_requireName admits isKnown).bind fun _ =>
    .answered_bind answers_errorCount answers_errorCount ?_
  refine (RenamedBy.lookup isKnown _).bind fun found? => ?_
  rcases found? with _ | ⟨type | ⟨parameters, returns⟩, isActive⟩
  · obtain ⟨entries, owners, version, dataNames, rfl⟩ := admits.exists_eq
    refine .answered_bind answers_consult answers_consult ?_
    refine .answered_bind answers_isQuietSince answers_isQuietSince ?_
    exact (renamed_expect (finds_bind fun _ => finds_pure rfl) _).bind fun _ => .pure _
  · refine (renamed_expect (finds_bind fun _ => finds_pure rfl) _).bind fun _ => ?_
    exact .answered_bind answers_consult answers_consult (.pure _)
  · exact renamed_labelled (fun _ => rfl) _ _

/-! ### Calls -/

omit admits in
/-- An instruction passes if no gate keeps the target from it, apart from `pc`. -/
theorem passes_checkInstruction_iff {instruction : Instruction} {span : Span} {isRefused : Bool}
    {state last : RunState Unit} :
    (setting.checkInstruction place instruction span).Passes state isRefused last ↔
      Gate.barring? setting.version instruction = none ∧ instruction ≠ .pc ∧ isRefused = false ∧
        last = state := by
  rw [checkInstruction]
  cases Gate.barring? setting.version instruction with
  | some gate =>
    have isError : (Finding.unavailable gate setting.version).category.isError = true := rfl
    exact iff_of_false (not_passes_report_bind isError) fun isOpen => nomatch isOpen.1
  | none =>
    dsimp only
    split
    · rename_i isPc
      exact iff_of_false (not_passes_report_bind rfl) fun both => both.2.1 isPc
    · rename_i isOther
      exact passes_pure_iff.trans ⟨fun both => ⟨rfl, isOther, both⟩, fun all => all.2.2⟩

omit admits in
theorem passes_checkTarget {callee : Identifier} {isRefused : Bool} {state last : RunState Unit}
    (passes : (setting.checkTarget place callee).Passes state isRefused last) :
    isRefused = false ∧ last = state := by
  obtain ⟨isAlias, _, passes⟩ := passes_lift_bind_iff.mp passes
  obtain ⟨isVerbatim, _, passes⟩ := passes_lift_bind_iff.mp passes
  split at passes
  · exact passes_pure_iff.mp passes
  · obtain ⟨label, _, passes⟩ := passes_lift_bind_iff.mp passes
    split at passes
    · exact (passes_checkInstruction_iff.mp passes).2.2
    · exact passes_pure_iff.mp passes

omit admits in
/-- A target without transient storage refuses the function `tstore`. -/
theorem not_passes_checkTarget_tstore {callee : Identifier}
    (labelled : setting.names.entries[callee.name.index]? = some (.labelled "tstore"))
    (isOld : setting.version.supports .transientStorage = false) {isRefused : Bool}
    {state last : RunState Unit} :
    ¬(setting.checkTarget place callee).Passes state isRefused last := by
  have inTable := (Array.getElem?_eq_some_iff.mp labelled).1
  intro passes
  rw [checkTarget, NameTable.isAlias_of_lt inTable, NameTable.hasAlias, labelled,
    NameTable.label_of_entry labelled] at passes
  obtain ⟨isAlias, answered, passes⟩ := passes_lift_bind_iff.mp passes
  cases answered
  obtain ⟨isVerbatim, _, passes⟩ := passes_lift_bind_iff.mp passes
  simp only [Bool.false_and, Bool.false_eq_true, ↓reduceIte] at passes
  obtain ⟨label, isLabel, passes⟩ := passes_lift_bind_iff.mp passes
  cases isLabel
  have isTstore : (Instruction.ofName? "tstore").filter (·.isCallable .default) = some .tstore := by
    decide +kernel
  rw [isTstore] at passes
  have isCallable : Instruction.tstore.isCallable .default = true := by decide
  have isIn := (Gate.barring?_eq_none_iff isCallable).mp (passes_checkInstruction_iff.mp passes).1
  rw [Instruction.isIn, Instruction.capability?, Option.all_some, isOld] at isIn
  cases isIn

omit admits in
/-- A called name that is not that of a function of the dialect has to be bound to a function: without a
host nothing is known about a name that the program does not bind. -/
theorem passes_resolveCallee_iff {callee : Identifier}
    (isOther : setting.names.builtin? callee.name = .ok none) {state last : RunState Unit}
    (count : state.reporter.errorCount = errors) {resolved : Callee} :
    (setting.resolveCallee place errors callee).Passes state resolved last ↔
      ∃ parameters returns isActive,
        (lookup place callee.name).Passes state (some ⟨.function parameters returns, isActive⟩) last ∧
          resolved = ⟨some (parameters, returns), [], false⟩ := by
  rw [resolveCallee, isOther]
  change (lookup place callee.name >>= fun found? => _).Passes state resolved last ↔ _
  rw [passes_bind_iff]
  constructor
  · rintro ⟨found?, middle, found, passes⟩
    rcases found? with _ | ⟨type | ⟨parameters, returns⟩, isActive⟩
    · obtain ⟨isRefused, _, target, unknown⟩ := passes_bind_iff.mp passes
      obtain ⟨rfl, rfl⟩ := passes_checkTarget target
      exact absurd unknown
        (not_passes_unknown (finds_bind fun _ => finds_pure rfl) (found.quiet.trans count))
    · exact absurd passes (not_passes_report_bind rfl)
    · have known := (passes_bind_iff_of_answer fun _ _ => passes_consult_iff).mp passes
      obtain ⟨rfl, rfl⟩ := passes_pure_iff.mp known
      exact ⟨parameters, returns, isActive, found, rfl⟩
  · rintro ⟨parameters, returns, isActive, found, rfl⟩
    refine ⟨_, last, found, ?_⟩
    exact (passes_bind_iff_of_answer fun _ _ => passes_consult_iff).mpr (passes_pure_iff.mpr ⟨rfl, rfl⟩)

omit admits in
/-- Only functions of the dialect take literals as they are. -/
theorem literals_of_resolveCallee {callee : Identifier} {state last : RunState Unit}
    {resolved : Callee} (count : state.reporter.errorCount = errors)
    (passes : (setting.resolveCallee place errors callee).Passes state resolved last) :
    resolved.literals = [] ∨ ∃ builtin, setting.names.builtin? callee.name = .ok (some builtin) := by
  rcases answered : setting.names.builtin? callee.name with fault | _ | builtin
  · rw [resolveCallee, answered] at passes
    exact absurd passes not_passes_broken
  · obtain ⟨_, _, _, _, rfl⟩ := (passes_resolveCallee_iff answered count).mp passes
    exact .inl rfl
  · exact .inr ⟨builtin, rfl⟩

omit admits in
/-- Functions of the dialect keep their labels, so they are found to be the same instructions, and newer
targets have them. -/
theorem renamed_checkTarget (callee : Identifier) (version : setting.version ≤ later.version)
    (keeps : setting.names.KeepsFunction later.names callee.name) :
    (setting.checkTarget place callee).RenamedBy renames errors
      (later.checkTarget place callee) := by
  refine .lift_bind fun isAlias answered => ⟨isAlias, keeps.isAlias.trans answered, ?_⟩
  refine .lift_bind fun isVerbatim family => ⟨isVerbatim, keeps.isVerbatim _ family, ?_⟩
  cases isAlias && !isVerbatim with
  | true => exact .pure _
  | false =>
    refine .lift_bind fun label labelled => ⟨label, keeps.label.trans labelled, ?_⟩
    split
    · intro state isRefused last _ knows passes
      obtain ⟨isOpen, isOther, rfl, rfl⟩ := passes_checkInstruction_iff.mp passes
      exact ⟨knows, passes_checkInstruction_iff.mpr 
        ⟨Gate.barring?_eq_none_of_le version isOpen, isOther, rfl, rfl⟩⟩
    · exact .pure _

omit admits in
theorem warnOfUse_eq (sameNames : later.names.predefined = setting.names.predefined)
    {callee : Identifier}
    (alike : setting.version.supports .transientStorage = later.version.supports .transientStorage ∨
      callee.name ≠ setting.names.predefined.tstore) :
    setting.warnOfUse place callee = later.warnOfUse place callee := by
  rw [warnOfUse, warnOfUse, sameNames]
  rcases alike with same | isOther
  · rw [same]
  · rw [decide_eq_false isOther, Bool.and_false, Bool.and_false]

/-- A function of the dialect is warned of alike, or the older target refuses it. -/
theorem renamed_warnOfUse_bind {α : Type} {callee : Identifier} {builtin : BuiltinSignature}
    (isFunction : setting.names.builtin? callee.name = .ok (some builtin))
    (keeps : setting.names.KeepsFunction later.names callee.name) {next other : Bool → Walk α}
    (rest : ∀ isRefused, (next isRefused).RenamedBy renames errors (other isRefused)) :
    (setting.warnOfUse place callee >>= fun _ =>
        setting.checkTarget place callee >>= next).RenamedBy renames errors
      (later.warnOfUse place callee >>= fun _ => later.checkTarget place callee >>= other) := by
  have sameNames : later.names.predefined = setting.names.predefined := by
    obtain ⟨entries, owners, version, dataNames, rfl⟩ := admits.exists_eq
    rfl
  by_cases alike :
      setting.version.supports .transientStorage = later.version.supports .transientStorage ∨
        callee.name ≠ setting.names.predefined.tstore
  · refine RenamedBy.bind ?_ fun _ => (renamed_checkTarget callee admits.version keeps).bind rest
    rw [← warnOfUse_eq sameNames alike]
    exact .of_nameless (nameless_checks.warnOfUse callee)
  · rw [not_or, not_not] at alike
    obtain ⟨differ, isTstore⟩ := alike
    -- Only the newer target has transient storage, as it has all that the older one has.
    have isOld : setting.version.supports .transientStorage = false :=
      Bool.eq_false_iff.mpr fun has => differ (has.trans (EvmVersion.supports_of_le admits.version has).symm)
    have isNew : later.version.supports .transientStorage = true := by
      rw [isOld] at differ
      exact (Bool.eq_false_or_eq_true _).resolve_right (Ne.symm differ)
    have labelled : setting.names.entries[callee.name.index]? = some (.labelled "tstore") := by
      rcases admits.refuses isNew with has | names
      · rw [isOld] at has
        cases has
      · rw [isTstore] at isFunction ⊢
        exact names builtin isFunction
    refine .of_not_passes _ fun state result last _ passes => ?_
    obtain ⟨_, _, _, passes⟩ := passes_bind_iff.mp passes
    obtain ⟨isRefused, _, target, _⟩ := passes_bind_iff.mp passes
    exact not_passes_checkTarget_tstore labelled isOld target

/-- A callee is resolved as the one under its other name. -/
theorem renamed_resolveCallee {callee : Identifier} (isKnown : callee.name ∈ renames.domain) :
    (setting.resolveCallee place errors callee).RenamedBy renames errors
      (later.resolveCallee place errors (callee.rename renames.change)) := by
  rcases answered : setting.names.builtin? callee.name with fault | _ | builtin
  · refine .of_not_passes _ fun _ _ _ _ passes => ?_
    rw [resolveCallee, answered] at passes
    exact not_passes_broken passes
  · intro state resolved last count knows passes
    obtain ⟨parameters, returns, isActive, found, rfl⟩ :=
      (passes_resolveCallee_iff answered count).mp passes
    obtain ⟨knowsLast, foundOther⟩ := RenamedBy.lookup isKnown _ _ _ _ count knows found
    have isOther : later.names.builtin? (callee.rename renames.change).name =
        .ok none := admits.isOther _ isKnown answered
    have sameCount : (state.rename renames.change).reporter.errorCount = errors := count
    exact ⟨knowsLast, (passes_resolveCallee_iff isOther sameCount).mpr
      ⟨parameters, returns, isActive, foundOther, rfl⟩⟩
  · obtain ⟨same, keeps⟩ := admits.isFunction _ isKnown builtin answered
    have sameUse : callee.rename renames.change = callee :=
      congrArg (Identifier.mk callee.id callee.span) same
    rw [sameUse]
    refine .lift_bind fun found? found => ⟨found?, keeps.builtin?.trans found, ?_⟩
    cases answered.symm.trans found
    refine renamed_warnOfUse_bind admits answered keeps fun _ => ?_
    exact (RenamedBy.ask_of_nameless (by trivial)).bind fun _ => .pure _

omit admits in
theorem renamed_checkArgumentCount (callee : Callee) (name other : Identifier) (given : Nat) :
    (setting.checkArgumentCount place callee name given).RenamedBy renames errors
      (later.checkArgumentCount place callee other given) := by
  rw [checkArgumentCount, checkArgumentCount]
  cases callee.signature? with
  | none => exact .pure _
  | some signature => exact renamed_expect (finds_bind fun _ => finds_pure rfl) _

theorem renamed_checkContent {function : Handle}
    (keeps : setting.names.KeepsFunction later.names function) (literal : Literal) :
    (setting.checkContent place function literal).RenamedBy renames errors
      (later.checkContent place function literal) := by
  have isVerbatim := keeps.isVerbatim
  have isKnown : setting.dataNames.contains literal.format = true →
      later.dataNames.contains literal.format = true := fun isKnown =>
    List.contains_iff_mem.mpr (admits.dataNames (List.contains_iff_mem.mp isKnown))
  obtain ⟨entries, owners, version, dataNames, rfl⟩ := admits.exists_eq
  rw [checkContent, checkContent]
  dsimp only
  split
  · exact renamed_expect_of_imp isKnown (finds_pure rfl) _
  · refine .lift_bind fun isFamily family => ⟨isFamily, isVerbatim isFamily family, ?_⟩
    refine .of_nameless ?_
    cases isFamily with
    | false => exact only_pure _
    | true =>
      cases literal.value <;> exact nameless_checks.expect _ _ (only_pure _)

theorem renamed_checkStringArgument {function : Handle}
    (keeps : setting.names.KeepsFunction later.names function) (literal : Literal) :
    (setting.checkStringArgument place function literal).RenamedBy renames errors
      (later.checkStringArgument place function literal) := by
  refine (renamed_checkContent admits keeps literal).bind fun _ => ?_
  obtain ⟨entries, owners, version, dataNames, rfl⟩ := admits.exists_eq
  refine (RenamedBy.require id).bind fun _ => (RenamedBy.require id).bind fun _ => ?_
  exact (renamed_noteTypes _ _).bind fun _ => .pure _

theorem renamed_singleType (expression : Expression) (types : List TypeHandle) :
    (setting.singleType place expression types).RenamedBy renames errors
      (later.singleType place (expression.rename renames.change) types) := by
  obtain ⟨entries, owners, version, dataNames, rfl⟩ := admits.exists_eq
  exact (renamed_expect (finds_pure rfl) _).bind fun _ => .pure _

omit admits in
theorem renamed_checkArgumentTypes (parameters types : List TypeHandle)
    (arguments : List Expression) :
    (setting.checkArgumentTypes place parameters types arguments).RenamedBy renames errors
      (later.checkArgumentTypes place parameters types
        (renameArguments renames.change arguments)) := by
  induction parameters generalizing types arguments with
  | nil => exact .pure _
  | cons expected parameters ih =>
    cases types with
    | nil => exact .pure _
    | cons given types =>
      cases arguments with
      | nil => exact .pure _
      | cons argument arguments =>
        exact (renamed_checkSameType expected given _ _).bind fun _ => ih types arguments

theorem renamed_callTypes (callee : Callee) (given : Nat) :
    (setting.callTypes errors callee given).RenamedBy renames errors
      (later.callTypes errors callee given) := by
  obtain ⟨entries, owners, version, dataNames, rfl⟩ := admits.exists_eq
  exact .of_nameless (only_callTypes trivial _ _ _)

omit admits in
theorem contentArgument?_rename (change : Handle → Handle) (required? : Option LiteralKind)
    (argument : Expression) :
    contentArgument? required? (argument.rename change) = contentArgument? required? argument := by
  cases argument <;> rfl

omit admits in
theorem renamed_checkArgumentKind (callee other : Identifier) (required? : Option LiteralKind)
    (argument : Expression) :
    (checkArgumentKind place callee required? argument).RenamedBy renames errors
      (checkArgumentKind place other required? (argument.rename renames.change)) := by
  cases required? with
  | none =>
    cases argument <;> exact .pure _
  | some required =>
    cases argument with
    | literal constant => exact renamed_expect (finds_pure rfl) _
    | identifier | call => exact .of_not_passes _ fun _ _ _ _ => not_passes_report rfl

/-! ### Expressions -/

mutual

theorem renamed_checkExpression {expression : Expression}
    (areKnown : ∀ name ∈ expression.occurrences, name ∈ renames.domain) :
    (setting.checkExpression place expression).RenamedBy renames errors
      (later.checkExpression place (expression.rename renames.change)) := by
  cases expression with
  | literal constant =>
    rw [Expression.rename, checkExpression, checkExpression]
    exact (renamed_checkLiteral admits constant).bind fun _ =>
      (renamed_noteTypes _ _).bind fun _ => .pure _
  | identifier use =>
    rw [Expression.occurrences, List.forall_mem_singleton] at areKnown
    rw [Expression.rename, checkExpression, checkExpression]
    exact (renamed_checkIdentifier admits areKnown).bind fun _ =>
      (renamed_noteTypes _ _).bind fun _ => .pure _
  | call id span callee arguments =>
    rw [Expression.occurrences, List.forall_mem_cons] at areKnown
    obtain ⟨isCallee, areArguments⟩ := areKnown
    rw [Expression.rename, checkExpression, checkExpression, length_renameArguments]
    refine (renamed_requireName admits isCallee).bind fun _ =>
      .answered_bind answers_errorCount answers_errorCount ?_
    refine (renamed_resolveCallee admits isCallee).bind_of_passes fun resolved resolves => ?_
    obtain ⟨state, last, count, passes⟩ := resolves
    have literals := literals_of_resolveCallee count passes
    refine (renamed_checkArgumentCount resolved callee _ _).bind fun _ => ?_
    refine (renamed_checkArguments isCallee literals areArguments).bind fun given => ?_
    have rest : (do let types ← setting.callTypes errors resolved given.length
                    ask (.noteTypes id types)
                    return types : Walk (List TypeHandle)).RenamedBy renames errors
          (do let types ← later.callTypes errors resolved given.length
              ask (.noteTypes id types)
              return types) :=
      (renamed_callTypes admits resolved given.length).bind fun _ =>
        (renamed_noteTypes _ _).bind fun _ => .pure _
    cases resolved.signature? with
    | none => exact rest
    | some signature =>
      exact (renamed_checkArgumentTypes signature.1 given arguments).bind fun _ => rest

theorem renamed_checkArguments {callee : Identifier} (isCallee : callee.name ∈ renames.domain)
    {required : List (Option LiteralKind)}
    (literals : required = [] ∨ ∃ builtin, setting.names.builtin? callee.name = .ok (some builtin))
    {arguments : List Expression}
    (areKnown : ∀ name ∈ argumentOccurrences arguments, name ∈ renames.domain) :
    (setting.checkArguments place callee required arguments).RenamedBy renames errors
      (later.checkArguments place (callee.rename renames.change) required
        (renameArguments renames.change arguments)) := by
  cases arguments with
  | nil =>
    rw [renameArguments, checkArguments, checkArguments]
    exact .pure _
  | cons argument rest =>
    rw [argumentOccurrences, List.forall_mem_append] at areKnown
    rw [renameArguments, checkArguments, checkArguments]
    have literalsRest := literals.imp (congrArg List.tail) id
    refine (renamed_checkArguments isCallee literalsRest areKnown.2).bind fun types => ?_
    dsimp only
    rw [contentArgument?_rename]
    split
    · rename_i literal content
      -- Only a function of the dialect takes a literal as it is, and it keeps its name.
      obtain ⟨_, isText, _⟩ := contentArgument?_eq_some content
      rcases literals with rfl | ⟨builtin, isFunction⟩
      · cases isText
      · obtain ⟨same, keeps⟩ := admits.isFunction _ isCallee builtin isFunction
        rw [Identifier.rename, same]
        exact (renamed_checkStringArgument admits keeps literal).bind fun _ => .pure _
    · refine (renamed_checkArgumentKind _ _ _ _).bind fun _ => ?_
      refine (renamed_checkExpression areKnown.1).bind fun given => ?_
      exact (renamed_singleType admits argument given).bind fun _ => .pure _

end


end Admitted

end Setting

end YulCheck
