import YulCheck.Proofs.Dialect.Reserved
import YulCheck.Proofs.Judgement.Acceptance
import YulCheck.Proofs.Name.Generated
import YulCheck.Proofs.Safety.Analysis

/-! # Declared names and the functions of a dialect

A correct program declares no name that its dialect reserves, so it declares no function of the dialect
but those whose names are not reserved. These can be declared.
-/

namespace YulCheck

/-- The names that a statement declares. -/
def Statement.declared : Statement → List Handle
  | .function _ _ name parameters returns _ => name :: (parameters ++ returns).map (·.name)
  | .declaration _ locals _ => locals.map (·.name)
  | _ => []

/-- The names that are declared in a block at any depth. -/
def Block.declared (block : Block) : List Handle :=
  (block.points [] false false).flatMap (·.statement.declared)

/-! ### Names of functions -/

/-- The names of functions that a dialect does not reserve. -/
def BundledDialect.unreservedNames : BundledDialect → List String
  | generic => []
  | evm flavour => flavour.unreservedNames

theorem BundledDialect.mem_unreservedNames {kind : BundledDialect} {version : EvmVersion}
    {label : String} {function : Builtin}
    (known : (kind.build version).builtin? label = some function)
    (isFree : (kind.build version).isReserved label = false) : label ∈ kind.unreservedNames := by
  cases kind with
  | generic => cases known
  | evm flavour => exact Dialect.mem_unreservedNames_iff.mpr ⟨known ▸ rfl, isFree⟩

/-- Functions of the dialect are shown by their names. -/
theorem NameTable.IsConsistent.shownLabel_of_builtin? {dialect : Dialect}
    {unified : Handle → Prop} {table : NameTable} (consistent : table.IsConsistent dialect unified)
    {name : Handle} {builtin : BuiltinSignature}
    (known : table.builtin? name = .ok (some builtin)) :
    table.shownLabel name = .ok builtin.function.name := by
  have inTable := lt_of_builtin? known
  have isName := consistent.describes _ (mem_builtins_of_builtin? known)
  rw [shownLabel_of_lt inTable]
  cases isVerbatim : builtin.function.isVerbatim with
  | false =>
    have labelled := isName.listed isVerbatim
    rw [hasAlias, labelled]
    exact label_of_entry labelled
  | true =>
    obtain ⟨described, _⟩ := isName.family isVerbatim
    have isAlias := hasAlias_iff.mpr described.isAlias
    rw [decide_eq_true described.root, Bool.not_true, Bool.and_false, if_neg Bool.false_ne_true,
      label_of_alias inTable isAlias, if_pos described.root, known]
    rfl

theorem BundledDialect.exists_builtin?_of_mem_unreservedNames {kind : BundledDialect}
    (version : EvmVersion) {label : String} (member : label ∈ kind.unreservedNames) :
    ∃ function, (kind.build version).builtin? label = some function ∧
      function.isVerbatim = false := by
  cases kind with
  | generic => cases member
  | evm flavour => exact Dialect.exists_builtin?_of_mem_unreservedNames version member

/-- The labels of functions that are not reserved can be declared. -/
theorem BundledDialect.isFree_of_mem_unreservedNames {kind : BundledDialect} {version : EvmVersion}
    {label : String} (member : label ∈ kind.unreservedNames) :
    label.toList.getLast? ≠ some '.' ∧ Setting.hasConsecutiveDots label.toList = false ∧
      (kind.build version).isReserved label = false := by
  have every : ∀ label ∈ "memoryguard" :: Dialect.typedNames,
      label.toList.getLast? ≠ some '.' ∧ Setting.hasConsecutiveDots label.toList = false := by
    decide +kernel
  cases kind with
  | generic => cases member
  | evm flavour =>
    obtain ⟨last, dots⟩ := every label (Dialect.mem_of_mem_unreservedNames member)
    exact ⟨last, dots, Dialect.isReserved_of_mem_unreservedNames member⟩

/-! ### Correct programs -/

variable {workspace : Workspace} {block : Block} {dataNames : List String} {outcome : Outcome}
  {name : Handle} {builtin : BuiltinSignature}

/-- All names that a sound program declares may be declared. -/
theorem Setting.IsSound.nameIsFree {setting : Setting} (sound : setting.IsSound block)
    (isDeclared : name ∈ block.declared) : setting.NameIsFree name := by
  obtain ⟨⟨environment, inLoop, inFunction, statement⟩, member, isDeclared⟩ :=
    List.mem_flatMap.mp isDeclared
  have rule := sound.statements _ member
  cases statement with
  | function id span function parameters returns body =>
    rcases List.mem_cons.mp isDeclared with rfl | isLocal
    · exact rule.1
    · obtain ⟨declared, isParameter, rfl⟩ := List.mem_map.mp isLocal
      exact (rule.2 declared isParameter).name
  | declaration span locals value? =>
    obtain ⟨declared, isLocal, rfl⟩ := List.mem_map.mp isDeclared
    exact (rule.1 declared isLocal).name
  | _ => cases isDeclared

/-- The program that defines a function without parameters, returned values and statements. -/
def Block.declaring (name : Handle) : Block :=
  .mk 1 .none [.function 2 .none name [] [] (.mk 3 .none [])]

/-- Such a program is sound if the name can be declared. -/
theorem Setting.isSound_declaring {setting : Setting} (isFree : setting.NameIsFree name) :
    setting.IsSound (.declaring name) := by
  have points : (Block.declaring name).points [] false false =
      [⟨[.block (Block.declaring name).statements []], false, false,
        .function 2 .none name [] [] (.mk 3 .none [])⟩] := rfl
  rw [setting.isSound_iff, points, List.forall_mem_singleton]
  refine ⟨fun entry member => ?_, ⟨isFree, fun _ isLocal => absurd isLocal List.not_mem_nil⟩, nofun⟩
  -- The frames are those of the program, of the function and of its body.
  simp only [Block.declaring, Block.frames, statementFrames, Statement.frames, List.mem_cons,
    List.append_nil, List.not_mem_nil, or_false] at member
  rcases member with rfl | rfl | rfl
  · exact List.nodup_singleton name
  · exact List.nodup_nil
  · exact List.nodup_nil

namespace Workspace

theorem IsReachable.exists_isFaithful (reachable : workspace.IsReachable) : ∃ unified,
    workspace.names.IsFaithful (workspace.settings.dialect.build workspace.settings.version)
      unified :=
  NameTable.Reachable.exists_isFaithful
    (workspace.settings.dialect.isCatalogued_build workspace.settings.version)
    (workspace.settings.dialect.isRegular_build workspace.settings.version) reachable

/-- The rules hold of all programs that are found to be correct. -/
theorem isSound_of_isCorrect (reachable : workspace.IsReachable) (distinct : block.owners.Nodup)
    (analyzed : workspace.analyze none () block dataNames = .ok (outcome, ()))
    (isCorrect : outcome.isCorrect = true) :
    (workspace.checker dataNames).setting.IsSound block := by
  obtain ⟨ended, after, ran, _, correct⟩ := exists_run_of_analyze analyzed
  rcases Setting.decides_checkProgram _ (reachable.hasTypedBuiltins dataNames) block distinct
    rfl (fun _ isActive => absurd isActive List.not_mem_nil) ran with ⟨sound, _⟩ | ⟨_, more⟩
  · exact sound
  · have quiet := (correct.mp isCorrect).2
    omega

/-- A correct program declares no name of a function, unless that is one that its dialect does not
reserve. -/
theorem builtin_name_mem_unreservedNames (reachable : workspace.IsReachable)
    (distinct : block.owners.Nodup)
    (analyzed : workspace.analyze none () block dataNames = .ok (outcome, ()))
    (isCorrect : outcome.isCorrect = true) (isDeclared : name ∈ block.declared)
    (known : workspace.names.builtin? name = .ok (some builtin)) :
    builtin.function.name ∈ workspace.settings.dialect.unreservedNames := by
  obtain ⟨unified, faithful⟩ := reachable.exists_isFaithful
  have consistent := faithful.toIsConsistent
  have sound := isSound_of_isCorrect reachable distinct analyzed isCorrect
  obtain ⟨label, shown, _, _, isFree⟩ := sound.nameIsFree isDeclared
  obtain rfl := Except.ok.inj (shown.symm.trans (consistent.shownLabel_of_builtin? known))
  have isFunction := (consistent.describes _ (NameTable.mem_builtins_of_builtin? known)).known
  exact BundledDialect.mem_unreservedNames isFunction (faithful.isOf ▸ isFree)

/-- A program of which the rules hold is found to be correct. -/
theorem exists_analyze_of_isSound (reachable : workspace.IsReachable)
    (built : block.IsBuilt workspace.names) (distinct : block.owners.Nodup)
    (sound : (workspace.checker dataNames).setting.IsSound block) :
    ∃ outcome, workspace.analyze none () block dataNames = .ok (outcome, ()) ∧
      outcome.isCorrect = true := by
  obtain ⟨unified, faithful⟩ := reachable.exists_isFaithful
  let checker := workspace.checker dataNames
  have noneActive : ∀ entry ∈ checker.active, entry.1 < ({} : Facts).scopes.size :=
    fun _ isActive => absurd isActive List.not_mem_nil
  obtain ⟨analysis, analyzedBlock⟩ :
      ∃ analysis, checker.analyze none workspace.reporter {} () block = .ok analysis :=
    checker.exists_analysis faithful.toIsReady nofun built distinct _ _ noneActive
  have analyzed : workspace.analyze none () block dataNames =
      .ok (⟨analysis.isCorrect, analysis.facts, analysis.reporter.diagnostics.toList⟩, ()) := by
    rw [analyze, analyzedBlock]
    rfl
  obtain ⟨ended, after, ran, _, correct⟩ := exists_run_of_analyze analyzed
  refine ⟨_, analyzed, correct.mpr ?_⟩
  rcases Setting.decides_checkProgram _ (reachable.hasTypedBuiltins dataNames) block distinct
    rfl (fun _ isActive => absurd isActive List.not_mem_nil) ran with
    ⟨_, ok, quiet, _⟩ | ⟨unsound, _⟩
  · exact ⟨ok, quiet⟩
  · exact absurd sound unsound

/-- Every function that the dialect does not reserve can be declared. -/
theorem exists_analyze_declaring (reachable : workspace.IsReachable)
    (known : workspace.names.builtin? name = .ok (some builtin))
    (isFree : builtin.function.name ∈ workspace.settings.dialect.unreservedNames)
    (dataNames : List String) : ∃ outcome,
      workspace.analyze none () (.declaring name) dataNames = .ok (outcome, ()) ∧
        outcome.isCorrect = true := by
  obtain ⟨unified, faithful⟩ := reachable.exists_isFaithful
  have consistent := faithful.toIsConsistent
  have named := consistent.isNamed (NameTable.lookup_of_builtin? known)
  have built : (Block.declaring name).IsBuilt workspace.names :=
    ⟨⟨⟨faithful.ne_empty_of_builtin? known, faithful.toIsReady.hasLabel_of_named named⟩,
      fun _ isLocal => absurd isLocal List.not_mem_nil, trivial⟩, trivial⟩
  have distinct : (Block.declaring name).owners.Nodup :=
    (by decide : [ScopeOwner.block 1, .function 2, .block 3].Nodup)
  obtain ⟨last, dots, isUnreserved⟩ := BundledDialect.isFree_of_mem_unreservedNames isFree
  refine exists_analyze_of_isSound reachable built distinct (Setting.isSound_declaring ?_)
  exact ⟨_, consistent.shownLabel_of_builtin? known, last, dots, faithful.isOf ▸ isUnreserved⟩

/-- Every name of a function that the dialect does not reserve is declared by some correct program. -/
theorem exists_declaring_of_mem_unreservedNames {label : String} (reachable : workspace.IsReachable)
    (member : label ∈ workspace.settings.dialect.unreservedNames) (dataNames : List String) :
    ∃ name builtin outcome, workspace.names.builtin? name = .ok (some builtin) ∧
      builtin.function.name = label ∧
      workspace.analyze none () (.declaring name) dataNames = .ok (outcome, ()) ∧
      outcome.isCorrect = true := by
  obtain ⟨unified, faithful⟩ := reachable.exists_isFaithful
  obtain ⟨function, known, isOther⟩ :=
    BundledDialect.exists_builtin?_of_mem_unreservedNames workspace.settings.version member
  obtain ⟨name, inRange, listed⟩ := faithful.finds label function known isOther
  obtain ⟨builtin, isFunction, rfl⟩ := faithful.exists_builtin?_of_isListed inRange listed
  obtain ⟨outcome, analyzed, isCorrect⟩ :=
    exists_analyze_declaring reachable isFunction member dataNames
  exact ⟨name, builtin, outcome, isFunction, rfl, analyzed, isCorrect⟩

theorem isReachable_ofSettings (settings : Settings) : (ofSettings settings).IsReachable :=
  isReachable_of_names .ofDialect

/-- A workspace for programs with objects. -/
def objectsSample : Workspace := .ofSettings { dialect := .evm .objects }

/-- The name of the function `memoryguard` in the workspace. -/
theorem exists_builtin?_objectsSample : ∃ builtin,
    objectsSample.names.builtin? ⟨51⟩ = .ok (some builtin) ∧
      builtin.function.name = "memoryguard" := by
  have computed : (objectsSample.names.builtin? ⟨51⟩).map (·.map (·.function.name)) =
      .ok (some "memoryguard") := by
    decide +kernel
  obtain ⟨builtin?, answered, found⟩ := Except.map_eq_ok_iff.mp computed
  obtain ⟨builtin, rfl, named⟩ := Option.map_eq_some_iff.mp found
  exact ⟨builtin, answered, named⟩

/-- The program `function memoryguard() {}` is found to be correct. -/
theorem exists_analyze_memoryguard : ∃ outcome builtin,
    objectsSample.analyze none () (.declaring ⟨51⟩) [] = .ok (outcome, ()) ∧
      outcome.isCorrect = true ∧ objectsSample.names.builtin? ⟨51⟩ = .ok (some builtin) := by
  obtain ⟨builtin, known, named⟩ := exists_builtin?_objectsSample
  obtain ⟨outcome, analyzed, isCorrect⟩ := exists_analyze_declaring (isReachable_ofSettings _) known
    (named ▸ List.mem_cons_self) []
  exact ⟨outcome, builtin, analyzed, isCorrect, known⟩

/-- The function that the program declares is the one that objects do not reserve. -/
theorem builtin_name_memoryguard : ∃ outcome builtin,
    objectsSample.analyze none () (.declaring ⟨51⟩) [] = .ok (outcome, ()) ∧
      outcome.isCorrect = true ∧ objectsSample.names.builtin? ⟨51⟩ = .ok (some builtin) ∧
      builtin.function.name ∈ ["memoryguard"] := by
  obtain ⟨outcome, builtin, analyzed, isCorrect, known⟩ := exists_analyze_memoryguard
  have isDeclared : ⟨51⟩ ∈ (Block.declaring ⟨51⟩).declared := by decide
  have unreserved := builtin_name_mem_unreservedNames (isReachable_ofSettings _) (by decide)
    analyzed isCorrect isDeclared known
  exact ⟨outcome, builtin, analyzed, isCorrect, known, unreserved⟩

/-- Correct programs can declare functions of the dialect. -/
theorem not_declared_names_free :
    ¬∀ (workspace : Workspace) (block : Block) (dataNames : List String) (outcome : Outcome),
      workspace.IsReachable → block.owners.Nodup →
        workspace.analyze none () block dataNames = .ok (outcome, ()) →
          outcome.isCorrect = true → ∀ name ∈ block.declared,
            ∀ builtin, workspace.names.builtin? name ≠ .ok (some builtin) := by
  intro free
  obtain ⟨outcome, builtin, analyzed, isCorrect, known⟩ := exists_analyze_memoryguard
  exact free objectsSample (.declaring ⟨51⟩) [] outcome (isReachable_ofSettings _) (by decide)
    analyzed isCorrect ⟨51⟩ (by decide) builtin known

end Workspace

end YulCheck
