import YulCheck.Proofs.Mistake.Blocks

/-! # The mistakes of cases

The cases of a switch are compared by the words that their literals stand for. A literal with mistakes
counts for nothing: neither is it a repetition, nor is it repeated. Whatever is wrong about the value of
a case, its body is visited.
-/

namespace YulCheck

variable {σ α β : Type}

namespace Case

/-- The position of a case. -/
def span : Case → Span
  | mk span .. => span

/-- The statements of a case. -/
def body : Case → Block
  | mk _ _ body => body

end Case

namespace Setting

variable {setting : Setting} {environment : Environment} {place : Place}

/-! ### Repeated words -/

/-- Whether a literal of a needed type, in which nothing is wrong, stands for a word. -/
structure StandsFor (setting : Setting) (type : TypeHandle) (literal : Literal) (word : Word) :
    Prop where
  hasType : type = literal.type
  isRight : setting.literalMistakes literal = []
  isWord : literal.value.value = .ok word

/-- Whether a literal stands for the same word as the one of an earlier case. -/
def Repeats (setting : Setting) (type : TypeHandle) (earlier : List Case) (literal : Literal) : Prop :=
  ∃ word, setting.StandsFor type literal word ∧
    ∃ case ∈ earlier, ∃ known, case.value? = some known ∧ setting.StandsFor type known word

theorem wordMistakes_eq_nil_iff {type : TypeHandle} {literal : Literal} :
    setting.wordMistakes type literal = [] ↔
      type = literal.type ∧ setting.literalMistakes literal = [] := by
  rw [wordMistakes, List.append_eq_nil_iff, mismatch, mistakeUnless_eq_nil_iff, decide_eq_true_iff]

theorem soundWord?_eq_some_iff {type : TypeHandle} {literal : Literal} {word : Word} :
    setting.soundWord? type literal = some word ↔ setting.StandsFor type literal word := by
  rw [soundWord?, Option.ite_none_right_eq_some, List.isEmpty_iff, wordMistakes_eq_nil_iff,
    Except.toOption_eq_some_iff]
  constructor
  · rintro ⟨⟨hasType, isRight⟩, isWord⟩
    exact ⟨hasType, isRight, isWord⟩
  · rintro ⟨hasType, isRight, isWord⟩
    exact ⟨⟨hasType, isRight⟩, isWord⟩

/-- The words before a case are those that the literals of earlier cases stand for. -/
theorem mem_filterMap_caseWord?_iff {type : TypeHandle} {earlier : List Case} {word : Word} :
    word ∈ earlier.filterMap (setting.caseWord? type ·.value?) ↔
      ∃ case ∈ earlier, ∃ known, case.value? = some known ∧ setting.StandsFor type known word := by
  simp only [List.mem_filterMap, caseWord?, Option.bind_eq_some_iff, soundWord?_eq_some_iff]

/-! ### Repetitions -/

theorem code_ne_of_mem_mistakeUnless {condition : Bool} {span : Span} {finding : Finding}
    {error : Diagnostic} {code : Nat} (different : (finding.code == code) = false)
    (member : error ∈ mistakeUnless condition span finding) : error.code ≠ code := by
  cases condition with
  | true => cases member
  | false =>
    cases List.mem_singleton.mp member
    exact beq_eq_false_iff_ne.mp different

/-- The errors in a literal are not about repeated cases. -/
theorem code_ne_of_mem_wordMistakes {type : TypeHandle} {literal : Literal} {error : Diagnostic}
    (member : error ∈ setting.wordMistakes type literal) : error.code ≠ 6792 := by
  rw [wordMistakes, literalMistakes, typeMistakes, mismatch, valueMistakes] at member
  rcases List.mem_append.mp member with isMismatch | member
  · exact code_ne_of_mem_mistakeUnless rfl isMismatch
  rcases List.mem_append.mp member with isType | member
  · exact code_ne_of_mem_mistakeUnless rfl isType
  rcases List.mem_append.mp member with isValue | isKind
  · split at isValue
    · exact code_ne_of_mem_mistakeUnless rfl isValue
    · exact code_ne_of_mem_mistakeUnless rfl isValue
    · cases isValue
  · exact code_ne_of_mem_mistakeUnless rfl isKind

theorem filter_caseMistakes (type : TypeHandle) (before : List Word) (span : Span)
    (literal : Literal) :
    (setting.caseMistakes type before span (some literal)).filter (·.code = 6792) =
      setting.repetition type before span literal := by
  have noOther : (setting.wordMistakes type literal).filter (·.code = 6792) = [] :=
    List.filter_eq_nil_iff.mpr fun error member isRepeated =>
      code_ne_of_mem_wordMistakes member (of_decide_eq_true isRepeated)
  have every : ∀ error ∈ setting.repetition type before span literal,
      decide (error.code = 6792) = true := by
    intro error member
    obtain ⟨word, _, isError⟩ := List.mem_flatMap.mp member
    by_cases known : before.contains word = true
    · rw [known] at isError
      cases List.mem_singleton.mp isError
      rfl
    · rw [Bool.not_eq_true] at known
      rw [known] at isError
      cases isError
  rw [caseMistakes, Option.toList_some, List.flatMap_singleton, List.filter_append, noOther,
    List.filter_eq_self.mpr every, List.nil_append]

/-- A case is told to be repeated if its literal stands for the word of an earlier case. -/
theorem repetition_eq (type : TypeHandle) (earlier : List Case) (span : Span) (literal : Literal) :
    let told := setting.repetition type (earlier.filterMap (setting.caseWord? type ·.value?)) span
      literal
    (setting.Repeats type earlier literal →
      told = [(Finding.repeatedCase literal.format).toDiagnostic span]) ∧
    (¬setting.Repeats type earlier literal → told = []) := by
  intro told
  have isTold : told = setting.repetition type _ span literal := rfl
  rw [isTold, repetition]
  constructor
  · rintro ⟨word, stands, isEarlier⟩
    rw [soundWord?_eq_some_iff.mpr stands, Option.toList_some, List.flatMap_singleton,
      List.contains_iff_mem.mpr (mem_filterMap_caseWord?_iff.mpr isEarlier)]
    rfl
  · intro isNew
    refine List.flatMap_eq_nil_iff.mpr fun word isWord => ?_
    rw [mistakeUnless_eq_nil_iff, Bool.not_eq_true', Bool.eq_false_iff, ne_eq,
      List.contains_iff_mem, mem_filterMap_caseWord?_iff]
    intro isEarlier
    exact isNew ⟨word, soundWord?_eq_some_iff.mp (Option.mem_toList.mp isWord), isEarlier⟩

/-- Only which words come before counts. -/
theorem caseMistakes_congr {type : TypeHandle} {before other : List Word}
    (same : ∀ word, word ∈ before ↔ word ∈ other) (span : Span) (value? : Option Literal) :
    setting.caseMistakes type before span value? = setting.caseMistakes type other span value? := by
  have contains (word : Word) : before.contains word = other.contains word := by
    rw [Bool.eq_iff_iff, List.contains_iff_mem, List.contains_iff_mem]
    exact same word
  simp only [caseMistakes, repetition, contains]

/-- The errors in the cases of a switch are those about each case, given the words of those before. -/
theorem casesMistakes_eq (inLoop inFunction : Bool) (type : TypeHandle) (before : List Word)
    (cases : List Case) :
    setting.casesMistakes environment inLoop inFunction type before cases =
      cases.zipIdx.flatMap fun (case, position) =>
        setting.caseMistakes type
          (before ++ (cases.take position).filterMap (setting.caseWord? type ·.value?)) case.span
          case.value? ++ setting.blockMistakes environment inLoop inFunction case.body := by
  induction cases generalizing before with
  | nil => rw [casesMistakes]; rfl
  | cons case rest ih =>
    obtain ⟨span, value?, body⟩ := case
    have others : (rest.zipIdx.flatMap fun (case, position) =>
        setting.caseMistakes type (before ++ ((Case.mk span value? body :: rest).take
            (position + 1)).filterMap (setting.caseWord? type ·.value?)) case.span case.value? ++
          setting.blockMistakes environment inLoop inFunction case.body) =
        rest.zipIdx.flatMap fun (case, position) =>
          setting.caseMistakes type ((setting.caseWord? type value?).toList ++ before ++
              (rest.take position).filterMap (setting.caseWord? type ·.value?)) case.span case.value? ++
            setting.blockMistakes environment inLoop inFunction case.body := by
      refine List.flatMap_congr fun ⟨case, position⟩ _ => ?_
      refine congrArg (· ++ _) (caseMistakes_congr (fun word => ?_) case.span case.value?)
      rw [List.take_succ_cons, List.filterMap_eq_flatMap_toList, List.flatMap_cons,
        ← List.filterMap_eq_flatMap_toList]
      simp only [List.mem_append]
      tauto
    rw [casesMistakes, ih, List.flatMap_zipIdx_cons, others, ← List.append_assoc]
    simp only [List.take_zero, List.filterMap_nil, List.append_nil]
    rfl

/-- Where nothing is wrong about cases, their words differ from each other and from those before. -/
theorem nodup_of_casesMistakes_eq_nil {inLoop inFunction : Bool} {type : TypeHandle}
    {before : List Word} {cases : List Case}
    (quiet : setting.casesMistakes environment inLoop inFunction type before cases = []) :
    let words := cases.filterMap (setting.caseWord? type ·.value?)
    words.Nodup ∧ ∀ word ∈ words, word ∉ before := by
  induction cases generalizing before with
  | nil => exact ⟨.nil, nofun⟩
  | cons case rest ih =>
    obtain ⟨span, value?, body⟩ := case
    rw [casesMistakes, List.append_eq_nil_iff, List.append_eq_nil_iff] at quiet
    obtain ⟨ofValue, _, ofRest⟩ := quiet
    obtain ⟨distinct, apart⟩ := ih ofRest
    cases isWord : setting.caseWord? type value? with
    | none =>
      have noWord : setting.caseWord? type (Case.mk span value? body).value? = none := isWord
      rw [isWord] at apart
      rw [List.filterMap_cons, noWord]
      exact ⟨distinct, apart⟩
    | some word =>
      have oneWord : setting.caseWord? type (Case.mk span value? body).value? = some word := isWord
      rw [isWord, Option.toList_some] at apart
      rw [List.filterMap_cons, oneWord]
      obtain ⟨literal, rfl, sound⟩ := Option.bind_eq_some_iff.mp isWord
      rw [caseMistakes, Option.toList_some, List.flatMap_singleton, List.append_eq_nil_iff,
        repetition, sound, Option.toList_some, List.flatMap_singleton, mistakeUnless_eq_nil_iff,
        Bool.not_eq_true', Bool.eq_false_iff, ne_eq, List.contains_iff_mem] at ofValue
      refine ⟨List.nodup_cons.mpr ⟨fun again => ?_, distinct⟩, List.forall_mem_cons.mpr
        ⟨ofValue.2, fun other member known => ?_⟩⟩
      · exact apart word again List.mem_cons_self
      · exact apart other member (List.mem_cons_of_mem _ known)

/-- Nothing is wrong about the literal of a case in which nothing is wrong. -/
theorem wordMistakes_eq_nil_of_mem {inLoop inFunction : Bool} {type : TypeHandle}
    {before : List Word} {cases : List Case} {case : Case} {literal : Literal}
    (quiet : setting.casesMistakes environment inLoop inFunction type before cases = [])
    (member : case ∈ cases) (isValue : case.value? = some literal) :
    setting.wordMistakes type literal = [] := by
  rw [casesMistakes_eq, List.flatMap_eq_nil_iff] at quiet
  obtain ⟨position, found⟩ := List.mem_iff_getElem?.mp member
  have ofCase := quiet (case, position) (List.mk_mem_zipIdx_iff_getElem?.mpr found)
  rw [List.append_eq_nil_iff, caseMistakes, isValue, Option.toList_some, List.flatMap_singleton,
    List.append_eq_nil_iff] at ofCase
  exact ofCase.1.1

/-! ### Visits -/

open Walk

variable {state after : RunState σ} {type : TypeHandle} {before : List Word} {span : Span}
  {literal : Literal}

/-- A literal that is compared with those of earlier cases stands for a word. -/
theorem exists_word_of_ends {errors : Nat} {reported : List Diagnostic} {values : List Word}
    (ends : (setting.checkCaseValue place type before span literal).Ends environment errors reported
      values) (sound : setting.wordMistakes type literal = []) :
    ∃ word, literal.value.value = .ok word := by
  obtain ⟨_, _, _, rfl, counted, ends⟩ := ends_bind_iff.mp ends
  obtain ⟨rfl, rfl⟩ := ends_ask_iff.mp counted
  obtain ⟨_, _, _, rfl, compared, ends⟩ := ends_bind_iff.mp ends
  obtain ⟨rfl, _⟩ := reports_checkSameType _ _ _ _ _ compared
  obtain ⟨_, _, _, rfl, checked, ends⟩ := ends_bind_iff.mp ends
  obtain ⟨rfl, rfl⟩ := reports_checkLiteral literal _ _ checked
  obtain ⟨_, _, _, rfl, isQuiet, ends⟩ := ends_bind_iff.mp ends
  obtain ⟨isMatch, isRight⟩ := List.append_eq_nil_iff.mp sound
  rw [isMatch, isRight] at isQuiet
  obtain ⟨rfl, rfl⟩ := Reports.isQuiet_now _ _ isQuiet
  obtain ⟨_, _, word, rfl, lifted, _⟩ := ends_bind_iff.mp ends
  exact ⟨word, (ends_lift_iff.mp lifted).2⟩

/-- The literal of a case is visited, and it stands for a word if nothing is wrong about it. -/
theorem visits_caseLiteral
    (agrees : ((setting.checkCaseValue place type before span literal).within environment).Agrees
      none state) {values : List Word}
    (ran : (setting.checkCaseValue place type before span literal).run none state =
      .ok (.ok values, after)) :
    (setting.checkLiteral place literal).IsVisited
      (setting.checkCaseValue place type before span literal) state (setting.literalMistakes literal)
      [literal.type] ∧
    (setting.wordMistakes type literal = [] → ∃ word, literal.value.value = .ok word) := by
  have finds : (setting.checkCaseValue place type before span literal).Only Request.ReportsFindings :=
    findings_checks.checkCaseValue type before span literal
  constructor
  · obtain ⟨_, _, counted, ranRest⟩ := run_bind_eq_ok_ok_iff.mp ran
    obtain ⟨_, there, compared, ranRest⟩ := run_bind_eq_ok_ok_iff.mp ranRest
    obtain ⟨_, behind, checked, _⟩ := run_bind_eq_ok_ok_iff.mp ranRest
    have agreesLiteral := ((agrees.within_next counted).within_next compared).within_first
    exact ⟨there, behind, .next counted (.next compared (.first .here)),
      runsTo_of_reports agreesLiteral (findings_checks.checkLiteral literal)
        (reports_checkLiteral literal) checked⟩
  · rw [← LexicalWalk.erase_within environment (setting.checkCaseValue _ _ _ _ _)] at ran finds
    obtain ⟨_, _, ends, _⟩ := LexicalWalk.exists_ends_of_completed agrees finds ran
    exact exists_word_of_ends ends

theorem checkCases_cons (span : Span) (value? : Option Literal) (body : Block) (rest : List Case) :
    setting.checkCases place type before (.mk span value? body :: rest) =
      (match value? with
        | some literal => setting.checkCaseValue place type before span literal
        | none => pure before : Walk (List Word)) >>= fun values =>
          setting.checkBlock place body >>= fun _ => setting.checkCases place type values rest := by
  cases value? <;> rw [checkCases.eq_def]

/-- Whether a run visits a case of a switch on a value of a type: its body and, if it has a value, the
literal, which stands for a word if nothing is wrong about it. -/
structure VisitsCase (setting : Setting) (environment : Environment) (place : Place)
    (type : TypeHandle) (visit : Walk α) (state : RunState σ) (case : Case) : Prop where
  body : (setting.checkBlock place case.body).IsVisited visit state
    (setting.blockMistakes environment place.inLoop place.inFunction case.body) ()
  literal {literal : Literal} (isValue : case.value? = some literal) :
    (setting.checkLiteral place literal).IsVisited visit state (setting.literalMistakes literal)
      [literal.type]
  word {literal : Literal} (isValue : case.value? = some literal)
    (sound : setting.wordMistakes type literal = []) : ∃ word, literal.value.value = .ok word

theorem VisitsCase.next {first : Walk α} {rest : α → Walk β} {given : α} {middle : RunState σ}
    {case : Case} (ran : first.run none state = .ok (.ok given, middle))
    (visits : setting.VisitsCase environment place type (rest given) middle case) :
    setting.VisitsCase environment place type (first >>= rest) state case where
  body := .next ran visits.body
  literal isValue := .next ran (visits.literal isValue)
  word := visits.word

/-- The cases of a switch are visited one after another, their values as well as their bodies. -/
theorem visits_cases {cases : List Case}
    (agrees : (setting.lexicalCases environment place type before cases).Agrees none state)
    (ran : (setting.checkCases place type before cases).run none state = .ok (.ok (), after)) :
    ∀ case ∈ cases, setting.VisitsCase environment place type
      (setting.checkCases place type before cases) state case := by
  induction cases generalizing before state with
  | nil => exact List.forall_mem_nil _
  | cons case rest ih =>
    obtain ⟨span, value?, body⟩ := case
    rw [lexicalCases.eq_def] at agrees
    rw [checkCases_cons] at ran ⊢
    dsimp only at agrees
    obtain ⟨values, middle, compared, ranRest⟩ := run_bind_eq_ok_ok_iff.mp ran
    obtain ⟨⟨⟩, last, visited, ranRest⟩ := run_bind_eq_ok_ok_iff.mp ranRest
    have ranBody := visited
    rw [← setting.erase_lexicalBlock environment place body] at ranBody
    have agreesBody := (agrees.behind compared).first
    have agreesRest := (agrees.behind compared).next ranBody
    refine List.forall_mem_cons.mpr ⟨⟨?_, ?_, ?_⟩, fun other member => ?_⟩
    · have finds : (setting.lexicalBlock environment place body).erase.Only
          Request.ReportsFindings := by
        rw [erase_lexicalBlock]
        exact findings_blocks.checkBlock place body
      have runs := LexicalWalk.runsTo_of_reports agreesBody finds
        (reports_lexicalBlock body environment place _) ranBody
      rw [erase_lexicalBlock] at runs
      exact ⟨middle, last, .next compared (.first .here), runs⟩
    · rintro literal rfl
      exact .first (visits_caseLiteral agrees.first compared).1
    · rintro literal rfl
      exact (visits_caseLiteral agrees.first compared).2
    · exact .next compared (.next visited (ih agreesRest ranRest other member))

/-- A switch visits its cases, after its scrutinee told the type of their values. -/
theorem visits_casesOfSwitch {scrutinee : Expression} {cases : List Case}
    (agrees : (setting.lexicalStatement environment place (.switch span scrutinee cases)).Agrees none
      state)
    (ran : (setting.checkStatement place (.switch span scrutinee cases)).run none state =
      .ok (.ok (), after)) :
    ∀ case ∈ cases, setting.VisitsCase environment place (setting.singleTypeOf environment scrutinee)
      (setting.checkStatement place (.switch span scrutinee cases)) state case := by
  intro case member
  rw [lexicalStatement] at agrees
  rw [checkStatement] at ran ⊢
  obtain ⟨_, start, expected, ran⟩ := run_bind_eq_ok_ok_iff.mp ran
  obtain ⟨_, middle, evaluated, ranCases⟩ := run_bind_eq_ok_ok_iff.mp ran
  have agreesRest := agrees.behind expected
  have finds : (setting.checkSingle place scrutinee).Only Request.ReportsFindings :=
    findings_blocks.ofStays (setting.stays_checkSingle scrutinee)
  have runs := runsTo_of_reports agreesRest.first finds (reports_checkSingle scrutinee) evaluated
  cases runs.ran.symm.trans evaluated
  exact .next expected
    (.next evaluated (visits_cases (agreesRest.behind evaluated) ranCases case member))

/-- Where nothing is wrong about the cases of a switch, they have different words. -/
theorem exists_words_of_quiet {inLoop inFunction : Bool} {cases : List Case}
    (quiet : setting.casesMistakes environment inLoop inFunction type [] cases = [])
    (haveWords : ∀ case ∈ cases, ∀ literal, case.value? = some literal →
      setting.wordMistakes type literal = [] → ∃ word, literal.value.value = .ok word) :
    ∃ words : List Word, (cases.filterMap (·.value?)).map (·.value.value) = words.map .ok ∧ words.Nodup := by
  refine ⟨_, ?_, (nodup_of_casesMistakes_eq_nil quiet).1⟩
  rw [List.map_filterMap, List.map_filterMap]
  refine List.filterMap_congr fun case member => ?_
  cases isValue : case.value? with
  | none => rfl
  | some literal =>
    have sound := wordMistakes_eq_nil_of_mem quiet member isValue
    obtain ⟨word, isWord⟩ := haveWords case member literal isValue sound
    obtain ⟨hasType, isRight⟩ := wordMistakes_eq_nil_iff.mp sound
    rw [caseWord?, Option.bind_some, soundWord?_eq_some_iff.mpr ⟨hasType, isRight, isWord⟩,
      Option.map_some, Option.map_some, isWord]

end Setting

namespace Checker

variable {checker : Checker} {reporter : Reporter} {facts : Facts} {block : Block}

/-- Cases are compared by the words that they stand for. Where a run over a program whose names are
declared once is not stopped, it comes to every switch in the program. What it appends there are the
errors about the scrutinee and then, for each case, those about its value and those in its body. Among
the errors about its value is one about a repeated case, and only one, if and only if the literal has
the type of the scrutinee, nothing is wrong about it, and it stands for the same word as a literal of an
earlier case about which the same can be said. The literals and the bodies of all cases are visited. If
nothing is wrong about a switch, the words of its cases differ from each other. A program that a builder
made has such a run. -/
theorem cases_compared_by_words (distinct : block.owners.Nodup)
    (earlier : ∀ entry ∈ checker.active, entry.1 < facts.scopes.size) (hostState : σ) :
    let setting := checker.setting
    (∀ after, checker.runOver none reporter facts hostState block = .ok (.ok (), after) →
      block.DeclaresOnce →
      ∀ point ∈ block.points [] checker.inLoop checker.inFunction,
      ∀ span scrutinee cases, point.statement = .switch span scrutinee cases →
        let type := setting.singleTypeOf point.environment scrutinee
        let ofValue (position : Nat) (case : Case) := setting.caseMistakes type
          ((cases.take position).filterMap (setting.caseWord? type ·.value?)) case.span case.value?
        ∃ (place : Place) (there behind : RunState σ) (mistakes : List Diagnostic),
          let visit := setting.checkStatement place (.switch span scrutinee cases)
          let inBody (case : Case) :=
            setting.blockMistakes point.environment place.inLoop place.inFunction case.body
          Walk.Reaches none visit there (setting.checkProgram (checker.place block) block)
            (checker.start reporter facts hostState) ∧
          visit.RunsTo there behind mistakes () ∧
          mistakes = setting.singleMistakes point.environment scrutinee ++
            cases.zipIdx.flatMap (fun (case, position) => ofValue position case ++ inBody case) ∧
          (∀ (position : Nat) case literal, cases[position]? = some case →
            case.value? = some literal →
            let told := (ofValue position case).filter (·.code = 6792)
            (setting.Repeats type (cases.take position) literal →
              told = [(Finding.repeatedCase literal.format).toDiagnostic case.span]) ∧
            (¬setting.Repeats type (cases.take position) literal → told = []) ∧
            (setting.checkLiteral place literal).IsVisited visit there
              (setting.literalMistakes literal) [literal.type]) ∧
          (∀ case ∈ cases, (setting.checkBlock place case.body).IsVisited visit there (inBody case) ()) ∧
          (mistakes = [] → ∃ words : List Word,
            (cases.filterMap (·.value?)).map (·.value.value) = words.map .ok ∧ words.Nodup)) ∧
    ∀ (kind : BundledDialect) version, reporter.errorLimit? = none →
      setting.names.HasMade (kind.build version) block →
      ∃ after, checker.runOver none reporter facts hostState block = .ok (.ok (), after) := by
  intro setting
  refine ⟨fun after ran once point member => ?_, fun kind version noLimit hasMade =>
    exists_runOver_of_hasMade hasMade earlier noLimit hostState⟩
  obtain ⟨place, scope, there, arrival⟩ := arrives_of_runOver distinct once earlier ran point member
  obtain ⟨behind, runs⟩ := arrival.runsTo ran
  obtain ⟨environment, inLoop, inFunction, statement⟩ := point
  rintro span scrutinee cases rfl type ofValue
  have visits := Setting.visits_casesOfSwitch arrival.agrees runs.ran
  have isAll : setting.pointMistakes environment place.inLoop place.inFunction
      (.switch span scrutinee cases) = setting.singleMistakes environment scrutinee ++
        setting.casesMistakes environment place.inLoop place.inFunction type [] cases := rfl
  refine ⟨place, there, behind, _, arrival.reaches, runs, ?_, ?_, ?_, ?_⟩
  · rw [isAll, Setting.casesMistakes_eq]
    rfl
  · intro position case literal found isValue told
    have isTold : told = setting.repetition type
        ((cases.take position).filterMap (setting.caseWord? type ·.value?)) case.span literal := by
      rw [← Setting.filter_caseMistakes, ← isValue]
    obtain ⟨ifRepeats, ifNot⟩ :=
      @Setting.repetition_eq setting type (cases.take position) case.span literal
    rw [isTold]
    have member := List.mem_of_getElem? found
    exact ⟨ifRepeats, ifNot, (visits case member).literal isValue⟩
  · exact fun case member => (visits case member).body
  · intro quiet
    rw [isAll, List.append_eq_nil_iff] at quiet
    exact Setting.exists_words_of_quiet quiet.2 fun case member _ => (visits case member).word

/-- In `{ switch 1 case 5 {} case 0x05 {} }` the second case repeats the first one. -/
theorem cases_compared_by_words_hex :
    let names := NameTable.ofDialect .generic
    let checker : Checker := { setting := .ofNames names [] }
    let numeral (id : NodeId) (text : String) : Literal :=
      ⟨id, .none, .number, .ofNumeral text, checker.setting.defaultType⟩
    let scrutinee : Expression := .literal (numeral 2 "1")
    let cases : List Case := [.mk ⟨11, 17⟩ (some (numeral 3 "5")) (.mk 4 .none []),
      .mk ⟨21, 30⟩ (some (numeral 5 "0x05")) (.mk 6 .none [])]
    let block : Block := .mk 1 .none [.switch .none scrutinee cases]
    ∃ place, (checker.setting.checkStatement place (.switch .none scrutinee cases)).IsVisited
      (checker.setting.checkProgram (checker.place block) block) (checker.start .unlimited {} ())
      [(Finding.repeatedCase "0x05").toDiagnostic ⟨21, 30⟩] () := by
  intro names checker numeral scrutinee cases block
  obtain ⟨once, ends, ofSwitch⟩ : block.DeclaresOnce ∧
      (checker.runOver (none : Option (Host Unit)) .unlimited {} () block).map (·.1) =
        .ok (.ok ()) ∧
      checker.setting.blockMistakes [] false false block =
        [(Finding.repeatedCase "0x05").toDiagnostic ⟨21, 30⟩] := by
    decide +kernel
  obtain ⟨⟨_, after⟩, ran, rfl⟩ := Except.map_eq_ok_iff.mp ends
  let environment : Environment := [.block block.statements []]
  have isPoint : (block.points [] false false)[0]? = some ⟨environment, false, false,
    .switch .none scrutinee cases⟩ := rfl
  obtain ⟨place, there, behind, mistakes, reaches, runs, isAll, _⟩ :=
    (@cases_compared_by_words Unit checker .unlimited {} block (by decide) nofun ()).1 after ran once _
      (List.mem_of_getElem? isPoint) _ _ _ rfl
  have same : mistakes = checker.setting.blockMistakes [] false false block := isAll
  exact ⟨place, there, behind, reaches, ofSwitch ▸ same ▸ runs⟩

end Checker

end YulCheck
