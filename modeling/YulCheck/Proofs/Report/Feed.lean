import YulCheck.Proofs.Report.Reports

/-! # Reporters that are fed

A reporter may be fed with diagnostics, one after another, up to the first one that is refused. What it
has recorded then is determined by its limits: the errors within the limit of errors and one note, and
of the warnings before that note those within the limit of warnings and one note.
-/

namespace YulCheck.Reporter

variable {reporter middle after : Reporter} {diagnostic : Diagnostic} {items : List Diagnostic}
  {failure : Failure}

/-! ### Feeding -/

/-- Report diagnostics one after another, up to the first one that is refused. -/
def reportAll (reporter : Reporter) : List Diagnostic → Except Failure Unit × Reporter
  | [] => (.ok (), reporter)
  | diagnostic :: rest =>
    match reporter.report diagnostic with
    | (.ok _, after) => after.reportAll rest
    | (.error failure, after) => (.error failure, after)

theorem reportAll_cons_of_accepted (accepted : reporter.report diagnostic = (.ok (), after))
    (items : List Diagnostic) :
    reporter.reportAll (diagnostic :: items) = after.reportAll items := by
  rw [reportAll, accepted]

theorem reportAll_cons_of_refused (refused : reporter.report diagnostic = (.error failure, after))
    (items : List Diagnostic) :
    reporter.reportAll (diagnostic :: items) = (.error failure, after) := by
  rw [reportAll, refused]

/-- After an accepted feed the reporter can be fed further. -/
theorem reportAll_append_of_accepted (accepted : reporter.reportAll items = (.ok (), middle))
    (more : List Diagnostic) : reporter.reportAll (items ++ more) = middle.reportAll more := by
  induction items generalizing reporter with
  | nil =>
    cases accepted
    rfl
  | cons diagnostic rest ih =>
    rcases reported : reporter.report diagnostic with ⟨failure | _, next⟩
    · rw [reportAll_cons_of_refused reported] at accepted
      cases accepted
    · rw [reportAll_cons_of_accepted reported] at accepted
      rw [List.cons_append, reportAll_cons_of_accepted reported]
      exact ih accepted

/-- After a refused feed nothing more is reported. -/
theorem reportAll_append_of_refused (refused : reporter.reportAll items = (.error failure, middle))
    (more : List Diagnostic) : reporter.reportAll (items ++ more) = (.error failure, middle) := by
  induction items generalizing reporter with
  | nil => cases refused
  | cons diagnostic rest ih =>
    rcases reported : reporter.report diagnostic with ⟨other | _, next⟩
    · rw [reportAll_cons_of_refused reported] at refused
      rw [List.cons_append, reportAll_cons_of_refused reported]
      exact refused
    · rw [reportAll_cons_of_accepted reported] at refused
      rw [List.cons_append, reportAll_cons_of_accepted reported]
      exact ih refused

theorem reportAll_concat_of_accepted (accepted : reporter.reportAll items = (.ok (), middle))
    (diagnostic : Diagnostic) : reporter.reportAll (items ++ [diagnostic]) = middle.report diagnostic := by
  rw [reportAll_append_of_accepted accepted]
  rcases reported : middle.report diagnostic with ⟨other | _, next⟩
  · exact reportAll_cons_of_refused reported []
  · exact reportAll_cons_of_accepted reported []

/-- A feed is refused only if there is an error in it. -/
theorem exists_isError_of_refused (refused : reporter.reportAll items = (.error failure, after)) :
    ∃ item ∈ items, item.isError = true := by
  induction items generalizing reporter with
  | nil => cases refused
  | cons diagnostic rest ih =>
    rcases reported : reporter.report diagnostic with ⟨other | _, next⟩
    · rw [report] at reported
      split at reported
      · rename_i isError
        exact ⟨diagnostic, List.mem_cons_self, isError⟩
      · cases reported
    · rw [reportAll_cons_of_accepted reported] at refused
      obtain ⟨item, member, isError⟩ := ih refused
      exact ⟨item, List.mem_cons_of_mem _ member, isError⟩

/-! ### What limits leave -/

/-- What a limit leaves of diagnostics that come after a number of others: those within the limit, and
a note for the first one beyond it. -/
def kept (limit? : Option Nat) (note : Nat → Diagnostic → Diagnostic) (before : Nat)
    (items : List Diagnostic) : List Diagnostic :=
  match limit? with
  | none => items
  | some limit =>
    if limit < before then []
    else items.take (limit - before) ++ ((items[limit - before]?).map (note limit)).toList

section Kept

variable {limit? : Option Nat} {note : Nat → Diagnostic → Diagnostic} {limit before : Nat}

theorem kept_nil (limit? : Option Nat) (note : Nat → Diagnostic → Diagnostic) (before : Nat) :
    kept limit? note before [] = [] := by
  cases limit? with
  | none => rfl
  | some limit =>
    rw [kept, List.take_nil]
    exact ite_self _

/-- A diagnostic within the limit is kept. -/
theorem kept_cons_of_within (isWithin : ∀ limit, limit? = some limit → before < limit)
    (diagnostic : Diagnostic) (items : List Diagnostic) :
    kept limit? note before (diagnostic :: items) =
      diagnostic :: kept limit? note (before + 1) items := by
  cases limit? with
  | none => rfl
  | some limit =>
    have isLess := isWithin limit rfl
    have remaining : limit - before = limit - (before + 1) + 1 := by omega
    rw [kept, kept, if_neg (by omega), if_neg (by omega), remaining, List.take_succ_cons,
      List.getElem?_cons_succ]
    rfl

/-- The first diagnostic beyond the limit leaves a note. -/
theorem kept_cons_of_first (isLimit : limit? = some limit) (isFirst : before = limit)
    (diagnostic : Diagnostic) (items : List Diagnostic) :
    kept limit? note before (diagnostic :: items) = [note limit diagnostic] := by
  subst isLimit isFirst
  rw [kept, if_neg (Nat.lt_irrefl _), Nat.sub_self]
  rfl

theorem kept_of_beyond (isLimit : limit? = some limit) (isBeyond : limit < before)
    (items : List Diagnostic) : kept limit? note before items = [] := by
  subst isLimit
  exact if_pos isBeyond

end Kept

/-- The diagnostics before the first error beyond a limit, if there are some errors already. -/
def heard (limit? : Option Nat) : (errors : Nat) → List Diagnostic → List Diagnostic
  | _, [] => []
  | errors, diagnostic :: rest =>
    if diagnostic.isError then
      if limit? = some errors then [] else diagnostic :: heard limit? (errors + 1) rest
    else diagnostic :: heard limit? errors rest

/-! ### The errors and warnings of a feed -/

theorem filter_warnings_of_error (isError : diagnostic.isError = true) (items : List Diagnostic) :
    (diagnostic :: items).filter (!·.isError) = items.filter (!·.isError) := by
  rw [List.filter_cons, isError]
  rfl

theorem filter_warnings_of_warning (isWarning : diagnostic.isError = false)
    (items : List Diagnostic) :
    (diagnostic :: items).filter (!·.isError) = diagnostic :: items.filter (!·.isError) := by
  rw [List.filter_cons, isWarning]
  rfl

theorem errors_record_of_error (isError : diagnostic.isError = true) :
    (reporter.countError.record diagnostic).errors = reporter.errors ++ [diagnostic] := by
  rw [errors, toList_record, List.filter_append, List.filter_cons_of_pos isError]
  rfl

theorem errors_record_of_warning (isWarning : diagnostic.isError = false) :
    (reporter.countWarning.record diagnostic).errors = reporter.errors := by
  rw [errors, toList_record, List.filter_append,
    List.filter_cons_of_neg (Bool.eq_false_iff.mp isWarning)]
  exact List.append_nil _

theorem warnings_record_of_error (isError : diagnostic.isError = true) :
    (reporter.countError.record diagnostic).warnings = reporter.warnings := by
  rw [warnings, toList_record, List.filter_append, filter_warnings_of_error isError]
  exact List.append_nil _

theorem warnings_record_of_warning (isWarning : diagnostic.isError = false) :
    (reporter.countWarning.record diagnostic).warnings = reporter.warnings ++ [diagnostic] := by
  rw [warnings, toList_record, List.filter_append, filter_warnings_of_warning isWarning]
  rfl

/-- The errors after a feed: those within the limit, and one note. -/
theorem errors_reportAll (reporter : Reporter) (items : List Diagnostic)
    (isWithin : ∀ limit, reporter.errorLimit? = some limit → reporter.errorCount ≤ limit) :
    (reporter.reportAll items).2.errors =
      reporter.errors ++ kept reporter.errorLimit? errorLimitNote reporter.errorCount
        (items.filter (·.isError)) := by
  induction items generalizing reporter with
  | nil =>
    rw [List.filter_nil, kept_nil, List.append_nil]
    rfl
  | cons diagnostic rest ih =>
    have reported := reporter.reported_report diagnostic
    generalize same : reporter.report diagnostic = result at reported
    cases reported with
    | error isError isBelow =>
      rw [reportAll_cons_of_accepted same, ih (reporter.countError.record diagnostic) isBelow,
        errors_record_of_error isError, List.filter_cons_of_pos isError, kept_cons_of_within isBelow,
        List.append_assoc]
      rfl
    | @refused limit isError isLimit isBeyond =>
      have isFirst := Nat.le_antisymm (isWithin _ isLimit) isBeyond
      have noteIsError : (errorLimitNote limit diagnostic).isError = true := isError
      rw [reportAll_cons_of_refused same, errors_record_of_error noteIsError,
        List.filter_cons_of_pos isError, kept_cons_of_first isLimit isFirst]
    | warning isWarning =>
      rw [reportAll_cons_of_accepted same, ih (reporter.countWarning.record diagnostic) isWithin,
        errors_record_of_warning isWarning,
        List.filter_cons_of_neg (Bool.eq_false_iff.mp isWarning)]
      rfl
    | @noted limit isWarning =>
      have noteIsWarning : (warningLimitNote limit diagnostic).isError = false := rfl
      rw [reportAll_cons_of_accepted same,
        ih (reporter.countWarning.record (warningLimitNote limit diagnostic)) isWithin,
        errors_record_of_warning noteIsWarning,
        List.filter_cons_of_neg (Bool.eq_false_iff.mp isWarning)]
      rfl
    | dropped isWarning =>
      rw [reportAll_cons_of_accepted same, ih reporter isWithin,
        List.filter_cons_of_neg (Bool.eq_false_iff.mp isWarning)]

/-- The warnings after a feed: of those that were heard the ones within the limit, and one note. -/
theorem warnings_reportAll (reporter : Reporter) (items : List Diagnostic)
    (isWithin : ∀ limit, reporter.errorLimit? = some limit → reporter.errorCount ≤ limit) :
    (reporter.reportAll items).2.warnings =
      reporter.warnings ++ kept reporter.warningLimit? warningLimitNote reporter.warningCount
        ((heard reporter.errorLimit? reporter.errorCount items).filter (!·.isError)) := by
  induction items generalizing reporter with
  | nil =>
    rw [heard, List.filter_nil, kept_nil, List.append_nil]
    rfl
  | cons diagnostic rest ih =>
    have reported := reporter.reported_report diagnostic
    generalize same : reporter.report diagnostic = result at reported
    rw [heard]
    cases reported with
    | error isError isBelow =>
      have isHeard : ¬reporter.errorLimit? = some reporter.errorCount :=
        fun isLimit => Nat.lt_irrefl _ (isBelow _ isLimit)
      rw [if_pos isError, if_neg isHeard, reportAll_cons_of_accepted same,
        ih (reporter.countError.record diagnostic) isBelow, warnings_record_of_error isError,
        filter_warnings_of_error isError]
      rfl
    | @refused limit isError isLimit isBeyond =>
      have isFirst := Nat.le_antisymm (isWithin _ isLimit) isBeyond
      have noteIsError : (errorLimitNote limit diagnostic).isError = true := isError
      rw [if_pos isError, if_pos (isFirst ▸ isLimit), reportAll_cons_of_refused same,
        warnings_record_of_error noteIsError, List.filter_nil, kept_nil, List.append_nil]
    | warning isWarning isBelow =>
      rw [if_neg (Bool.eq_false_iff.mp isWarning), reportAll_cons_of_accepted same,
        ih (reporter.countWarning.record diagnostic) isWithin, warnings_record_of_warning isWarning,
        filter_warnings_of_warning isWarning, kept_cons_of_within isBelow, List.append_assoc]
      rfl
    | @noted limit isWarning isLimit isFirst =>
      have noteIsWarning : (warningLimitNote limit diagnostic).isError = false := rfl
      have isBeyond : limit < reporter.warningCount + 1 := by omega
      rw [if_neg (Bool.eq_false_iff.mp isWarning), reportAll_cons_of_accepted same,
        ih (reporter.countWarning.record (warningLimitNote limit diagnostic)) isWithin,
        warnings_record_of_warning noteIsWarning, filter_warnings_of_warning isWarning,
        kept_cons_of_first isLimit isFirst]
      show _ ++ kept reporter.warningLimit? warningLimitNote (reporter.warningCount + 1) _ = _
      rw [kept_of_beyond isLimit isBeyond, List.append_nil]
    | dropped isWarning isLimit isBeyond =>
      rw [if_neg (Bool.eq_false_iff.mp isWarning), reportAll_cons_of_accepted same, ih reporter isWithin,
        kept_of_beyond isLimit isBeyond, kept_of_beyond isLimit isBeyond]

end YulCheck.Reporter
