import Mathlib.Data.List.Basic
import Mathlib.Data.List.Nodup
import YulCheck.Name.Labels

/-! # Candidates for labels

The labels that an alias may receive all differ, so the search for one that is not taken succeeds. A
label that was received may itself be the base of further candidates; what all of them have in common
with the first base holds of each of its candidates.
-/

namespace YulCheck.NameTable

/-! ### Numbers behind labels -/

theorem toList_candidate_succ (base : String) (number : Nat) :
    (candidate base (number + 1)).toList = base.toList ++ '_' :: Nat.toDigits 10 (number + 1) := by
  simp [candidate, toString]

/-- The last character of a numbered candidate is a digit. -/
theorem getLast?_candidate_succ (base : String) (number : Nat) :
    ∃ digit : Char, (candidate base (number + 1)).toList.getLast? = some digit ∧
      digit.isDigit = true := by
  have notEmpty : Nat.toDigits 10 (number + 1) ≠ [] := Nat.toDigits_ne_nil
  refine ⟨(Nat.toDigits 10 (number + 1)).getLast notEmpty, ?_, ?_⟩
  · rw [toList_candidate_succ, List.append_cons, List.getLast?_append_of_ne_nil _ notEmpty,
      List.getLast?_eq_getLast_of_ne_nil notEmpty]
  · exact Nat.isDigit_of_mem_toDigits (by decide) (by decide) (List.getLast_mem notEmpty)

theorem candidate_succ_ne_base (base : String) (number : Nat) :
    candidate base (number + 1) ≠ base := by
  intro same
  have lengths := congrArg (fun label : String => label.toList.length) same
  simp only [toList_candidate_succ, List.length_append, List.length_cons] at lengths
  omega

/-- All candidates of a base differ. -/
theorem candidate_injective (base : String) : Function.Injective (candidate base) := by
  intro first second same
  cases first with
  | zero =>
    cases second with
    | zero => rfl
    | succ second => exact absurd same.symm (candidate_succ_ne_base base second)
  | succ first =>
    cases second with
    | zero => exact absurd same (candidate_succ_ne_base base first)
    | succ second =>
      have texts := congrArg String.toList same
      rw [toList_candidate_succ, toList_candidate_succ, List.append_cancel_left_eq,
        List.cons.injEq] at texts
      have digits := congrArg (fun digits => Nat.ofDigitChars 10 digits 0) texts.2
      rwa [Nat.ofDigitChars_toDigits (by decide) (by decide),
        Nat.ofDigitChars_toDigits (by decide) (by decide)] at digits

/-! ### The search for a label -/

/-- Whether a label is the first candidate of a base that is not taken. -/
def IsFirstFree (taken : String → Prop) (base label : String) : Prop :=
  ∃ number, label = candidate base number ∧ ¬taken label ∧
    ∀ earlier < number, taken (candidate base earlier)

theorem IsFirstFree.isFree {taken : String → Prop} {base label : String}
    (first : IsFirstFree taken base label) : ¬taken label := by
  obtain ⟨_, _, isFree, _⟩ := first
  exact isFree

theorem IsFirstFree.congr {taken other : String → Prop} {base label : String}
    (first : IsFirstFree taken base label) (same : ∀ label, taken label ↔ other label) :
    IsFirstFree other base label := by
  obtain rfl : taken = other := funext fun label => propext (same label)
  exact first

/-- The search ends at a candidate behind those that are taken. If that is taken as well, so are all
that the search may come to. -/
theorem freshFrom_eq (base : String) (taken : List String) (count number : Nat) :
    ∃ last, freshFrom base taken count number = candidate base last ∧
      (∀ earlier, number ≤ earlier → earlier < last → candidate base earlier ∈ taken) ∧
      (candidate base last ∈ taken →
        ∀ offset ≤ count, candidate base (number + offset) ∈ taken) := by
  induction count generalizing number with
  | zero =>
    refine ⟨number, rfl, fun earlier above below => by omega, fun isTaken offset bound => ?_⟩
    rwa [Nat.le_zero.mp bound]
  | succ count ih =>
    rw [freshFrom]
    split
    · rename_i contained
      have isTaken : candidate base number ∈ taken := List.contains_iff_mem.mp contained
      obtain ⟨last, found, skipped, allTaken⟩ := ih (number + 1)
      refine ⟨last, found, fun earlier above below => ?_, fun lastIsTaken offset bound => ?_⟩
      · rcases Nat.eq_or_lt_of_le above with rfl | further
        · exact isTaken
        · exact skipped earlier further below
      · cases offset with
        | zero => exact isTaken
        | succ offset =>
          have isTaken := allTaken lastIsTaken offset (by omega)
          rwa [show number + (offset + 1) = number + 1 + offset by omega]
    · rename_i isFree
      exact ⟨number, rfl, fun earlier above below => by omega,
        fun isTaken => absurd (List.contains_iff_mem.mpr isTaken) isFree⟩

/-- A fresh label is the first candidate that is not taken: if the last one that the search comes to
was taken, there would be more candidates than labels taken among the labels taken. -/
theorem isFirstFree_freshLabel (base : String) (taken : List String) :
    IsFirstFree (· ∈ taken) base (freshLabel base taken) := by
  obtain ⟨last, found, skipped, allTaken⟩ := freshFrom_eq base taken taken.length 0
  rw [freshLabel, found]
  refine ⟨last, rfl, fun isTaken => ?_, fun earlier => skipped earlier (Nat.zero_le _)⟩
  have candidates : (List.range (taken.length + 1)).map (candidate base) ⊆ taken := by
    intro label member
    obtain ⟨number, inRange, rfl⟩ := List.mem_map.mp member
    have bound := List.mem_range.mp inRange
    have numbered := allTaken isTaken number (by omega)
    rwa [Nat.zero_add] at numbered
  have distinct : ((List.range (taken.length + 1)).map (candidate base)).Nodup :=
    List.nodup_range.map (candidate_injective base)
  have bound := distinct.length_le_of_subset candidates
  rw [List.length_map, List.length_range] at bound
  omega

/-! ### Candidates of candidates -/

/-- The labels that come from a base: the base, its candidates, their candidates, and so on. -/
inductive ComesFrom (base : String) : String → Prop
  | base : ComesFrom base base
  | candidate {label : String} (before : ComesFrom base label) (number : Nat) :
    ComesFrom base (candidate label number)

theorem ComesFrom.trans {first second third : String} (left : ComesFrom first second)
    (right : ComesFrom second third) : ComesFrom first third := by
  induction right with
  | base => exact left
  | candidate _ number ih => exact ih.candidate number

theorem IsFirstFree.comesFrom {taken : String → Prop} {base label : String}
    (first : IsFirstFree taken base label) : ComesFrom base label := by
  obtain ⟨number, rfl, _⟩ := first
  exact ComesFrom.base.candidate number

/-- What numbers do not change about a label holds of all labels that come from it. -/
theorem ComesFrom.keeps {base label : String} {property : String → Prop}
    (comes : ComesFrom base label) (holds : property base)
    (numbered : ∀ label number, property label → property (NameTable.candidate label (number + 1))) :
    property label := by
  induction comes with
  | base => exact holds
  | candidate before number ih =>
    cases number with
    | zero => exact ih
    | succ number => exact numbered _ number ih

end YulCheck.NameTable
