/-! # Ascending lists

Finite sets as strictly ascending lists: the order in which elements were added never shows.
-/

namespace YulCheck.AscendingList

variable {α : Type} [LT α] [DecidableLT α]

/-- The set with one more element. -/
def insert (element : α) : List α → List α
  | [] => [element]
  | head :: tail =>
    if element < head then element :: head :: tail
    else if head < element then head :: insert element tail
    else head :: tail

/-- The set of the elements of a list. -/
def ofList (elements : List α) : List α :=
  elements.foldr insert []

/-! ### The elements and their order -/

theorem mem_insert [Std.Trichotomous (fun left right : α => left < right)] {element other : α}
    {elements : List α} : other ∈ insert element elements ↔ other = element ∨ other ∈ elements := by
  induction elements with
  | nil => simp [insert]
  | cons head tail ih =>
    rw [insert]
    split
    · simp
    · split
      · simp only [List.mem_cons, ih]
        exact or_left_comm
      · rename_i notLess notGreater
        have same : element = head :=
          Std.Trichotomous.trichotomous (r := fun left right : α => left < right) _ _ notLess notGreater
        simp [same]

theorem mem_ofList [Std.Trichotomous (fun left right : α => left < right)] {element : α}
    {elements : List α} : element ∈ ofList elements ↔ element ∈ elements := by
  induction elements with
  | nil => simp [ofList]
  | cons head tail ih =>
    simp only [ofList, List.foldr_cons, mem_insert, List.mem_cons] at ih ⊢
    rw [ih]

/-- Inserting keeps a list ascending. -/
theorem pairwise_insert [Std.Trichotomous (fun left right : α => left < right)]
    [Trans (fun left right : α => left < right) (fun left right : α => left < right)
      (fun left right : α => left < right)] {element : α} {elements : List α}
    (ascending : elements.Pairwise (· < ·)) : (insert element elements).Pairwise (· < ·) := by
  induction elements with
  | nil => simp [insert]
  | cons head tail ih =>
    rw [List.pairwise_cons] at ascending
    rw [insert]
    split
    · rename_i less
      refine List.pairwise_cons.mpr ⟨?_, List.pairwise_cons.mpr ascending⟩
      intro other member
      rcases List.mem_cons.mp member with rfl | member
      · exact less
      · exact Trans.trans less (ascending.1 other member)
    · split
      · rename_i greater
        refine List.pairwise_cons.mpr ⟨?_, ih ascending.2⟩
        intro other member
        rcases mem_insert.mp member with rfl | member
        · exact greater
        · exact ascending.1 other member
      · exact List.pairwise_cons.mpr ascending

theorem pairwise_ofList [Std.Trichotomous (fun left right : α => left < right)]
    [Trans (fun left right : α => left < right) (fun left right : α => left < right)
      (fun left right : α => left < right)] (elements : List α) :
    (ofList elements).Pairwise (· < ·) := by
  induction elements with
  | nil => exact List.Pairwise.nil
  | cons head tail ih => exact pairwise_insert ih

end YulCheck.AscendingList
