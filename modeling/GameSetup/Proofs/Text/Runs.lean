import Mathlib.Data.List.DropRight

/-!
# Runs at the ends of a list

A run of elements of one kind, followed by something else, is what is cut off at the front. A run
at the end can be cut off before or after a run at the front. Where some elements have a result and
others have none, the last result is that of the last element that has one.
-/

namespace GameSetup.Text

variable {α : Type} {p : α → Bool}

/-- A run that something else follows is what is taken. -/
theorem takeWhile_run {run rest : List α} (hrun : ∀ a ∈ run, p a = true)
    (hrest : ∀ a ∈ rest.head?, p a = false) : (run ++ rest).takeWhile p = run := by
  rw [List.takeWhile_append_of_pos hrun]
  cases rest with
  | nil => exact List.append_nil run
  | cons a rest => rw [List.takeWhile_cons_of_neg (by simp [hrest a rfl]), List.append_nil]

/-- What follows a run is left when the run is dropped. -/
theorem dropWhile_run {run rest : List α} (hrun : ∀ a ∈ run, p a = true)
    (hrest : ∀ a ∈ rest.head?, p a = false) : (run ++ rest).dropWhile p = rest := by
  rw [List.dropWhile_append_of_pos hrun]
  cases rest with
  | nil => rfl
  | cons a rest => rw [List.dropWhile_cons_of_neg (by simp [hrest a rfl])]

/-- What is left has something else in front. -/
theorem not_of_mem_head?_dropWhile {list : List α} {a : α} (h : a ∈ (list.dropWhile p).head?) :
    p a = false := by
  have hstop := List.head?_dropWhile_not p list
  rwa [Option.mem_def.mp h] at hstop

/-- A first element goes with the run at the end only if it belongs to it and nothing else is
left. -/
theorem rdropWhile_cons (p : α → Bool) (a : α) (list : List α) :
    (a :: list).rdropWhile p =
      if list.rdropWhile p = [] ∧ p a = true then [] else a :: list.rdropWhile p := by
  simp only [List.rdropWhile, List.reverse_cons, List.dropWhile_append, List.reverse_eq_nil_iff,
    List.isEmpty_iff]
  by_cases hrest : list.reverse.dropWhile p = []
  · by_cases ha : p a = true <;> simp [hrest, ha]
  · simp [hrest]

/-- Cutting off a run at the end commutes with cutting off one at the front that it may belong
to. -/
theorem dropWhile_rdropWhile {q : α → Bool} (hpq : ∀ a, p a = true → q a = true) (list : List α) :
    (list.rdropWhile p).dropWhile q = (list.dropWhile q).rdropWhile p := by
  induction list with
  | nil => rfl
  | cons a list ih =>
    by_cases ha : q a = true
    · rw [List.dropWhile_cons_of_pos ha, ← ih, rdropWhile_cons]
      split
      · next hall => rw [hall.1]
      · exact List.dropWhile_cons_of_pos ha
    · have hkept : ¬ p a = true := fun hpa => ha (hpq a hpa)
      rw [List.dropWhile_cons_of_neg ha, rdropWhile_cons, if_neg fun hall => hkept hall.2,
        List.dropWhile_cons_of_neg ha]

/-- The last of some results, one more candidate included. -/
theorem getLast?_filterMap_concat {β : Type} (result? : α → Option β) (candidates : List α)
    (candidate : α) :
    ((candidates ++ [candidate]).filterMap result?).getLast? =
      (result? candidate).or (candidates.filterMap result?).getLast? := by
  rw [List.filterMap_append]
  cases hresult : result? candidate <;> simp [hresult]

end GameSetup.Text
