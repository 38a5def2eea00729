/-!
# Entries under keys

A list of keys with what is kept under each of them, in the order in which the keys were first
entered. Entering a key again changes what is kept there, and leaves the order alone.
-/

namespace GameSetup.Keyed

variable {β : Type}

/-- Enters something under a key: in the place of the entry that has the key, else at the end. -/
def enter (key : String) (update : Option β → β) : List (String × β) → List (String × β)
  | [] => [(key, update none)]
  | (k, old) :: rest =>
    if k = key then (k, update (some old)) :: rest else (k, old) :: enter key update rest

/-- What was entered under a key is found under it. -/
theorem lookup_enter_self (key : String) (update : Option β → β) (entries : List (String × β)) :
    (enter key update entries).lookup key = some (update (entries.lookup key)) := by
  induction entries with
  | nil => simp [enter]
  | cons entry rest ih =>
    obtain ⟨k, old⟩ := entry
    by_cases h : k = key
    · subst h
      simp [enter]
    · have h' : (key == k) = false := by simpa using fun e => h e.symm
      simp [enter, h, List.lookup_cons, h', ih]

/-- Other keys keep what they had. -/
theorem lookup_enter_of_ne {key other : String} (h : other ≠ key) (update : Option β → β)
    (entries : List (String × β)) :
    (enter key update entries).lookup other = entries.lookup other := by
  have hne : (other == key) = false := by simpa using h
  induction entries with
  | nil => simp [enter, List.lookup_cons, hne]
  | cons entry rest ih =>
    obtain ⟨k, old⟩ := entry
    by_cases hk : k = key
    · subst hk
      simp [enter, List.lookup_cons, hne]
    · simp [enter, hk, List.lookup_cons, ih]

end GameSetup.Keyed
