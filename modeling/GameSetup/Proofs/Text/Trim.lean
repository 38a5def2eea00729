import GameSetup.Proofs.Text.Runs
import GameSetup.Text.Blank

/-!
# Trimming a text

A text without the blanks around it does not depend on which side is trimmed first, and trimming
once is enough. What is left stands in the text between blanks, and nothing is dropped exactly if
there is no blank at either end.
-/

namespace GameSetup.Text

/-- A text without the blanks at either end. -/
def trim (cs : List Char) : List Char :=
  trimEnd (trimStart cs)

variable {c : Char} {cs before after : List Char}

/-- Nothing can be cut off an empty text. -/
@[simp] theorem trimEnd_nil : trimEnd [] = [] := rfl

/-- A first character goes only if it is blank and all that follows goes too. -/
theorem trimEnd_cons (c : Char) (cs : List Char) :
    trimEnd (c :: cs) = if trimEnd cs = [] ∧ isBlank c = true then [] else c :: trimEnd cs :=
  rdropWhile_cons isBlank c cs

/-- A first character that is no blank stays. -/
theorem trimEnd_cons_of_not_blank (h : isBlank c = false) (cs : List Char) :
    trimEnd (c :: cs) = c :: trimEnd cs := by
  rw [trimEnd_cons, if_neg (by simp [h])]

/-- The end of a text that has no blank at its end has none either. -/
theorem trimEnd_of_append {front back : List Char} (h : trimEnd (front ++ back) = front ++ back) :
    trimEnd back = back := by
  induction front with
  | nil => exact h
  | cons c front ih =>
    rw [List.cons_append, trimEnd_cons] at h
    split at h
    · cases h
    · exact ih (List.cons.inj h).2

/-- The blanks at the front are dropped before or after those at the end. -/
theorem trimStart_trimEnd (cs : List Char) : trimStart (trimEnd cs) = trim cs :=
  dropWhile_rdropWhile (fun _ h => h) cs

/-- What is left has no blank in front. -/
theorem not_blank_of_mem_head?_trimStart (h : c ∈ (trimStart cs).head?) : isBlank c = false :=
  not_of_mem_head?_dropWhile h

/-- A text without a blank in front is kept. -/
theorem trimStart_eq_self (h : ∀ c ∈ cs.head?, isBlank c = false) : trimStart cs = cs := by
  cases cs with
  | nil => rfl
  | cons c cs => exact trimStart_cons_of_not_blank cs (h c rfl)

/-- Blanks in front are cut off at once. -/
@[simp] theorem trimStart_trimStart (cs : List Char) : trimStart (trimStart cs) = trimStart cs :=
  trimStart_eq_self fun _ => not_blank_of_mem_head?_trimStart

/-- So are blanks at the end. -/
@[simp] theorem trimEnd_trimEnd (cs : List Char) : trimEnd (trimEnd cs) = trimEnd cs :=
  List.rdropWhile_idempotent isBlank cs

/-- Cutting off both ends includes the front. -/
@[simp] theorem trim_trimStart (cs : List Char) : trim (trimStart cs) = trim cs := by
  rw [trim, trimStart_trimStart, trim]

/-- It includes the end. -/
@[simp] theorem trim_trimEnd (cs : List Char) : trim (trimEnd cs) = trim cs := by
  rw [trim, trimStart_trimEnd, trim, trimEnd_trimEnd]

/-- Then there is none in front. -/
@[simp] theorem trimStart_trim (cs : List Char) : trimStart (trim cs) = trim cs := by
  rw [trim, trimStart_trimEnd, trim_trimStart, trim]

/-- And there is none at the end. -/
@[simp] theorem trimEnd_trim (cs : List Char) : trimEnd (trim cs) = trim cs :=
  trimEnd_trimEnd _

/-- So nothing is left to cut off. -/
@[simp] theorem trim_trim (cs : List Char) : trim (trim cs) = trim cs :=
  (trim_trimEnd _).trans (trim_trimStart cs)

/-- A text without a blank in front is trimmed at its end alone. -/
theorem trim_cons_of_not_blank (h : isBlank c = false) (cs : List Char) :
    trim (c :: cs) = c :: trimEnd cs := by
  rw [trim, trimStart_cons_of_not_blank _ h, trimEnd_cons_of_not_blank h]

/-- A blank in front is dropped. -/
theorem trim_cons_of_blank (h : isBlank c = true) (cs : List Char) : trim (c :: cs) = trim cs := by
  rw [trim, trimStart_cons_of_blank _ h, trim]

/-- Blanks in front of a text are dropped. -/
theorem trimStart_append (h : onlyBlank before = true) (cs : List Char) :
    trimStart (before ++ cs) = trimStart cs :=
  List.dropWhile_append_of_pos (List.all_eq_true.mp h)

/-- Blanks at the end of a text are dropped. -/
theorem trimEnd_append (cs : List Char) (h : onlyBlank after = true) :
    trimEnd (cs ++ after) = trimEnd cs := by
  have hall : ∀ c ∈ after.reverse, isBlank c = true := fun c hc =>
    List.all_eq_true.mp h c (List.mem_reverse.mp hc)
  rw [trimEnd, List.reverse_append, List.dropWhile_append_of_pos hall, trimEnd]

/-- Blanks on either side of a text are dropped. -/
theorem trim_append (hbefore : onlyBlank before = true) (cs : List Char)
    (hafter : onlyBlank after = true) : trim (before ++ cs ++ after) = trim cs := by
  rw [← trimStart_trimEnd, trimEnd_append _ hafter, trimStart_trimEnd, trim,
    trimStart_append hbefore, ← trim]

/-- A text without a blank at its end is kept. -/
theorem trimEnd_eq_self (h : ∀ c ∈ cs.getLast?, isBlank c = false) : trimEnd cs = cs := by
  rw [← List.head?_reverse] at h
  have hkept : trimStart cs.reverse = cs.reverse := trimStart_eq_self h
  rw [trimEnd, ← trimStart, hkept, List.reverse_reverse]

/-- The last character that is left is no blank. -/
theorem not_blank_of_mem_getLast?_trimEnd (h : c ∈ (trimEnd cs).getLast?) : isBlank c = false := by
  rw [trimEnd, List.getLast?_reverse] at h
  exact not_of_mem_head?_dropWhile h

/-- A text is kept exactly if there is no blank at either end. -/
theorem trim_eq_self_iff :
    trim cs = cs ↔
      (∀ c ∈ cs.head?, isBlank c = false) ∧ ∀ c ∈ cs.getLast?, isBlank c = false := by
  constructor
  · intro h
    have hstart : trimStart cs = cs := by rw [← h, trimStart_trim]
    have hend : trimEnd cs = cs := by rw [← h, trimEnd_trim]
    exact ⟨fun c hc => not_blank_of_mem_head?_trimStart (hstart.symm ▸ hc),
      fun c hc => not_blank_of_mem_getLast?_trimEnd (hend.symm ▸ hc)⟩
  · rintro ⟨hfirst, hlast⟩
    rw [trim, trimStart_eq_self hfirst, trimEnd_eq_self hlast]

/-- A text without blanks is kept. -/
theorem trim_eq_self (h : ∀ c ∈ cs, isBlank c = false) : trim cs = cs :=
  trim_eq_self_iff.mpr
    ⟨fun c hc => h c (List.mem_of_mem_head? hc), fun c hc => h c (List.mem_of_mem_getLast? hc)⟩

/-- What is dropped at the end are blanks. -/
theorem exists_trimEnd_append (cs : List Char) :
    ∃ after, onlyBlank after = true ∧ trimEnd cs ++ after = cs :=
  ⟨cs.rtakeWhile isBlank, List.all_eq_true.mpr fun _ => List.mem_rtakeWhile_imp,
    List.rdropWhile_append_rtakeWhile⟩

/-- What is dropped on either side are blanks. -/
theorem exists_append_trim_append (cs : List Char) :
    ∃ before after, onlyBlank before = true ∧ onlyBlank after = true ∧
      before ++ trim cs ++ after = cs := by
  obtain ⟨after, hafter, happend⟩ := exists_trimEnd_append (trimStart cs)
  refine ⟨cs.takeWhile isBlank, after, List.all_takeWhile, hafter, ?_⟩
  rw [List.append_assoc, trim, happend, takeWhile_append_trimStart]

/-- So what is left stands in the text. -/
theorem trim_isInfix (cs : List Char) : trim cs <:+: cs := by
  obtain ⟨before, after, -, -, happend⟩ := exists_append_trim_append cs
  exact ⟨before, after, happend⟩

/-- Nothing but blanks is left of a text that is trimmed to nothing. -/
theorem onlyBlank_iff_trimEnd_eq_nil : onlyBlank cs = true ↔ trimEnd cs = [] := by
  rw [onlyBlank, List.all_eq_true]
  exact List.rdropWhile_eq_nil_iff.symm

/-- A text is blank if it is without its last blanks. -/
@[simp] theorem onlyBlank_trimEnd (cs : List Char) : onlyBlank (trimEnd cs) = onlyBlank cs := by
  rw [Bool.eq_iff_iff, onlyBlank_iff_trimEnd_eq_nil, onlyBlank_iff_trimEnd_eq_nil, trimEnd_trimEnd]

end GameSetup.Text
