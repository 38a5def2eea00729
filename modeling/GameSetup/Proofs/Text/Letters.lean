import GameSetup.Numeral.Digits
import GameSetup.Proofs.Text.Trim
import GameSetup.Text.Alphabetic

/-!
# Capitals and small letters

Keywords and names are read without regard to the case of the letters of the basic alphabet. So a
text can be read in small letters throughout: what makes no difference between a capital and its
small letter makes none between a text and the same text in small letters.
-/

namespace GameSetup.Text

/-- A text in small letters. -/
def lower (cs : List Char) : List Char :=
  cs.map Char.toLower

section Letters

variable {β : Type} {f : Char → β} {c : Char}

/-- What does not tell the capitals from their small letters does not see the change to small
letters. -/
theorem apply_toLower (h : ∀ n : Fin 26, f (Char.ofNat (97 + n)) = f (Char.ofNat (65 + n)))
    (c : Char) : f c.toLower = f c := by
  by_cases hcapital : c.val ≥ 'A'.val ∧ c.val ≤ 'Z'.val
  · have hsmall : ∀ n : Fin 26, (Char.ofNat (65 + n)).toLower = Char.ofNat (97 + n) := by decide
    have hlow : 65 ≤ c.toNat := UInt32.le_iff_toNat_le.mp hcapital.1
    have hhigh : c.toNat ≤ 90 := UInt32.le_iff_toNat_le.mp hcapital.2
    have hletter := h ⟨c.toNat - 65, by omega⟩
    rwa [← hsmall, Nat.add_sub_cancel' hlow, Char.ofNat_toNat] at hletter
  · exact congrArg f (dif_neg hcapital)

/-- A blank is one in either case. -/
@[simp] theorem isBlank_toLower (c : Char) : isBlank c.toLower = isBlank c :=
  apply_toLower (by decide) c

/-- A letter is one in either case. -/
@[simp] theorem isAlphabetic_toLower (c : Char) : isAlphabetic c.toLower = isAlphabetic c :=
  apply_toLower (by decide) c

/-- A digit has its value in either case. -/
@[simp] theorem digitValue_toLower (c : Char) :
    Numeral.digitValue c.toLower = Numeral.digitValue c :=
  apply_toLower (by decide) c

/-- Small letters stay as they are. -/
@[simp] theorem toLower_toLower (c : Char) : c.toLower.toLower = c.toLower :=
  apply_toLower (by decide) c

/-- What holds of the 26 small letters. -/
theorem forall_of_isLower {p : Char → Prop} (h : ∀ n : Fin 26, p (Char.ofNat (97 + n)))
    (hlower : c.isLower = true) : p c := by
  obtain ⟨hfrom, hto⟩ := Bool.and_eq_true_iff.mp hlower
  have hlow : 97 ≤ c.toNat := UInt32.le_iff_toNat_le.mp (of_decide_eq_true hfrom)
  have hhigh : c.toNat ≤ 122 := UInt32.le_iff_toNat_le.mp (of_decide_eq_true hto)
  have hletter := h ⟨c.toNat - 97, by omega⟩
  rwa [Nat.add_sub_cancel' hlow, Char.ofNat_toNat] at hletter

/-- A small letter is no blank, is alphabetic, and stays as it is. -/
theorem of_isLower (h : c.isLower = true) :
    isBlank c = false ∧ isAlphabetic c = true ∧ c.toLower = c :=
  forall_of_isLower
    (p := fun c => isBlank c = false ∧ isAlphabetic c = true ∧ c.toLower = c) (by decide) h

/-- A blank is not alphabetic. -/
theorem isAlphabetic_of_isBlank (h : isBlank c = true) : isAlphabetic c = false := by
  simp only [isBlank, Bool.or_eq_true, beq_iff_eq] at h
  rcases h with ((((rfl | rfl) | rfl) | rfl) | rfl) | rfl <;> decide

/-- A character that is no letter stands for itself alone. -/
theorem toLower_eq_iff {mark : Char}
    (h : ∀ n : Fin 26, Char.ofNat (97 + n) ≠ mark ∧ Char.ofNat (65 + n) ≠ mark) :
    c.toLower = mark ↔ c = mark := by
  have hsame := apply_toLower (f := (· == mark))
    (fun n => (beq_false_of_ne (h n).1).trans (beq_false_of_ne (h n).2).symm) c
  rw [← beq_iff_eq, hsame, beq_iff_eq]

end Letters

variable {cs : List Char}

/-- An empty text has no capitals. -/
@[simp] theorem lower_nil : lower [] = [] := rfl

/-- The first character is lowered by itself. -/
@[simp] theorem lower_cons (c : Char) (cs : List Char) :
    lower (c :: cs) = c.toLower :: lower cs := rfl

/-- Two parts are lowered by themselves. -/
@[simp] theorem lower_append (front back : List Char) :
    lower (front ++ back) = lower front ++ lower back :=
  List.map_append

/-- A lowered text has no capitals left. -/
@[simp] theorem lower_lower (cs : List Char) : lower (lower cs) = lower cs := by
  simp [lower]

/-- What does not depend on the case drops the same characters. -/
theorem dropWhile_lower {p : Char → Bool} (hp : ∀ c, p c.toLower = p c) (cs : List Char) :
    (lower cs).dropWhile p = lower (cs.dropWhile p) := by
  rw [lower, List.dropWhile_map, show p ∘ Char.toLower = p from funext hp, lower]

/-- What holds of all characters, whatever their case, still does. -/
theorem forall_mem_lower {p : Char → Prop} (hp : ∀ c, p c → p c.toLower) (h : ∀ c ∈ cs, p c) :
    ∀ c ∈ lower cs, p c :=
  List.forall_mem_map.mpr fun c hc => hp c (h c hc)

/-- So does what holds of the first one. -/
theorem forall_mem_head?_lower {p : Char → Prop} (hp : ∀ c, p c → p c.toLower)
    (h : ∀ c ∈ cs.head?, p c) : ∀ c ∈ (lower cs).head?, p c := by
  cases cs with
  | nil => exact h
  | cons c cs =>
    rintro _ ⟨⟩
    exact hp c (h c rfl)

/-- Blanks are cut off in front in either case. -/
@[simp] theorem trimStart_lower (cs : List Char) : trimStart (lower cs) = lower (trimStart cs) :=
  dropWhile_lower isBlank_toLower cs

/-- So they are at the end. -/
@[simp] theorem trimEnd_lower (cs : List Char) : trimEnd (lower cs) = lower (trimEnd cs) := by
  rw [trimEnd, lower, ← List.map_reverse, ← lower, dropWhile_lower isBlank_toLower, lower,
    ← List.map_reverse, ← lower, trimEnd]

/-- So they are at both ends. -/
@[simp] theorem trim_lower (cs : List Char) : trim (lower cs) = lower (trim cs) := by
  rw [trim, trimStart_lower, trimEnd_lower, trim]

/-- A text is blank in either case. -/
@[simp] theorem onlyBlank_lower (cs : List Char) : onlyBlank (lower cs) = onlyBlank cs := by
  rw [onlyBlank, lower, List.all_map, show isBlank ∘ Char.toLower = isBlank from
    funext isBlank_toLower, onlyBlank]

end GameSetup.Text
