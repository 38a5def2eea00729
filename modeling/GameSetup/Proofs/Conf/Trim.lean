import GameSetup.Proofs.Text.Runs
import GameSetup.Text.Blank

/-!
# Trimming bytes

The parts of a configuration are kept without the blanks around them. Trimming the end commutes with
dropping a prefix, as long as the prefix is made of bytes among which the blanks are. So it does not
matter whether a line is trimmed before it is cut at its marks or after.
-/

namespace GameSetup.Conf.Grammar

/-- The text without the blanks at its end. -/
def trimEnd (text : List UInt8) : List UInt8 :=
  text.rdropWhile Text.isBlankByte

/-- The text without the blanks at either end. -/
def trim (text : List UInt8) : List UInt8 :=
  trimEnd (text.dropWhile Text.isBlankByte)

/-- Nothing can be cut off an empty text. -/
@[simp] theorem trimEnd_nil : trimEnd [] = [] := rfl

/-- A blank at the end is dropped. -/
theorem trimEnd_concat_of_blank {byte : UInt8} (text : List UInt8)
    (h : Text.isBlankByte byte = true) : trimEnd (text ++ [byte]) = trimEnd text :=
  List.rdropWhile_concat_pos _ _ _ h

/-- A text that ends with anything else is kept whole. -/
theorem trimEnd_concat_of_not_blank {byte : UInt8} (text : List UInt8)
    (h : Text.isBlankByte byte = false) : trimEnd (text ++ [byte]) = text ++ [byte] :=
  List.rdropWhile_concat_neg _ _ _ (by simp [h])

/-- Nothing but the end of a text is dropped. -/
theorem trimEnd_isPrefix (text : List UInt8) : trimEnd text <+: text :=
  List.rdropWhile_prefix _ _

/-- A first byte goes only if it is blank and all that follows goes too. -/
theorem trimEnd_cons (byte : UInt8) (text : List UInt8) :
    trimEnd (byte :: text) =
      if trimEnd text = [] ∧ Text.isBlankByte byte = true then [] else byte :: trimEnd text :=
  Text.rdropWhile_cons Text.isBlankByte byte text

/-- A first byte that is not blank stays. -/
theorem trimEnd_cons_of_not_blank {byte : UInt8} (text : List UInt8)
    (h : Text.isBlankByte byte = false) : trimEnd (byte :: text) = byte :: trimEnd text := by
  rw [trimEnd_cons, if_neg (by simp [h])]

/-- What is trimmed stays as it is. -/
theorem trimEnd_trimEnd (text : List UInt8) : trimEnd (trimEnd text) = trimEnd text :=
  List.rdropWhile_idempotent _ _

/-- The front of a text does not see how far its rest is trimmed. -/
theorem trimEnd_append_congr (front : List UInt8) {text other : List UInt8}
    (h : trimEnd text = trimEnd other) : trimEnd (front ++ text) = trimEnd (front ++ other) := by
  induction front with
  | nil => exact h
  | cons byte front ih => rw [List.cons_append, List.cons_append, trimEnd_cons, trimEnd_cons, ih]

section Prefixes

variable {p : UInt8 → Bool}

/-- Trimming commutes with dropping a prefix that blanks may belong to. -/
theorem dropWhile_trimEnd (hp : ∀ byte, Text.isBlankByte byte = true → p byte = true)
    (text : List UInt8) : (trimEnd text).dropWhile p = trimEnd (text.dropWhile p) :=
  Text.dropWhile_rdropWhile hp text

/-- A prefix that blanks may belong to is the same, up to its own end, in the trimmed text. -/
theorem trimEnd_takeWhile_trimEnd (hp : ∀ byte, Text.isBlankByte byte = true → p byte = true)
    (text : List UInt8) : trimEnd ((trimEnd text).takeWhile p) = trimEnd (text.takeWhile p) := by
  induction text with
  | nil => rfl
  | cons byte text ih =>
    by_cases hbyte : p byte = true
    · rw [List.takeWhile_cons_of_pos hbyte, trimEnd_cons, trimEnd_cons, ← ih]
      split
      · next hall =>
        rw [hall.1, List.takeWhile_nil, trimEnd_nil, if_pos ⟨rfl, hall.2⟩]
      · rw [List.takeWhile_cons_of_pos hbyte, trimEnd_cons]
    · have hsolid : Text.isBlankByte byte = false := by
        rw [Bool.eq_false_iff]
        exact fun hblank => hbyte (hp byte hblank)
      rw [List.takeWhile_cons_of_neg hbyte, trimEnd_cons_of_not_blank text hsolid,
        List.takeWhile_cons_of_neg hbyte]

end Prefixes

/-- Trimming both ends sees no difference when the end has been trimmed before. -/
theorem trim_congr {text other : List UInt8} (h : trimEnd text = trimEnd other) :
    trim text = trim other := by
  rw [trim, trim, ← dropWhile_trimEnd fun _ hblank => hblank, h,
    dropWhile_trimEnd fun _ hblank => hblank]

/-- A text whose first byte is not blank is trimmed at its end alone. -/
theorem trim_cons_of_not_blank {byte : UInt8} (text : List UInt8)
    (h : Text.isBlankByte byte = false) : trim (byte :: text) = trimEnd (byte :: text) := by
  rw [trim, List.dropWhile_cons_of_neg (by simp [h])]

/-- A first blank is dropped. -/
theorem trim_cons_of_blank {byte : UInt8} (text : List UInt8)
    (h : Text.isBlankByte byte = true) : trim (byte :: text) = trim text := by
  rw [trim, List.dropWhile_cons_of_pos h, ← trim]

end GameSetup.Conf.Grammar
