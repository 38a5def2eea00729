import GameSetup.Numeral.Decimal
import GameSetup.Proofs.Text.Runs
import Mathlib.Data.List.Basic

/-!
# Decimal integers that are written and read

An integer that is written in decimal is cut off again as it was written, whatever follows it, as
long as no digit does, and its sign and its digits have its value.
-/

namespace GameSetup.Numeral

section Digits

variable {c : Char}

/-- A decimal digit has its usual value. -/
theorem digitValue_of_isDigit (h : c.isDigit = true) : digitValue c = c.toNat - '0'.toNat := by
  simp only [Char.isDigit, Bool.and_eq_true, decide_eq_true_eq] at h
  exact if_pos ⟨h.1, h.2⟩

/-- The decimal digits are the characters from zero to nine. -/
theorem isDigitOf_ten (c : Char) : isDigitOf 10 c = c.isDigit := by
  rw [Bool.eq_iff_iff, isDigitOf, decide_eq_true_eq]
  constructor
  · intro h
    unfold digitValue at h
    split at h
    · next hdigit => exact Bool.and_eq_true_iff.mpr ⟨decide_eq_true hdigit.1, decide_eq_true hdigit.2⟩
    · split_ifs at h <;> omega
  · intro h
    rw [digitValue_of_isDigit h]
    simp only [Char.isDigit, Bool.and_eq_true, decide_eq_true_eq] at h
    have htop : c.toNat ≤ 57 := h.2
    have hzero : '0'.toNat = 48 := rfl
    omega

/-- The digits of a number are decimal digits. -/
theorem isDigitOf_of_mem_toDigits {n : Nat} (h : c ∈ Nat.toDigits 10 n) :
    isDigitOf 10 c = true := by
  rw [isDigitOf_ten]
  exact Nat.isDigit_of_mem_toDigits (by decide) (by decide) h

/-- The digits of a number have its value. -/
theorem valueOf_toDigits (n : Nat) : valueOf 10 (Nat.toDigits 10 n) = n := by
  calc
    valueOf 10 (Nat.toDigits 10 n) = Nat.ofDigitChars 10 (Nat.toDigits 10 n) 0 := by
      rw [valueOf, Nat.ofDigitChars_eq_foldl]
      refine List.foldl_ext _ _ _ fun value c hc => ?_
      rw [digitValue_of_isDigit (Nat.isDigit_of_mem_toDigits (by decide) (by decide) hc)]
    _ = n := Nat.ofDigitChars_ten_toDigits

/-- A blank is a digit of no radix. -/
theorem isDigitOf_of_isBlank {radix : Nat} (h : Text.isBlank c = true) (hradix : radix ≤ 16) :
    isDigitOf radix c = false := by
  have hvalue : digitValue c = 16 := by
    simp only [Text.isBlank, Bool.or_eq_true, beq_iff_eq] at h
    rcases h with ((((rfl | rfl) | rfl) | rfl) | rfl) | rfl <;> rfl
  exact decide_eq_false (by omega)

/-- So a digit is no blank. -/
theorem isBlank_of_isDigitOf {radix : Nat} (h : isDigitOf radix c = true)
    (hradix : radix ≤ 16 := by decide) : Text.isBlank c = false := by
  rw [Bool.eq_false_iff]
  intro hblank
  rw [isDigitOf_of_isBlank hblank hradix] at h
  cases h

/-- A digit is no sign. -/
theorem splitSign_of_isDigitOf (h : isDigitOf 10 c = true) (cs : List Char) :
    splitSign (c :: cs) = ([], c :: cs) := by
  unfold splitSign
  split
  · next heq =>
    cases heq
    exact absurd h (by decide)
  · next heq =>
    cases heq
    exact absurd h (by decide)
  · rfl

/-- In front of a digit, neither blanks nor a sign are cut off. -/
theorem decimalCut_of_isDigitOf (h : isDigitOf 10 c = true) (cs : List Char) :
    decimalCut (c :: cs) =
      ⟨[], [], [], (c :: cs).takeWhile (isDigitOf 10), (c :: cs).dropWhile (isDigitOf 10)⟩ := by
  have hblank := isBlank_of_isDigitOf h
  rw [decimalCut, Text.trimStart_cons_of_not_blank _ hblank, splitSign_of_isDigitOf h,
    List.takeWhile_cons_of_neg (by simp [hblank])]

end Digits

section Written

variable (value : Int) {rest : List Char}

/-- What is written for an integer, as characters. -/
theorem toList_decimalText :
    (decimalText value).toList =
      (if value < 0 then ['-'] else []) ++ Nat.toDigits 10 value.natAbs :=
  String.toList_ofList

/-- What is written for an integer are digits, and perhaps a minus sign. -/
theorem isDigitOf_of_mem_decimalText {c : Char} (h : c ∈ (decimalText value).toList) :
    c = '-' ∨ isDigitOf 10 c = true := by
  rw [toList_decimalText, List.mem_append] at h
  rcases h with hsign | hdigit
  · split at hsign
    · exact .inl (List.mem_singleton.mp hsign)
    · exact absurd hsign List.not_mem_nil
  · exact .inr (isDigitOf_of_mem_toDigits hdigit)

/-- A written integer is cut into its sign and its digits. -/
theorem decimalCut_decimalText (hrest : ∀ c ∈ rest.head?, isDigitOf 10 c = false) :
    decimalCut ((decimalText value).toList ++ rest) =
      ⟨[], if value < 0 then ['-'] else [], [], Nat.toDigits 10 value.natAbs, rest⟩ := by
  have hdigits : ∀ c ∈ Nat.toDigits 10 value.natAbs, isDigitOf 10 c = true := fun c hc =>
    isDigitOf_of_mem_toDigits hc
  have htake : (Nat.toDigits 10 value.natAbs ++ rest).takeWhile (isDigitOf 10) =
      Nat.toDigits 10 value.natAbs :=
    Text.takeWhile_run hdigits hrest
  have hdrop : (Nat.toDigits 10 value.natAbs ++ rest).dropWhile (isDigitOf 10) = rest :=
    Text.dropWhile_run hdigits hrest
  rw [toList_decimalText]
  split
  · exact congrArg₂ (Cut.mk [] ['-'] []) htake hdrop
  · obtain ⟨digit, digits, hcons⟩ := List.exists_cons_of_ne_nil
      (Nat.toDigits_ne_nil : Nat.toDigits 10 value.natAbs ≠ [])
    have hdigit := hdigits digit (hcons ▸ List.mem_cons_self)
    rw [hcons, List.cons_append] at htake hdrop
    rw [List.nil_append, hcons, List.cons_append, decimalCut_of_isDigitOf hdigit, htake, hdrop]

/-- The sign and the digits of an integer have its value. -/
theorem withSign_natAbs :
    withSign (if value < 0 then ['-'] else []) value.natAbs = value := by
  by_cases hneg : value < 0
  · rw [if_pos hneg, withSign, if_pos rfl]
    omega
  · rw [if_neg hneg, withSign, if_neg (by decide)]
    omega

end Written

end GameSetup.Numeral
