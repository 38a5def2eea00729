import GameSetup.Proofs.Numeral.Decimal
import GameSetup.Proofs.Numeral.Radix

/-!
# Which decimal integers are read

A text starts with a decimal integer if digits follow the blanks in front and an optional sign. The
digits go on as long as they can, so there is one such integer or none. It is read exactly if its
value is one of 32 bits; a value outside is told apart from digits that are missing.
-/

namespace GameSetup.Numeral

/-- The parts of a text that starts with a decimal integer: all blanks in front, the sign, the
longest run of digits, of which there is one at least, and the rest. -/
structure IsDecimalCut (text : List Char) (cut : Cut) : Prop where
  taken_append_rest : cut.taken ++ cut.rest = text
  blank : ∀ c ∈ cut.blank, Text.isBlank c = true
  sign : cut.sign = [] ∨ cut.sign = ['+'] ∨ cut.sign = ['-']
  mark : cut.mark = []
  digits_ne_nil : cut.digits ≠ []
  digits : ∀ c ∈ cut.digits, c.isDigit = true
  digits_stop : ∀ c ∈ cut.rest.head?, c.isDigit = false

section Cuts

variable {text sign rest : List Char} {cut : Cut}

/-- A sign is a single character or missing. -/
theorem Signed.eq_or_eq_or_eq (h : Signed sign rest) : sign = [] ∨ sign = ['+'] ∨ sign = ['-'] := by
  cases h with
  | plus => exact .inr (.inl rfl)
  | minus => exact .inr (.inr rfl)
  | unsigned => exact .inl rfl

namespace IsDecimalCut

/-- There is a first digit. -/
theorem exists_digit (h : IsDecimalCut text cut) :
    ∃ digit digits, cut.digits = digit :: digits ∧ isDigitOf 10 digit = true := by
  obtain ⟨digit, digits, hcons⟩ := List.exists_cons_of_ne_nil h.digits_ne_nil
  refine ⟨digit, digits, hcons, ?_⟩
  rw [isDigitOf_ten]
  exact h.digits digit (hcons ▸ List.mem_cons_self)

/-- The digits start right behind the sign. -/
theorem signed (h : IsDecimalCut text cut) : Signed cut.sign (cut.digits ++ cut.rest) := by
  rcases h.sign with hsign | hsign | hsign <;> rw [hsign]
  · obtain ⟨digit, digits, hcons, hdigit⟩ := h.exists_digit
    rw [hcons]
    refine .unsigned fun c hc => ?_
    rw [← Option.mem_some.mp hc]
    constructor <;> rintro rfl <;> exact absurd hdigit (by decide)
  · exact .plus _
  · exact .minus _

/-- All blanks in front are taken. -/
theorem blank_stop (h : IsDecimalCut text cut) :
    ∀ c ∈ (cut.sign ++ (cut.digits ++ cut.rest)).head?, Text.isBlank c = false := by
  obtain ⟨digit, digits, hcons, hdigit⟩ := h.exists_digit
  intro c hc
  rcases h.sign with hsign | hsign | hsign <;> rw [hsign] at hc
  · rw [hcons] at hc
    exact Option.mem_some.mp hc ▸ isBlank_of_isDigitOf hdigit
  · exact Option.mem_some.mp hc ▸ rfl
  · exact Option.mem_some.mp hc ▸ rfl

/-- All that an integer takes of a text are among the first 128 characters. -/
theorem toNat_lt (h : IsDecimalCut text cut) : ∀ c ∈ cut.taken, c.toNat < 0x80 := by
  intro c hc
  simp only [Cut.taken, h.mark, List.append_nil, List.mem_append] at hc
  rcases hc with (hc | hc) | hc
  · exact toNat_lt_of_isBlank (h.blank c hc)
  · exact h.signed.toNat_lt c hc
  · have hdigit := h.digits c hc
    rw [← isDigitOf_ten] at hdigit
    exact toNat_lt_of_isDigitOf (by decide) hdigit

/-- What an integer takes of a text is one byte a character. -/
theorem used_eq (h : IsDecimalCut text cut) :
    cut.used = (Text.Utf8.encode (String.ofList cut.taken)).length :=
  Cut.used_eq h.toNat_lt

end IsDecimalCut

/-- A text has one such cut if it has any, and it is the one that is made. -/
theorem isDecimalCut_iff : IsDecimalCut text cut ↔ decimalCut text = cut ∧ cut.digits ≠ [] := by
  constructor
  · intro h
    have htext : text = cut.blank ++ (cut.sign ++ (cut.digits ++ cut.rest)) := by
      rw [← h.taken_append_rest, Cut.taken, h.mark]
      simp only [List.append_nil, List.append_assoc]
    have hstart : Text.trimStart text = cut.sign ++ (cut.digits ++ cut.rest) := by
      rw [htext]
      exact Text.dropWhile_run h.blank h.blank_stop
    have hfront : text.takeWhile Text.isBlank = cut.blank := by
      rw [htext]
      exact Text.takeWhile_run h.blank h.blank_stop
    have hdigits : ∀ c ∈ cut.digits, isDigitOf 10 c = true := fun c hc => by
      rw [isDigitOf_ten, h.digits c hc]
    have hstop : ∀ c ∈ cut.rest.head?, isDigitOf 10 c = false := fun c hc => by
      rw [isDigitOf_ten, h.digits_stop c hc]
    have hmark := h.mark
    refine ⟨?_, h.digits_ne_nil⟩
    simp only [decimalCut, hstart, hfront, splitSign_of_signed h.signed,
      Text.takeWhile_run hdigits hstop, Text.dropWhile_run hdigits hstop, ← hmark]
  · intro h
    obtain ⟨rfl, hne⟩ := h
    refine ⟨decimalCut_taken_append_rest text, fun _ => List.mem_takeWhile_imp,
      (signed_splitSign (Text.trimStart text)).eq_or_eq_or_eq, rfl, hne, fun c hc => ?_,
      fun c hc => ?_⟩
    · rw [← isDigitOf_ten]
      exact isDigitOf_of_mem_digits hc
    · rw [← isDigitOf_ten]
      exact Text.not_of_mem_head?_dropWhile hc

/-- A written integer is cut off, whatever follows it but another digit. -/
theorem isDecimalCut_decimalText (value : Int)
    (hrest : ∀ c ∈ rest.head?, isDigitOf 10 c = false) :
    IsDecimalCut ((decimalText value).toList ++ rest)
      ⟨[], if value < 0 then ['-'] else [], [], Nat.toDigits 10 value.natAbs, rest⟩ :=
  isDecimalCut_iff.mpr ⟨decimalCut_decimalText value hrest, Nat.toDigits_ne_nil⟩

/-- It has the value that was written. -/
theorem value_decimalText (value : Int) (rest : List Char) :
    Cut.value 10
      ⟨[], if value < 0 then ['-'] else [], [], Nat.toDigits 10 value.natAbs, rest⟩ = value := by
  rw [Cut.value, ← valueOf_eq_ofDigits, valueOf_toDigits, withSign_natAbs]

end Cuts

section Reading

variable {cs : List Char} {cut : Cut}

/-- The integers of 32 bits lie between minus two to the thirty-first and one less than two to the
thirty-first. -/
theorem fitsInt32_iff {value : Int} :
    fitsInt32 value = true ↔ -2 ^ 31 ≤ value ∧ value ≤ 2 ^ 31 - 1 := by
  simp only [fitsInt32, Bool.and_eq_true, decide_eq_true_eq]
  omega

/-- A text that starts with an integer is read if the integer fits. -/
theorem IsDecimalCut.leadingDecimal_eq (h : IsDecimalCut cs cut) :
    leadingDecimal cs =
      if fitsInt32 (cut.value 10) then .ok (Int32.ofInt (cut.value 10), cut)
      else .error .overflow := by
  obtain ⟨rfl, hne⟩ := isDecimalCut_iff.mp h
  rw [leadingDecimal, if_neg (by simpa using hne), Cut.value, ← valueOf_eq_ofDigits]

/-- A text that does not is refused for want of digits. -/
theorem leadingDecimal_of_forall_not (h : ∀ cut, ¬ IsDecimalCut cs cut) :
    leadingDecimal cs = .error .noDigits := by
  have hnil : (decimalCut cs).digits = [] := by
    by_contra hne
    exact h _ (isDecimalCut_iff.mpr ⟨rfl, hne⟩)
  rw [leadingDecimal, if_pos (by simp [hnil])]

/-- Every text starts with an integer that is read, with one that is too large, or with none. -/
theorem leadingDecimal_cases (cs : List Char) :
    (∃ number cut, leadingDecimal cs = .ok (number, cut) ∧ IsDecimalCut cs cut ∧
        cut.value 10 = number.toInt) ∨
      (∃ cut, leadingDecimal cs = .error .overflow ∧ IsDecimalCut cs cut ∧
        ¬ (-2 ^ 31 ≤ cut.value 10 ∧ cut.value 10 ≤ 2 ^ 31 - 1)) ∨
      leadingDecimal cs = .error .noDigits ∧ ∀ cut, ¬ IsDecimalCut cs cut := by
  by_cases hcut : ∃ cut, IsDecimalCut cs cut
  · obtain ⟨cut, hcut⟩ := hcut
    have hread := hcut.leadingDecimal_eq
    split at hread
    · next hfits =>
      have hrange := fitsInt32_iff.mp hfits
      refine .inl ⟨_, cut, hread, hcut, (Int32.toInt_ofInt_of_le ?_ ?_).symm⟩ <;> omega
    · next hfits =>
      exact .inr (.inl ⟨cut, hread, hcut, fun hrange => hfits (fitsInt32_iff.mpr hrange)⟩)
  · rw [not_exists] at hcut
    exact .inr (.inr ⟨leadingDecimal_of_forall_not hcut, hcut⟩)

/-- An integer is read exactly if it is a machine integer. -/
theorem leadingDecimal_eq_ok_iff {number : Int32} :
    leadingDecimal cs = .ok (number, cut) ↔ IsDecimalCut cs cut ∧ cut.value 10 = number.toInt := by
  constructor
  · intro h
    rcases leadingDecimal_cases cs with ⟨_, _, hread, hcut⟩ | ⟨_, hread, -⟩ | ⟨hread, -⟩
    · cases h.symm.trans hread
      exact hcut
    · cases h.symm.trans hread
    · cases h.symm.trans hread
  · intro h
    obtain ⟨hcut, hvalue⟩ := h
    have hleast := number.le_toInt
    have hgreatest := number.toInt_lt
    have hfits : fitsInt32 (cut.value 10) = true := by
      rw [fitsInt32_iff]
      omega
    rw [hcut.leadingDecimal_eq, if_pos hfits, hvalue, Int32.ofInt_toInt]

/-- It is too large exactly if it is not. -/
theorem leadingDecimal_eq_overflow_iff :
    leadingDecimal cs = .error .overflow ↔
      ∃ cut, IsDecimalCut cs cut ∧ ¬ (-2 ^ 31 ≤ cut.value 10 ∧ cut.value 10 ≤ 2 ^ 31 - 1) := by
  constructor
  · intro h
    rcases leadingDecimal_cases cs with ⟨_, _, hread, -⟩ | ⟨cut, -, hcut⟩ | ⟨hread, -⟩
    · cases h.symm.trans hread
    · exact ⟨cut, hcut⟩
    · cases h.symm.trans hread
  · intro h
    obtain ⟨cut, hcut, hrange⟩ := h
    rw [hcut.leadingDecimal_eq, if_neg fun hfits => hrange (fitsInt32_iff.mp hfits)]

/-- Digits are missing exactly if there is no integer. -/
theorem leadingDecimal_eq_noDigits_iff :
    leadingDecimal cs = .error .noDigits ↔ ∀ cut, ¬ IsDecimalCut cs cut := by
  refine ⟨fun h => ?_, leadingDecimal_of_forall_not⟩
  rcases leadingDecimal_cases cs with ⟨_, _, hread, -⟩ | ⟨_, hread, -⟩ | ⟨-, hnone⟩
  · cases h.symm.trans hread
  · cases h.symm.trans hread
  · exact hnone

end Reading

end GameSetup.Numeral
