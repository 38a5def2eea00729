import GameSetup.Proofs.Except
import GameSetup.Proofs.Numeral.Leading
import GameSetup.Setting.Resolution

/-!
# Which texts are resolutions

A resolution is a width, a gap and a height, and nothing behind it. The gap is made of blanks and at
most one separator and has to end at a digit. So a width may carry a sign and a height may not:
whatever text a resolution is read from, its height is not negative. Nothing keeps either side from
being zero.

A side that is too large is told from other errors, as soon as everything in front of it is right.
-/

namespace GameSetup

namespace Resolution

open Numeral

/-- Whether there is anything to see at a size. -/
def Positive (size : Resolution) : Prop :=
  0 < size.width ∧ 0 < size.height

instance : DecidablePred Positive := fun size =>
  inferInstanceAs (Decidable (0 < size.width ∧ 0 < size.height))

/-- Whether a character separates the two sides of a resolution. -/
def isSeparator (c : Char) : Bool :=
  c == ',' || c == 'x'

/-- A text that starts with two sides: the width as it is cut off, the gap, the longest run of
digits behind it, and the rest. -/
structure IsSplit (text : List Char) (width : Cut) (gap digits rest : List Char) : Prop where
  isDecimalCut : IsDecimalCut text width
  append_eq : gap ++ (digits ++ rest) = width.rest
  gap_ne_nil : gap ≠ []
  mem_gap : ∀ c ∈ gap, Text.isBlank c = true ∨ isSeparator c = true
  separators_le : gap.countP isSeparator ≤ 1
  digits_ne_nil : digits ≠ []
  mem_digits : ∀ c ∈ digits, c.isDigit = true
  digits_stop : ∀ c ∈ rest.head?, c.isDigit = false

/-- The positional value of the digits of a height. -/
def heightOf (digits : List Char) : Nat :=
  Nat.ofDigits 10 (digits.reverse.map digitValue)

/-- The conditions under which a text is too large: the width is no machine integer, or it is one
and the height is none. -/
def IsTooLarge (text : List Char) : Prop :=
  (∃ width, IsDecimalCut text width ∧
      ¬ (-2 ^ 31 ≤ width.value 10 ∧ width.value 10 ≤ 2 ^ 31 - 1)) ∨
    ∃ width gap digits rest, IsSplit text width gap digits rest ∧
      (-2 ^ 31 ≤ width.value 10 ∧ width.value 10 ≤ 2 ^ 31 - 1) ∧ 2 ^ 31 ≤ heightOf digits

section Gaps

variable {separated : Bool} {c : Char} {gap cs rest : List Char}

/-- A separator is no blank. -/
theorem isBlank_of_isSeparator (h : isSeparator c = true) : Text.isBlank c = false := by
  simp only [isSeparator, Bool.or_eq_true, beq_iff_eq] at h
  rcases h with rfl | rfl <;> rfl

/-- Nor is it a digit. -/
theorem isDigitOf_of_isSeparator (h : isSeparator c = true) : isDigitOf 10 c = false := by
  simp only [isSeparator, Bool.or_eq_true, beq_iff_eq] at h
  rcases h with rfl | rfl <;> decide

/-- A blank is skipped. -/
theorem skipGap_cons_of_blank (h : Text.isBlank c = true) :
    skipGap separated (c :: cs) = skipGap separated cs :=
  if_pos h

/-- The first separator is skipped, and no other. -/
theorem skipGap_cons_of_separator (h : isSeparator c = true) :
    skipGap separated (c :: cs) =
      if separated then .error .notResolution else skipGap true cs := by
  rw [skipGap, if_neg (by simp [isBlank_of_isSeparator h])]
  exact if_pos h

/-- The gap ends at a digit, and anything else is refused. -/
theorem skipGap_cons_of_other (hblank : Text.isBlank c = false) (hmark : isSeparator c = false) :
    skipGap separated (c :: cs) =
      if isDigitOf 10 c then .ok (c :: cs) else .error .notResolution := by
  rw [skipGap, if_neg (by simp [hblank])]
  exact if_neg (by simpa [isSeparator] using hmark)

/-- A digit is found where it stands. -/
theorem skipGap_of_isDigitOf (h : isDigitOf 10 c = true) :
    skipGap separated (c :: cs) = .ok (c :: cs) := by
  have hmark : isSeparator c = false := by
    rw [Bool.eq_false_iff]
    intro hmark
    rw [isDigitOf_of_isSeparator hmark] at h
    cases h
  rw [skipGap_cons_of_other (isBlank_of_isDigitOf h) hmark, if_pos h]

/-- A gap is skipped up to the digit behind it. A separator that has been seen before counts as one
of the gap. -/
theorem skipGap_append (hgap : ∀ c ∈ gap, Text.isBlank c = true ∨ isSeparator c = true)
    (hcount : separated.toNat + gap.countP isSeparator ≤ 1)
    (hrest : ∀ c ∈ rest.head?, isDigitOf 10 c = true) :
    skipGap separated (gap ++ rest) = .ok rest := by
  induction gap generalizing separated with
  | nil =>
    cases rest with
    | nil => rfl
    | cons digit rest => exact skipGap_of_isDigitOf (hrest digit rfl)
  | cons c gap ih =>
    rw [List.forall_mem_cons] at hgap
    rw [List.countP_cons] at hcount
    rw [List.cons_append]
    by_cases hmark : isSeparator c = true
    · rw [if_pos hmark] at hcount
      cases separated with
      | true => simp at hcount
      | false =>
        rw [skipGap_cons_of_separator hmark, if_neg Bool.false_ne_true]
        exact ih hgap.2 (by simpa using hcount)
    · rw [if_neg hmark] at hcount
      rw [skipGap_cons_of_blank (hgap.1.resolve_right hmark)]
      exact ih hgap.2 hcount

/-- What has been skipped is a gap, and a digit follows it, or nothing. -/
theorem exists_gap_of_skipGap (h : skipGap separated cs = .ok rest) :
    ∃ gap, gap ++ rest = cs ∧ (∀ c ∈ gap, Text.isBlank c = true ∨ isSeparator c = true) ∧
      separated.toNat + gap.countP isSeparator ≤ 1 ∧ ∀ c ∈ rest.head?, isDigitOf 10 c = true := by
  induction cs generalizing separated with
  | nil =>
    cases h
    exact ⟨[], rfl, List.forall_mem_nil _, by cases separated <;> decide, fun _ hc => nomatch hc⟩
  | cons c cs ih =>
    by_cases hblank : Text.isBlank c = true
    · rw [skipGap_cons_of_blank hblank] at h
      obtain ⟨gap, rfl, hgap, hcount, hrest⟩ := ih h
      have hmark : ¬ isSeparator c = true := fun hmark => by
        simp [isBlank_of_isSeparator hmark] at hblank
      refine ⟨c :: gap, rfl, List.forall_mem_cons.mpr ⟨.inl hblank, hgap⟩, ?_, hrest⟩
      rwa [List.countP_cons_of_neg hmark]
    · by_cases hmark : isSeparator c = true
      · rw [skipGap_cons_of_separator hmark] at h
        cases separated with
        | true => cases h
        | false =>
          obtain ⟨gap, rfl, hgap, hcount, hrest⟩ := ih h
          refine ⟨c :: gap, rfl, List.forall_mem_cons.mpr ⟨.inr hmark, hgap⟩, ?_, hrest⟩
          rw [List.countP_cons_of_pos hmark]
          rw [Bool.toNat_true] at hcount
          rw [Bool.toNat_false]
          omega
      · rw [Bool.not_eq_true] at hblank hmark
        rw [skipGap_cons_of_other hblank hmark] at h
        split at h
        · next hdigit =>
          cases h
          refine ⟨[], rfl, List.forall_mem_nil _, by cases separated <;> decide, fun _ hc => ?_⟩
          exact Option.mem_some.mp hc ▸ hdigit
        · cases h

/-- What is no gap is refused for the same reason everywhere. -/
theorem eq_notResolution_of_skipGap {cause : Rejection} (h : skipGap separated cs = .error cause) :
    cause = .notResolution := by
  induction cs generalizing separated with
  | nil => cases h
  | cons c cs ih =>
    rw [skipGap] at h
    split_ifs at h
    · exact ih h
    · exact (Except.error.inj h).symm
    · exact ih h
    · exact (Except.error.inj h).symm

end Gaps

section Sides

variable {cs : List Char} {number : Int32} {cut : Cut}

/-- A side is read exactly if it is a machine integer. -/
theorem readSide_eq_ok_iff :
    readSide cs = .ok (number, cut) ↔ IsDecimalCut cs cut ∧ cut.value 10 = number.toInt := by
  rw [← leadingDecimal_eq_ok_iff, readSide]
  cases leadingDecimal cs with
  | ok side => simp
  | error cause => cases cause <;> simp

/-- It is too large exactly if it is an integer and no machine integer. -/
theorem readSide_eq_outsideInt32_iff :
    readSide cs = .error .outsideInt32 ↔
      ∃ cut, IsDecimalCut cs cut ∧ ¬ (-2 ^ 31 ≤ cut.value 10 ∧ cut.value 10 ≤ 2 ^ 31 - 1) := by
  rw [← leadingDecimal_eq_overflow_iff, readSide]
  cases leadingDecimal cs with
  | ok side => simp
  | error cause => cases cause <;> simp

/-- There is no other error than that a side is missing. -/
theorem eq_of_readSide_eq_error {cause : Rejection} (h : readSide cs = .error cause) :
    cause = .outsideInt32 ∨ cause = .notResolution := by
  rw [readSide] at h
  split at h
  · cases h
  · exact .inr (Except.error.inj h).symm
  · exact .inl (Except.error.inj h).symm

end Sides

section Splits

variable {text gap digits rest second : List Char} {width height : Cut}

namespace IsSplit

/-- The digits of the height are an integer without blanks or a sign. -/
theorem heightCut (h : IsSplit text width gap digits rest) :
    IsDecimalCut (digits ++ rest) ⟨[], [], [], digits, rest⟩ :=
  ⟨rfl, List.forall_mem_nil _, .inl rfl, rfl, h.digits_ne_nil, h.mem_digits, h.digits_stop⟩

/-- The gap ends where the digits of the height start. -/
theorem skipGap_eq (h : IsSplit text width gap digits rest) :
    skipGap false width.rest = .ok (digits ++ rest) := by
  rw [← h.append_eq]
  refine skipGap_append h.mem_gap (by simpa using h.separators_le) fun c hc => ?_
  obtain ⟨digit, more, hcons, hdigit⟩ := h.heightCut.exists_digit
  change digits = digit :: more at hcons
  rw [hcons] at hc
  exact Option.mem_some.mp hc ▸ hdigit

end IsSplit

/-- An integer that starts with a digit has neither blanks nor a sign. -/
theorem eq_of_isDecimalCut (h : IsDecimalCut second height)
    (hfirst : ∀ c ∈ second.head?, isDigitOf 10 c = true) :
    height = ⟨[], [], [], height.digits, height.rest⟩ := by
  obtain ⟨hcut, hne⟩ := isDecimalCut_iff.mp h
  cases second with
  | nil =>
    subst hcut
    exact absurd rfl hne
  | cons digit more =>
    rw [decimalCut_of_isDigitOf (hfirst digit rfl)] at hcut
    rw [← hcut]

/-- An integer behind a width and a gap is a height. -/
theorem isSplit_of_skipGap (hwidth : IsDecimalCut text width)
    (hskip : skipGap false width.rest = .ok second) (hheight : IsDecimalCut second height) :
    height = ⟨[], [], [], height.digits, height.rest⟩ ∧
      ∃ gap, IsSplit text width gap height.digits height.rest := by
  obtain ⟨gap, happend, hgap, hcount, hfirst⟩ := exists_gap_of_skipGap hskip
  have hform := eq_of_isDecimalCut hheight hfirst
  have hsecond : height.digits ++ height.rest = second := by
    rw [← hheight.taken_append_rest, hform]
    rfl
  obtain ⟨digit, digits, hcons, hdigit⟩ := hheight.exists_digit
  rw [isDigitOf_ten] at hdigit
  -- The digits of the width go on as long as they can, so something else stands behind them.
  have hne : gap ≠ [] := by
    intro hnil
    have hstop : digit.isDigit = false := hwidth.digits_stop digit
      (by rw [← happend, hnil, ← hsecond, hcons]; rfl)
    rw [hdigit] at hstop
    cases hstop
  exact ⟨hform, gap, hwidth, by rw [hsecond, happend], hne, hgap, by simpa using hcount,
    hheight.digits_ne_nil, hheight.digits, hheight.digits_stop⟩

end Splits

section Outcomes

variable {text : String} {size : Resolution} {number : Int32} {width : Cut}
  {gap digits rest : List Char}

/-- The value of a height is that of its digits. -/
theorem value_height (digits rest : List Char) :
    Cut.value 10 ⟨[], [], [], digits, rest⟩ = heightOf digits := rfl

/-- Behind a width, the gap is skipped and the height is read. -/
theorem read_of_width (h : IsDecimalCut text.toList width) (hwidth : width.value 10 = number.toInt) :
    read text = (do
      let second ← skipGap false width.rest
      let side ← readSide second
      if side.2.rest.isEmpty then .ok ⟨number, side.1⟩ else .error .notResolution) := by
  rw [read, readSide_eq_ok_iff.mpr ⟨h, hwidth⟩, ok_bind]

/-- A text that splits into two machine integers, with nothing behind them, is a resolution. -/
theorem read_of_isSplit (h : IsSplit text.toList width gap digits [])
    (hwidth : width.value 10 = size.width.toInt) (hheight : heightOf digits = size.height.toInt) :
    read text = .ok size := by
  rw [read_of_width h.isDecimalCut hwidth, h.skipGap_eq, ok_bind,
    readSide_eq_ok_iff.mpr ⟨h.heightCut, hheight⟩, ok_bind]
  rfl

/-- A width that is too large is told whatever follows it. -/
theorem read_of_width_outside (h : IsDecimalCut text.toList width)
    (hwidth : ¬ (-2 ^ 31 ≤ width.value 10 ∧ width.value 10 ≤ 2 ^ 31 - 1)) :
    read text = .error .outsideInt32 := by
  rw [read, readSide_eq_outsideInt32_iff.mpr ⟨width, h, hwidth⟩, error_bind]

/-- So is a height behind a width that is none. -/
theorem read_of_height_outside (h : IsSplit text.toList width gap digits rest)
    (hwidth : -2 ^ 31 ≤ width.value 10 ∧ width.value 10 ≤ 2 ^ 31 - 1)
    (hheight : 2 ^ 31 ≤ heightOf digits) : read text = .error .outsideInt32 := by
  have hnumber : (Int32.ofInt (width.value 10)).toInt = width.value 10 :=
    Int32.toInt_ofInt_of_le (by omega) (by omega)
  have hside : readSide (digits ++ rest) = .error .outsideInt32 :=
    readSide_eq_outsideInt32_iff.mpr ⟨_, h.heightCut, by rw [value_height]; omega⟩
  rw [read_of_width h.isDecimalCut hnumber.symm, h.skipGap_eq, ok_bind, hside, error_bind]

/-- Behind a width, nothing else is accepted or too large. -/
theorem read_cases_of_width (h : IsDecimalCut text.toList width)
    (hwidth : width.value 10 = number.toInt) :
    (∃ height gap digits, read text = .ok ⟨number, height⟩ ∧
        IsSplit text.toList width gap digits [] ∧ heightOf digits = height.toInt) ∨
      (read text = .error .outsideInt32 ∧
        ∃ gap digits rest, IsSplit text.toList width gap digits rest ∧ 2 ^ 31 ≤ heightOf digits) ∨
      read text = .error .notResolution := by
  have hread := read_of_width h hwidth
  cases hskip : skipGap false width.rest with
  | error cause =>
    rw [hskip, error_bind, eq_notResolution_of_skipGap hskip] at hread
    exact .inr (.inr hread)
  | ok second =>
    rw [hskip, ok_bind] at hread
    cases hside : readSide second with
    | error cause =>
      rw [hside, error_bind] at hread
      rcases eq_of_readSide_eq_error hside with rfl | rfl
      · obtain ⟨cut, hcut, houtside⟩ := readSide_eq_outsideInt32_iff.mp hside
        obtain ⟨hform, gap, hsplit⟩ := isSplit_of_skipGap h hskip hcut
        rw [hform, value_height] at houtside
        exact .inr (.inl ⟨hread, gap, _, _, hsplit, by omega⟩)
      · exact .inr (.inr hread)
    | ok side =>
      obtain ⟨height, cut⟩ := side
      obtain ⟨hcut, hheight⟩ := readSide_eq_ok_iff.mp hside
      obtain ⟨hform, gap, hsplit⟩ := isSplit_of_skipGap h hskip hcut
      rw [hside, ok_bind] at hread
      by_cases hrest : cut.rest = []
      · rw [hform, value_height] at hheight
        rw [hrest] at hsplit hread
        exact .inl ⟨height, gap, _, hread, hsplit, hheight⟩
      · rw [if_neg (by simpa using hrest)] at hread
        exact .inr (.inr hread)

/-- Every text is a resolution, too large, or refused as neither. -/
theorem read_cases (text : String) :
    (∃ size width gap digits, read text = .ok size ∧ IsSplit text.toList width gap digits [] ∧
        width.value 10 = size.width.toInt ∧ heightOf digits = size.height.toInt) ∨
      (read text = .error .outsideInt32 ∧ IsTooLarge text.toList) ∨
      read text = .error .notResolution := by
  cases hside : readSide text.toList with
  | error cause =>
    have hread : read text = .error cause := by rw [read, hside, error_bind]
    rcases eq_of_readSide_eq_error hside with rfl | rfl
    · exact .inr (.inl ⟨hread, .inl (readSide_eq_outsideInt32_iff.mp hside)⟩)
    · exact .inr (.inr hread)
  | ok side =>
    obtain ⟨hcut, hwidth⟩ := readSide_eq_ok_iff.mp hside
    rcases read_cases_of_width hcut hwidth with
      ⟨height, gap, digits, hread, hsplit, hheight⟩ | ⟨hread, gap, digits, rest, hsplit, hheight⟩ |
        hread
    · exact .inl ⟨_, _, gap, digits, hread, hsplit, hwidth, hheight⟩
    · have hleast := side.1.le_toInt
      have hgreatest := side.1.toInt_lt
      exact .inr (.inl ⟨hread, .inr ⟨_, gap, digits, rest, hsplit, by omega, hheight⟩⟩)
    · exact .inr (.inr hread)

/-- A text is accepted exactly if it splits into two machine integers, with nothing behind them. -/
theorem read_eq_ok_iff :
    read text = .ok size ↔ ∃ width gap digits, IsSplit text.toList width gap digits [] ∧
      width.value 10 = size.width.toInt ∧ heightOf digits = size.height.toInt := by
  constructor
  · intro h
    rcases read_cases text with ⟨found, width, gap, digits, hread, hfound⟩ | ⟨hread, -⟩ | hread
    · cases h.symm.trans hread
      exact ⟨width, gap, digits, hfound⟩
    · cases h.symm.trans hread
    · cases h.symm.trans hread
  · intro h
    obtain ⟨width, gap, digits, hsplit, hwidth, hheight⟩ := h
    exact read_of_isSplit hsplit hwidth hheight

/-- A text is too large under these conditions and no others. -/
theorem read_eq_outsideInt32_iff : read text = .error .outsideInt32 ↔ IsTooLarge text.toList := by
  constructor
  · intro h
    rcases read_cases text with ⟨_, _, _, _, hread, -⟩ | ⟨-, hlarge⟩ | hread
    · cases h.symm.trans hread
    · exact hlarge
    · cases h.symm.trans hread
  · intro h
    rcases h with ⟨width, hcut, hwidth⟩ | ⟨width, gap, digits, rest, hsplit, hwidth, hheight⟩
    · exact read_of_width_outside hcut hwidth
    · exact read_of_height_outside hsplit hwidth hheight

/-- All other texts are no resolutions. -/
theorem read_eq_notResolution_iff :
    read text = .error .notResolution ↔
      (∀ size, read text ≠ .ok size) ∧ read text ≠ .error .outsideInt32 := by
  rcases read_cases text with ⟨_, _, _, _, hread, -⟩ | ⟨hread, -⟩ | hread <;> simp [hread]

/-- A height that is read is not negative. -/
theorem height_nonneg_of_read (h : read text = .ok size) : 0 ≤ size.height := by
  obtain ⟨_, _, _, -, -, hheight⟩ := read_eq_ok_iff.mp h
  rw [Int32.le_iff_toInt_le, ← hheight]
  exact Int.natCast_nonneg _

end Outcomes

section Written

variable (size : Resolution)

/-- The usual form of a resolution, as characters. -/
theorem toList_text :
    (text size).toList = (decimalText size.width.toInt).toList ++
      'x' :: (decimalText size.height.toInt).toList := by
  rw [text, String.toList_append, String.toList_append, List.append_assoc]
  rfl

/-- The width is cut off as it was written. -/
theorem isDecimalCut_text :
    IsDecimalCut (text size).toList
      ⟨[], if size.width.toInt < 0 then ['-'] else [], [],
        Nat.toDigits 10 size.width.toInt.natAbs,
        'x' :: (decimalText size.height.toInt).toList⟩ := by
  rw [toList_text]
  exact isDecimalCut_decimalText _ fun c hc => Option.mem_some.mp hc ▸ (by decide)

/-- A resolution is read back unless its height is negative: the gap does not end at a sign. -/
theorem read_text :
    read (text size) = if 0 ≤ size.height.toInt then .ok size else .error .notResolution := by
  have hwidth := size.isDecimalCut_text
  have hdigits := toList_decimalText size.height.toInt
  split
  · next hheight =>
    rw [if_neg (by omega), List.nil_append] at hdigits
    have hsplit : IsSplit (text size).toList _ ['x'] (Nat.toDigits 10 size.height.toInt.natAbs) [] :=
      { isDecimalCut := hwidth
        append_eq := by rw [List.append_nil, hdigits]; rfl
        gap_ne_nil := List.cons_ne_nil _ _
        mem_gap := fun c hc => .inr (List.mem_singleton.mp hc ▸ rfl)
        separators_le := by decide
        digits_ne_nil := Nat.toDigits_ne_nil
        mem_digits := fun c hc => Nat.isDigit_of_mem_toDigits (by decide) (by decide) hc
        digits_stop := fun _ hc => nomatch hc }
    refine read_of_isSplit hsplit (value_decimalText _ _) ?_
    rw [heightOf, ← valueOf_eq_ofDigits, valueOf_toDigits]
    omega
  · next hheight =>
    rw [if_pos (by omega)] at hdigits
    rw [read_of_width hwidth (value_decimalText _ _), hdigits]
    rfl

/-- The resolutions that are read from some text are those without a negative height. -/
theorem exists_read_iff : (∃ text, read text = .ok size) ↔ 0 ≤ size.height.toInt := by
  constructor
  · intro h
    obtain ⟨text, hread⟩ := h
    have hheight := height_nonneg_of_read hread
    rwa [Int32.le_iff_toInt_le] at hheight
  · intro hheight
    exact ⟨text size, size.read_text.trans (if_pos hheight)⟩

end Written

/-- Which texts are resolutions. A width and a height behind a gap are accepted exactly if both are
integers of 32 bits and nothing follows the height. A width outside that range is told from
everything else, and so is a height behind a width and a gap that are right, whatever follows. The
resolutions that are read from some text are those without a negative height. -/
theorem read_exact :
    (∀ text : String, ∀ w h : Int,
      (∃ size, read text = .ok size ∧ size.width.toInt = w ∧ size.height.toInt = h) ↔
        ∃ width gap digits, IsSplit text.toList width gap digits [] ∧
          width.value 10 = w ∧ -2 ^ 31 ≤ w ∧ w ≤ 2 ^ 31 - 1 ∧
          heightOf digits = h ∧ h ≤ 2 ^ 31 - 1) ∧
    (∀ text : String, read text = .error .outsideInt32 ↔ IsTooLarge text.toList) ∧
    (∀ text : String, read text = .error .notResolution ↔
      (∀ size, read text ≠ .ok size) ∧ read text ≠ .error .outsideInt32) ∧
    ∀ size : Resolution, (∃ text, read text = .ok size) ↔ 0 ≤ size.height.toInt := by
  refine ⟨fun text w h => ⟨?_, ?_⟩, fun _ => read_eq_outsideInt32_iff,
    fun _ => read_eq_notResolution_iff, exists_read_iff⟩
  · intro hsize
    obtain ⟨size, hread, rfl, rfl⟩ := hsize
    obtain ⟨width, gap, digits, hsplit, hwidth, hheight⟩ := read_eq_ok_iff.mp hread
    have hleast := size.width.le_toInt
    have hgreatest := size.width.toInt_lt
    have htop := size.height.toInt_lt
    exact ⟨width, gap, digits, hsplit, hwidth, by omega, by omega, hheight, by omega⟩
  · intro hparts
    obtain ⟨width, gap, digits, hsplit, rfl, hleast, hgreatest, rfl, htop⟩ := hparts
    have hwidth : (Int32.ofInt (width.value 10)).toInt = width.value 10 :=
      Int32.toInt_ofInt_of_le (by omega) (by omega)
    have hheight : (Int32.ofInt (heightOf digits)).toInt = heightOf digits :=
      Int32.toInt_ofInt_of_le (by omega) (by omega)
    exact ⟨⟨_, _⟩, read_of_isSplit hsplit hwidth.symm hheight.symm, hwidth, hheight⟩

end Resolution

end GameSetup
