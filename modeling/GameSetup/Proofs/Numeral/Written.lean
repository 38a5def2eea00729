import GameSetup.Proofs.Numeral.Decimal
import GameSetup.Proofs.Numeral.Radix
import GameSetup.Proofs.Text.Letters

/-!
# How an integer is written

An unsigned integer is written in hexadecimal digits behind `0x`, in octal digits behind a zero, or
in decimal digits that do not start with a zero; a sign may stand before it. A whole text is read
as an integer exactly if it is one of these, up to the blanks around it, and the magnitude stays
below the limit. The case of letters makes no difference.
-/

namespace GameSetup.Numeral

/-- An unsigned integer, and its value. -/
inductive Unsigned : List Char → Nat → Prop
  | hexadecimal {x : Char} {digits : List Char} (hx : x = 'x' ∨ x = 'X') (hne : digits ≠ [])
      (h : ∀ c ∈ digits, isDigitOf 16 c = true) :
      Unsigned ('0' :: x :: digits) (valueOf 16 digits)
  | octal {digits : List Char} (h : ∀ c ∈ digits, isDigitOf 8 c = true) :
      Unsigned ('0' :: digits) (valueOf 8 digits)
  | decimal {first : Char} {digits : List Char} (hfirst : first ≠ '0')
      (h : ∀ c ∈ first :: digits, isDigitOf 10 c = true) :
      Unsigned (first :: digits) (valueOf 10 (first :: digits))

/-- An integer with or without a sign, and its value. -/
inductive Written : List Char → Int → Prop
  | unsigned {text : List Char} {n : Nat} (h : Unsigned text n) : Written text n
  | plus {text : List Char} {n : Nat} (h : Unsigned text n) : Written ('+' :: text) n
  | minus {text : List Char} {n : Nat} (h : Unsigned text n) : Written ('-' :: text) (-n)

section Forms

variable {text mark digits rest : List Char} {radix n : Nat} {value : Int}

/-- A decimal digit is not alphabetic. -/
theorem isAlphabetic_of_isDigitOf {c : Char} (h : isDigitOf 10 c = true) :
    Text.isAlphabetic c = false := by
  have hall : ∀ n : Fin 128, isDigitOf 10 (Char.ofNat n) = true →
      Text.isAlphabetic (Char.ofNat n) = false := by decide
  have hlt : digitValue c < 10 := of_decide_eq_true h
  have hchar := hall ⟨c.toNat, toNat_lt_of_digitValue_lt (Nat.lt_trans hlt (by decide))⟩
  rw [Char.ofNat_toNat] at hchar
  exact hchar h

/-- An unsigned integer starts with a decimal digit. -/
theorem Unsigned.exists_eq_cons (h : Unsigned text n) :
    ∃ first more, text = first :: more ∧ isDigitOf 10 first = true := by
  cases h with
  | hexadecimal => exact ⟨'0', _, rfl, by decide⟩
  | octal => exact ⟨'0', _, rfl, by decide⟩
  | decimal hfirst h => exact ⟨_, _, rfl, h _ List.mem_cons_self⟩

/-- There is no blank in an unsigned integer. -/
theorem Unsigned.not_blank (h : Unsigned text n) : ∀ c ∈ text, Text.isBlank c = false := by
  cases h with
  | hexadecimal hx hne h =>
    refine List.forall_mem_cons.mpr ⟨by decide, List.forall_mem_cons.mpr ⟨?_, ?_⟩⟩
    · rcases hx with rfl | rfl <;> decide
    · exact fun c hc => isBlank_of_isDigitOf (h c hc)
  | octal h =>
    exact List.forall_mem_cons.mpr
      ⟨by decide, fun c hc => isBlank_of_isDigitOf (h c hc)⟩
  | decimal hfirst h => exact fun c hc => isBlank_of_isDigitOf (h c hc)

/-- Nor in one with a sign. -/
theorem Written.not_blank (h : Written text value) : ∀ c ∈ text, Text.isBlank c = false := by
  cases h with
  | unsigned h => exact h.not_blank
  | plus h => exact List.forall_mem_cons.mpr ⟨by decide, h.not_blank⟩
  | minus h => exact List.forall_mem_cons.mpr ⟨by decide, h.not_blank⟩

/-- An integer starts with a sign or a decimal digit. -/
theorem Written.exists_eq_cons (h : Written text value) :
    ∃ first more, text = first :: more ∧
      (first = '+' ∨ first = '-' ∨ isDigitOf 10 first = true) := by
  cases h with
  | unsigned h =>
    obtain ⟨first, more, rfl, hfirst⟩ := h.exists_eq_cons
    exact ⟨first, more, rfl, .inr (.inr hfirst)⟩
  | plus => exact ⟨'+', _, rfl, .inl rfl⟩
  | minus => exact ⟨'-', _, rfl, .inr (.inl rfl)⟩

/-- A single digit stands for itself. -/
theorem unsigned_singleton_iff {c : Char} :
    Unsigned [c] n ↔ isDigitOf 10 c = true ∧ n = digitValue c := by
  have hvalue : valueOf 10 [c] = digitValue c := by simp [valueOf]
  constructor
  · intro h
    cases h with
    | octal => exact ⟨by decide, rfl⟩
    | decimal _ h => exact ⟨h c List.mem_cons_self, hvalue⟩
  · rintro ⟨hdigit, rfl⟩
    by_cases hzero : c = '0'
    · subst hzero
      exact .octal (List.forall_mem_nil _)
    · rw [← hvalue]
      exact .decimal hzero (List.forall_mem_singleton.mpr hdigit)

/-- The mark and the digits of a cut are an unsigned integer. -/
theorem Marked.unsigned (h : Marked radix mark (digits ++ rest)) (hne : digits ≠ [])
    (hdigits : ∀ c ∈ digits, isDigitOf radix c = true) :
    Unsigned (mark ++ digits) (valueOf radix digits) := by
  obtain ⟨first, more, rfl⟩ := List.exists_cons_of_ne_nil hne
  cases h with
  | hexadecimal _ hx => exact .hexadecimal hx hne hdigits
  | octal => exact .octal fun c hc => hdigits c (List.mem_cons_of_mem _ hc)
  | decimal h => exact .decimal (h first rfl) hdigits

/-- An unsigned integer that a blank or nothing follows is cut into its mark and its digits. -/
theorem Unsigned.exists_marked (h : Unsigned text n)
    (hrest : ∀ c ∈ rest.head?, Text.isBlank c = true) :
    ∃ radix mark digits, mark ++ digits = text ∧ digits ≠ [] ∧
      (∀ c ∈ digits, isDigitOf radix c = true) ∧ valueOf radix digits = n ∧
      Marked radix mark (digits ++ rest) := by
  cases h with
  | @hexadecimal x digits hx hne h =>
    obtain ⟨first, more, rfl⟩ := List.exists_cons_of_ne_nil hne
    exact ⟨16, ['0', x], first :: more, rfl, hne, h, rfl,
      .hexadecimal _ hx (h first List.mem_cons_self)⟩
  | @octal digits h =>
    have hall : ∀ c ∈ '0' :: digits, isDigitOf 8 c = true :=
      List.forall_mem_cons.mpr ⟨by decide, h⟩
    refine ⟨8, [], '0' :: digits, rfl, List.cons_ne_nil _ _, hall, rfl, .octal ?_⟩
    -- an `x` would have to be an octal digit or a blank
    intro x digit more heq hx
    exfalso
    cases digits with
    | nil =>
      have hblank : Text.isBlank x = true := hrest x (congrArg List.head? heq)
      rcases hx with rfl | rfl <;> exact absurd hblank (by decide)
    | cons first digits =>
      obtain ⟨rfl, -⟩ := List.cons.inj heq
      have hdigit := h first List.mem_cons_self
      rcases hx with rfl | rfl <;> exact absurd hdigit (by decide)
  | decimal hfirst h =>
    refine ⟨10, [], _, rfl, List.cons_ne_nil _ _, h, rfl, .decimal ?_⟩
    rintro _ ⟨⟩
    exact hfirst

/-- An integer is cut into its sign and what is written without one. -/
theorem Written.exists_signed (h : Written text value) :
    ∃ sign body n, sign ++ body = text ∧ Unsigned body n ∧ value = withSign sign n ∧
      ∀ rest, Signed sign (body ++ rest) := by
  cases h with
  | @unsigned text n h =>
    refine ⟨[], text, n, rfl, h, rfl, fun rest => .unsigned ?_⟩
    obtain ⟨first, more, rfl, hfirst⟩ := h.exists_eq_cons
    rintro _ ⟨⟩
    constructor <;> rintro rfl <;> exact absurd hfirst (by decide)
  | @plus text n h => exact ⟨['+'], text, n, rfl, h, rfl, fun rest => .plus _⟩
  | @minus text n h => exact ⟨['-'], text, n, rfl, h, rfl, fun rest => .minus _⟩

end Forms

section Whole

variable {cs : List Char} {value : Int}

/-- A whole text is read exactly if what is left without the blanks around it is an integer below
the limit. -/
theorem wholeInteger_iff_written :
    wholeInteger cs = some value ↔
      Written (Text.trim cs) value ∧ value.natAbs < magnitudeLimit := by
  constructor
  · intro h
    obtain ⟨cut, hread, hrest⟩ := wholeInteger_eq_some_iff.mp h
    obtain ⟨radix, hcut, hne, rfl, hlimit⟩ := leadingInteger_eq_some_iff.mp hread
    have hunsigned := hcut.mark.unsigned hne hcut.digits
    have hwritten : Written (cut.sign ++ (cut.mark ++ cut.digits)) (cut.value radix) := by
      rw [Cut.value, ← valueOf_eq_ofDigits]
      have hsign := hcut.sign
      generalize cut.sign = sign at hsign ⊢
      cases hsign with
      | plus => exact .plus hunsigned
      | minus => exact .minus hunsigned
      | unsigned => exact .unsigned hunsigned
    have htext : cs = cut.blank ++ (cut.sign ++ (cut.mark ++ cut.digits)) ++ cut.rest := by
      rw [← hcut.taken_append_rest]
      simp only [Cut.taken, List.append_assoc]
    rw [htext, Text.trim_append (List.all_eq_true.mpr hcut.blank) _ hrest,
      Text.trim_eq_self hwritten.not_blank]
    exact ⟨hwritten, hlimit⟩
  · rintro ⟨hwritten, hlimit⟩
    obtain ⟨before, after, hbefore, hafter, htext⟩ := Text.exists_append_trim_append cs
    have hstop : ∀ c ∈ after.head?, Text.isBlank c = true := fun c hc =>
      List.all_eq_true.mp hafter c (List.mem_of_mem_head? hc)
    obtain ⟨sign, body, n, hbody, hunsigned, rfl, hsign⟩ := hwritten.exists_signed
    obtain ⟨radix, mark, digits, rfl, hne, hdigits, rfl, hmark⟩ := hunsigned.exists_marked hstop
    have hcut : IsRadixCut cs radix ⟨before, sign, mark, digits, after⟩ := by
      have hparts : sign ++ (mark ++ (digits ++ after)) = Text.trim cs ++ after := by
        rw [← hbody]
        simp only [List.append_assoc]
      refine ⟨?_, List.all_eq_true.mp hbefore, ?_, ?_, hmark, hdigits, fun c hc => ?_⟩
      · rw [← htext, ← hbody]
        simp only [Cut.taken, List.append_assoc]
      · rw [hparts]
        obtain ⟨first, more, hfirst, -⟩ := hwritten.exists_eq_cons
        rw [hfirst]
        rintro _ ⟨⟩
        exact hwritten.not_blank first (hfirst ▸ List.mem_cons_self)
      · rw [← List.append_assoc]
        exact hsign after
      · exact isDigitOf_of_isBlank (hstop c hc) hmark.radix_le
    refine wholeInteger_eq_some_iff.mpr ⟨_, leadingInteger_eq_some_iff.mpr
      ⟨radix, hcut, hne, ?_, hlimit⟩, hafter⟩
    rw [Cut.value, ← valueOf_eq_ofDigits]

/-- An integer that blanks or nothing stand in front of. -/
def Behind (text : List Char) (value : Int) : Prop :=
  ∃ gap number, gap ++ number = text ∧ (∀ c ∈ gap, Text.isBlank c = true) ∧ Written number value

/-- A text without a blank at its end is read exactly if it is an integer behind blanks or
nothing. -/
theorem wholeInteger_iff_behind (hcs : Text.trimEnd cs = cs) :
    wholeInteger cs = some value ↔ Behind cs value ∧ value.natAbs < magnitudeLimit := by
  rw [wholeInteger_iff_written]
  refine and_congr_left fun _ => ⟨fun h => ?_, ?_⟩
  · rw [← Text.trimStart_trimEnd, hcs] at h
    exact ⟨_, _, Text.takeWhile_append_trimStart cs, fun c hc => List.mem_takeWhile_imp hc, h⟩
  · rintro ⟨gap, number, rfl, hgap, hnumber⟩
    have htrim : Text.trim (gap ++ number ++ []) = Text.trim number :=
      Text.trim_append (List.all_eq_true.mpr hgap) number rfl
    rw [List.append_nil] at htrim
    rwa [htrim, Text.trim_eq_self hnumber.not_blank]

/-- Blanks in front are blanks or nothing with some of them dropped. -/
theorem behind_trimStart : Behind (Text.trimStart cs) value ↔ Behind cs value := by
  constructor
  · rintro ⟨gap, number, htext, hgap, hnumber⟩
    refine ⟨cs.takeWhile Text.isBlank ++ gap, number, ?_, ?_, hnumber⟩
    · rw [List.append_assoc, htext, Text.takeWhile_append_trimStart]
    · exact List.forall_mem_append.mpr ⟨fun c hc => List.mem_takeWhile_imp hc, hgap⟩
  · rintro ⟨gap, number, rfl, hgap, hnumber⟩
    refine ⟨[], number, ?_, List.forall_mem_nil _, hnumber⟩
    rw [Text.trimStart_append (List.all_eq_true.mpr hgap), List.nil_append,
      Text.trimStart_eq_self fun c hc => hnumber.not_blank c (List.mem_of_mem_head? hc)]

/-- Something stands behind the keyword. -/
theorem Behind.ne_nil (h : Behind cs value) : cs ≠ [] := by
  obtain ⟨gap, number, rfl, -, hnumber⟩ := h
  obtain ⟨first, more, rfl, -⟩ := hnumber.exists_eq_cons
  exact List.append_ne_nil_of_right_ne_nil gap (List.cons_ne_nil first more)

/-- What stands in front of an integer, or starts it, is not alphabetic. -/
theorem Behind.not_alphabetic (h : Behind cs value) :
    ∀ c ∈ cs.head?, Text.isAlphabetic c = false := by
  obtain ⟨gap, number, rfl, hgap, hnumber⟩ := h
  cases gap with
  | nil =>
    obtain ⟨first, more, rfl, hfirst⟩ := hnumber.exists_eq_cons
    rintro _ ⟨⟩
    rcases hfirst with rfl | rfl | hdigit
    · decide
    · decide
    · exact isAlphabetic_of_isDigitOf hdigit
  | cons c gap =>
    rintro _ ⟨⟩
    exact Text.isAlphabetic_of_isBlank (hgap c List.mem_cons_self)

/-- A text is no integer if something else than a sign or a decimal digit stands in front. -/
theorem wholeInteger_eq_none {first : Char} {more : List Char} (hcs : Text.trim cs = first :: more)
    (hfirst : first ≠ '+' ∧ first ≠ '-' ∧ isDigitOf 10 first = false) : wholeInteger cs = none := by
  rw [Option.eq_none_iff_forall_ne_some]
  intro value h
  obtain ⟨_, _, heq, hstart⟩ := (wholeInteger_iff_written.mp h).1.exists_eq_cons
  obtain ⟨rfl, -⟩ := List.cons.inj (hcs.symm.trans heq)
  rcases hstart with hplus | hminus | hdigit
  · exact hfirst.1 hplus
  · exact hfirst.2.1 hminus
  · exact absurd hdigit (by simp [hfirst.2.2])

/-- In particular if that is alphabetic. -/
theorem wholeInteger_eq_none_of_alphabetic {first : Char} {more : List Char}
    (hcs : Text.trim cs = first :: more) (hfirst : Text.isAlphabetic first = true) :
    wholeInteger cs = none := by
  refine wholeInteger_eq_none hcs ⟨?_, ?_, ?_⟩
  · rintro rfl
    exact absurd hfirst (by decide)
  · rintro rfl
    exact absurd hfirst (by decide)
  · rw [Bool.eq_false_iff]
    intro hdigit
    rw [isAlphabetic_of_isDigitOf hdigit] at hfirst
    cases hfirst

/-- A single character is an integer exactly if it is a decimal digit, which stands for itself. -/
theorem wholeInteger_singleton_iff {c : Char} :
    wholeInteger [c] = some value ↔ isDigitOf 10 c = true ∧ value = digitValue c := by
  have hnil {n : Nat} (hunsigned : Unsigned [] n) : False := by
    obtain ⟨_, _, hcons, -⟩ := hunsigned.exists_eq_cons
    cases hcons
  constructor
  · intro h
    obtain ⟨hwritten, -⟩ := wholeInteger_iff_written.mp h
    have hsolid : Text.isBlank c = false := by
      rw [Bool.eq_false_iff]
      intro hblank
      rw [Text.trim_cons_of_blank hblank] at hwritten
      obtain ⟨_, _, hcons, -⟩ := hwritten.exists_eq_cons
      cases hcons
    rw [Text.trim_cons_of_not_blank hsolid, Text.trimEnd_nil] at hwritten
    cases hwritten with
    | unsigned hunsigned =>
      obtain ⟨hdigit, rfl⟩ := unsigned_singleton_iff.mp hunsigned
      exact ⟨hdigit, rfl⟩
    | plus hunsigned => exact (hnil hunsigned).elim
    | minus hunsigned => exact (hnil hunsigned).elim
  · rintro ⟨hdigit, rfl⟩
    have hkept : Text.trim [c] = [c] := Text.trim_eq_self
      (List.forall_mem_singleton.mpr (isBlank_of_isDigitOf hdigit))
    have hlt : digitValue c < 10 := of_decide_eq_true hdigit
    refine wholeInteger_iff_written.mpr ⟨?_, ?_⟩
    · rw [hkept]
      exact .unsigned (unsigned_singleton_iff.mpr ⟨hdigit, rfl⟩)
    · rw [Int.natAbs_natCast]
      exact hlt.trans (by decide)

/-- The blanks around a text make no difference. -/
theorem wholeInteger_congr {other : List Char} (h : Text.trim cs = Text.trim other) :
    wholeInteger cs = wholeInteger other := by
  ext value
  rw [wholeInteger_iff_written, wholeInteger_iff_written, h]

end Whole

section Letters

open Text (lower)

variable {sign mark rest text : List Char} {radix : Nat} {cut : Cut}

/-- A digit is one in either case. -/
@[simp] theorem isDigitOf_toLower (radix : Nat) (c : Char) :
    isDigitOf radix c.toLower = isDigitOf radix c := by
  rw [isDigitOf, Text.digitValue_toLower, isDigitOf]

/-- The case of the digits does not change the value. -/
@[simp] theorem valueOf_lower (radix : Nat) (digits : List Char) :
    valueOf radix (lower digits) = valueOf radix digits := by
  simp only [valueOf, lower, List.foldl_map, Text.digitValue_toLower]

/-- A sign is one in either case. -/
theorem Signed.lower (h : Signed sign rest) : Signed (lower sign) (lower rest) := by
  cases h with
  | plus => exact .plus _
  | minus => exact .minus _
  | unsigned h =>
    refine .unsigned (Text.forall_mem_head?_lower (fun c hc => ⟨?_, ?_⟩) h)
    · exact fun hlower => hc.1 ((Text.toLower_eq_iff (by decide)).mp hlower)
    · exact fun hlower => hc.2 ((Text.toLower_eq_iff (by decide)).mp hlower)

/-- So is the mark of a radix. -/
theorem Marked.lower (h : Marked radix mark rest) : Marked radix (lower mark) (lower rest) := by
  have hletter (c : Char) : c.toLower = 'x' ∨ c.toLower = 'X' ↔ c = 'x' ∨ c = 'X' := by
    have hsame := Text.apply_toLower (f := fun c => c == 'x' || c == 'X') (by decide) c
    simpa using Bool.eq_iff_iff.mp hsame
  cases h with
  | @hexadecimal x digit rest hx hdigit =>
    exact .hexadecimal (Text.lower rest) ((hletter x).mpr hx) (by simpa using hdigit)
  | @octal rest h =>
    refine .octal fun x digit more heq hx => ?_
    obtain ⟨x, tail, rfl, rfl, htail⟩ := List.map_eq_cons_iff.mp heq
    obtain ⟨digit, more, rfl, rfl, -⟩ := List.map_eq_cons_iff.mp htail
    rw [isDigitOf_toLower]
    exact h x digit more rfl ((hletter x).mp hx)
  | decimal h =>
    refine .decimal (Text.forall_mem_head?_lower (fun c hc hlower => ?_) h)
    exact hc ((Text.toLower_eq_iff (by decide)).mp hlower)

/-- A cut in small letters. -/
def Cut.lower (cut : Cut) : Cut :=
  ⟨Text.lower cut.blank, Text.lower cut.sign, Text.lower cut.mark, Text.lower cut.digits,
    Text.lower cut.rest⟩

/-- A text in small letters is cut where the text itself is. -/
theorem IsRadixCut.lower (h : IsRadixCut text radix cut) :
    IsRadixCut (lower text) radix cut.lower where
  taken_append_rest := by
    rw [← h.taken_append_rest]
    simp only [Cut.taken, Cut.lower, Text.lower_append]
  blank := Text.forall_mem_lower (fun c hc => (Text.isBlank_toLower c).trans hc) h.blank
  blank_stop := by
    simp only [Cut.lower, ← Text.lower_append]
    exact Text.forall_mem_head?_lower (fun c hc => (Text.isBlank_toLower c).trans hc) h.blank_stop
  sign := by
    simp only [Cut.lower, ← Text.lower_append]
    exact h.sign.lower
  mark := by
    simp only [Cut.lower, ← Text.lower_append]
    exact h.mark.lower
  digits := Text.forall_mem_lower (fun c hc => (isDigitOf_toLower radix c).trans hc) h.digits
  digits_stop :=
    Text.forall_mem_head?_lower (fun c hc => (isDigitOf_toLower radix c).trans hc) h.digits_stop

/-- The case of letters makes no difference to an integer. -/
@[simp] theorem wholeInteger_lower (cs : List Char) :
    wholeInteger (lower cs) = wholeInteger cs := by
  have hcut : radixCut (lower cs) = ((radixCut cs).1, (radixCut cs).2.lower) :=
    isRadixCut_iff.mp (isRadixCut_iff.mpr rfl : IsRadixCut cs (radixCut cs).1 (radixCut cs).2).lower
  have hsign (sign : List Char) (n : Nat) : withSign (lower sign) n = withSign sign n := by
    have hhyphen (c : Char) : c.toLower = '-' ↔ c = '-' := Text.toLower_eq_iff (by decide)
    have hminus : lower sign = ['-'] ↔ sign = ['-'] := by
      match sign with
      | [] => simp
      | [c] => simp [hhyphen]
      | _ :: _ :: _ => simp
    simp only [withSign, hminus]
  have hempty : (lower (radixCut cs).2.digits).isEmpty = (radixCut cs).2.digits.isEmpty :=
    List.isEmpty_map
  simp only [wholeInteger, leadingInteger, hcut, Cut.lower, valueOf_lower, hsign, hempty]
  cases (radixCut cs).2.digits.isEmpty ||
    decide (magnitudeLimit ≤ valueOf (radixCut cs).1 (radixCut cs).2.digits) with
  | true => rfl
  | false => simp only [Bool.false_eq_true, if_false, Text.onlyBlank_lower]

end Letters

end GameSetup.Numeral
