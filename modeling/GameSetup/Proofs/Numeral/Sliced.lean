import GameSetup.Proofs.Except
import GameSetup.Proofs.Numeral.Leading

/-!
# Integers read at byte offsets

An integer is looked for byte by byte, its digits are cut out between two offsets, and the offset
behind them is handed on. Blanks, signs, marks and digits are among the first 128 characters, so
none of these offsets lies inside a character, whatever follows. No slice is missing, and what is
read is what a reader of characters reads.
-/

namespace GameSetup.Sliced

open Numeral Text

/-- Whether a character is a sign. -/
def isSign (c : Char) : Bool :=
  c == '+' || c == '-'

/-- Whether a character, behind a zero, can mark hexadecimal digits. -/
def isHexadecimalMark (c : Char) : Bool :=
  c == 'x' || c == 'X'

/-- The offset behind the blanks in front of a text. -/
def blankStop (text : String) : Nat :=
  text.utf8ByteSize - (String.ofList (trimStart text.toList)).utf8ByteSize

/-- The offset behind a sign, if there is one. -/
def signStop (text : String) (start : Nat) : Nat :=
  if byteIs isSign text start then start + 1 else start

/-- The radix that is selected at an offset, and the offset where its digits start. -/
def markStop (text : String) (start : Nat) : Nat × Nat :=
  if byteIs (· == '0') text start && byteIs isHexadecimalMark text (start + 1) &&
      byteIs (isDigitOf 16) text (start + 2) then (16, start + 2)
  else if byteIs (· == '0') text start then (8, start)
  else (10, start)

/-- The offset behind the digits that stand at an offset. -/
def digitsStop (radix : Nat) (text : String) (start : Nat) : Nat :=
  if byteIs (isDigitOf radix) text start then digitsStop radix text (start + 1) else start
termination_by text.utf8ByteSize - start
decreasing_by
  have hlt := lt_of_byteIs ‹_›
  omega

/-- The values of a signed machine integer of 64 bits. -/
def fitsInt64 (value : Int) : Bool :=
  -9223372036854775808 ≤ value && value < 9223372036854775808

/-- The machine integer that a whole text writes: an optional sign and digits. -/
def machineInteger (radix : Nat) (fits : Int → Bool) (text : String) : Except DecimalError Int :=
  let signed := splitSign text.toList
  let value := withSign signed.1 (valueOf radix signed.2)
  if signed.2.isEmpty || !signed.2.all (isDigitOf radix) then .error .noDigits
  else if fits value then .ok value
  else .error .overflow

/-- The decimal integer at the start of a text, and the offset behind it. -/
def leadingDecimal (text : String) : Except BadSlice (Except DecimalError (Int32 × Nat)) :=
  let start := blankStop text
  let digitsStart := signStop text start
  let stop := digitsStop 10 text digitsStart
  if stop = digitsStart then .ok (.error .noDigits)
  else do
    let part ← slice text start stop
    return (machineInteger 10 fitsInt32 part).map fun value => (Int32.ofInt value, stop)

/-- The integer at the start of a text, and the offset behind it. -/
def leadingInteger (text : String) : Except BadSlice (Option (Int × Nat)) :=
  let start := blankStop text
  let negative := byteIs (· == '-') text start
  let marked := markStop text (signStop text start)
  let stop := digitsStop marked.1 text marked.2
  if stop = marked.2 then .ok none
  else do
    let part ← slice text marked.2 stop
    return match machineInteger marked.1 fitsInt64 part with
      | .ok magnitude => some (if negative then -magnitude else magnitude, stop)
      | .error _ => none

/-- The integer that a whole text writes, up to blanks on either side. -/
def wholeInteger (text : String) : Except BadSlice (Option Int) := do
  match ← leadingInteger text with
  | none => return none
  | some (value, stop) =>
    let rest ← sliceFrom text stop
    return if onlyBlank rest.toList then some value else none

/-- Whether an offset is the end of a front of a text that the first 128 characters alone make. -/
def EndsBasic (text : String) (offset : Nat) : Prop :=
  ∃ front rest, front ++ rest = text.toList ∧ front.length = offset ∧ ∀ c ∈ front, c.toNat < 0x80

section Kinds

variable {c : Char} {radix : Nat}

/-- What is equal to a mark of the basic range is in it. -/
theorem toNat_lt_of_beq {mark : Char} (hmark : mark.toNat < 0x80) (h : (c == mark) = true) :
    c.toNat < 0x80 :=
  (beq_iff_eq.mp h).symm ▸ hmark

/-- A sign is in the basic range. -/
theorem toNat_lt_of_isSign (h : isSign c = true) : c.toNat < 0x80 := by
  simp only [isSign, Bool.or_eq_true, beq_iff_eq] at h
  rcases h with rfl | rfl <;> decide

/-- So is the mark of hexadecimal digits. -/
theorem toNat_lt_of_isHexadecimalMark (h : isHexadecimalMark c = true) : c.toNat < 0x80 := by
  simp only [isHexadecimalMark, Bool.or_eq_true, beq_iff_eq] at h
  rcases h with rfl | rfl <;> decide

/-- Digits have no sign in front. -/
theorem signed_of_digits {digits : List Char} (h : ∀ c ∈ digits, isDigitOf radix c = true)
    (hradix : radix ≤ 16) : Signed [] digits := by
  refine .unsigned fun c hc => ?_
  have hlt : digitValue c < radix := of_decide_eq_true (h c (List.mem_of_mem_head? hc))
  constructor
  all_goals
    rintro rfl
    exact absurd hlt (Nat.not_lt.mpr hradix)

/-- What follows the digits does not matter to the sign. -/
theorem signed_of_append {sign digits rest : List Char} (h : Signed sign (digits ++ rest))
    (hne : digits ≠ []) : Signed sign digits := by
  cases h with
  | plus => exact .plus digits
  | minus => exact .minus digits
  | unsigned h => exact .unsigned (List.head?_append_of_ne_nil digits hne ▸ h)

end Kinds

section Steps

variable {text : String} {offset radix : Nat} {sign mark digits rest : List Char}

/-- The blanks in front are counted. -/
theorem blankStop_eq (text : String) :
    blankStop text = (text.toList.takeWhile isBlank).length := by
  have hblank : ∀ c ∈ text.toList.takeWhile isBlank, c.toNat < 0x80 := fun c hc =>
    toNat_lt_of_isBlank (List.mem_takeWhile_imp hc)
  have hsum := congrArg byteCount (takeWhile_append_trimStart text.toList)
  rw [byteCount_append, byteCount_toList, byteCount_of_lt hblank, byteCount] at hsum
  rw [blankStop, ← hsum, Nat.add_sub_cancel]

/-- Behind the blanks, the other parts of a cut are left. -/
theorem restAt_blankStop {cut : Cut} (hblank : cut.blank = text.toList.takeWhile isBlank)
    (htaken : cut.taken ++ cut.rest = text.toList) :
    RestAt text (blankStop text) (cut.sign ++ (cut.mark ++ (cut.digits ++ cut.rest))) := by
  have htext : cut.blank ++ (cut.sign ++ (cut.mark ++ (cut.digits ++ cut.rest))) = text.toList := by
    rw [← htaken, Cut.taken]
    simp only [List.append_assoc]
  refine ⟨cut.blank, htext, ?_⟩
  rw [blankStop_eq, hblank,
    byteCount_of_lt fun c hc => toNat_lt_of_isBlank (List.mem_takeWhile_imp hc)]

/-- A sign is passed over. -/
theorem signStop_eq (h : RestAt text offset (sign ++ rest)) (hsign : Signed sign rest) :
    signStop text offset = offset + sign.length := by
  rw [signStop, h.byteIs_eq fun _ => toNat_lt_of_isSign]
  cases hsign with
  | plus => rfl
  | minus => rfl
  | unsigned hstop =>
    refine if_neg ?_
    rw [List.nil_append, Option.any_eq_true]
    rintro ⟨c, hc, hmark⟩
    simp only [isSign, Bool.or_eq_true, beq_iff_eq] at hmark
    exact hmark.elim (hstop c hc).1 (hstop c hc).2

/-- A minus is seen where it stands. -/
theorem byteIs_minus (h : RestAt text offset (sign ++ rest)) (hsign : Signed sign rest) :
    byteIs (· == '-') text offset = decide (sign = ['-']) := by
  rw [h.byteIs_eq fun _ => toNat_lt_of_beq (by decide)]
  cases hsign with
  | plus => rfl
  | minus => rfl
  | unsigned hstop =>
    rw [List.nil_append, decide_eq_false (by decide), Option.any_eq_false]
    exact fun c hc => beq_false_of_ne (hstop c hc).2

/-- Where no hexadecimal digit follows an `x`, no mark is seen. -/
theorem unmarked_of_octal (h : RestAt text offset rest)
    (hno : ∀ x digit more, rest = x :: digit :: more → x = 'x' ∨ x = 'X' →
      isDigitOf 16 digit = false) :
    (byteIs isHexadecimalMark text offset && byteIs (isDigitOf 16) text (offset + 1)) = false := by
  rw [h.byteIs_eq fun _ => toNat_lt_of_isHexadecimalMark]
  match rest with
  | [] => rfl
  | x :: more =>
    rw [List.head?_cons, Option.any_some]
    by_cases hx : isHexadecimalMark x = true
    · have hnext : RestAt text (offset + 1) more := h.next (toNat_lt_of_isHexadecimalMark hx)
      rw [hx, Bool.true_and, hnext.byteIs_eq fun _ => toNat_lt_of_isDigitOf (le_refl 16)]
      match more with
      | [] => rfl
      | digit :: more =>
        rw [isHexadecimalMark, Bool.or_eq_true, beq_iff_eq, beq_iff_eq] at hx
        exact hno x digit more rfl hx
    · rw [Bool.eq_false_iff.mpr hx, Bool.false_and]

/-- The radix is the one that is selected, and its mark is passed over. -/
theorem markStop_eq (h : RestAt text offset (mark ++ rest)) (hmark : Marked radix mark rest) :
    markStop text offset = (radix, offset + mark.length) := by
  rw [markStop, Bool.and_assoc, h.byteIs_eq fun _ => toNat_lt_of_beq (by decide)]
  cases hmark with
  | @hexadecimal x digit rest hx hdigit =>
    have hmark : isHexadecimalMark x = true := by
      rw [isHexadecimalMark, Bool.or_eq_true, beq_iff_eq, beq_iff_eq]
      exact hx
    have hsecond : RestAt text (offset + 1) (x :: digit :: rest) := h.next (by decide)
    have hthird : RestAt text (offset + 2) (digit :: rest) :=
      hsecond.next (toNat_lt_of_isHexadecimalMark hmark)
    rw [hsecond.byteIs_eq fun _ => toNat_lt_of_isHexadecimalMark,
      hthird.byteIs_eq fun _ => toNat_lt_of_isDigitOf (le_refl 16)]
    simp only [List.cons_append, List.head?_cons, Option.any_some, hmark, hdigit, beq_self_eq_true,
      Bool.and_self, if_true, List.length_cons, List.length_nil]
  | @octal rest hno =>
    have hsecond : RestAt text (offset + 1) rest := h.next (by decide)
    rw [unmarked_of_octal hsecond hno, Bool.and_false]
    rfl
  | decimal hno =>
    have hzero : (rest.head?.any (· == '0')) = false := by
      rw [Option.any_eq_false]
      exact fun c hc => beq_false_of_ne (hno c hc)
    rw [List.nil_append, hzero]
    rfl

/-- The digits are passed over. -/
theorem digitsStop_eq (h : RestAt text offset (digits ++ rest)) (hradix : radix ≤ 16)
    (hdigits : ∀ c ∈ digits, isDigitOf radix c = true)
    (hstop : ∀ c ∈ rest.head?, isDigitOf radix c = false) :
    digitsStop radix text offset = offset + digits.length := by
  have hdigit : ∀ c, isDigitOf radix c = true → c.toNat < 0x80 := fun _ =>
    toNat_lt_of_isDigitOf hradix
  induction digits generalizing offset with
  | nil =>
    rw [digitsStop, if_neg, List.length_nil, Nat.add_zero]
    rw [h.byteIs_eq hdigit, List.nil_append, Bool.not_eq_true, Option.any_eq_false]
    exact hstop
  | cons c digits ih =>
    rw [List.forall_mem_cons] at hdigits
    have hnext : RestAt text (offset + 1) (digits ++ rest) := h.next (hdigit c hdigits.1)
    rw [digitsStop, if_pos, ih hnext hdigits.2, List.length_cons, Nat.add_assoc, Nat.add_comm 1]
    rw [h.byteIs_eq hdigit, List.cons_append, List.head?_cons, Option.any_some, hdigits.1]

/-- A sign and digits are read in full. -/
theorem machineInteger_eq (fits : Int → Bool) (hsign : Signed sign digits) (hne : digits ≠ [])
    (hdigits : ∀ c ∈ digits, isDigitOf radix c = true) :
    machineInteger radix fits (String.ofList (sign ++ digits)) =
      if fits (withSign sign (valueOf radix digits)) then
        .ok (withSign sign (valueOf radix digits))
      else .error .overflow := by
  have hall : digits.all (isDigitOf radix) = true := List.all_eq_true.mpr hdigits
  simp only [machineInteger, String.toList_ofList, splitSign_of_signed hsign]
  rw [if_neg (by simp [hall, hne])]

/-- What is used of a text ends behind the digits. -/
theorem used_eq {cut : Cut} (hblank : cut.blank = text.toList.takeWhile isBlank) :
    cut.used = blankStop text + cut.sign.length + cut.mark.length + cut.digits.length := by
  rw [blankStop_eq, ← hblank, Cut.used, Cut.taken]
  simp only [List.length_append]

/-- Digits without a sign are read if their value is below the limit. -/
theorem machineInteger_of_digits (hradix : radix ≤ 16) (hne : digits ≠ [])
    (hdigits : ∀ c ∈ digits, isDigitOf radix c = true) :
    machineInteger radix fitsInt64 (String.ofList digits) =
      if magnitudeLimit ≤ valueOf radix digits then .error .overflow
      else .ok (valueOf radix digits : Int) := by
  have hread := machineInteger_eq fitsInt64 (signed_of_digits hdigits hradix) hne hdigits
  have hunsigned : withSign [] (valueOf radix digits) = valueOf radix digits := if_neg (by decide)
  have hfits :
      fitsInt64 (valueOf radix digits) = true ↔ ¬ magnitudeLimit ≤ valueOf radix digits := by
    rw [fitsInt64, Bool.and_eq_true, decide_eq_true_eq, decide_eq_true_eq, magnitudeLimit]
    omega
  rw [List.nil_append, hunsigned] at hread
  rw [hread]
  by_cases hlimit : magnitudeLimit ≤ valueOf radix digits
  · rw [if_pos hlimit, if_neg fun h => hfits.mp h hlimit]
  · rw [if_neg hlimit, if_pos (hfits.mpr hlimit)]

/-- Behind what is used of a text, the rest is left. -/
theorem restAt_used {cut : Cut} (htaken : cut.taken ++ cut.rest = text.toList)
    (hlt : ∀ c ∈ cut.taken, c.toNat < 0x80) : RestAt text cut.used cut.rest :=
  ⟨cut.taken, htaken, byteCount_of_lt hlt⟩

end Steps

section Readers

variable (text : String)

/-- The decimal integer is read, and the offset is the one behind its last digit. -/
theorem leadingDecimal_eq :
    leadingDecimal text =
      .ok ((Numeral.leadingDecimal text.toList).map fun read => (read.1, read.2.used)) := by
  -- The text is cut in the same way when it has no digits, so the slices come after that question.
  let cut := decimalCut text.toList
  have hsplit : cut.digits ++ cut.rest = (splitSign (trimStart text.toList)).2 :=
    List.takeWhile_append_dropWhile
  have hsigned : Signed cut.sign (cut.digits ++ cut.rest) := hsplit ▸ signed_splitSign _
  have hdigits : ∀ c ∈ cut.digits, isDigitOf 10 c = true := fun _ => isDigitOf_of_mem_digits
  have hstart : RestAt text (blankStop text) (cut.sign ++ (cut.digits ++ cut.rest)) :=
    restAt_blankStop rfl (decimalCut_taken_append_rest text.toList)
  have hstop : digitsStop 10 text (blankStop text + cut.sign.length) =
      blankStop text + cut.sign.length + cut.digits.length :=
    digitsStop_eq (hstart.skip_of_lt hsigned.toNat_lt) (by decide) hdigits fun _ =>
      not_of_mem_head?_dropWhile
  have hused : cut.used = blankStop text + cut.sign.length + cut.digits.length := used_eq rfl
  have hread : Numeral.leadingDecimal text.toList =
      if cut.digits.isEmpty then .error .noDigits
      else if fitsInt32 (withSign cut.sign (valueOf 10 cut.digits)) then
        .ok (Int32.ofInt (withSign cut.sign (valueOf 10 cut.digits)), cut)
      else .error .overflow := rfl
  rw [leadingDecimal, hread]
  simp only [signStop_eq hstart hsigned, hstop]
  by_cases hne : cut.digits = []
  · rw [hne]
    exact if_pos rfl
  · have hpart : slice text (blankStop text)
        (blankStop text + cut.sign.length + cut.digits.length) =
          .ok (String.ofList (cut.sign ++ cut.digits)) := by
      rw [Nat.add_assoc, ← List.length_append]
      rw [← List.append_assoc] at hstart
      exact hstart.slice_of_lt (List.forall_mem_append.mpr ⟨hsigned.toNat_lt, fun c hc =>
        toNat_lt_of_isDigitOf (by decide) (hdigits c hc)⟩)
    have hlength : cut.digits.length ≠ 0 := fun h => hne (List.eq_nil_of_length_eq_zero h)
    rw [if_neg (by omega), if_neg (by simpa using hne), hpart]
    rw [ok_bind, machineInteger_eq fitsInt32 (signed_of_append hsigned hne) hne hdigits]
    split
    · rw [Except.map, Except.map, hused]
      rfl
    · rfl

/-- The integer is read, and the offset is the one behind its last digit. -/
theorem leadingInteger_eq :
    leadingInteger text =
      .ok ((Numeral.leadingInteger text.toList).map fun read => (read.1, read.2.used)) := by
  -- The parts of the cut are passed over one after the other, each with what is left behind it.
  obtain ⟨radix, cut, hcut⟩ := exists_isRadixCut text.toList
  have hmade := isRadixCut_iff.mp hcut
  have hblank : cut.blank = text.toList.takeWhile isBlank := by
    rw [← congrArg (·.2.blank) hmade]
    rfl
  have hradix := hcut.mark.radix_le
  have hstart := restAt_blankStop hblank hcut.taken_append_rest
  have hmark := hstart.skip_of_lt hcut.sign.toNat_lt
  have hdigits := hmark.skip_of_lt hcut.mark.toNat_lt
  have hstop := digitsStop_eq hdigits hradix hcut.digits hcut.digits_stop
  have hused := used_eq hblank
  have hread : Numeral.leadingInteger text.toList =
      if cut.digits.isEmpty || magnitudeLimit ≤ valueOf radix cut.digits then none
      else some (withSign cut.sign (valueOf radix cut.digits), cut) := by
    rw [Numeral.leadingInteger, hmade]
  rw [leadingInteger, hread]
  simp only [byteIs_minus hstart hcut.sign, signStop_eq hstart hcut.sign,
    markStop_eq hmark hcut.mark, hstop]
  by_cases hne : cut.digits = []
  · rw [hne]
    exact if_pos rfl
  · have hpart := hdigits.slice_of_lt fun c hc => toNat_lt_of_isDigitOf hradix (hcut.digits c hc)
    have hlength : cut.digits.length ≠ 0 := fun h => hne (List.eq_nil_of_length_eq_zero h)
    have hsome : cut.digits.isEmpty = false := by simpa using hne
    rw [if_neg (by omega), hpart, hsome, Bool.false_or]
    rw [ok_bind, machineInteger_of_digits hradix hne hcut.digits]
    by_cases hlimit : magnitudeLimit ≤ valueOf radix cut.digits
    · rw [if_pos hlimit, if_pos (decide_eq_true hlimit)]
      rfl
    · rw [if_neg hlimit, if_neg (by simpa using hlimit), Option.map_some, hused, withSign]
      simp only [decide_eq_true_eq]
      rfl

/-- The offset that is handed on with a decimal integer ends a front of basic characters. -/
theorem endsBasic_of_leadingDecimal {number : Int32} {stop : Nat}
    (h : leadingDecimal text = .ok (.ok (number, stop))) : EndsBasic text stop := by
  rw [leadingDecimal_eq] at h
  obtain ⟨⟨value, cut⟩, hread, hpair⟩ := exists_of_map_eq_ok (Except.ok.inj h)
  have hcut := (leadingDecimal_eq_ok_iff.mp hread).1
  cases hpair
  exact ⟨cut.taken, cut.rest, hcut.taken_append_rest, rfl, hcut.toNat_lt⟩

/-- So does the one that is handed on with an integer of any radix. -/
theorem endsBasic_of_leadingInteger {number : Int} {stop : Nat}
    (h : leadingInteger text = .ok (some (number, stop))) : EndsBasic text stop := by
  rw [leadingInteger_eq] at h
  obtain ⟨⟨value, cut⟩, hread, hpair⟩ := Option.map_eq_some_iff.mp (Except.ok.inj h)
  obtain ⟨radix, hcut, -⟩ := leadingInteger_eq_some_iff.mp hread
  cases hpair
  exact ⟨cut.taken, cut.rest, hcut.taken_append_rest, rfl, hcut.toNat_lt⟩

/-- There is a slice of what follows an integer. -/
theorem sliceFrom_of_leadingInteger {value : Int} {cut : Cut}
    (h : Numeral.leadingInteger text.toList = some (value, cut)) :
    sliceFrom text cut.used = .ok (String.ofList cut.rest) := by
  obtain ⟨radix, hcut, -⟩ := leadingInteger_eq_some_iff.mp h
  exact (restAt_used hcut.taken_append_rest hcut.toNat_lt).sliceFrom_eq

/-- The integer that the whole text writes is read. -/
theorem wholeInteger_eq :
    wholeInteger text = .ok (Numeral.wholeInteger text.toList) := by
  rw [wholeInteger, leadingInteger_eq, Numeral.wholeInteger]
  cases hread : Numeral.leadingInteger text.toList with
  | none => rfl
  | some read =>
    simp only [Option.map_some, ok_bind, sliceFrom_of_leadingInteger text hread,
      String.toList_ofList]
    rfl

end Readers

end GameSetup.Sliced
