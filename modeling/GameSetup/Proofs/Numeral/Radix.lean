import GameSetup.Numeral.Radix
import GameSetup.Proofs.Text.Slices
import GameSetup.Proofs.Text.Trim
import Mathlib.Data.Nat.Digits.Defs

/-!
# How an integer is cut off a text

The parts that the integer at the start of a text consists of are told from each other by what
stands at their borders, so a text has exactly one cut. An integer is read exactly if the cut has
digits and their signed value lies strictly between minus two to the sixty-third and two to the
sixty-third. The lower end itself has no place, although a machine integer of 64 bits has room for
it.
-/

namespace GameSetup.Numeral

/-- An optional sign in front of a text. -/
inductive Signed : List Char → List Char → Prop
  | plus (rest : List Char) : Signed ['+'] rest
  | minus (rest : List Char) : Signed ['-'] rest
  | unsigned {rest : List Char} (h : ∀ c ∈ rest.head?, c ≠ '+' ∧ c ≠ '-') : Signed [] rest

/-- The radix that a text without a sign selects, and its mark in front of what the digits are taken
from. -/
inductive Marked : Nat → List Char → List Char → Prop
  | hexadecimal {x digit : Char} (rest : List Char) (hx : x = 'x' ∨ x = 'X')
      (hdigit : isDigitOf 16 digit = true) : Marked 16 ['0', x] (digit :: rest)
  | octal {rest : List Char}
      (h : ∀ x digit more, rest = x :: digit :: more → x = 'x' ∨ x = 'X' →
        isDigitOf 16 digit = false) : Marked 8 [] ('0' :: rest)
  | decimal {rest : List Char} (h : ∀ c ∈ rest.head?, c ≠ '0') : Marked 10 [] rest

/-- The parts of a text that may start with an integer: all blanks in front, the sign, the mark of
the radix, the longest run of digits, and the rest. -/
structure IsRadixCut (text : List Char) (radix : Nat) (cut : Cut) : Prop where
  taken_append_rest : cut.taken ++ cut.rest = text
  blank : ∀ c ∈ cut.blank, Text.isBlank c = true
  blank_stop : ∀ c ∈ (cut.sign ++ (cut.mark ++ (cut.digits ++ cut.rest))).head?,
    Text.isBlank c = false
  sign : Signed cut.sign (cut.mark ++ (cut.digits ++ cut.rest))
  mark : Marked radix cut.mark (cut.digits ++ cut.rest)
  digits : ∀ c ∈ cut.digits, isDigitOf radix c = true
  digits_stop : ∀ c ∈ cut.rest.head?, isDigitOf radix c = false

/-- The positional value of the digits, with the sign that stands before them. -/
def Cut.value (radix : Nat) (cut : Cut) : Int :=
  withSign cut.sign (Nat.ofDigits radix (cut.digits.reverse.map digitValue))

section Cuts

variable {text sign mark rest : List Char} {radix : Nat} {cut : Cut}

/-- A sign is cut off where it ends. -/
theorem splitSign_of_signed (h : Signed sign rest) : splitSign (sign ++ rest) = (sign, rest) := by
  cases h with
  | plus => rfl
  | minus => rfl
  | unsigned h =>
    rw [List.nil_append]
    unfold splitSign
    split
    · exact absurd rfl (h '+' rfl).1
    · exact absurd rfl (h '-' rfl).2
    · rfl

/-- What is cut off in front is a sign, if there is one. -/
theorem signed_splitSign (cs : List Char) : Signed (splitSign cs).1 (splitSign cs).2 := by
  unfold splitSign
  split
  · exact .plus _
  · exact .minus _
  · next hplus hminus =>
    refine .unsigned fun c hc => ?_
    obtain ⟨rest, rfl⟩ := List.head?_eq_some_iff.mp hc
    exact ⟨fun h => hplus rest (h ▸ rfl), fun h => hminus rest (h ▸ rfl)⟩

/-- The mark of a radix is cut off where it ends. -/
theorem splitMark_of_marked (h : Marked radix mark rest) :
    splitMark (mark ++ rest) = (radix, mark, rest) := by
  cases h with
  | @hexadecimal x digit rest hx hdigit =>
    have hmark : (x == 'x' || x == 'X') = true := by
      rw [Bool.or_eq_true, beq_iff_eq, beq_iff_eq]
      exact hx
    simp only [List.cons_append, List.nil_append, splitMark, hmark, hdigit, Bool.and_self, if_true]
  | @octal rest h =>
    rw [List.nil_append]
    match rest with
    | [] => rfl
    | [x] => rfl
    | x :: digit :: more =>
      rw [splitMark, if_neg]
      rw [Bool.and_eq_true, Bool.or_eq_true, beq_iff_eq, beq_iff_eq]
      rintro ⟨hx, hdigit⟩
      rw [h x digit more rfl hx] at hdigit
      cases hdigit
  | decimal h =>
    rw [List.nil_append]
    unfold splitMark
    split
    · exact absurd rfl (h '0' rfl)
    · exact absurd rfl (h '0' rfl)
    · rfl

/-- What is cut off in front is the mark of the radix that is found. -/
theorem marked_splitMark (cs : List Char) :
    Marked (splitMark cs).1 (splitMark cs).2.1 (splitMark cs).2.2 := by
  unfold splitMark
  split
  · next x digit rest =>
    split
    · next h =>
      rw [Bool.and_eq_true, Bool.or_eq_true, beq_iff_eq, beq_iff_eq] at h
      exact .hexadecimal rest h.1 h.2
    · next h =>
      refine .octal ?_
      rintro _ _ _ ⟨⟩ hx
      rw [Bool.and_eq_true, Bool.or_eq_true, beq_iff_eq, beq_iff_eq] at h
      exact Bool.eq_false_iff.mpr fun hdigit => h ⟨hx, hdigit⟩
  · next rest hshort =>
    refine .octal ?_
    rintro x digit more rfl
    exact absurd rfl (hshort x digit more)
  · next hlong hzero =>
    refine .decimal fun c hc => ?_
    obtain ⟨rest, rfl⟩ := List.head?_eq_some_iff.mp hc
    exact fun h => hzero rest (h ▸ rfl)

/-- A text has one cut, and it is the one that is made. -/
theorem isRadixCut_iff : IsRadixCut text radix cut ↔ radixCut text = (radix, cut) := by
  constructor
  · rintro ⟨rfl, hblank, hstop, hsign, hmark, hdigits, hend⟩
    have htext : cut.taken ++ cut.rest =
        cut.blank ++ (cut.sign ++ (cut.mark ++ (cut.digits ++ cut.rest))) := by
      simp only [Cut.taken, List.append_assoc]
    have hstart : Text.trimStart (cut.taken ++ cut.rest) =
        cut.sign ++ (cut.mark ++ (cut.digits ++ cut.rest)) := by
      rw [htext]
      exact Text.dropWhile_run hblank hstop
    have hfront : (cut.taken ++ cut.rest).takeWhile Text.isBlank = cut.blank := by
      rw [htext]
      exact Text.takeWhile_run hblank hstop
    simp only [radixCut, hstart, hfront, splitSign_of_signed hsign, splitMark_of_marked hmark,
      Text.takeWhile_run hdigits hend, Text.dropWhile_run hdigits hend]
  · intro h
    obtain rfl : (radixCut text).1 = radix := congrArg Prod.fst h
    obtain rfl : (radixCut text).2 = cut := congrArg Prod.snd h
    have hdigits := List.takeWhile_append_dropWhile (p := isDigitOf (radixCut text).1)
      (l := (splitMark (splitSign (Text.trimStart text)).2).2.2)
    have hmark := marked_splitMark (splitSign (Text.trimStart text)).2
    have hsign := signed_splitSign (Text.trimStart text)
    refine ⟨radixCut_taken_append_rest text, fun c hc => List.mem_takeWhile_imp hc, ?_, ?_, ?_,
      fun c hc => List.mem_takeWhile_imp hc, fun c hc => Text.not_of_mem_head?_dropWhile hc⟩
    · intro c hc
      simp only [radixCut, List.takeWhile_append_dropWhile, splitMark_append,
        splitSign_append] at hc
      exact Text.not_blank_of_mem_head?_trimStart hc
    · simp only [radixCut, List.takeWhile_append_dropWhile, splitMark_append]
      exact hsign
    · simp only [radixCut, List.takeWhile_append_dropWhile]
      exact hmark

/-- Every text has a cut. -/
theorem exists_isRadixCut (text : List Char) : ∃ radix cut, IsRadixCut text radix cut :=
  ⟨_, _, isRadixCut_iff.mpr rfl⟩

/-- Digits up to the sixteenth are enough. -/
theorem Marked.radix_le (h : Marked radix mark rest) : radix ≤ 16 := by
  cases h <;> decide

end Cuts

section Characters

variable {c : Char} {radix : Nat}

/-- All digits are among the first 128 characters. -/
theorem toNat_lt_of_digitValue_lt (h : digitValue c < 16) : c.toNat < 0x80 := by
  have hle {top : Char} (hc : c ≤ top) : c.toNat ≤ top.toNat := UInt32.le_iff_toNat_le.mp hc
  unfold digitValue at h
  split at h
  · next hdigit => exact Nat.lt_of_le_of_lt (hle hdigit.2) (by decide)
  · split at h
    · next hsmall => exact Nat.lt_of_le_of_lt (hle hsmall.2) (by decide)
    · split at h
      · next hcapital => exact Nat.lt_of_le_of_lt (hle hcapital.2) (by decide)
      · exact absurd h (Nat.lt_irrefl 16)

/-- Digits are in the basic range. -/
theorem toNat_lt_of_isDigitOf (hradix : radix ≤ 16) (h : isDigitOf radix c = true) :
    c.toNat < 0x80 :=
  toNat_lt_of_digitValue_lt (Nat.lt_of_lt_of_le (of_decide_eq_true h) hradix)

/-- So are all blanks. -/
theorem toNat_lt_of_isBlank (h : Text.isBlank c = true) : c.toNat < 0x80 := by
  simp only [Text.isBlank, Bool.or_eq_true, beq_iff_eq] at h
  rcases h with ((((rfl | rfl) | rfl) | rfl) | rfl) | rfl <;> decide

/-- So are signs. -/
theorem Signed.toNat_lt {sign rest : List Char} (h : Signed sign rest) :
    ∀ c ∈ sign, c.toNat < 0x80 := by
  cases h with
  | plus => exact List.forall_mem_singleton.mpr (by decide)
  | minus => exact List.forall_mem_singleton.mpr (by decide)
  | unsigned => exact List.forall_mem_nil _

/-- So are the marks of a radix. -/
theorem Marked.toNat_lt {mark rest : List Char} (h : Marked radix mark rest) :
    ∀ c ∈ mark, c.toNat < 0x80 := by
  cases h with
  | hexadecimal rest hx =>
    refine List.forall_mem_cons.mpr ⟨by decide, List.forall_mem_singleton.mpr ?_⟩
    rcases hx with rfl | rfl <;> decide
  | octal => exact List.forall_mem_nil _
  | decimal => exact List.forall_mem_nil _

end Characters

section Reading

variable {cs : List Char} {radix : Nat} {cut : Cut} {value : Int}

/-- What an integer takes of a text is one byte a character. -/
theorem Cut.used_eq (h : ∀ c ∈ cut.taken, c.toNat < 0x80) :
    cut.used = (Text.Utf8.encode (String.ofList cut.taken)).length := by
  rw [Text.length_encode]
  exact (Text.byteCount_of_lt h).symm

/-- All that an integer takes of a text are among the first 128 characters. -/
theorem IsRadixCut.toNat_lt (h : IsRadixCut cs radix cut) : ∀ c ∈ cut.taken, c.toNat < 0x80 := by
  intro c hc
  simp only [Cut.taken, List.mem_append] at hc
  rcases hc with ((hc | hc) | hc) | hc
  · exact toNat_lt_of_isBlank (h.blank c hc)
  · exact h.sign.toNat_lt c hc
  · exact h.mark.toNat_lt c hc
  · exact toNat_lt_of_isDigitOf h.mark.radix_le (h.digits c hc)

/-- A numeral uses the bytes of its characters. -/
theorem IsRadixCut.used_eq (h : IsRadixCut cs radix cut) :
    cut.used = (Text.Utf8.encode (String.ofList cut.taken)).length :=
  Cut.used_eq h.toNat_lt

/-- The value of a run of digits, from the last one on. -/
theorem valueOf_eq_ofDigits (radix : Nat) (digits : List Char) :
    valueOf radix digits = Nat.ofDigits radix (digits.reverse.map digitValue) := by
  induction digits using List.reverseRecOn with
  | nil => rfl
  | append_singleton digits c ih =>
    rw [valueOf_append_singleton, List.reverse_append, List.reverse_singleton,
      List.singleton_append, List.map_cons, Nat.ofDigits_cons, ih, Nat.add_comm]

/-- A sign leaves the magnitude. -/
theorem natAbs_withSign (sign : List Char) (magnitude : Nat) :
    (withSign sign magnitude).natAbs = magnitude := by
  rw [withSign]
  split <;> omega

/-- An integer is read exactly if there are digits, and the magnitude is below the limit. -/
theorem leadingInteger_eq_some_iff :
    leadingInteger cs = some (value, cut) ↔
      ∃ radix, IsRadixCut cs radix cut ∧ cut.digits ≠ [] ∧ value = cut.value radix ∧
        value.natAbs < magnitudeLimit := by
  have hread : leadingInteger cs =
      if (radixCut cs).2.digits.isEmpty ||
        magnitudeLimit ≤ valueOf (radixCut cs).1 (radixCut cs).2.digits then none
      else some (withSign (radixCut cs).2.sign (valueOf (radixCut cs).1 (radixCut cs).2.digits),
        (radixCut cs).2) := rfl
  rw [hread]
  constructor
  · intro h
    split at h
    · cases h
    · next hgood =>
      cases h
      simp only [Bool.or_eq_true, List.isEmpty_iff, decide_eq_true_eq, not_or, Nat.not_le] at hgood
      refine ⟨(radixCut cs).1, isRadixCut_iff.mpr rfl, hgood.1, ?_, ?_⟩
      · rw [Cut.value, valueOf_eq_ofDigits]
      · rw [natAbs_withSign]
        exact hgood.2
  · rintro ⟨radix, hcut, hdigits, rfl, hlimit⟩
    rw [isRadixCut_iff.mp hcut]
    rw [Cut.value, natAbs_withSign, ← valueOf_eq_ofDigits] at hlimit
    rw [if_neg, Cut.value, valueOf_eq_ofDigits]
    simpa only [Bool.or_eq_true, List.isEmpty_iff, decide_eq_true_eq, not_or, Nat.not_le] using
      ⟨hdigits, hlimit⟩

/-- A whole text is an integer exactly if only blanks follow the one at its start. -/
theorem wholeInteger_eq_some_iff :
    wholeInteger cs = some value ↔
      ∃ cut, leadingInteger cs = some (value, cut) ∧ Text.onlyBlank cut.rest = true := by
  rw [wholeInteger]
  constructor
  · intro h
    split at h
    · next found cut hread =>
      split at h
      · next hrest =>
        cases h
        exact ⟨cut, hread, hrest⟩
      · cases h
    · cases h
  · rintro ⟨cut, hread, hrest⟩
    rw [hread]
    exact if_pos hrest

end Reading

/-- Which integers are read: for every text, the value at its start and the number of bytes up to
the end of its digits, and the value of the whole text. Nothing is read without digits, or if the
value is not strictly between minus two to the sixty-third and two to the sixty-third. -/
theorem integer_read_iff (text : List Char) (value : Int) :
    (∀ used : Nat, (∃ cut, leadingInteger text = some (value, cut) ∧ cut.used = used) ↔
      ∃ radix cut, IsRadixCut text radix cut ∧
        cut.digits ≠ [] ∧ value = cut.value radix ∧ -2 ^ 63 < value ∧ value ≤ 2 ^ 63 - 1 ∧
        used = (Text.Utf8.encode (String.ofList cut.taken)).length) ∧
    (wholeInteger text = some value ↔
      ∃ radix cut, IsRadixCut text radix cut ∧
        cut.digits ≠ [] ∧ value = cut.value radix ∧ -2 ^ 63 < value ∧ value ≤ 2 ^ 63 - 1 ∧
        ∀ c ∈ cut.rest, Text.isBlank c = true) := by
  have hrange : value.natAbs < magnitudeLimit ↔ -2 ^ 63 < value ∧ value ≤ 2 ^ 63 - 1 := by
    rw [magnitudeLimit]
    omega
  refine ⟨fun used => ⟨?_, ?_⟩, ?_, ?_⟩
  · rintro ⟨cut, hread, rfl⟩
    obtain ⟨radix, hcut, hdigits, hvalue, hlimit⟩ := leadingInteger_eq_some_iff.mp hread
    exact ⟨radix, cut, hcut, hdigits, hvalue, (hrange.mp hlimit).1, (hrange.mp hlimit).2,
      hcut.used_eq⟩
  · rintro ⟨radix, cut, hcut, hdigits, hvalue, hleast, hgreatest, rfl⟩
    have hlimit := hrange.mpr ⟨hleast, hgreatest⟩
    exact ⟨cut, leadingInteger_eq_some_iff.mpr ⟨radix, hcut, hdigits, hvalue, hlimit⟩,
      hcut.used_eq⟩
  · intro h
    obtain ⟨cut, hread, hrest⟩ := wholeInteger_eq_some_iff.mp h
    obtain ⟨radix, hcut, hdigits, hvalue, hlimit⟩ := leadingInteger_eq_some_iff.mp hread
    exact ⟨radix, cut, hcut, hdigits, hvalue, (hrange.mp hlimit).1, (hrange.mp hlimit).2,
      List.all_eq_true.mp hrest⟩
  · rintro ⟨radix, cut, hcut, hdigits, hvalue, hleast, hgreatest, hrest⟩
    have hlimit := hrange.mpr ⟨hleast, hgreatest⟩
    exact wholeInteger_eq_some_iff.mpr
      ⟨cut, leadingInteger_eq_some_iff.mpr ⟨radix, hcut, hdigits, hvalue, hlimit⟩,
        List.all_eq_true.mpr hrest⟩

/-- The least machine integer of 64 bits is written in full, and not read. -/
theorem least_integer_not_read :
    let text := "-9223372036854775808".toList
    let cut : Cut := ⟨[], ['-'], [], "9223372036854775808".toList, []⟩
    IsRadixCut text 10 cut ∧ cut.digits ≠ [] ∧ cut.value 10 = -2 ^ 63 ∧ cut.rest = [] ∧
      leadingInteger text = none ∧ wholeInteger text = none := by
  intro text cut
  have hcut : IsRadixCut text 10 cut := isRadixCut_iff.mpr (by decide +kernel)
  exact ⟨hcut, by decide, by decide +kernel, rfl, by decide +kernel, by decide +kernel⟩

end GameSetup.Numeral
