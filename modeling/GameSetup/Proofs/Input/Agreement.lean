import GameSetup.Proofs.Input.Grammar
import GameSetup.Proofs.Input.KeyName

/-!
# Where definitions and key names agree

A text can be read as a definition or as the older name of a key. Where both readings find a key,
it is the same one, apart from one kind of text: a decimal digit with blanks around it. As a
definition that is the key with the digit on it, and as a key name it is the scancode of that
number. A digit alone is the key in both.
-/

namespace GameSetup

open Text (lower)
open Definition (plain)

/-- A decimal digit with blanks around it. -/
def IsPaddedDigit (text : List Char) : Prop :=
  ∃ digit, Numeral.isDigitOf 10 digit = true ∧ Text.trim text = [digit] ∧ text ≠ [digit]

namespace KeyName

variable {mark : Char} {cs part : List Char} {value : Int} {scancode named : Scancode}

/-- A number with a forcing mark in front that is not negative is the number behind the mark. -/
theorem wholeInteger_of_isForcingMark (hmark : isForcingMark mark = true)
    (h : Numeral.wholeInteger (mark :: part) = some value) (hvalue : 0 ≤ value) :
    Numeral.wholeInteger part = some value := by
  have hother (hsolid : Text.isBlank mark = false)
      (hstart : mark ≠ '+' ∧ mark ≠ '-' ∧ Numeral.isDigitOf 10 mark = false) :
      Numeral.wholeInteger part = some value := by
    rw [Numeral.wholeInteger_eq_none (Text.trim_cons_of_not_blank hsolid part) hstart] at h
    cases h
  rcases cases_of_isForcingMark hmark with rfl | rfl | rfl | rfl
  · exact hother (by decide) (by decide)
  · exact hother (by decide) (by decide)
  · -- a minus leaves nothing but zero
    obtain ⟨hwritten, hlimit⟩ := Numeral.wholeInteger_iff_written.mp h
    rw [Text.trim_cons_of_not_blank (by decide)] at hwritten
    cases hwritten with
    | unsigned hunsigned =>
      obtain ⟨_, _, heq, hdigit⟩ := hunsigned.exists_eq_cons
      cases heq
      exact absurd hdigit (by decide)
    | @minus _ n hunsigned =>
      obtain rfl : n = 0 := by omega
      refine Numeral.wholeInteger_iff_written.mpr ⟨?_, hlimit⟩
      rw [← Text.trim_trimEnd, Text.trim_eq_self hunsigned.not_blank]
      exact .unsigned hunsigned
  · rwa [Numeral.wholeInteger_congr (Text.trim_cons_of_blank (by decide) part)] at h

/-- What is found with spaces for the marks has no blanks around it, and starts with no keyword. -/
theorem of_ofName?_spaced (hcs : lower cs = cs) (h : Scancode.ofName? (spaced cs) = some scancode) :
    (spaced cs, scancode) ∈ Scancode.spellings ∧ Text.trim cs = cs ∧
      ¬ Definition.StartsWithKeyword cs := by
  have hmem := Scancode.ofName?_eq_some_iff.mp h
  rw [← spaced_lower, hcs] at hmem
  refine ⟨hmem, trim_of_spaced (Scancode.trim_of_mem_spellings hmem), ?_⟩
  rw [← startsWithKeyword_spaced_iff]
  exact Scancode.not_startsWithKeyword_of_mem_spellings hmem

/-- What is forced stands behind the word of a scancode, whatever blanks are around the text. -/
theorem startsWith_of_forcedPart? (hcs : lower cs = cs) (h : forcedPart? cs = some part) :
    ∃ mark, isForcingMark mark = true ∧
      Definition.StartsWith "scancode" (Text.trim cs) (Text.trimEnd (mark :: part)) := by
  obtain ⟨mark, hmark, hdrop⟩ := dropKeyword_of_forcedPart? h
  have hlower : lower (Text.trim cs) = Text.trim cs := by rw [← Text.trim_lower, hcs]
  exact ⟨mark, hmark, (Definition.dropKeyword_iff_startsWith (by decide) hlower).mp
    (Definition.dropKeyword_trim (by decide) hdrop)⟩

/-- Behind the word of a scancode and a mark, the number of a definition is forced. -/
theorem readLong_of_isNumbered (hcs : lower cs = cs)
    (hnumbered : Definition.IsNumbered (Text.trim cs) scancode) (h : readLong cs = some named) :
    scancode = named := by
  obtain ⟨hroom, word, hword, rest, htext, hbehind⟩ := hnumbered
  have hisWord := Definition.isWord_of_mem_numberWords hword
  have hstarts : Definition.StartsWith word (Text.trim cs) rest := ⟨htext, hbehind.not_alphabetic⟩
  have hinteger : Numeral.wholeInteger cs = none := by
    obtain ⟨first, more, hletters, -, halpha⟩ := hisWord.exists_eq_cons
    rw [hletters, List.cons_append] at htext
    exact Numeral.wholeInteger_eq_none_of_alphabetic htext.symm halpha
  rw [readLong, hinteger, Option.bind_none] at h
  cases hforced : forcedPart? cs with
  | some part =>
    simp only [hforced] at h
    obtain ⟨mark, hmark, hforcing⟩ := startsWith_of_forcedPart? hcs hforced
    obtain ⟨rfl, rfl⟩ := hstarts.unique hforcing hisWord (by decide)
    obtain ⟨value, hvalue, hindex⟩ := Option.bind_eq_some_iff.mp
      ((Scancode.bind_ofIndex?_eq_some_iff (Text.trimEnd_trimEnd _)).mpr ⟨hroom, hbehind⟩)
    have hnonneg : 0 ≤ value := by
      rw [(Scancode.ofIndex?_eq_some_iff.mp hindex).1]
      exact Int.natCast_nonneg _
    rw [Numeral.wholeInteger_congr (Text.trim_trimEnd _)] at hvalue
    rw [forced, wholeInteger_of_isForcingMark hmark hvalue hnonneg] at h
    exact Option.some.inj (hindex.symm.trans h)
  | none =>
    simp only [hforced] at h
    obtain ⟨-, htrim, hnone⟩ := of_ofName?_spaced hcs h
    rw [htrim] at hstarts
    exact absurd ⟨word, Definition.mem_keywords_of_mem_numberWords hword, rest, hstarts⟩ hnone

/-- A text of several characters that says a name is read as that name, unless it is a number, which
is then another scancode. -/
theorem readLong_of_mem_spellings (hcs : lower cs = cs)
    (hmem : (Text.trim cs, scancode) ∈ Scancode.spellings) (hlength : cs.length ≠ 1)
    (h : readLong cs = some named) :
    scancode = named ↔ Numeral.wholeInteger cs = none := by
  rw [readLong] at h
  cases hinteger : Numeral.wholeInteger cs with
  | some value =>
    have htrimmed : Numeral.wholeInteger (Text.trim cs) = some value :=
      (Numeral.wholeInteger_congr (Scancode.trim_of_mem_spellings hmem)).trans hinteger
    obtain ⟨digit, htrim, hdigit, rfl⟩ := Scancode.wholeInteger_of_mem_spellings hmem htrimmed
    have hlow : Numeral.digitValue digit < 10 := of_decide_eq_true hdigit
    have hhigh := Scancode.ten_le_index_of_mem_spellings hmem
      (htrim ▸ List.forall_mem_singleton.mpr hdigit)
    refine iff_of_false ?_ (Option.some_ne_none _)
    rintro rfl
    rw [hinteger, Option.bind_some] at h
    cases hindex : Scancode.ofIndex? (Numeral.digitValue digit) with
    | some code =>
      rw [hindex] at h
      obtain rfl : code = scancode := Option.some.inj h
      have hsame := (Scancode.ofIndex?_eq_some_iff.mp hindex).1
      omega
    | none =>
      rw [Scancode.ofIndex?, if_pos (by rw [Scancode.count]; omega)] at hindex
      cases hindex
  | none =>
    refine iff_of_true ?_ rfl
    rw [hinteger, Option.bind_none] at h
    cases hforced : forcedPart? cs with
    | some part =>
      obtain ⟨mark, -, hstarts⟩ := startsWith_of_forcedPart? hcs hforced
      exact absurd ⟨"scancode", by decide, _, hstarts⟩
        (Scancode.not_startsWithKeyword_of_mem_spellings hmem)
    | none =>
      simp only [hforced] at h
      obtain ⟨hspaced, htrim, -⟩ := of_ofName?_spaced hcs h
      rw [htrim] at hmem
      rcases Scancode.cases_of_mem_spellings hmem with ⟨c, rfl⟩ | ⟨-, hkeypad | hnone⟩
      · exact absurd rfl hlength
      · -- without its hyphen, a blank would stand at the end
        rw [hkeypad] at hspaced
        exact absurd (Scancode.trim_of_mem_spellings hspaced) (by decide)
      · rw [spaced_eq_self hnone, Scancode.ofName?_of_mem_spellings hmem] at h
        exact Option.some.inj h

end KeyName

section Agreement

variable {text : String} {scancode named : Scancode}

/-- A word and a number are more than one character. -/
theorem Definition.IsNumbered.two_le_length {cs : List Char}
    (h : Definition.IsNumbered cs scancode) : 2 ≤ cs.length := by
  obtain ⟨-, word, hword, rest, rfl, hbehind⟩ := h
  obtain ⟨first, more, hletters, -⟩ :=
    (Definition.isWord_of_mem_numberWords hword).exists_eq_cons
  have hrest := List.length_pos_of_ne_nil hbehind.ne_nil
  rw [List.length_append, hletters, List.length_cons]
  omega

/-- What says a name is a padded digit exactly if it is an integer of several characters. -/
theorem isPaddedDigit_iff {cs : List Char}
    (hmem : (lower (Text.trim cs), scancode) ∈ Scancode.spellings) :
    IsPaddedDigit cs ↔ cs.length ≠ 1 ∧ Numeral.wholeInteger cs ≠ none := by
  constructor
  · rintro ⟨digit, hdigit, htrim, hne⟩
    refine ⟨fun hone => hne ?_, ?_⟩
    · have hlength : cs.length ≤ (Text.trim cs).length := by
        rw [hone, htrim, List.length_singleton]
      exact htrim ▸ ((Text.trim_isInfix cs).sublist.eq_of_length_le hlength).symm
    · have hread : Numeral.wholeInteger [digit] = some (Numeral.digitValue digit : Int) :=
        Numeral.wholeInteger_singleton_iff.mpr ⟨hdigit, rfl⟩
      rw [← htrim, Numeral.wholeInteger_congr (Text.trim_trim cs)] at hread
      rw [hread]
      exact Option.some_ne_none _
  · rintro ⟨hlength, hinteger⟩
    obtain ⟨value, hvalue⟩ := Option.ne_none_iff_exists'.mp hinteger
    rw [← Numeral.wholeInteger_congr (Text.trim_trim cs), ← Numeral.wholeInteger_lower] at hvalue
    obtain ⟨digit, hletter, hdigit, -⟩ := Scancode.wholeInteger_of_mem_spellings hmem hvalue
    obtain ⟨c, htrim, rfl⟩ := List.map_eq_singleton_iff.mp hletter
    refine ⟨c, (Numeral.isDigitOf_toLower 10 c).symm.trans hdigit, htrim, ?_⟩
    rintro rfl
    exact hlength rfl

/-- A single character that says a name is read as that name. -/
theorem KeyName.read_of_mem_spellings {c : Char} (hc : text.toList = [c])
    (hmem : (plain text, scancode) ∈ Scancode.spellings) (hname : KeyName.read text = some named) :
    scancode = named := by
  rw [KeyName.read_of_singleton hc, Scancode.ofName?_eq_some_iff] at hname
  rw [plain, hc, ← Text.trim_lower, Scancode.trim_of_mem_spellings hname] at hmem
  exact Option.some.inj
    ((Scancode.ofName?_of_mem_spellings hmem).symm.trans (Scancode.ofName?_of_mem_spellings hname))

/-- The two readings of a text find the same key, unless the text is a digit with blanks around
it. -/
theorem scancode_eq_iff_not_isPaddedDigit (hdefinition : Input.ofDefinition text = .key scancode)
    (hname : KeyName.read text = some named) :
    scancode = named ↔ ¬ IsPaddedDigit text.toList := by
  have hplain : plain text = Text.trim (lower text.toList) := (Text.trim_lower _).symm
  rcases Definition.ofDefinition_eq_key_iff.mp hdefinition with hnumbered | ⟨-, hmem⟩
  · have htwo : 2 ≤ (Text.trim text.toList).length := by
      have hlength := hnumbered.two_le_length
      rwa [plain, lower, List.length_map] at hlength
    have hlength : text.toList.length ≠ 1 := by
      have hle := (Text.trim_isInfix text.toList).length_le
      omega
    have hpadded : ¬ IsPaddedDigit text.toList := by
      rintro ⟨digit, -, htrim, -⟩
      rw [htrim, List.length_singleton] at htwo
      omega
    rw [KeyName.read_of_length_ne_one hlength, ← KeyName.readLong_lower] at hname
    rw [hplain] at hnumbered
    exact iff_of_true (KeyName.readLong_of_isNumbered (Text.lower_lower _) hnumbered hname) hpadded
  · rw [isPaddedDigit_iff hmem]
    by_cases hlength : text.toList.length = 1
    · obtain ⟨c, hc⟩ := List.length_eq_one_iff.mp hlength
      exact iff_of_true (KeyName.read_of_mem_spellings hc hmem hname) fun h => h.1 hlength
    · rw [KeyName.read_of_length_ne_one hlength, ← KeyName.readLong_lower] at hname
      rw [hplain] at hmem
      have hlower : (lower text.toList).length ≠ 1 := by rwa [lower, List.length_map]
      rw [KeyName.readLong_of_mem_spellings (Text.lower_lower _) hmem hlower hname,
        Numeral.wholeInteger_lower]
      simp [hlength]

/-- A scancode in hexadecimal digits, which both readings find. -/
theorem scancode_eq_iff_not_isPaddedDigit_hexadecimal :
    Input.ofDefinition "Scancode 0x1D " = .key ⟨29⟩ ∧
      KeyName.read "Scancode 0x1D " = some ⟨29⟩ ∧ ¬ IsPaddedDigit "Scancode 0x1D ".toList := by
  have hdefinition : Input.ofDefinition "Scancode 0x1D " = .key ⟨29⟩ := by decide +kernel
  have hname : KeyName.read "Scancode 0x1D " = some ⟨29⟩ := by decide +kernel
  exact ⟨hdefinition, hname, (scancode_eq_iff_not_isPaddedDigit hdefinition hname).mp rfl⟩

/-- A digit behind a blank is the key with the digit on it in one reading, and the scancode of that
number in the other. -/
theorem padded_digit_read_differently :
    Input.ofDefinition " 4" = .key ⟨33⟩ ∧ KeyName.read " 4" = some ⟨4⟩ ∧
      (⟨33⟩ : Scancode) ≠ ⟨4⟩ :=
  ⟨by decide +kernel, by decide +kernel, by decide⟩

end Agreement

end GameSetup
