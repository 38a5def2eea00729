import GameSetup.Input.KeyName
import GameSetup.Proofs.Input.Vocabulary
import Mathlib.Data.List.Forall2

/-!
# Names of keys in any spelling

A key name is read alike in any case of letters. A name can be spelled with a hyphen or an
underscore for each space, since all of these become spaces before the name is looked up. So every
name is found in every spelling, apart from the one of several characters that has a hyphen of its
own: its hyphen becomes a space too, and no key is called that.
-/

namespace GameSetup.KeyName

open Text (lower)

/-- A hyphen or an underscore as a space. -/
def asSpace (c : Char) : Char :=
  if c == '-' || c == '_' then ' ' else c

section Spaced

variable {c : Char} {cs part : List Char}

/-- Spacing is done character by character. -/
theorem spaced_eq_map (cs : List Char) : spaced cs = cs.map asSpace := rfl

/-- The first character is spaced by itself. -/
theorem spaced_cons (c : Char) (cs : List Char) : spaced (c :: cs) = asSpace c :: spaced cs := rfl

/-- Two parts are spaced by themselves. -/
theorem spaced_append (front back : List Char) :
    spaced (front ++ back) = spaced front ++ spaced back :=
  List.map_append

/-- The marks that become spaces are no letters. -/
theorem asSpace_toLower (c : Char) : asSpace c.toLower = (asSpace c).toLower := by
  have hmark : (c.toLower == '-' || c.toLower == '_') = (c == '-' || c == '_') :=
    Text.apply_toLower (f := fun c => c == '-' || c == '_') (by decide) c
  rw [asSpace, hmark, asSpace]
  split <;> rfl

/-- Spacing and lowering can be done in either order. -/
@[simp] theorem spaced_lower (cs : List Char) : spaced (lower cs) = lower (spaced cs) := by
  rw [spaced_eq_map, spaced_eq_map, lower, lower, List.map_map, List.map_map]
  exact List.map_congr_left fun c _ => asSpace_toLower c

/-- What is no mark stays as it is. -/
theorem asSpace_eq_self (h : c ≠ '-' ∧ c ≠ '_') : asSpace c = c :=
  if_neg (by simp [h])

/-- Without the marks nothing is spaced. -/
theorem spaced_eq_self (h : ∀ c ∈ cs, c ≠ '-' ∧ c ≠ '_') : spaced cs = cs :=
  (List.map_congr_left fun c hc => asSpace_eq_self (h c hc)).trans (List.map_id _)

/-- Blanks stay blank. -/
theorem isBlank_asSpace (h : Text.isBlank c = true) : Text.isBlank (asSpace c) = true := by
  rw [asSpace]
  split
  · decide
  · exact h

/-- Nothing becomes a letter, and no letter becomes something else. -/
theorem isAlphabetic_asSpace (c : Char) : Text.isAlphabetic (asSpace c) = Text.isAlphabetic c := by
  rw [asSpace]
  split
  · next hmark =>
    rcases Bool.or_eq_true_iff.mp hmark with hhyphen | hunderscore
    · rw [beq_iff_eq.mp hhyphen]
      decide
    · rw [beq_iff_eq.mp hunderscore]
      decide
  · rfl

/-- If there is no blank at either end afterwards, then there was none before. -/
theorem trim_of_spaced (h : Text.trim (spaced cs) = spaced cs) : Text.trim cs = cs := by
  have hsolid (ends : Option Char)
      (hends : ∀ c ∈ ends.map asSpace, Text.isBlank c = false) :
      ∀ c ∈ ends, Text.isBlank c = false := by
    intro c hc
    rw [Bool.eq_false_iff]
    intro hblank
    have hspace := hends (asSpace c) (Option.mem_map_of_mem asSpace hc)
    rw [isBlank_asSpace hblank] at hspace
    cases hspace
  rw [Text.trim_eq_self_iff, spaced_eq_map, List.head?_map, List.getLast?_map] at h
  exact Text.trim_eq_self_iff.mpr ⟨hsolid _ h.1, hsolid _ h.2⟩

/-- A text starts with the same words afterwards. -/
theorem startsWith_spaced_iff {word : String} {rest : List Char}
    (hword : Definition.IsWord word) :
    Definition.StartsWith word (spaced cs) rest ↔
      ∃ back, spaced back = rest ∧ Definition.StartsWith word cs back := by
  have hstop (back : List Char) :
      (∀ c ∈ (spaced back).head?, Text.isAlphabetic c = false) ↔
        ∀ c ∈ back.head?, Text.isAlphabetic c = false := by
    cases back with
    | nil => rfl
    | cons c back => simp only [spaced_cons, List.head?_cons, Option.mem_some_iff,
        forall_eq', isAlphabetic_asSpace]
  constructor
  · rintro ⟨htext, hrest⟩
    rw [spaced_eq_map] at htext
    obtain ⟨front, back, rfl, hfront, rfl⟩ := List.map_eq_append_iff.mp htext.symm
    -- a mark would have become a space, which is in no word
    have hsame : front.map asSpace = front := by
      refine (List.map_congr_left fun c hc => asSpace_eq_self ?_).trans (List.map_id _)
      have hlower := hword.isLower (asSpace c) (hfront ▸ List.mem_map_of_mem hc)
      constructor <;> rintro rfl <;> exact absurd hlower (by decide)
    exact ⟨back, rfl, by rw [← hfront, hsame], (hstop back).mp hrest⟩
  · rintro ⟨back, rfl, htext, hback⟩
    have hsame : spaced word.toList = word.toList := spaced_eq_self fun c hc =>
      Text.forall_of_isLower (p := fun c => c ≠ '-' ∧ c ≠ '_') (by decide) (hword.isLower c hc)
    exact ⟨by rw [← htext, spaced_append, hsame], (hstop back).mpr hback⟩

/-- Spacing adds no keyword in front and takes none away. -/
theorem startsWithKeyword_spaced_iff :
    Definition.StartsWithKeyword (spaced cs) ↔ Definition.StartsWithKeyword cs := by
  constructor
  · rintro ⟨word, hword, rest, h⟩
    obtain ⟨back, -, hback⟩ :=
      (startsWith_spaced_iff (Definition.isWord_of_mem_keywords hword)).mp h
    exact ⟨word, hword, back, hback⟩
  · rintro ⟨word, hword, rest, h⟩
    exact ⟨word, hword, spaced rest,
      (startsWith_spaced_iff (Definition.isWord_of_mem_keywords hword)).mpr ⟨rest, rfl, h⟩⟩

end Spaced

section Reading

variable {cs part : List Char}

/-- A single character names its key. -/
theorem read_of_singleton {name : String} {c : Char} (h : name.toList = [c]) :
    read name = Scancode.ofName? [c] := by
  rw [read, h]

/-- Anything else is read as a longer name. -/
theorem read_of_length_ne_one {name : String} (h : name.toList.length ≠ 1) :
    read name = readLong name.toList := by
  rw [read]
  split
  · next hone =>
    rw [hone] at h
    exact absurd rfl h
  · rfl

/-- However a key is named, the keyboard table has room for it. -/
theorem index_lt_of_read {name : String} {scancode : Scancode} (h : read name = some scancode) :
    scancode.index < Scancode.count := by
  have hforced (part : List Char) (h : forced part = some scancode) :
      scancode.index < Scancode.count := by
    rw [forced] at h
    split at h
    · exact Scancode.index_lt_of_ofIndex? h
    · exact Scancode.index_lt_of_ofName? h
  rw [read] at h
  split at h
  · exact Scancode.index_lt_of_ofName? h
  · rw [readLong] at h
    split at h
    · next found hfound =>
      cases h
      obtain ⟨value, -, hindex⟩ := Option.bind_eq_some_iff.mp hfound
      exact Scancode.index_lt_of_ofIndex? hindex
    · split at h
      · exact hforced _ h
      · exact Scancode.index_lt_of_ofName? h

/-- A forcing mark is no letter, and has no capital. -/
theorem isForcingMark_toLower (c : Char) : isForcingMark c.toLower = isForcingMark c :=
  Text.apply_toLower (by decide) c

/-- A part is forced behind the word of a scancode and one of the marks. -/
theorem forcedPart?_eq_some_iff :
    forcedPart? cs = some part ↔ ∃ mark, isForcingMark mark = true ∧
      Definition.dropLetters "scancode".toList cs = some (mark :: part) := by
  rw [forcedPart?]
  constructor
  · intro h
    split at h
    · next mark rest hletters =>
      split at h
      · next hmark =>
        cases h
        exact ⟨mark, hmark, hletters⟩
      · cases h
    · cases h
  · rintro ⟨mark, hmark, hletters⟩
    simp only [hletters, hmark, if_true]

/-- A scancode is forced by one of four marks. -/
theorem cases_of_isForcingMark {mark : Char} (h : isForcingMark mark = true) :
    mark = ':' ∨ mark = '_' ∨ mark = '-' ∨ mark = ' ' := by
  simpa only [isForcingMark, Bool.or_eq_true, beq_iff_eq, or_assoc] using h

/-- The mark ends the word, so the text starts with a keyword. -/
theorem dropKeyword_of_forcedPart? (h : forcedPart? cs = some part) :
    ∃ mark, isForcingMark mark = true ∧
      Definition.dropKeyword "scancode" cs = some (mark :: part) := by
  obtain ⟨mark, hmark, hletters⟩ := forcedPart?_eq_some_iff.mp h
  refine ⟨mark, hmark, Definition.dropKeyword_eq_some_iff.mpr ⟨hletters, ?_⟩⟩
  rintro _ ⟨⟩
  rcases cases_of_isForcingMark hmark with rfl | rfl | rfl | rfl <;> decide

/-- What is behind the mark can be lowered before it is cut off or after. -/
theorem forcedPart?_lower (cs : List Char) :
    forcedPart? (lower cs) = (forcedPart? cs).map lower := by
  rw [forcedPart?, Definition.dropLetters_lower, forcedPart?]
  cases Definition.dropLetters "scancode".toList cs with
  | none => rfl
  | some rest =>
    cases rest with
    | nil => rfl
    | cons mark rest =>
      simp only [Option.map_some, Text.lower_cons, isForcingMark_toLower]
      split <;> rfl

/-- A forced scancode is read alike in any case of letters. -/
theorem forced_lower (cs : List Char) : forced (lower cs) = forced cs := by
  rw [forced, Numeral.wholeInteger_lower, Scancode.ofName?_lower, forced]

/-- A longer name is read alike in any case of letters. -/
theorem readLong_lower (cs : List Char) : readLong (lower cs) = readLong cs := by
  rw [readLong, Numeral.wholeInteger_lower, forcedPart?_lower, spaced_lower,
    Scancode.ofName?_lower, readLong]
  cases forcedPart? cs with
  | none => rfl
  | some part => simp only [Option.map_some, forced_lower]

end Reading

section Spelling

/-- Whether a character can stand for another one: in another case if it is a letter, as a hyphen or
an underscore if it is a space. -/
def StandsFor (c original : Char) : Prop :=
  c.toLower = original.toLower ∨ original = ' ' ∧ (c = '-' ∨ c = '_')

/-- Whether a text is another one in a tolerated spelling. -/
def IsSpellingOf (text original : List Char) : Prop :=
  List.Forall₂ StandsFor text original

variable {text original cs : List Char} {scancode : Scancode}

/-- In small letters and with spaces for the marks, all spellings are one. -/
theorem IsSpellingOf.spaced_eq (h : IsSpellingOf text original) :
    spaced (lower text) = spaced (lower original) := by
  induction h with
  | nil => rfl
  | cons hc _ ih =>
    rw [Text.lower_cons, Text.lower_cons, spaced_cons, spaced_cons, ih]
    congr 1
    rcases hc with hletter | ⟨rfl, rfl | rfl⟩
    · rw [hletter]
    · rfl
    · rfl

/-- What stands for anything but a space is the same up to case. -/
theorem StandsFor.toLower_eq {c original : Char} (h : StandsFor c original)
    (hsolid : Text.isBlank original.toLower = false) : c.toLower = original.toLower := by
  rcases h with hletter | ⟨rfl, -⟩
  · exact hletter
  · exact absurd hsolid (by decide)

/-- Nothing is forced in a text that starts with no keyword. -/
theorem forcedPart?_eq_none (h : ¬ Definition.StartsWithKeyword (lower cs)) :
    forcedPart? cs = none := by
  have hlower : forcedPart? (lower cs) = none := by
    rw [Option.eq_none_iff_forall_ne_some]
    intro part hpart
    obtain ⟨mark, -, hdrop⟩ := dropKeyword_of_forcedPart? hpart
    have hword : "scancode" ∈ Definition.keywords := by decide
    have hstarts := (Definition.dropKeyword_iff_startsWith
      (Definition.isWord_of_mem_keywords hword) (Text.lower_lower cs)).mp hdrop
    exact h ⟨_, hword, _, hstarts⟩
  rw [forcedPart?_lower] at hlower
  exact Option.map_eq_none_iff.mp hlower

/-- A name that starts with a letter is looked up with spaces for its marks. -/
theorem IsSpellingOf.readLong_eq (h : IsSpellingOf text original) {first : Char} {more : List Char}
    (hfirst : lower original = first :: more) (hlower : first.isLower = true)
    (hnone : ¬ Definition.StartsWithKeyword (lower original)) :
    readLong text = Scancode.ofName? (spaced (lower original)) := by
  have hsolid := (Text.of_isLower hlower).1
  have hstart : ∃ tail, lower text = first :: tail := by
    obtain ⟨head, tail, rfl, hhead, -⟩ := List.map_eq_cons_iff.mp hfirst
    cases h with
    | cons hc _ => exact ⟨_, congrArg (· :: _) ((hc.toLower_eq (hhead ▸ hsolid)).trans hhead)⟩
  obtain ⟨tail, htail⟩ := hstart
  have hinteger : Numeral.wholeInteger text = none := by
    rw [← Numeral.wholeInteger_lower, htail]
    exact Numeral.wholeInteger_eq_none_of_alphabetic (Text.trim_cons_of_not_blank hsolid tail)
      (Text.of_isLower hlower).2.1
  have hforced : forcedPart? text = none := by
    refine forcedPart?_eq_none fun hstarts => hnone ?_
    rwa [← startsWithKeyword_spaced_iff, h.spaced_eq, startsWithKeyword_spaced_iff] at hstarts
  rw [readLong, hinteger, hforced, ← Scancode.ofName?_lower, ← spaced_lower, h.spaced_eq]
  rfl

/-- A name of a key is found in all its spellings, unless it has a hyphen of its own among other
characters. -/
theorem read_spelling {name spelling : String}
    (h : IsSpellingOf spelling.toList name.toList)
    (hname : Scancode.ofName? name.toList = some scancode) :
    read spelling = if lower name.toList = "keypad -".toList then none else some scancode := by
  have hmem := Scancode.ofName?_eq_some_iff.mp hname
  by_cases hone : name.toList.length = 1
  · obtain ⟨original, horiginal⟩ := List.length_eq_one_iff.mp hone
    rw [horiginal] at h hname hmem ⊢
    obtain ⟨c, hspelling, hc⟩ : ∃ c, spelling.toList = [c] ∧ StandsFor c original := by
      generalize spelling.toList = text at h
      cases h with
      | cons hc hrest =>
        cases hrest
        exact ⟨_, rfl, hc⟩
    -- no key is called by a blank
    have hsolid : Text.isBlank original.toLower = false :=
      (Text.trim_eq_self_iff.mp (Scancode.trim_of_mem_spellings hmem)).1 _ rfl
    have hsame : lower [c] = lower [original] := congrArg (fun c => [c]) (hc.toLower_eq hsolid)
    rw [read_of_singleton hspelling, if_neg (by simp), ← Scancode.ofName?_lower, hsame,
      Scancode.ofName?_lower, hname]
  · have hlength : spelling.toList.length ≠ 1 := by rwa [h.length_eq]
    have hlower : ¬ ∃ c, lower name.toList = [c] := by
      rintro ⟨c, hc⟩
      exact hone (by rw [← List.length_map Char.toLower, ← lower, hc, List.length_singleton])
    obtain ⟨⟨first, more, hfirst, hletter⟩, hmarks⟩ :=
      (Scancode.cases_of_mem_spellings hmem).resolve_left hlower
    rw [read_of_length_ne_one hlength,
      h.readLong_eq hfirst hletter (Scancode.not_startsWithKeyword_of_mem_spellings hmem)]
    rcases hmarks with hkeypad | hnone
    · rw [if_pos hkeypad, hkeypad]
      decide +kernel
    · have hkeypad : lower name.toList ≠ "keypad -".toList := fun heq =>
        (hnone '-' (heq ▸ by decide)).1 rfl
      rw [if_neg hkeypad, spaced_eq_self hnone, Scancode.ofName?_lower, hname]

/-- A name of two words, as one and in other letters. -/
theorem read_spelling_left_ctrl :
    IsSpellingOf "left-CTRL".toList "Left Ctrl".toList ∧
      Scancode.ofName? "Left Ctrl".toList = some ⟨224⟩ ∧ read "left-CTRL" = some ⟨224⟩ := by
  have hspelling : IsSpellingOf "left-CTRL".toList "Left Ctrl".toList := by
    simp only [IsSpellingOf, StandsFor, String.reduceToList, List.forall₂_cons,
      List.forall₂_nil_left_iff]
    decide
  have hname : Scancode.ofName? "Left Ctrl".toList = some ⟨224⟩ := by decide +kernel
  exact ⟨hspelling, hname, (read_spelling hspelling hname).trans (if_neg (by decide))⟩

/-- The name with a hyphen of its own is a spelling of itself, and is not read. -/
theorem hyphen_name_not_read :
    Scancode.ofName? "Keypad -".toList = some ⟨86⟩ ∧
      IsSpellingOf "Keypad -".toList "Keypad -".toList ∧ read "Keypad -" = none :=
  ⟨by decide +kernel, List.forall₂_same.mpr fun _ _ => .inl rfl, by decide +kernel⟩

end Spelling

end GameSetup.KeyName
