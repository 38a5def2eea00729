import GameSetup.Input.Definition
import GameSetup.Proofs.Text.Letters

/-!
# Keywords at the start of a text

A keyword is made of small letters. It is dropped if the text starts with it in any case of letters
and the next character is not alphabetic. So no text starts with two different keywords, and what
is left does not depend on the case of letters or on blanks at the end.
-/

namespace GameSetup.Definition

open Text (lower)

/-- Whether a word is made of one or more small letters. -/
def IsWord (word : String) : Prop :=
  word ≠ "" ∧ word.toList.all Char.isLower = true

instance : DecidablePred IsWord := fun _ => inferInstanceAs (Decidable (_ ∧ _))

/-- The words that a number can follow. -/
def numberWords : List String :=
  ["scancode", "scan", "sc"]

/-- The words that a definition can start with. -/
def keywords : List String :=
  ["scancode", "scan", "sc", "mouse", "control"]

/-- Whether a text starts with a word that ends there or before a character that is not
alphabetic. -/
def StartsWith (word : String) (text rest : List Char) : Prop :=
  word.toList ++ rest = text ∧ ∀ c ∈ rest.head?, Text.isAlphabetic c = false

/-- Whether a text starts with one of the words that a definition can start with. -/
def StartsWithKeyword (text : List Char) : Prop :=
  ∃ word ∈ keywords, ∃ rest, StartsWith word text rest

section Words

variable {word other : String} {cs rest : List Char}

/-- A word has no capitals. -/
theorem IsWord.isLower (h : IsWord word) : ∀ c ∈ word.toList, c.isLower = true :=
  List.all_eq_true.mp h.2

/-- A word starts with a letter. -/
theorem IsWord.exists_eq_cons (h : IsWord word) :
    ∃ first more, word.toList = first :: more ∧ Text.isBlank first = false ∧
      Text.isAlphabetic first = true := by
  have hletters : word.toList ≠ [] := fun hnil => h.1 (String.toList_eq_nil_iff.mp hnil)
  obtain ⟨first, more, hcons⟩ := List.exists_cons_of_ne_nil hletters
  obtain ⟨hsolid, halpha, -⟩ := Text.of_isLower (h.isLower first (hcons ▸ List.mem_cons_self))
  exact ⟨first, more, hcons, hsolid, halpha⟩

/-- Every keyword is a word. -/
theorem isWord_of_mem_keywords (h : word ∈ keywords) : IsWord word := by
  have hall : ∀ word ∈ keywords, IsWord word := by decide
  exact hall word h

/-- What can stand in front of a number is a keyword. -/
theorem mem_keywords_of_mem_numberWords {word : String} (h : word ∈ numberWords) :
    word ∈ keywords :=
  List.mem_append_left ["mouse", "control"] h

/-- So it is a word. -/
theorem isWord_of_mem_numberWords {word : String} (h : word ∈ numberWords) : IsWord word :=
  isWord_of_mem_keywords (mem_keywords_of_mem_numberWords h)

/-- A text starts with one keyword at most, and goes on in one way. -/
theorem StartsWith.unique (h : StartsWith word cs rest) {tail : List Char}
    (hother : StartsWith other cs tail) (hword : IsWord word) (hisWord : IsWord other) :
    word = other ∧ rest = tail := by
  -- the longer one would go on with a letter behind the shorter one
  have hshort {short long : String} {front back more : List Char} (hlong : IsWord long)
      (hletters : long.toList = short.toList ++ more) (hback : back = more ++ front)
      (hstop : ∀ c ∈ back.head?, Text.isAlphabetic c = false) : long = short ∧ back = front := by
    cases more with
    | nil =>
      rw [List.append_nil] at hletters
      exact ⟨String.toList_inj.mp hletters, hback⟩
    | cons c more =>
      have hlower := hlong.isLower c (hletters ▸ List.mem_append_right _ List.mem_cons_self)
      have halpha := (Text.of_isLower hlower).2.1
      rw [hstop c (hback ▸ rfl)] at halpha
      cases halpha
  rcases List.append_eq_append_iff.mp (h.1.trans hother.1.symm) with
    ⟨more, hletters, hrest⟩ | ⟨more, hletters, htail⟩
  · obtain ⟨rfl, rfl⟩ := hshort hisWord hletters hrest h.2
    exact ⟨rfl, rfl⟩
  · obtain ⟨rfl, rfl⟩ := hshort hword hletters htail hother.2
    exact ⟨rfl, rfl⟩

end Words

section Lowered

variable {word : List Char} {cs rest : List Char}

/-- What is dropped is the word, up to the case of letters. -/
theorem dropLetters_eq_some_iff :
    dropLetters word cs = some rest ↔ ∃ front, front ++ rest = cs ∧ lower front = lower word := by
  induction word generalizing cs with
  | nil =>
    rw [dropLetters, Option.some.injEq]
    constructor
    · rintro rfl
      exact ⟨[], rfl, rfl⟩
    · rintro ⟨front, rfl, hfront⟩
      rw [List.map_eq_nil_iff.mp hfront]
      rfl
  | cons w word ih =>
    cases cs with
    | nil =>
      refine iff_of_false nofun ?_
      rintro ⟨front, hcs, hfront⟩
      rw [(List.append_eq_nil_iff.mp hcs).1] at hfront
      cases hfront
    | cons c cs =>
      rw [dropLetters]
      constructor
      · intro h
        split at h
        · next hc =>
          obtain ⟨front, rfl, hfront⟩ := ih.mp h
          refine ⟨c :: front, rfl, ?_⟩
          rw [Text.lower_cons, Text.lower_cons, hfront, beq_iff_eq.mp hc]
        · cases h
      · rintro ⟨front, hcs, hfront⟩
        cases front with
        | nil => cases hfront
        | cons first front =>
          obtain ⟨rfl, rfl⟩ := List.cons.inj hcs
          obtain ⟨hc, hword⟩ := List.cons.inj hfront
          rw [if_pos (beq_iff_eq.mpr hc)]
          exact ih.mpr ⟨front, rfl, hword⟩

/-- A word is dropped from a text in small letters as it is. -/
theorem dropLetters_lower (word cs : List Char) :
    dropLetters word (lower cs) = (dropLetters word cs).map lower := by
  induction word generalizing cs with
  | nil => rfl
  | cons w word ih =>
    cases cs with
    | nil => rfl
    | cons c cs =>
      rw [Text.lower_cons, dropLetters, dropLetters, Text.toLower_toLower]
      split
      · exact ih cs
      · rfl

/-- Blanks at the end of a text are still there when a word without blanks is dropped. -/
theorem dropLetters_trimEnd (hword : ∀ w ∈ word, Text.isBlank w = false) (cs : List Char) :
    dropLetters word (Text.trimEnd cs) = (dropLetters word cs).map Text.trimEnd := by
  induction word generalizing cs with
  | nil => rfl
  | cons w word ih =>
    obtain ⟨hw, hmore⟩ := List.forall_mem_cons.mp hword
    cases cs with
    | nil => rfl
    | cons c cs =>
      by_cases hc : (c.toLower == w.toLower) = true
      · have hsolid : Text.isBlank c = false := by
          rw [← Text.isBlank_toLower, beq_iff_eq.mp hc, Text.isBlank_toLower, hw]
        rw [Text.trimEnd_cons_of_not_blank hsolid, dropLetters, dropLetters, if_pos hc, if_pos hc,
          ih hmore]
      · rw [Text.trimEnd_cons, dropLetters, if_neg hc]
        split
        · rfl
        · rw [dropLetters, if_neg hc]
          rfl

end Lowered

section Keywords

variable {word : String} {cs rest : List Char}

/-- A keyword is dropped if its letters are there and no letter follows. -/
theorem dropKeyword_eq_some_iff :
    dropKeyword word cs = some rest ↔
      dropLetters word.toList cs = some rest ∧ ∀ c ∈ rest.head?, Text.isAlphabetic c = false := by
  rw [dropKeyword]
  constructor
  · intro h
    split at h
    · cases h
    · next hletters =>
      cases h
      exact ⟨hletters, nofun⟩
    · next c more hletters =>
      split at h
      · cases h
      · next halpha =>
        cases h
        refine ⟨hletters, ?_⟩
        rintro _ ⟨⟩
        exact Bool.eq_false_iff.mpr halpha
  · rintro ⟨hletters, hstop⟩
    rw [hletters]
    cases rest with
    | nil => rfl
    | cons c rest => exact if_neg (by simp [hstop c rfl])

/-- Of a text in small letters, a keyword is dropped that the text starts with. -/
theorem dropKeyword_iff_startsWith (hword : IsWord word) (hcs : lower cs = cs) :
    dropKeyword word cs = some rest ↔ StartsWith word cs rest := by
  have hlower : lower word.toList = word.toList :=
    (List.map_congr_left fun c hc => (Text.of_isLower (hword.isLower c hc)).2.2).trans
      (List.map_id _)
  rw [dropKeyword_eq_some_iff, dropLetters_eq_some_iff, StartsWith]
  refine and_congr_left fun _ => ⟨?_, fun h => ⟨word.toList, h, rfl⟩⟩
  rintro ⟨front, rfl, hfront⟩
  rw [Text.lower_append] at hcs
  have hsame : lower front = front := List.append_inj_left hcs (List.length_map _)
  rw [← hsame, hfront, hlower]

/-- If a text starts with a keyword, then this one is dropped and no other. -/
theorem StartsWith.dropKeyword_eq (h : StartsWith word cs rest) (hword : IsWord word)
    {other : String} (hisWord : IsWord other) (hcs : lower cs = cs) :
    dropKeyword other cs = if other = word then some rest else none := by
  split
  · next heq =>
    rw [heq]
    exact (dropKeyword_iff_startsWith hword hcs).mpr h
  · next hne =>
    rw [Option.eq_none_iff_forall_ne_some]
    intro tail htail
    exact hne (((dropKeyword_iff_startsWith hisWord hcs).mp htail).unique h hisWord hword).1

/-- Of several keywords, only the one that is there can be dropped. -/
theorem StartsWith.dropAnyKeyword_eq (h : StartsWith word cs rest) (hword : IsWord word)
    {words : List String} (hwords : ∀ other ∈ words, IsWord other) (hcs : lower cs = cs) :
    dropAnyKeyword words cs = if word ∈ words then some rest else none := by
  induction words with
  | nil => rfl
  | cons other words ih =>
    obtain ⟨hother, hmore⟩ := List.forall_mem_cons.mp hwords
    have hrest := ih hmore
    rw [dropAnyKeyword] at hrest ⊢
    rw [List.findSome?_cons, h.dropKeyword_eq hword hother hcs]
    by_cases heq : other = word
    · rw [if_pos heq, if_pos (heq ▸ List.mem_cons_self)]
    · have hmem : word ∈ other :: words ↔ word ∈ words := by
        simp [List.mem_cons, Ne.symm heq]
      rw [if_neg heq, hrest]
      simp only [hmem]

/-- If a text starts with no keyword, then none is dropped. -/
theorem dropKeyword_eq_none (h : ¬ StartsWithKeyword cs) (hcs : lower cs = cs)
    (hword : word ∈ keywords) : dropKeyword word cs = none := by
  rw [Option.eq_none_iff_forall_ne_some]
  intro rest hrest
  exact h ⟨word, hword, rest,
    (dropKeyword_iff_startsWith (isWord_of_mem_keywords hword) hcs).mp hrest⟩

/-- A keyword is dropped whatever the case of the letters behind it. -/
theorem dropKeyword_lower (word : String) (cs : List Char) :
    dropKeyword word (lower cs) = (dropKeyword word cs).map lower := by
  rw [dropKeyword, dropKeyword, dropLetters_lower]
  cases dropLetters word.toList cs with
  | none => rfl
  | some rest =>
    cases rest with
    | nil => rfl
    | cons c rest =>
      simp only [Option.map_some, Text.lower_cons, Text.isAlphabetic_toLower]
      split <;> rfl

/-- A keyword is dropped whether or not blanks stand at the end. -/
theorem dropKeyword_trimEnd (hword : IsWord word) (cs : List Char) :
    dropKeyword word (Text.trimEnd cs) = (dropKeyword word cs).map Text.trimEnd := by
  rw [dropKeyword, dropKeyword,
    dropLetters_trimEnd fun c hc => (Text.of_isLower (hword.isLower c hc)).1]
  cases dropLetters word.toList cs with
  | none => rfl
  | some rest =>
    cases rest with
    | nil => rfl
    | cons c rest =>
      rw [Option.map_some]
      by_cases hgone : Text.trimEnd rest = [] ∧ Text.isBlank c = true
      · have hnil : Text.trimEnd (c :: rest) = [] := by rw [Text.trimEnd_cons, if_pos hgone]
        simp only [hnil, Text.isAlphabetic_of_isBlank hgone.2, Bool.false_eq_true, if_false,
          Option.map_some]
      · have hkept : Text.trimEnd (c :: rest) = c :: Text.trimEnd rest := by
          rw [Text.trimEnd_cons, if_neg hgone]
        simp only [hkept]
        split
        · rfl
        · rw [Option.map_some, hkept]

/-- Nor do blanks in front matter once it is dropped, since there were none. -/
theorem dropKeyword_trim (hword : IsWord word) (h : dropKeyword word cs = some rest) :
    dropKeyword word (Text.trim cs) = some (Text.trimEnd rest) := by
  obtain ⟨first, more, hletters, hsolid, -⟩ := hword.exists_eq_cons
  obtain ⟨front, happend, hfront⟩ := dropLetters_eq_some_iff.mp (dropKeyword_eq_some_iff.mp h).1
  have hstart : Text.trimStart cs = cs := by
    rw [hletters] at hfront
    obtain ⟨c, tail, rfl, hc, -⟩ := List.map_eq_cons_iff.mp hfront
    refine Text.trimStart_eq_self ?_
    rw [← happend]
    rintro _ ⟨⟩
    rw [← Text.isBlank_toLower, hc, Text.isBlank_toLower, hsolid]
  rw [Text.trim, hstart, dropKeyword_trimEnd hword, h, Option.map_some]

end Keywords

end GameSetup.Definition
