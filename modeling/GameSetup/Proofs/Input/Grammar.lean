import GameSetup.Proofs.Input.Plain

/-!
# The grammar of definitions

In small letters and without the blanks around it, a definition is the word of a scancode with a
number, the two words of a mouse button with a side or a number, or the name of a key that starts
with no keyword. It names an input exactly if it has one of these forms, and then the one that the
form says; a keyword that is not followed by what it asks for leaves no other reading.
-/

namespace GameSetup.Definition

open Text (lower)

/-- The words for the sides of a mouse, and the button that each names. -/
def namedButtons : List (String × UInt8) :=
  [("left", mouseNumbers.left), ("middle", mouseNumbers.middle), ("right", mouseNumbers.right)]

/-- One or more blanks. -/
def IsGap (gap : List Char) : Prop :=
  gap ≠ [] ∧ ∀ c ∈ gap, Text.isBlank c = true

/-- The word of a scancode with its number, which the keyboard table has room for. -/
def IsNumbered (text : List Char) (scancode : Scancode) : Prop :=
  scancode.index < Scancode.count ∧ ∃ word ∈ numberWords, ∃ rest,
    word.toList ++ rest = text ∧ Numeral.Behind rest scancode.index

/-- A side behind a gap, or a number. -/
def NamesButton (text : List Char) (button : UInt8) : Prop :=
  (∃ gap side, gap ++ side.toList = text ∧ IsGap gap ∧ (side, button) ∈ namedButtons) ∨
    Numeral.Behind text button.toNat

/-- The two words of a mouse button with what names the button. -/
def IsButton (text : List Char) (button : UInt8) : Prop :=
  ∃ gap rest, "mouse".toList ++ (gap ++ "button".toList ++ rest) = text ∧ IsGap gap ∧
    NamesButton rest button

/-- The side of a button is a word. -/
theorem isWord_of_mem_namedButtons {side : String} {button : UInt8}
    (h : (side, button) ∈ namedButtons) : IsWord side := by
  have hall : ∀ entry ∈ namedButtons, IsWord entry.1 := by decide
  exact hall _ h

section Parts

variable {text rest : List Char} {input : Input}

/-- A text that starts with a word is no number. -/
theorem StartsWith.not_behind {word : String} {value : Int} (h : StartsWith word text rest)
    (hword : IsWord word) : ¬ Numeral.Behind text value := by
  intro hbehind
  obtain ⟨first, more, hletters, -, halpha⟩ := hword.exists_eq_cons
  have hfirst := hbehind.not_alphabetic first (by rw [← h.1, hletters]; rfl)
  rw [halpha] at hfirst
  cases hfirst

/-- Behind a word, another word can stand only after a gap. -/
theorem startsWith_trimStart_iff {word : String} (hword : IsWord word)
    (hstop : ∀ c ∈ text.head?, Text.isAlphabetic c = false) :
    StartsWith word (Text.trimStart text) rest ↔
      (∃ gap, gap ++ word.toList ++ rest = text ∧ IsGap gap) ∧
        ∀ c ∈ rest.head?, Text.isAlphabetic c = false := by
  obtain ⟨first, more, hletters, hsolid, halpha⟩ := hword.exists_eq_cons
  rw [StartsWith]
  refine and_congr_left fun _ => ⟨fun h => ?_, ?_⟩
  · refine ⟨text.takeWhile Text.isBlank, ?_, fun hnil => ?_, fun c hc => List.mem_takeWhile_imp hc⟩
    · rw [List.append_assoc, h, Text.takeWhile_append_trimStart]
    · -- without a gap, the first letter of the word would stand right behind the other one
      have hsame := Text.takeWhile_append_trimStart text
      rw [hnil, List.nil_append, ← h, hletters] at hsame
      have hfirst := hstop first (hsame ▸ rfl)
      rw [halpha] at hfirst
      cases hfirst
  · rintro ⟨gap, rfl, -, hgap⟩
    rw [List.append_assoc, Text.trimStart_append (List.all_eq_true.mpr hgap),
      Text.trimStart_eq_self]
    rw [hletters]
    rintro _ ⟨⟩
    exact hsolid

/-- A number is read for a scancode that there is room for. -/
theorem scancode_eq_some_iff (htext : IsPlain text) :
    scancode text = some input ↔
      ∃ code : Scancode, input = .key code ∧ code.index < Scancode.count ∧
        Numeral.Behind text code.index := by
  rw [scancode, Option.map_eq_some_iff]
  exact exists_congr fun code => by
    rw [Scancode.bind_ofIndex?_eq_some_iff htext.trimEnd, and_comm, eq_comm]

/-- A number is read for the button that it fits. -/
theorem buttonOfInt_eq_some_iff {value : Int} {number : UInt8} :
    buttonOfInt value = some number ↔ value = number.toNat := by
  have hlt := number.toNat_lt
  rw [buttonOfInt]
  constructor
  · intro h
    split at h
    · next hrange =>
      cases h
      rw [UInt8.toNat_ofNat']
      omega
    · cases h
  · rintro rfl
    rw [if_pos ⟨Int.natCast_nonneg _, by omega⟩, Int.toNat_natCast, UInt8.ofNat_toNat]

/-- So a text is read as the button with that number, if it is an integer behind blanks or
nothing. -/
theorem bind_buttonOfInt_eq_some_iff (htext : IsPlain text) {number : UInt8} :
    (Numeral.wholeInteger text).bind buttonOfInt = some number ↔
      Numeral.Behind text number.toNat := by
  rw [Option.bind_eq_some_iff]
  constructor
  · rintro ⟨value, hvalue, hfits⟩
    rw [buttonOfInt_eq_some_iff.mp hfits] at hvalue
    exact ((Numeral.wholeInteger_iff_behind htext.trimEnd).mp hvalue).1
  · intro hbehind
    refine ⟨number.toNat, (Numeral.wholeInteger_iff_behind htext.trimEnd).mpr ⟨hbehind, ?_⟩,
      buttonOfInt_eq_some_iff.mpr rfl⟩
    rw [Int.natAbs_natCast]
    exact number.toNat_lt.trans (by decide)

/-- The side of a mouse is read as a word that stands last. -/
theorem namedButton_eq {word side : String} (h : StartsWith word text rest) (hword : IsWord word)
    (hside : IsWord side) (htext : IsPlain text) (number : UInt8) :
    namedButton side number text =
      if side = word then some (if rest = [] then some (.mouseButton number) else none)
      else none := by
  have hrest : IsPlain rest := IsPlain.of_append (h.1.symm ▸ htext)
  have hlast : Text.onlyBlank rest = true ↔ rest = [] := by
    rw [Text.onlyBlank_iff_trimEnd_eq_nil, hrest.trimEnd]
  rw [namedButton, h.dropKeyword_eq hword hside htext.lower]
  split
  · simp only [Option.map_some, hlast]
  · rfl

/-- A side that a text starts with must be all of it. -/
theorem button_of_startsWith {side : String} {number : UInt8}
    (hside : (side, number) ∈ namedButtons) (h : StartsWith side text rest)
    (htext : IsPlain text) :
    button text = if rest = [] then some (.mouseButton number) else none := by
  have hword := isWord_of_mem_namedButtons hside
  simp only [button, namedButton_eq h hword (by decide : IsWord "left") htext,
    namedButton_eq h hword (by decide : IsWord "middle") htext,
    namedButton_eq h hword (by decide : IsWord "right") htext]
  simp only [namedButtons, List.mem_cons, Prod.mk.injEq, List.not_mem_nil, or_false] at hside
  rcases hside with ⟨rfl, rfl⟩ | ⟨rfl, rfl⟩ | ⟨rfl, rfl⟩ <;> rfl

/-- A text that starts with no side must be a number. -/
theorem button_of_not_startsWith
    (h : ∀ side number, (side, number) ∈ namedButtons → ∀ rest, ¬ StartsWith side text rest)
    (htext : IsPlain text) :
    button text = ((Numeral.wholeInteger text).bind buttonOfInt).map .mouseButton := by
  have hnone {side : String} {number : UInt8} (hside : (side, number) ∈ namedButtons) :
      namedButton side number text = none := by
    rw [namedButton, Option.map_eq_none_iff, Option.eq_none_iff_forall_ne_some]
    intro rest hrest
    have hword := isWord_of_mem_namedButtons hside
    exact h side number hside rest ((dropKeyword_iff_startsWith hword htext.lower).mp hrest)
  simp only [button, hnone (.head _), hnone (.tail _ (.head _)),
    hnone (.tail _ (.tail _ (.head _)))]

/-- Behind the two words of a mouse button stands a side or a number. -/
theorem button_eq_some_iff (htext : IsPlain text) :
    button text = some input ↔
      ∃ number, input = .mouseButton number ∧
        ((∃ side, StartsWith side text [] ∧ (side, number) ∈ namedButtons) ∨
          Numeral.Behind text number.toNat) := by
  by_cases hsides : ∃ side number, (side, number) ∈ namedButtons ∧ ∃ rest, StartsWith side text rest
  · obtain ⟨side, number, hside, rest, hstarts⟩ := hsides
    have hword := isWord_of_mem_namedButtons hside
    rw [button_of_startsWith hside hstarts htext]
    constructor
    · intro h
      split at h
      · next hrest =>
        cases h
        exact ⟨number, rfl, .inl ⟨side, hrest ▸ hstarts, hside⟩⟩
      · cases h
    · rintro ⟨other, rfl, ⟨word, hother, hmem⟩ | hbehind⟩
      · obtain ⟨rfl, rfl⟩ := hstarts.unique hother hword (isWord_of_mem_namedButtons hmem)
        have hone : ∀ entry ∈ namedButtons, ∀ entry' ∈ namedButtons,
            entry.1 = entry'.1 → entry.2 = entry'.2 := by decide
        have hsame : number = other := hone _ hside _ hmem rfl
        rw [if_pos rfl, hsame]
      · exact absurd hbehind (hstarts.not_behind hword)
  · simp only [not_exists, not_and] at hsides
    rw [button_of_not_startsWith hsides htext, Option.map_eq_some_iff]
    constructor
    · rintro ⟨number, hnumber, rfl⟩
      exact ⟨number, rfl, .inr ((bind_buttonOfInt_eq_some_iff htext).mp hnumber)⟩
    · rintro ⟨number, rfl, ⟨side, hstarts, hside⟩ | hbehind⟩
      · exact absurd hstarts (hsides side number hside [])
      · exact ⟨number, (bind_buttonOfInt_eq_some_iff htext).mpr hbehind, rfl⟩

/-- The same with the blanks in front of it. -/
theorem button_trimStart_eq_some_iff (htext : IsPlain text)
    (hstop : ∀ c ∈ text.head?, Text.isAlphabetic c = false) :
    button (Text.trimStart text) = some input ↔
      ∃ number, input = .mouseButton number ∧ NamesButton text number := by
  rw [button_eq_some_iff htext.trimStart]
  refine exists_congr fun number => and_congr_right fun _ =>
    or_congr ⟨?_, ?_⟩ Numeral.behind_trimStart
  · rintro ⟨side, hstarts, hside⟩
    obtain ⟨⟨gap, rfl, hgap⟩, -⟩ :=
      (startsWith_trimStart_iff (isWord_of_mem_namedButtons hside) hstop).mp hstarts
    exact ⟨gap, side, (List.append_nil _).symm, hgap, hside⟩
  · rintro ⟨gap, side, rfl, hgap, hside⟩
    exact ⟨side, (startsWith_trimStart_iff (isWord_of_mem_namedButtons hside) hstop).mpr
      ⟨⟨gap, List.append_nil _, hgap⟩, nofun⟩, hside⟩

/-- A gap does not start with a letter. -/
theorem IsGap.not_alphabetic {gap : List Char} (h : IsGap gap) (rest : List Char) :
    ∀ c ∈ (gap ++ rest).head?, Text.isAlphabetic c = false := by
  obtain ⟨first, more, rfl⟩ := List.exists_cons_of_ne_nil h.1
  rintro _ ⟨⟩
  exact Text.isAlphabetic_of_isBlank (h.2 first List.mem_cons_self)

/-- Nor does what names a button. -/
theorem NamesButton.not_alphabetic {number : UInt8} (h : NamesButton text number) :
    ∀ c ∈ text.head?, Text.isAlphabetic c = false := by
  rcases h with ⟨gap, side, rfl, hgap, -⟩ | hbehind
  · exact hgap.not_alphabetic _
  · exact hbehind.not_alphabetic

/-- Behind the word of the mouse stand its other word and what names the button. -/
theorem mouse_eq_some_iff (htext : IsPlain text)
    (hstop : ∀ c ∈ text.head?, Text.isAlphabetic c = false) :
    mouse text = some input ↔
      ∃ number, input = .mouseButton number ∧
        ∃ gap rest, gap ++ "button".toList ++ rest = text ∧ IsGap gap ∧
          NamesButton rest number := by
  have hbutton : IsWord "button" := by decide
  have hbind : mouse text = (dropKeyword "button" (Text.trimStart text)).bind fun rest =>
      button (Text.trimStart rest) := by
    rw [mouse]
    cases dropKeyword "button" (Text.trimStart text) <;> rfl
  rw [hbind, Option.bind_eq_some_iff]
  constructor
  · rintro ⟨rest, hdrop, hread⟩
    have hstarts := (dropKeyword_iff_startsWith hbutton htext.trimStart.lower).mp hdrop
    obtain ⟨⟨gap, rfl, hgap⟩, hback⟩ := (startsWith_trimStart_iff hbutton hstop).mp hstarts
    obtain ⟨number, rfl, hnames⟩ :=
      (button_trimStart_eq_some_iff htext.of_append hback).mp hread
    exact ⟨number, rfl, gap, rest, rfl, hgap, hnames⟩
  · rintro ⟨number, rfl, gap, rest, rfl, hgap, hnames⟩
    have hstarts := (startsWith_trimStart_iff hbutton hstop).mpr
      ⟨⟨gap, rfl, hgap⟩, hnames.not_alphabetic⟩
    exact ⟨rest, (dropKeyword_iff_startsWith hbutton htext.trimStart.lower).mpr hstarts,
      (button_trimStart_eq_some_iff htext.of_append hnames.not_alphabetic).mpr
        ⟨number, rfl, hnames⟩⟩

end Parts

/-- What a definition of a key says: the word of a scancode with its number, or else a name or other
spelling of the key that starts with no keyword. -/
def IsKey (text : List Char) (scancode : Scancode) : Prop :=
  IsNumbered text scancode ∨
    ¬ StartsWithKeyword text ∧ (text, scancode) ∈ Scancode.spellings

/-- The keyboard table has room for every key that can be defined. -/
theorem IsKey.index_lt {text : List Char} {scancode : Scancode} (h : IsKey text scancode) :
    scancode.index < Scancode.count := by
  rcases h with hnumbered | ⟨-, hspelling⟩
  · exact hnumbered.1
  · exact Scancode.index_lt_of_mem_spellings hspelling

section Whole

variable {definition word : String} {text rest : List Char} {input : Input}

/-- An input is understood exactly if it was found. -/
theorem understood_eq_ok_iff {found : Option Input} :
    understood found = .ok input ↔ found = some input := by
  cases found <;> simp [understood]

/-- Behind a keyword, only what it asks for is read. -/
theorem read_of_startsWith (hword : word ∈ keywords) (h : StartsWith word (plain definition) rest) :
    read definition =
      if word ∈ numberWords then understood (scancode rest)
      else if word = "mouse" then understood (mouse rest)
      else .error .controller := by
  have hisWord := isWord_of_mem_keywords hword
  have hlower := (isPlain_plain definition).lower
  have hnumber : dropAnyKeyword ["scancode", "scan", "sc"] (plain definition) =
      if word ∈ numberWords then some rest else none :=
    h.dropAnyKeyword_eq hisWord (fun _ => isWord_of_mem_numberWords) hlower
  rw [← read_plain, read, String.toList_ofList, trimStart_plain]
  simp only [hnumber, h.dropKeyword_eq hisWord (by decide : IsWord "mouse") hlower,
    h.dropKeyword_eq hisWord (by decide : IsWord "control") hlower]
  have hcases : ∀ word ∈ keywords, word ∈ numberWords ∨ word = "mouse" ∨ word = "control" := by
    decide
  rcases hcases word hword with hmem | rfl | rfl
  · simp only [if_pos hmem]
  · rfl
  · rfl

/-- What starts with no keyword is read as a name. -/
theorem read_of_not_startsWith (h : ¬ StartsWithKeyword (plain definition)) :
    read definition = understood ((Scancode.ofName? (plain definition)).map .key) := by
  have hplain := isPlain_plain definition
  have hnone {word : String} (hword : word ∈ keywords) :
      dropKeyword word (plain definition) = none :=
    dropKeyword_eq_none h hplain.lower hword
  have hnumber : dropAnyKeyword ["scancode", "scan", "sc"] (plain definition) = none :=
    List.findSome?_eq_none_iff.mpr fun _ hword => hnone (mem_keywords_of_mem_numberWords hword)
  rw [← read_plain, read, String.toList_ofList, trimStart_plain]
  simp only [hnumber, hnone (by decide : "mouse" ∈ keywords),
    hnone (by decide : "control" ∈ keywords), hplain.trimEnd]

/-- A text that starts with a keyword is a key only by its number. -/
theorem isKey_iff_of_startsWith (hword : word ∈ keywords) (h : StartsWith word text rest)
    {code : Scancode} :
    IsKey text code ↔ word ∈ numberWords ∧ code.index < Scancode.count ∧
      Numeral.Behind rest code.index := by
  constructor
  · rintro (⟨hroom, other, hother, tail, htail, hbehind⟩ | ⟨hnone, -⟩)
    · obtain ⟨rfl, rfl⟩ := h.unique ⟨htail, hbehind.not_alphabetic⟩
        (isWord_of_mem_keywords hword) (isWord_of_mem_numberWords hother)
      exact ⟨hother, hroom, hbehind⟩
    · exact absurd ⟨word, hword, rest, h⟩ hnone
  · rintro ⟨hnumber, hroom, hbehind⟩
    exact .inl ⟨hroom, word, hnumber, rest, h.1, hbehind⟩

/-- Only what starts with the word of the mouse is a button. -/
theorem isButton_iff_of_startsWith (hword : word ∈ keywords) (h : StartsWith word text rest)
    {button : UInt8} :
    IsButton text button ↔ word = "mouse" ∧
      ∃ gap tail, gap ++ "button".toList ++ tail = rest ∧ IsGap gap ∧ NamesButton tail button := by
  constructor
  · rintro ⟨gap, tail, htext, hgap, hnames⟩
    have hmouse : StartsWith "mouse" text (gap ++ "button".toList ++ tail) := by
      refine ⟨htext, ?_⟩
      rw [List.append_assoc]
      exact hgap.not_alphabetic _
    obtain ⟨rfl, rfl⟩ := h.unique hmouse (isWord_of_mem_keywords hword) (by decide)
    exact ⟨rfl, gap, tail, rfl, hgap, hnames⟩
  · rintro ⟨rfl, gap, tail, rfl, hgap, hnames⟩
    exact ⟨gap, tail, h.1, hgap, hnames⟩

/-- What starts with no keyword is a key only by a spelling, and no button. -/
theorem isKey_iff_of_not_startsWith (h : ¬ StartsWithKeyword text) {code : Scancode} :
    IsKey text code ↔ (text, code) ∈ Scancode.spellings := by
  refine ⟨?_, fun hspelling => .inr ⟨h, hspelling⟩⟩
  rintro (⟨-, word, hword, rest, htext, hbehind⟩ | ⟨-, hspelling⟩)
  · exact absurd ⟨word, mem_keywords_of_mem_numberWords hword, rest, htext,
      hbehind.not_alphabetic⟩ h
  · exact hspelling

/-- A button starts with a keyword. -/
theorem not_isButton_of_not_startsWith (h : ¬ StartsWithKeyword text) (button : UInt8) :
    ¬ IsButton text button := by
  rintro ⟨gap, rest, htext, hgap, -⟩
  refine h ⟨"mouse", by decide, _, htext, ?_⟩
  rw [List.append_assoc]
  exact hgap.not_alphabetic _

/-- A definition is understood exactly if it says a key or a button, and then as that. -/
theorem read_eq_ok_iff :
    read definition = .ok input ↔
      (∃ code, input = .key code ∧ IsKey (plain definition) code) ∨
        ∃ button, input = .mouseButton button ∧ IsButton (plain definition) button := by
  have hplain := isPlain_plain definition
  by_cases hstarts : StartsWithKeyword (plain definition)
  · obtain ⟨word, hword, rest, h⟩ := hstarts
    have hrest : IsPlain rest := IsPlain.of_append (h.1.symm ▸ hplain)
    simp only [isKey_iff_of_startsWith hword h, isButton_iff_of_startsWith hword h]
    rw [read_of_startsWith hword h]
    by_cases hnumber : word ∈ numberWords
    · have hmouse : word ≠ "mouse" := by
        rintro rfl
        exact absurd hnumber (by decide)
      rw [if_pos hnumber, understood_eq_ok_iff, scancode_eq_some_iff hrest]
      simp [hnumber, hmouse]
    · by_cases hmouse : word = "mouse"
      · rw [if_neg hnumber, if_pos hmouse, understood_eq_ok_iff, mouse_eq_some_iff hrest h.2]
        subst hmouse
        simp [hnumber]
      · rw [if_neg hnumber, if_neg hmouse]
        simp [hnumber, hmouse]
  · simp only [isKey_iff_of_not_startsWith hstarts, not_isButton_of_not_startsWith hstarts]
    rw [read_of_not_startsWith hstarts, understood_eq_ok_iff, Option.map_eq_some_iff]
    simp only [Scancode.ofName?_eq_some_iff, hplain.lower, and_false, exists_false, or_false]
    exact exists_congr fun code => and_comm.trans (and_congr_left' eq_comm)

/-- What a definition names is what is read. -/
theorem ofDefinition_eq_iff (hinput : input ≠ .invalid) :
    Input.ofDefinition definition = input ↔ read definition = .ok input := by
  rw [Input.ofDefinition]
  cases read definition with
  | ok found => rw [Except.ok.injEq]
  | error error =>
    refine iff_of_false (fun h => hinput h.symm) ?_
    intro h
    cases h

/-- A definition stands for a key exactly if the grammar says so. -/
theorem ofDefinition_eq_key_iff {code : Scancode} :
    Input.ofDefinition definition = .key code ↔ IsKey (plain definition) code := by
  rw [ofDefinition_eq_iff (by simp), read_eq_ok_iff]
  simp

/-- It stands for a button exactly if the grammar says so. -/
theorem ofDefinition_eq_mouseButton_iff {button : UInt8} :
    Input.ofDefinition definition = .mouseButton button ↔
      IsButton (plain definition) button := by
  rw [ofDefinition_eq_iff (by simp), read_eq_ok_iff]
  simp

/-- No definition names an input of a game controller. -/
theorem isController_ofDefinition (definition : String) :
    (Input.ofDefinition definition).isController = false := by
  rw [Input.ofDefinition]
  split
  · next input hread =>
    rcases read_eq_ok_iff.mp hread with ⟨code, rfl, -⟩ | ⟨button, rfl, -⟩ <;> rfl
  · rfl

/-- A definition names nothing exactly if it says neither a key nor a button. -/
theorem ofDefinition_eq_invalid_iff :
    Input.ofDefinition definition = .invalid ↔
      (∀ code, ¬ IsKey (plain definition) code) ∧
        ∀ button, ¬ IsButton (plain definition) button := by
  simp only [← ofDefinition_eq_key_iff, ← ofDefinition_eq_mouseButton_iff]
  have hcontroller := isController_ofDefinition definition
  cases hinput : Input.ofDefinition definition with
  | key code => simp
  | mouseButton button => simp
  | controllerButton button => simp [hinput, Input.isController] at hcontroller
  | controllerAxis axis => simp [hinput, Input.isController] at hcontroller
  | invalid => simp

/-- A definition names the key or the button that it says, nothing if it says neither, and never an
input of a game controller. No spelling of a key starts with a keyword, and neither the case of
letters nor blanks around it change what a definition names. -/
theorem definition_accepts_grammar (definition : String) :
    (∀ code, Input.ofDefinition definition = .key code ↔ IsKey (plain definition) code) ∧
      (∀ button, Input.ofDefinition definition = .mouseButton button ↔
        IsButton (plain definition) button) ∧
      (Input.ofDefinition definition = .invalid ↔
        (∀ code, ¬ IsKey (plain definition) code) ∧
          ∀ button, ¬ IsButton (plain definition) button) ∧
      (Input.ofDefinition definition).isController = false ∧
      (∀ spelling ∈ Scancode.spellings, ¬ StartsWithKeyword spelling.1) ∧
      ∀ before recased after, Text.onlyBlank before = true → Text.onlyBlank after = true →
        lower recased = lower definition.toList →
        Input.ofDefinition (String.ofList (before ++ recased ++ after)) =
          Input.ofDefinition definition :=
  ⟨fun _ => ofDefinition_eq_key_iff, fun _ => ofDefinition_eq_mouseButton_iff,
    ofDefinition_eq_invalid_iff, isController_ofDefinition definition,
    fun _ => Scancode.not_startsWithKeyword_of_mem_spellings,
    fun _ _ _ hbefore hafter hrecased => ofDefinition_congr (plain_append hbefore hafter hrecased)⟩

/-- A scancode in octal digits, in capitals and between blanks. -/
theorem definition_accepts_grammar_recased :
    Text.onlyBlank ['\t'] = true ∧ Text.onlyBlank [' '] = true ∧
      lower "SCAN 035".toList = lower "scan 035".toList ∧
      Input.ofDefinition (String.ofList (['\t'] ++ "SCAN 035".toList ++ [' '])) =
        Input.ofDefinition "scan 035" ∧
      Input.ofDefinition "scan 035" = .key ⟨29⟩ :=
  ⟨by decide, by decide, by decide,
    (definition_accepts_grammar "scan 035").2.2.2.2.2 _ _ _ (by decide) (by decide) (by decide),
    by decide +kernel⟩

end Whole

end GameSetup.Definition
