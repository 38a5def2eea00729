import GameSetup.Proofs.Input.Vocabulary

/-!
# What a definition says

None of the parts of a definition sees the case of letters, and none sees blanks at the end. So a
definition is read from what it says: its text in small letters, without the blanks around it.
-/

namespace GameSetup.Definition

open Text (lower)

/-- A change of a text that none of the parts of a definition can see. -/
structure Harmless (change : List Char → List Char) : Prop where
  trimStart : ∀ cs, Text.trimStart (change cs) = change (Text.trimStart cs)
  dropKeyword : ∀ {word}, IsWord word →
    ∀ cs, dropKeyword word (change cs) = (dropKeyword word cs).map change
  onlyBlank : ∀ cs, Text.onlyBlank (change cs) = Text.onlyBlank cs
  wholeInteger : ∀ cs, Numeral.wholeInteger (change cs) = Numeral.wholeInteger cs
  ofName? : ∀ cs,
    Scancode.ofName? (Text.trimEnd (change cs)) = Scancode.ofName? (Text.trimEnd cs)

/-- Lowering a definition does not change what it stands for. -/
theorem harmless_lower : Harmless lower where
  trimStart := Text.trimStart_lower
  dropKeyword _ := dropKeyword_lower _
  onlyBlank := Text.onlyBlank_lower
  wholeInteger := Numeral.wholeInteger_lower
  ofName? cs := by rw [Text.trimEnd_lower, Scancode.ofName?_lower]

/-- Nor does cutting blanks off its end. -/
theorem harmless_trimEnd : Harmless Text.trimEnd where
  trimStart cs := by rw [Text.trimStart_trimEnd, Text.trim]
  dropKeyword hword := dropKeyword_trimEnd hword
  onlyBlank := Text.onlyBlank_trimEnd
  wholeInteger cs := Numeral.wholeInteger_congr (Text.trim_trimEnd cs)
  ofName? cs := by rw [Text.trimEnd_trimEnd]

namespace Harmless

variable {change : List Char → List Char} (h : Harmless change)

include h

/-- A harmless change leaves the scancode. -/
theorem scancode (cs : List Char) : scancode (change cs) = Definition.scancode cs := by
  rw [Definition.scancode, h.wholeInteger, Definition.scancode]

/-- It leaves the button of a side. -/
theorem namedButton {name : String} (hname : IsWord name) (button : UInt8) (cs : List Char) :
    namedButton name button (change cs) = Definition.namedButton name button cs := by
  rw [Definition.namedButton, h.dropKeyword hname, Option.map_map, Definition.namedButton]
  simp only [Function.comp_def, h.onlyBlank]

/-- It leaves the button. -/
theorem button (cs : List Char) : button (change cs) = Definition.button cs := by
  simp only [Definition.button, h.namedButton (by decide : IsWord "left"),
    h.namedButton (by decide : IsWord "middle"), h.namedButton (by decide : IsWord "right"),
    h.wholeInteger]

/-- It leaves the mouse button. -/
theorem mouse (cs : List Char) : mouse (change cs) = Definition.mouse cs := by
  rw [Definition.mouse, h.trimStart, h.dropKeyword (by decide), Definition.mouse]
  cases Definition.dropKeyword "button" (Text.trimStart cs) with
  | none => rfl
  | some rest => exact (congrArg _ (h.trimStart rest)).trans (h.button _)

/-- It leaves the keyword, and changes what is behind it. -/
theorem dropAnyKeyword {words : List String} (hwords : ∀ word ∈ words, IsWord word)
    (cs : List Char) :
    dropAnyKeyword words (change cs) = (Definition.dropAnyKeyword words cs).map change := by
  induction words with
  | nil => rfl
  | cons word words ih =>
    obtain ⟨hword, hmore⟩ := List.forall_mem_cons.mp hwords
    have hrest := ih hmore
    rw [Definition.dropAnyKeyword] at hrest ⊢
    rw [List.findSome?_cons, h.dropKeyword hword, Definition.dropAnyKeyword, List.findSome?_cons]
    cases Definition.dropKeyword word cs with
    | none => exact hrest
    | some rest => rfl

/-- So the whole definition cannot see it either. -/
theorem read (definition : String) :
    read (String.ofList (change definition.toList)) = Definition.read definition := by
  rw [Definition.read, Definition.read, String.toList_ofList]
  have hwords : ∀ word ∈ ["scancode", "scan", "sc"], IsWord word :=
    fun _ => isWord_of_mem_numberWords
  simp only [h.trimStart, h.dropAnyKeyword hwords, h.dropKeyword (by decide : IsWord "mouse"),
    h.dropKeyword (by decide : IsWord "control"), h.ofName?]
  cases Definition.dropAnyKeyword ["scancode", "scan", "sc"] (Text.trimStart definition.toList) with
  | some rest => exact congrArg understood (h.scancode rest)
  | none =>
    cases Definition.dropKeyword "mouse" (Text.trimStart definition.toList) with
    | some rest => exact congrArg understood (h.mouse rest)
    | none =>
      cases Definition.dropKeyword "control" (Text.trimStart definition.toList) with
      | some rest => rfl
      | none => rfl

end Harmless

/-- What a definition says: its text in small letters, without the blanks around it. -/
def plain (definition : String) : List Char :=
  lower (Text.trim definition.toList)

/-- A definition is read from what it says. -/
theorem read_plain (definition : String) :
    read (String.ofList (plain definition)) = read definition := by
  have hlower := harmless_lower.read (String.ofList (Text.trim definition.toList))
  have htrimEnd := harmless_trimEnd.read (String.ofList (Text.trimStart definition.toList))
  rw [String.toList_ofList] at hlower htrimEnd
  rw [plain, hlower, Text.trim, htrimEnd, read, String.toList_ofList, Text.trimStart_trimStart,
    read]

/-- A plain text does not begin with a blank. -/
theorem trimStart_plain (definition : String) :
    Text.trimStart (plain definition) = plain definition := by
  rw [plain, Text.trimStart_lower, Text.trimStart_trim]

/-- What a definition names depends on what it says alone. -/
theorem ofDefinition_congr {definition other : String} (h : plain other = plain definition) :
    Input.ofDefinition other = Input.ofDefinition definition := by
  rw [Input.ofDefinition, ← read_plain, h, read_plain, Input.ofDefinition]

/-- It says the same in any case of letters and with blanks around it. -/
theorem plain_append {definition : String} {before recased after : List Char}
    (hbefore : Text.onlyBlank before = true) (hafter : Text.onlyBlank after = true)
    (hrecased : lower recased = lower definition.toList) :
    plain (String.ofList (before ++ recased ++ after)) = plain definition := by
  rw [plain, String.toList_ofList, Text.trim_append hbefore _ hafter, ← Text.trim_lower, hrecased,
    Text.trim_lower, plain]

/-- Whether a text is in small letters, without a blank at its end. -/
structure IsPlain (text : List Char) : Prop where
  lower : lower text = text
  trimEnd : Text.trimEnd text = text

/-- What a definition is turned into is plain. -/
theorem isPlain_plain (definition : String) : IsPlain (plain definition) where
  lower := Text.lower_lower _
  trimEnd := by rw [plain, Text.trimEnd_lower, Text.trimEnd_trim]

/-- The end of a plain text is plain. -/
theorem IsPlain.of_append {front back : List Char} (h : IsPlain (front ++ back)) :
    IsPlain back where
  lower := by
    have hlower := h.lower
    rw [Text.lower_append] at hlower
    exact List.append_inj_right hlower (List.length_map _)
  trimEnd := Text.trimEnd_of_append h.trimEnd

/-- Without its first blanks a plain text is plain. -/
theorem IsPlain.trimStart {text : List Char} (h : IsPlain text) :
    IsPlain (Text.trimStart text) := by
  rw [← Text.takeWhile_append_trimStart text] at h
  exact h.of_append

end GameSetup.Definition
