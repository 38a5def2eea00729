import GameSetup.Input.KeyName
import GameSetup.Proofs.Input.Keyword
import GameSetup.Proofs.Setting.Sliced

/-!
# Definitions and key names read at byte offsets

A word is compared with as many bytes of a text as it has itself, if the text has a slice of them;
where it has none, or where the slice ends inside a character, the word does not stand there. Only
behind a word that was found is the text cut. Numbers are followed by a cut at the offset that was
handed on with them. So every slice that is asked for is there, and the inputs and keys that are
read are those that a reader of characters reads.
-/

namespace GameSetup.Sliced

open Text

/-- Takes a word off the front of a text, without regard to the case of basic letters. -/
def dropPrefix (word text : String) : Except BadSlice (Option String) :=
  match slice? text 0 word.utf8ByteSize with
  | none => .ok none
  | some head =>
    if Scancode.sameLetters head.toList word.toList then do
      let rest ← sliceFrom text word.utf8ByteSize
      return some rest
    else .ok none

/-- Takes a keyword off the front of a text. It must end there or before a character that is not
alphabetic. -/
def dropKeyword (keyword text : String) : Except BadSlice (Option String) := do
  return match ← dropPrefix keyword text with
    | none => none
    | some rest => if rest.toList.head?.any isAlphabetic then none else some rest

/-- An input by the number that must stand last. -/
def numbered (input? : Int → Option Input) (text : String) : Except BadSlice (Option Input) := do
  match ← leadingInteger text with
  | none => return none
  | some (value, stop) =>
    let rest ← sliceFrom text stop
    return if onlyBlank rest.toList then input? value else none

/-- What follows the keyword of a scancode. -/
def scancode (text : String) : Except BadSlice (Option Input) :=
  numbered (fun value => (Scancode.ofIndex? value).map .key) text

/-- A word that must stand last, as the button that it names. -/
def namedButton (name : String) (button : UInt8) (text : String) :
    Except BadSlice (Option (Option Input)) := do
  return (← dropKeyword name text).map fun rest =>
    if onlyBlank rest.toList then some (.mouseButton button) else none

/-- What follows the two keywords of a mouse button. -/
def button (text : String) : Except BadSlice (Option Input) := do
  match ← namedButton "left" mouseNumbers.left text with
  | some found => return found
  | none =>
    match ← namedButton "middle" mouseNumbers.middle text with
    | some found => return found
    | none =>
      match ← namedButton "right" mouseNumbers.right text with
      | some found => return found
      | none => numbered (fun value => (Definition.buttonOfInt value).map .mouseButton) text

/-- What follows the keyword of the mouse. -/
def mouse (text : String) : Except BadSlice (Option Input) := do
  match ← dropKeyword "button" (String.ofList (trimStart text.toList)) with
  | some rest => button (String.ofList (trimStart rest.toList))
  | none => return none

/-- The part of a name that is forced to be a scancode. -/
def forcedPart? (name : String) : Except BadSlice (Option String) := do
  return match (← dropPrefix "scancode" name).map String.toList with
    | some (mark :: rest) => if KeyName.isForcingMark mark then some (String.ofList rest) else none
    | _ => none

/-- A scancode by number, or by name if it is no number. -/
def forced (part : String) : Except BadSlice (Option Scancode) := do
  match ← wholeInteger part with
  | some value => return Scancode.ofIndex? value
  | none => return Scancode.ofName? part.toList

/-- A name of more than one character. -/
def longKeyName (name : String) : Except BadSlice (Option Scancode) := do
  match (← wholeInteger name).bind Scancode.ofIndex? with
  | some scancode => return some scancode
  | none =>
    match ← forcedPart? name with
    | some part => forced part
    | none => return Scancode.ofName? (KeyName.spaced name.toList)

/-- The key that a name stands for. -/
def keyName (name : String) : Except BadSlice (Option Scancode) :=
  match name.toList with
  | [c] => .ok (Scancode.ofName? [c])
  | _ => longKeyName name

section Words

variable {word text : String} {rest : List Char}

/-- Where a word stands in front, in whatever case, the text has a slice as long as the word, and
the rest stands behind it. -/
theorem exists_head_of_dropLetters
    (h : Definition.dropLetters word.toList text.toList = some rest) :
    ∃ head, slice? text 0 word.utf8ByteSize = some head ∧ lower head.toList = lower word.toList ∧
      head.toList ++ rest = text.toList ∧ RestAt text word.utf8ByteSize rest := by
  obtain ⟨front, happend, hlower⟩ := Definition.dropLetters_eq_some_iff.mp h
  have hcount : byteCount front = word.utf8ByteSize := by
    rw [← byteCount_lower, hlower, byteCount_lower, byteCount_toList]
  have hstart : RestAt text 0 (front ++ rest) := happend ▸ .zero text
  refine ⟨String.ofList front, ?_, ?_, ?_, front, happend, hcount⟩
  · rw [← hcount, ← hstart.slice?_eq, Nat.zero_add]
  · rw [String.toList_ofList, hlower]
  · rw [String.toList_ofList, happend]

/-- A word is found by its bytes where it is found by its characters. -/
theorem dropPrefix_eq (word text : String) :
    dropPrefix word text =
      .ok ((Definition.dropLetters word.toList text.toList).map String.ofList) := by
  cases hdrop : Definition.dropLetters word.toList text.toList with
  | some rest =>
    obtain ⟨head, hhead, hlower, -, hrest⟩ := exists_head_of_dropLetters hdrop
    have hsame : Scancode.sameLetters head.toList word.toList = true := beq_iff_eq.mpr hlower
    simp only [dropPrefix, hhead, hsame, if_true, hrest.sliceFrom_eq]
    rfl
  | none =>
    rw [dropPrefix]
    cases hhead : slice? text 0 word.utf8ByteSize with
    | none => rfl
    | some head =>
      refine if_neg fun hsame => ?_
      obtain ⟨front, back, happend, hfront, -⟩ := slice?_eq_some_iff.mp hhead
      rw [String.utf8ByteSize_eq_zero_iff.mp hfront, String.empty_append] at happend
      have hfound : Definition.dropLetters word.toList text.toList = some back.toList :=
        Definition.dropLetters_eq_some_iff.mpr
          ⟨head.toList, by rw [← String.toList_append, happend], beq_iff_eq.mp hsame⟩
      rw [hdrop] at hfound
      cases hfound

/-- Only behind a slice that the text has is it cut, and nothing between them is lost. -/
theorem exists_head_of_dropPrefix {left : String} (h : dropPrefix word text = .ok (some left)) :
    ∃ head, slice? text 0 word.utf8ByteSize = some head ∧ head ++ left = text := by
  rw [dropPrefix_eq] at h
  cases hdrop : Definition.dropLetters word.toList text.toList with
  | none =>
    rw [hdrop] at h
    cases h
  | some rest =>
    obtain ⟨head, hhead, -, happend, -⟩ := exists_head_of_dropLetters hdrop
    rw [hdrop] at h
    cases h
    refine ⟨head, hhead, String.toList_inj.mp ?_⟩
    rw [String.toList_append, String.toList_ofList, happend]

/-- A keyword is found where it is found by its characters. -/
theorem dropKeyword_eq (keyword text : String) :
    dropKeyword keyword text =
      .ok ((Definition.dropKeyword keyword text.toList).map String.ofList) := by
  rw [dropKeyword, dropPrefix_eq, Definition.dropKeyword]
  cases Definition.dropLetters keyword.toList text.toList with
  | none => rfl
  | some rest =>
    cases rest with
    | nil => rfl
    | cons c rest =>
      simp only [Option.map_some, ok_bind, String.toList_ofList, List.head?_cons, Option.any_some]
      split <;> rfl

end Words

section Inputs

variable (text : String)

/-- The number is the one that the whole text writes. -/
theorem numbered_eq (input? : Int → Option Input) :
    numbered input? text = .ok ((Numeral.wholeInteger text.toList).bind input?) := by
  rw [numbered, leadingInteger_eq, Numeral.wholeInteger]
  cases hread : Numeral.leadingInteger text.toList with
  | none => rfl
  | some read =>
    simp only [Option.map_some, ok_bind, sliceFrom_of_leadingInteger text hread,
      String.toList_ofList]
    split <;> rfl

/-- The scancode is read. -/
theorem scancode_eq : scancode text = .ok (Definition.scancode text.toList) := by
  rw [scancode, numbered_eq, Definition.scancode, Option.map_bind]
  rfl

/-- The button of a side is read by slices as by characters. -/
theorem namedButton_eq (name : String) (number : UInt8) :
    namedButton name number text = .ok (Definition.namedButton name number text.toList) := by
  rw [namedButton, dropKeyword_eq, Definition.namedButton]
  cases Definition.dropKeyword name text.toList with
  | none => rfl
  | some rest =>
    simp only [Option.map_some, ok_bind, String.toList_ofList]
    rfl

/-- The button is read by its side or by its number. -/
theorem button_eq : button text = .ok (Definition.button text.toList) := by
  rw [button, namedButton_eq, namedButton_eq, namedButton_eq, numbered_eq, Definition.button]
  cases Definition.namedButton "left" mouseNumbers.left text.toList with
  | some found => rfl
  | none =>
    cases Definition.namedButton "middle" mouseNumbers.middle text.toList with
    | some found => rfl
    | none =>
      cases Definition.namedButton "right" mouseNumbers.right text.toList with
      | some found => rfl
      | none =>
        rw [Option.map_bind]
        rfl

/-- The button of the mouse is read. -/
theorem mouse_eq : mouse text = .ok (Definition.mouse text.toList) := by
  rw [mouse, dropKeyword_eq, String.toList_ofList, Definition.mouse]
  cases Definition.dropKeyword "button" (trimStart text.toList) with
  | none => rfl
  | some rest =>
    simp only [Option.map_some, ok_bind, button_eq, String.toList_ofList]

/-- So is what is behind a forcing mark. -/
theorem forcedPart?_eq :
    forcedPart? text = .ok ((KeyName.forcedPart? text.toList).map String.ofList) := by
  rw [forcedPart?, dropPrefix_eq, KeyName.forcedPart?]
  cases Definition.dropLetters "scancode".toList text.toList with
  | none => rfl
  | some rest =>
    cases rest with
    | nil => rfl
    | cons mark rest =>
      simp only [Option.map_some, ok_bind, String.toList_ofList]
      split <;> rfl

/-- So is a forced scancode. -/
theorem forced_eq : forced text = .ok (KeyName.forced text.toList) := by
  rw [forced, wholeInteger_eq, KeyName.forced]
  cases Numeral.wholeInteger text.toList <;> rfl

/-- So is a longer name. -/
theorem longKeyName_eq : longKeyName text = .ok (KeyName.readLong text.toList) := by
  rw [longKeyName, wholeInteger_eq, KeyName.readLong, ok_bind]
  cases (Numeral.wholeInteger text.toList).bind Scancode.ofIndex? with
  | some found => rfl
  | none =>
    rw [forcedPart?_eq]
    cases KeyName.forcedPart? text.toList with
    | none => rfl
    | some part => simp only [Option.map_some, ok_bind, forced_eq, String.toList_ofList]

/-- The key is found. -/
theorem keyName_eq : keyName text = .ok (KeyName.read text) := by
  rw [keyName, KeyName.read, longKeyName_eq]
  cases text.toList with
  | nil => rfl
  | cons c cs => cases cs <;> rfl

end Inputs

/-- Whatever a text is, the readers that cut it at byte offsets find every slice that they ask for,
and read what is read of its characters: the integers with the offsets behind them, the resolution,
what follows a keyword, the inputs and the key. The offset behind an integer ends a front of the
first 128 characters; the gap inside a resolution ends between two characters, wherever it starts
between two; and behind a word the text is cut only if it has a slice as long as the word. -/
theorem readers_find_slices (text : String) :
    leadingDecimal text =
        .ok ((Numeral.leadingDecimal text.toList).map fun read => (read.1, read.2.used)) ∧
      leadingInteger text =
        .ok ((Numeral.leadingInteger text.toList).map fun read => (read.1, read.2.used)) ∧
      wholeInteger text = .ok (Numeral.wholeInteger text.toList) ∧
      resolution text = .ok (Resolution.read text) ∧
      (∀ keyword, dropKeyword keyword text =
        .ok ((Definition.dropKeyword keyword text.toList).map String.ofList)) ∧
      scancode text = .ok (Definition.scancode text.toList) ∧
      mouse text = .ok (Definition.mouse text.toList) ∧
      keyName text = .ok (KeyName.read text) ∧
      (∀ number stop, leadingDecimal text = .ok (.ok (number, stop)) → EndsBasic text stop) ∧
      (∀ number stop, leadingInteger text = .ok (some (number, stop)) → EndsBasic text stop) ∧
      (∀ separated offset cs stop, RestAt text offset cs →
        gapStop separated offset cs = .ok stop → ∃ left, RestAt text stop left) ∧
      ∀ word left, dropPrefix word text = .ok (some left) →
        ∃ head, slice? text 0 word.utf8ByteSize = some head ∧ head ++ left = text :=
  ⟨leadingDecimal_eq text, leadingInteger_eq text, wholeInteger_eq text, resolution_eq text,
    fun keyword => dropKeyword_eq keyword text, scancode_eq text, mouse_eq text, keyName_eq text,
    fun _ _ => endsBasic_of_leadingDecimal text, fun _ _ => endsBasic_of_leadingInteger text,
    fun _ _ _ _ => exists_restAt_of_gapStop, fun _ _ => exists_head_of_dropPrefix⟩

end GameSetup.Sliced
