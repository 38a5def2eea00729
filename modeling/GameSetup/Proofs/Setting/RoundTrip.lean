import GameSetup.Proofs.Setting.Acceptance
import GameSetup.Proofs.Setting.Number
import GameSetup.Proofs.Setting.Resolution
import GameSetup.Setting.WindowMode

/-!
# Canonical texts are read back

Every value has a canonical text. All but one kind read it back without exception; the gap inside a
resolution has to end at a digit, so a resolution whose height is negative is written but not read.
No text stands for such a resolution, though, so whatever has been read once is read back, and to
write a text in its canonical form twice is to do so once.

A ranged setting does not check its default, so it may reject its own default text.
-/

namespace GameSetup

open Numeral

/-- A flag is read back. -/
theorem read_text_flag (value : Bool) :
    SettingValue.read (SettingValue.text value) = .ok value := by
  cases value <;> decide

/-- A window mode is read back. -/
theorem read_text_windowMode (mode : WindowMode) :
    SettingValue.read (SettingValue.text mode) = .ok mode := by
  cases mode <;> decide

/-- An integer is read back. -/
theorem read_text_number (value : Int32) :
    SettingValue.read (SettingValue.text value) = .ok value := by
  have hend : ∀ c ∈ ([] : List Char).head?, isDigitOf 10 c = false := fun _ hc => nomatch hc
  have hcut := isDecimalCut_decimalText value.toInt hend
  rw [List.append_nil] at hcut
  exact read_number_eq_ok_iff.mpr ⟨_, hcut, value_decimalText _ _, rfl⟩

section Normalization

variable {α : Type} [SettingValue α]

/-- The canonical text of the value that a text stands for. -/
def normalize (α : Type) [SettingValue α] (text : String) : Except Rejection String :=
  (SettingValue.read text : Except Rejection α).map SettingValue.text

/-- A type of values all of which are read back if they come from a text. -/
structure ReadsBack (α : Type) [SettingValue α] : Prop where
  /-- A value that was read is read from its canonical text. -/
  read_text : ∀ (text : String) (value : α), SettingValue.read text = .ok value →
    SettingValue.read (SettingValue.text value) = .ok value
  /-- A text in canonical form has itself as its canonical form. -/
  normalize_eq : ∀ text normal : String, normalize α text = .ok normal →
    normalize α normal = .ok normal

/-- Canonical forms are canonical as soon as all values that were read are read back. -/
theorem ReadsBack.of_read_text
    (h : ∀ (text : String) (value : α), SettingValue.read text = .ok value →
      SettingValue.read (SettingValue.text value) = .ok value) : ReadsBack α where
  read_text := h
  normalize_eq text normal hnormal := by
    obtain ⟨value, hread, htext⟩ := exists_of_map_eq_ok hnormal
    rw [normalize, ← htext, h text value hread]
    rfl

/-- A resolution that was read has no negative height, so it is read back. -/
theorem readsBack_resolution : ReadsBack Resolution :=
  .of_read_text fun text size hread => by
    have hheight : 0 ≤ size.height.toInt := size.exists_read_iff.mp ⟨text, hread⟩
    exact size.read_text.trans (if_pos hheight)

end Normalization

/-- Which canonical texts are read back: those of all flags, texts, integers and window modes, and
those of the resolutions without a negative height, while any other resolution has a text that is
no resolution. Whatever a text stands for is among the values that are read back. -/
theorem read_text_exact :
    (∀ value : Bool, SettingValue.read (SettingValue.text value) = .ok value) ∧
    (∀ value : String, SettingValue.read (SettingValue.text value) = .ok value) ∧
    (∀ value : Int32, SettingValue.read (SettingValue.text value) = .ok value) ∧
    (∀ mode : WindowMode, SettingValue.read (SettingValue.text mode) = .ok mode) ∧
    (∀ size : Resolution, SettingValue.read (SettingValue.text size) =
      if 0 ≤ size.height.toInt then .ok size else .error .notResolution) ∧
    (∀ size : Resolution, (∃ text, SettingValue.read text = .ok size) ↔ 0 ≤ size.height.toInt) ∧
    ReadsBack Bool ∧ ReadsBack String ∧ ReadsBack Int32 ∧ ReadsBack WindowMode ∧
    ReadsBack Resolution := by
  exact ⟨read_text_flag, fun _ => rfl, read_text_number, read_text_windowMode,
    Resolution.read_text, Resolution.exists_read_iff,
    .of_read_text fun _ value _ => read_text_flag value, .of_read_text fun _ _ _ => rfl,
    .of_read_text fun _ value _ => read_text_number value,
    .of_read_text fun _ mode _ => read_text_windowMode mode, readsBack_resolution⟩

namespace AnySetting

/-- Whether a setting accepts its own default: a number has to lie within the bounds, and the height
of a resolution must not be negative. -/
def acceptsDefault : AnySetting → Bool
  | .flag _ => true
  | .number setting => setting.least ≤ setting.initial && setting.initial ≤ setting.greatest
  | .text _ => true
  | .windowMode _ => true
  | .resolution setting => 0 ≤ setting.initial.height.toInt

/-- A setting that accepts its default text reads its default from it. -/
theorem accepted?_defaultText (setting : AnySetting) :
    setting.accepted? setting.defaultText =
      if setting.acceptsDefault then some setting.initialValue else none := by
  cases setting with
  | flag setting =>
    rw [accepted?, defaultText, Setting.accepted?, Setting.defaultText, read_text_flag]
    rfl
  | number setting =>
    rw [accepted?, defaultText, RangedSetting.accepted?, Setting.defaultText, read_text_number,
      Except.toOption, Option.filter_some, acceptsDefault, ← Bool.decide_and]
    split <;> rfl
  | text setting => rfl
  | windowMode setting =>
    rw [accepted?, defaultText, Setting.accepted?, Setting.defaultText, read_text_windowMode]
    rfl
  | resolution setting =>
    simp only [accepted?, defaultText, Setting.accepted?, Setting.defaultText, SettingValue.read,
      SettingValue.text, Resolution.read_text, acceptsDefault]
    by_cases hheight : 0 ≤ setting.initial.height.toInt
    · simp only [hheight, if_true, decide_true]
      rfl
    · simp only [hheight, if_false, decide_false, Bool.false_eq_true]
      rfl

/-- A written integer has neither blanks nor semicolons. -/
theorem not_blank_of_mem_decimalText {value : Int} {c : Char}
    (h : c ∈ (decimalText value).toList) : Text.isBlank c = false ∧ c ≠ ';' := by
  rcases isDigitOf_of_mem_decimalText value h with rfl | hdigit
  · decide
  · refine ⟨isBlank_of_isDigitOf hdigit, ?_⟩
    rintro rfl
    exact absurd hdigit (by decide)

/-- Except for texts, which are their own canonical texts, a default text has neither blanks nor
semicolons. -/
theorem not_blank_of_mem_defaultText {setting : AnySetting} (h : ∀ inner, setting ≠ .text inner)
    {c : Char} (hc : c ∈ setting.defaultText.toList) : Text.isBlank c = false ∧ c ≠ ';' := by
  cases setting with
  | flag setting =>
    have hall : ∀ value : Bool, (SettingValue.text value).toList.all
        (fun c => !Text.isBlank c && c != ';') = true := by decide
    simpa using List.all_eq_true.mp (hall setting.initial) c hc
  | number setting => exact not_blank_of_mem_decimalText hc
  | text setting => exact absurd rfl (h setting)
  | windowMode setting =>
    have hall (mode : WindowMode) :
        mode.name.toList.all (fun c => !Text.isBlank c && c != ';') = true := by
      cases mode <;> decide
    simpa using List.all_eq_true.mp (hall setting.initial) c hc
  | resolution setting =>
    change c ∈ (Resolution.text setting.initial).toList at hc
    rw [Resolution.text, String.toList_append, String.toList_append, List.mem_append,
      List.mem_append] at hc
    rcases hc with (hwidth | hmark) | hheight
    · exact not_blank_of_mem_decimalText hwidth
    · obtain rfl : c = 'x' := List.mem_singleton.mp hmark
      decide
    · exact not_blank_of_mem_decimalText hheight

end AnySetting

end GameSetup
