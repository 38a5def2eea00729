import GameSetup.Proofs.Except
import GameSetup.Proofs.Text.Runs
import GameSetup.Setting.Any
import Mathlib.Data.List.Induction

/-!
# What a setting accepts, and what it holds in the end

Whether a text is accepted depends on the kind of a setting and on its bounds, never on the value
that it holds. So after any number of texts a setting holds the last one that it accepts, and a
reset forgets them all.

Two settings that a reset makes equal are the same setting with different values.
-/

namespace GameSetup

namespace Setting

variable {α : Type} [SettingValue α]

/-- The value that a text stands for, if the setting accepts it. -/
def accepted? (_ : Setting α) (text : String) : Option α :=
  (SettingValue.read text).toOption

/-- The value after some texts: that of the last accepted one, or else the default. -/
def valueAfter (setting : Setting α) (texts : List String) : α :=
  (texts.filterMap setting.accepted?).getLast?.getD setting.initial

/-- A text that is read becomes the value in effect. -/
theorem of_read_eq_ok {setting next : Setting α} {text : String}
    (h : setting.read text = .ok next) :
    setting.accepted? text = some next.value ∧ next.userSet = true ∧
      next.reset = setting.reset := by
  rw [read] at h
  rw [accepted?]
  cases hread : (SettingValue.read text : Except Rejection α) with
  | error cause =>
    rw [hread] at h
    cases h
  | ok value =>
    rw [hread] at h
    cases h
    exact ⟨rfl, rfl, rfl⟩

/-- A text that is rejected stands for no value. -/
theorem of_read_eq_error {setting : Setting α} {text : String} {cause : Rejection}
    (h : setting.read text = .error cause) : setting.accepted? text = none := by
  rw [read] at h
  rw [accepted?]
  cases hread : (SettingValue.read text : Except Rejection α) with
  | error cause => rfl
  | ok value =>
    rw [hread] at h
    cases h

end Setting

namespace RangedSetting

/-- The value that a text stands for, if the setting accepts it. -/
def accepted? (setting : RangedSetting Int32) (text : String) : Option Int32 :=
  (SettingValue.read text).toOption.filter fun value =>
    setting.least ≤ value ∧ value ≤ setting.greatest

/-- The value after some texts: that of the last accepted one, or else the default. -/
def valueAfter (setting : RangedSetting Int32) (texts : List String) : Int32 :=
  (texts.filterMap setting.accepted?).getLast?.getD setting.initial

/-- A text that is read becomes the value in effect, and lies within the bounds. -/
theorem of_read_eq_ok {setting next : RangedSetting Int32} {text : String}
    (h : setting.read text = .ok next) :
    setting.accepted? text = some next.value ∧ next.userSet = true ∧
      next.reset = setting.reset := by
  rw [read] at h
  rw [accepted?]
  cases hread : (SettingValue.read text : Except Rejection Int32) with
  | error cause =>
    rw [hread] at h
    cases h
  | ok value =>
    rw [hread] at h
    change (if setting.least ≤ value ∧ value ≤ setting.greatest then _ else _) = _ at h
    split at h
    · next hbounds =>
      cases h
      exact ⟨Option.filter_some_pos (decide_eq_true hbounds), rfl, rfl⟩
    · cases h

/-- A text that is rejected stands for no value, or for one outside the bounds. -/
theorem of_read_eq_error {setting : RangedSetting Int32} {text : String} {cause : Rejection}
    (h : setting.read text = .error cause) : setting.accepted? text = none := by
  rw [read] at h
  rw [accepted?]
  cases hread : (SettingValue.read text : Except Rejection Int32) with
  | error cause => rfl
  | ok value =>
    rw [hread] at h
    change (if setting.least ≤ value ∧ value ≤ setting.greatest then _ else _) = _ at h
    split at h
    · cases h
    · next hbounds => exact Option.filter_some_neg (by simpa using hbounds)

end RangedSetting

/-- A value of one of the five kinds. -/
inductive AnyValue where
  | flag (value : Bool)
  | number (value : Int32)
  | text (value : String)
  | windowMode (value : WindowMode)
  | resolution (value : Resolution)
  deriving DecidableEq, Repr

namespace AnySetting

/-- The value in effect. -/
def value : AnySetting → AnyValue
  | .flag setting => .flag setting.value
  | .number setting => .number setting.value
  | .text setting => .text setting.value
  | .windowMode setting => .windowMode setting.value
  | .resolution setting => .resolution setting.value

/-- The value in the absence of user input. -/
def initialValue : AnySetting → AnyValue
  | .flag setting => .flag setting.initial
  | .number setting => .number setting.initial
  | .text setting => .text setting.initial
  | .windowMode setting => .windowMode setting.initial
  | .resolution setting => .resolution setting.initial

/-- The value that a text stands for, if the setting accepts it. -/
def accepted? : AnySetting → String → Option AnyValue
  | .flag setting, input => (setting.accepted? input).map .flag
  | .number setting, input => (setting.accepted? input).map .number
  | .text setting, input => (setting.accepted? input).map .text
  | .windowMode setting, input => (setting.accepted? input).map .windowMode
  | .resolution setting, input => (setting.accepted? input).map .resolution

/-- The value of the last of some texts that the setting accepts. -/
def lastAccepted? (setting : AnySetting) (inputs : List String) : Option AnyValue :=
  (inputs.filterMap setting.accepted?).getLast?

/-- Reads a text if it is accepted, and else changes nothing. -/
def take (setting : AnySetting) (input : String) : AnySetting :=
  match setting.read input with
  | .ok next => next
  | .error _ => setting

/-- A text that is read becomes the value in effect, and nothing else changes. -/
theorem of_read_eq_ok {setting next : AnySetting} {input : String}
    (h : setting.read input = .ok next) :
    setting.accepted? input = some next.value ∧ next.userSet = true ∧
      next.reset = setting.reset := by
  cases setting with
  | number inner =>
    rw [read] at h
    obtain ⟨read, hread, rfl⟩ := exists_of_map_eq_ok h
    obtain ⟨haccepted, huser, hreset⟩ := RangedSetting.of_read_eq_ok hread
    rw [accepted?, haccepted, reset, reset, hreset]
    exact ⟨rfl, huser, rfl⟩
  | flag inner | text inner | windowMode inner | resolution inner =>
    rw [read] at h
    obtain ⟨read, hread, rfl⟩ := exists_of_map_eq_ok h
    obtain ⟨haccepted, huser, hreset⟩ := Setting.of_read_eq_ok hread
    rw [accepted?, haccepted, reset, reset, hreset]
    exact ⟨rfl, huser, rfl⟩

/-- A text that is rejected stands for no accepted value. -/
theorem of_read_eq_error {setting : AnySetting} {input : String} {cause : Rejection}
    (h : setting.read input = .error cause) : setting.accepted? input = none := by
  cases setting with
  | number inner =>
    rw [read] at h
    rw [accepted?, RangedSetting.of_read_eq_error (eq_error_of_map_eq_error h), Option.map_none]
  | flag inner | text inner | windowMode inner | resolution inner =>
    rw [read] at h
    rw [accepted?, Setting.of_read_eq_error (eq_error_of_map_eq_error h), Option.map_none]

/-- A second reset does nothing. -/
@[simp] theorem reset_reset (setting : AnySetting) : setting.reset.reset = setting.reset := by
  cases setting <;> rfl

/-- A reset puts the default into effect. -/
theorem value_reset (setting : AnySetting) : setting.reset.value = setting.initialValue := by
  cases setting <;> rfl

/-- A reset forgets that the user gave a value. -/
theorem userSet_reset (setting : AnySetting) : setting.reset.userSet = false := by
  cases setting <;> rfl

/-- A reset leaves alone what is accepted. -/
theorem accepted?_reset (setting : AnySetting) : setting.reset.accepted? = setting.accepted? := by
  cases setting <;> rfl

/-- Settings that differ in their values alone accept the same texts. -/
theorem accepted?_congr {setting other : AnySetting} (h : setting.reset = other.reset) :
    setting.accepted? = other.accepted? := by
  rw [← accepted?_reset, h, accepted?_reset]

/-- Taking a text changes nothing but the value in effect. -/
theorem reset_take (setting : AnySetting) (input : String) :
    (setting.take input).reset = setting.reset := by
  rw [take]
  cases hread : setting.read input with
  | error cause => rfl
  | ok next => exact (of_read_eq_ok hread).2.2

/-- After any number of texts nothing but the value in effect has changed. -/
theorem reset_foldl_take (setting : AnySetting) (inputs : List String) :
    (inputs.foldl take setting).reset = setting.reset := by
  induction inputs generalizing setting with
  | nil => rfl
  | cons input inputs ih => rw [List.foldl_cons, ih, reset_take]

/-- What holds the last of the accepted texts, one more text included. -/
theorem lastAccepted?_concat (setting : AnySetting) (inputs : List String) (input : String) :
    setting.lastAccepted? (inputs ++ [input]) =
      (setting.accepted? input).or (setting.lastAccepted? inputs) :=
  Text.getLast?_filterMap_concat setting.accepted? inputs input

/-- After any number of texts a setting holds the last one that it accepts, and says whether there
was one. The induction is on the texts from their end, since the last one counts. -/
theorem foldl_take (setting : AnySetting) (inputs : List String) :
    (inputs.foldl take setting).value = (setting.lastAccepted? inputs).getD setting.value ∧
      (inputs.foldl take setting).userSet =
        ((setting.lastAccepted? inputs).isSome || setting.userSet) := by
  induction inputs using List.reverseRecOn with
  | nil => exact ⟨rfl, rfl⟩
  | append_singleton inputs input ih =>
    have hkind := accepted?_congr (reset_foldl_take setting inputs)
    rw [List.foldl_append, List.foldl_cons, List.foldl_nil, lastAccepted?_concat, take]
    cases hread : (inputs.foldl take setting).read input with
    | error cause =>
      have hnone := of_read_eq_error hread
      rw [hkind] at hnone
      rw [hnone, Option.none_or]
      exact ih
    | ok next =>
      obtain ⟨hsome, huser, -⟩ := of_read_eq_ok hread
      rw [hkind] at hsome
      rw [hsome, Option.some_or]
      exact ⟨rfl, huser⟩

/-- From its default on, a setting holds the last accepted text or the default. -/
theorem foldl_take_reset (setting : AnySetting) (inputs : List String) :
    (inputs.foldl take setting.reset).value =
        (setting.lastAccepted? inputs).getD setting.initialValue ∧
      (inputs.foldl take setting.reset).userSet = (setting.lastAccepted? inputs).isSome ∧
      (inputs.foldl take setting.reset).reset = setting.reset := by
  obtain ⟨hvalue, huser⟩ := foldl_take setting.reset inputs
  have hsame : setting.reset.lastAccepted? = setting.lastAccepted? := by
    funext inputs
    rw [lastAccepted?, lastAccepted?, accepted?_reset]
  rw [hsame, value_reset] at hvalue
  rw [hsame, userSet_reset, Bool.or_false] at huser
  exact ⟨hvalue, huser, (reset_foldl_take setting.reset inputs).trans (reset_reset setting)⟩

/-- The value after some texts: that of the last accepted one, or else the default. -/
def valueAfter : AnySetting → List String → AnyValue
  | .flag setting, texts => .flag (setting.valueAfter texts)
  | .number setting, texts => .number (setting.valueAfter texts)
  | .text setting, texts => .text (setting.valueAfter texts)
  | .windowMode setting, texts => .windowMode (setting.valueAfter texts)
  | .resolution setting, texts => .resolution (setting.valueAfter texts)

/-- The last of some values is of their kind. -/
theorem getD_getLast?_filterMap_map {α β γ : Type} (read : γ → Option α) (wrap : α → β)
    (texts : List γ) (initial : α) :
    (texts.filterMap fun text => (read text).map wrap).getLast?.getD (wrap initial) =
      wrap ((texts.filterMap read).getLast?.getD initial) := by
  rw [← List.map_filterMap, List.getLast?_map, Option.getD_map]

/-- What texts leave behind in a setting of any kind is what they leave behind in the setting
inside. -/
theorem value_foldl_take_reset (setting : AnySetting) (texts : List String) :
    (texts.foldl take setting.reset).value = setting.valueAfter texts := by
  rw [(foldl_take_reset setting texts).1]
  cases setting with
  | flag inner =>
    exact getD_getLast?_filterMap_map inner.accepted? AnyValue.flag texts inner.initial
  | number inner =>
    exact getD_getLast?_filterMap_map inner.accepted? AnyValue.number texts inner.initial
  | text inner =>
    exact getD_getLast?_filterMap_map inner.accepted? AnyValue.text texts inner.initial
  | windowMode inner =>
    exact getD_getLast?_filterMap_map inner.accepted? AnyValue.windowMode texts inner.initial
  | resolution inner =>
    exact getD_getLast?_filterMap_map inner.accepted? AnyValue.resolution texts inner.initial

end AnySetting

end GameSetup
