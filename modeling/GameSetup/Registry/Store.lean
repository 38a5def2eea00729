import GameSetup.Setting.Any

/-!
# Stores of settings

A registry finds the place of a setting by name and leaves it to a store to keep the setting
there. A store can be any record of settings, as long as it can show, read into and reset each
place by itself. The plain store is a list whose places are positions.
-/

namespace GameSetup

/-- Records `σ` of settings whose places are named by `ι`. -/
class SettingStore (σ : Type) (ι : outParam Type) where
  /-- The setting at a place, if the place exists. -/
  setting? : σ → ι → Option AnySetting
  /-- Reads a text into the setting at a place. -/
  read : σ → ι → String → Except Rejection σ
  /-- Returns the setting at a place to its default. -/
  reset : σ → ι → σ

/-- A list of settings of any kind. Places beyond its end hold nothing. -/
instance : SettingStore (List AnySetting) Nat where
  setting? settings place := settings[place]?
  read settings place input :=
    match settings[place]? with
    | none => .ok settings
    | some setting => (setting.read input).map (settings.set place)
  reset settings place := settings.modify place AnySetting.reset

end GameSetup
