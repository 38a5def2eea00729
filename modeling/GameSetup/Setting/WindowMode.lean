import GameSetup.Setting.Value

/-!
# Window modes

The three ways to create the main window, each with a canonical name. Two of them can also be
written in shorter or looser forms.
-/

namespace GameSetup

/-- How the main window is created. -/
inductive WindowMode where
  | windowed
  | borderlessFullscreen
  | fullscreen
  deriving DecidableEq, Repr

/-- The canonical name of a mode. -/
def WindowMode.name : WindowMode → String
  | .windowed => "windowed"
  | .borderlessFullscreen => "borderless_fullscreen"
  | .fullscreen => "fullscreen"

/-- A mode is read from its name or one of the other accepted forms. -/
instance : SettingValue WindowMode where
  read text :=
    if text ∈ ["window", "windowed"] then .ok .windowed
    else if text = "fullscreen" then .ok .fullscreen
    else if text ∈ ["borderless", "borderless_fullscreen", "borderless fullscreen"] then
      .ok .borderlessFullscreen
    else .error .notWindowMode
  text := WindowMode.name

end GameSetup
