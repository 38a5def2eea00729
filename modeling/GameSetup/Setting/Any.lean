import GameSetup.Setting.Basic
import GameSetup.Setting.Resolution
import GameSetup.Setting.WindowMode

/-!
# Settings of any kind

The five kinds of setting that a configuration declares, as one type. Every operation on it is
the operation of the setting inside.
-/

namespace GameSetup

/-- A setting of one of the five kinds. -/
inductive AnySetting where
  | flag (setting : Setting Bool)
  | number (setting : RangedSetting Int32)
  | text (setting : Setting String)
  | windowMode (setting : Setting WindowMode)
  | resolution (setting : Setting Resolution)
  deriving DecidableEq, Repr

namespace AnySetting

/-- Reads a text into the setting. -/
def read : AnySetting → String → Except Rejection AnySetting
  | .flag setting, input => (setting.read input).map .flag
  | .number setting, input => (setting.read input).map .number
  | .text setting, input => (setting.read input).map .text
  | .windowMode setting, input => (setting.read input).map .windowMode
  | .resolution setting, input => (setting.read input).map .resolution

/-- Returns the setting to its default. -/
def reset : AnySetting → AnySetting
  | .flag setting => .flag setting.reset
  | .number setting => .number setting.reset
  | .text setting => .text setting.reset
  | .windowMode setting => .windowMode setting.reset
  | .resolution setting => .resolution setting.reset

/-- Whether the value in effect was read from user input. -/
def userSet : AnySetting → Bool
  | .flag setting => setting.userSet
  | .number setting => setting.userSet
  | .text setting => setting.userSet
  | .windowMode setting => setting.userSet
  | .resolution setting => setting.userSet

/-- What a written configuration says about the setting. -/
def description : AnySetting → String
  | .flag setting => setting.description
  | .number setting => setting.description
  | .text setting => setting.description
  | .windowMode setting => setting.description
  | .resolution setting => setting.description

/-- The canonical text of the value in effect. -/
def valueText : AnySetting → String
  | .flag setting => setting.valueText
  | .number setting => setting.valueText
  | .text setting => setting.valueText
  | .windowMode setting => setting.valueText
  | .resolution setting => setting.valueText

/-- The canonical text of the default. -/
def defaultText : AnySetting → String
  | .flag setting => setting.defaultText
  | .number setting => setting.defaultText
  | .text setting => setting.defaultText
  | .windowMode setting => setting.defaultText
  | .resolution setting => setting.defaultText

end AnySetting

end GameSetup
