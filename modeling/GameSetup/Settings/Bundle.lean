import GameSetup.Setting.Any
import GameSetup.Settings.Flags

/-!
# Settings of one mode

Playing and editing each have a bundle of eight settings under the same names. The two bundles
differ only in the default of the window mode.
-/

namespace GameSetup

/-- The settings of one mode. -/
structure Bundle where
  windowMode : Setting WindowMode
  software : Setting Bool
  mono : Setting Bool
  grabmouse : Setting Bool
  antialias : Setting Bool
  monitor : RangedSetting Int32
  windowSize : Setting Resolution
  gameSize : Setting Resolution
  deriving DecidableEq, Repr

namespace Bundle

/-- The places of a bundle. -/
inductive Field where
  | windowMode
  | software
  | mono
  | grabmouse
  | antialias
  | monitor
  | windowSize
  | gameSize
  deriving DecidableEq, Repr

/-- All places, in the order in which a configuration lists them. -/
def Field.all : List Field :=
  [.windowMode, .software, .mono, .grabmouse, .antialias, .monitor, .windowSize, .gameSize]

/-- The name of a place in a configuration. -/
def Field.name : Field → String
  | .windowMode => "window_mode"
  | .software => "software"
  | .mono => "mono"
  | .grabmouse => "grabmouse"
  | .antialias => "antialias"
  | .monitor => "monitor"
  | .windowSize => "window_size"
  | .gameSize => "game_size"

/-- A bundle at its defaults. -/
def initial (windowMode : WindowMode) : Bundle where
  windowMode := .fresh windowMode
    "Window mode (one of windowed, borderless_fullscreen, or fullscreen)"
  software := .fresh false "Force software renderer"
  mono := .fresh false "Use mono audio only (disable stereo sound)"
  grabmouse := .fresh false "Grab mouse, keeping it in the game window"
  antialias := .fresh false "antialias game (never use, looks terrible)"
  monitor := .fresh 0 0 Int32.maxValue "the monitor to use (0 is primary, order is OS-defined)"
  windowSize := .fresh ⟨640, 480⟩ "default window size (used only in windowed/fullscreen mode)"
  gameSize := .fresh ⟨320, 200⟩
    "default game size (defaults to 320x200, the original game resolution)"

/-- The setting at a place. -/
def setting (bundle : Bundle) : Field → AnySetting
  | .windowMode => .windowMode bundle.windowMode
  | .software => .flag bundle.software
  | .mono => .flag bundle.mono
  | .grabmouse => .flag bundle.grabmouse
  | .antialias => .flag bundle.antialias
  | .monitor => .number bundle.monitor
  | .windowSize => .resolution bundle.windowSize
  | .gameSize => .resolution bundle.gameSize

/-- Reads a text into the setting at a place. -/
def read (bundle : Bundle) (field : Field) (text : String) : Except Rejection Bundle :=
  match field with
  | .windowMode => (bundle.windowMode.read text).map ({ bundle with windowMode := · })
  | .software => (bundle.software.read text).map ({ bundle with software := · })
  | .mono => (bundle.mono.read text).map ({ bundle with mono := · })
  | .grabmouse => (bundle.grabmouse.read text).map ({ bundle with grabmouse := · })
  | .antialias => (bundle.antialias.read text).map ({ bundle with antialias := · })
  | .monitor => (bundle.monitor.read text).map ({ bundle with monitor := · })
  | .windowSize => (bundle.windowSize.read text).map ({ bundle with windowSize := · })
  | .gameSize => (bundle.gameSize.read text).map ({ bundle with gameSize := · })

/-- Returns the setting at a place to its default. -/
def reset (bundle : Bundle) : Field → Bundle
  | .windowMode => { bundle with windowMode := bundle.windowMode.reset }
  | .software => { bundle with software := bundle.software.reset }
  | .mono => { bundle with mono := bundle.mono.reset }
  | .grabmouse => { bundle with grabmouse := bundle.grabmouse.reset }
  | .antialias => { bundle with antialias := bundle.antialias.reset }
  | .monitor => { bundle with monitor := bundle.monitor.reset }
  | .windowSize => { bundle with windowSize := bundle.windowSize.reset }
  | .gameSize => { bundle with gameSize := bundle.gameSize.reset }

/-- The flags of a run that uses the bundle, without a data directory and with sound. -/
def flags (bundle : Bundle) : Flags where
  windowMode := bundle.windowMode.value
  mono := bundle.mono.value
  nosound := false
  grabmouse := bundle.grabmouse.value
  antialias := bundle.antialias.value
  software := bundle.software.value
  gameSize := bundle.gameSize.value
  monitor := bundle.monitor.value
  windowSize := bundle.windowSize.value
  datadir := none

end Bundle

end GameSetup
