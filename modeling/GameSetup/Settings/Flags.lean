import GameSetup.Setting.Resolution
import GameSetup.Setting.WindowMode

/-!
# Flags of a run

What video and sound are started with, and the two ways to run the game. The flags do not say
where a value comes from.
-/

namespace GameSetup

/-- Whether the game is played or its levels are edited. -/
inductive RunMode where
  | game
  | edit
  deriving DecidableEq, Repr

/-- The section that holds the settings of a mode. -/
def RunMode.sectionName : RunMode → String
  | .game => "game"
  | .edit => "edit"

/-- The values that a run starts with. -/
structure Flags where
  windowMode : WindowMode
  mono : Bool
  nosound : Bool
  grabmouse : Bool
  antialias : Bool
  software : Bool
  /-- The size at which the game is drawn, whatever the shape of the window. -/
  gameSize : Resolution
  monitor : Int32
  /-- The size of the window when it is not fullscreen. -/
  windowSize : Resolution
  /-- The directory of the game's data; the built-in one if there is none. -/
  datadir : Option String
  deriving DecidableEq, Repr

/-- The mode of a run that asks for none. -/
def RunMode.initial : RunMode := .game

/-- What is decided when the program is built. -/
structure Build where
  /-- Whether it is built for a system where a fullscreen program has a desktop of its own. -/
  ownDesktop : Bool
  /-- The directory of the game's data, if one is named. -/
  dataDirectory : Option String
  deriving DecidableEq, Repr

namespace Build

/-- The usual build: the desktop is shared, and no directory is named. -/
def usual : Build := ⟨false, none⟩

/-- The mode in which the game's window starts when nothing says otherwise. -/
def gameWindowMode (build : Build) : WindowMode :=
  if build.ownDesktop then .fullscreen else .borderlessFullscreen

end Build

/-- The mode in which the game's window starts in the usual build. -/
def initialGameWindowMode : WindowMode := Build.usual.gameWindowMode

/-- The flags of a run without any configuration. -/
def Flags.initial : Flags where
  windowMode := .borderlessFullscreen
  mono := false
  nosound := false
  grabmouse := false
  antialias := false
  software := false
  gameSize := ⟨320, 200⟩
  monitor := 0
  windowSize := ⟨640, 480⟩
  datadir := none

end GameSetup
