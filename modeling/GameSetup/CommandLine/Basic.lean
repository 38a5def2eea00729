import GameSetup.CommandLine.Side
import GameSetup.Settings.Flags
import GameSetup.Storage.Path

/-!
# Command lines

A command line names a command, or none, and options that go on top of the configuration file.
Switches can only turn something on. A size must be positive in both directions, which is checked
once the words as such are in order.
-/

namespace GameSetup.CommandLine

/-- What the program can be asked to do. -/
inductive Command where
  /-- To print the flags of a run. -/
  | display (json : Bool)
  /-- To print a configuration that holds every default. -/
  | defaults
  /-- To say what input definitions stand for. -/
  | key (definitions : List String)
  deriving DecidableEq, Repr

/-- What a command line says. -/
structure Arguments where
  given : Given
  command : Option Command
  deriving DecidableEq, Repr

/-- Something that reads the words of a command line. -/
abbrev ArgumentReader := List String → Except Refusal Arguments

/-- The command of a level, with what was read for it. -/
def Command.ofSide (level : Level) (side : Side) : Option Command :=
  match level with
  | .program => none
  | .display => some (.display side.json)
  | .defaults => some .defaults
  | .key => some (.key side.words)

/-- Reads the words of a command line. What is wrong behind the command is found before what is
wrong with the last option in front of it. -/
def parse (words : List String) : Except Refusal Arguments := do
  let (front, command) ← Side.empty.read .program words
  match command with
  | none =>
    let front ← front.finish .program
    return ⟨front.given, none⟩
  | some (level, rest) =>
    let (back, _) ← Side.empty.read level rest
    let back ← back.finish level
    let front ← front.finish .program
    return ⟨front.given.merge back.given, Command.ofSide level back⟩

/-- What a command line puts in place of the configuration. -/
structure Overrides where
  windowMode : Option WindowMode
  gameSize : Option Resolution
  software : Bool
  nosound : Bool
  antialias : Bool
  mono : Bool
  grabmouse : Bool
  datadir : Option String
  deriving DecidableEq, Repr

/-- The flags of a run with the overrides in place. -/
def Overrides.apply (overrides : Overrides) (flags : Flags) : Flags :=
  { flags with
    windowMode := overrides.windowMode.getD flags.windowMode
    gameSize := overrides.gameSize.getD flags.gameSize
    software := flags.software || overrides.software
    nosound := flags.nosound || overrides.nosound
    antialias := flags.antialias || overrides.antialias
    mono := flags.mono || overrides.mono
    grabmouse := flags.grabmouse || overrides.grabmouse
    datadir := overrides.datadir.or flags.datadir }

/-- A size that is no pair of positive numbers. -/
structure SizeError where
  sides : List Int32
  deriving DecidableEq, Repr

/-- The text of a refused size. -/
def SizeError.message (error : SizeError) : String :=
  "Invalid --size [" ++
    ", ".intercalate (error.sides.map fun side => Numeral.decimalText side.toInt) ++
    "]: expected two positive integers"

/-- Everything that a run needs to know from its command line. -/
structure Startup where
  mode : RunMode
  overrides : Overrides
  /-- The configuration file to use, if one is named. -/
  config : Option Path
  command : Command
  deriving DecidableEq, Repr

namespace Given

/-- The window mode of the given switches; of several, fullscreen counts before borderless and
borderless before a window. -/
def windowMode (given : Given) : Option WindowMode :=
  if .fullscreen ∈ given.switches then some .fullscreen
  else if .borderless ∈ given.switches then some .borderlessFullscreen
  else if .window ∈ given.switches then some .windowed
  else none

/-- The size that is given, if it is a pair of positive numbers. -/
def gameSize (given : Given) : Except SizeError (Option Resolution) :=
  match given.size with
  | none => .ok none
  | some [width, height] =>
    if 0 < width ∧ 0 < height then .ok (some ⟨width, height⟩) else .error ⟨[width, height]⟩
  | some sides => .error ⟨sides⟩

end Given

/-- What a run needs to know. Without a command the flags are printed. -/
def Arguments.startup (arguments : Arguments) : Except SizeError Startup := do
  let given := arguments.given
  let gameSize ← given.gameSize
  return {
    mode := if .edit ∈ given.switches then .edit else .game
    overrides := {
      windowMode := given.windowMode
      gameSize := gameSize
      software := .software ∈ given.switches
      nosound := .nosound ∈ given.switches
      antialias := .antialias ∈ given.switches
      mono := .mono ∈ given.switches
      grabmouse := .grabmouse ∈ given.switches
      datadir := given.datadir }
    config := given.config.map Path.mk
    command := arguments.command.getD (.display false) }

end GameSetup.CommandLine
