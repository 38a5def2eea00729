import GameSetup.Registry.Defaults
import GameSetup.Settings.Bundle

/-!
# Settings of the game

Everything that a configuration file stores: the data directory in the root section and a bundle
for each mode. A file without headers fills the bundle of the mode in which it is read. Two of the
defaults are decided when the program is built; what is said of a run is about the usual build.
-/

namespace GameSetup

/-- The settings of the game. -/
structure Settings where
  datadir : Setting String
  game : Bundle
  edit : Bundle
  deriving DecidableEq, Repr

namespace Settings

/-- The line at the top of a configuration file that the game writes. -/
def fileHeader : String := "; Abuse-SDL Configuration File"

/-- The section that keys without a header belong to, if no mode is chosen. -/
def initialSection : String := "game"

/-- The data directory of a build. -/
def freshDatadir (build : Build) : Setting String :=
  match build.dataDirectory with
  | some directory => .fresh directory "Data directory (where Abuse data is stored)"
  | none => .fresh "" "Data directory (if blank, use default)"

/-- All settings of a build at their defaults. -/
def ofBuild (build : Build) : Settings where
  datadir := freshDatadir build
  game := .initial build.gameWindowMode
  edit := .initial .windowed

/-- All settings at their defaults, in the usual build. -/
def initial : Settings := .ofBuild .usual

/-- The places of the settings. -/
inductive Slot where
  | datadir
  | bundle (mode : RunMode) (field : Bundle.Field)
  deriving DecidableEq, Repr

/-- The bundle of a mode. -/
def bundle (settings : Settings) : RunMode → Bundle
  | .game => settings.game
  | .edit => settings.edit

/-- Puts another bundle in place of that of a mode. -/
def withBundle (settings : Settings) (mode : RunMode) (bundle : Bundle) : Settings :=
  match mode with
  | .game => { settings with game := bundle }
  | .edit => { settings with edit := bundle }

/-- The settings as a store with seventeen places. -/
instance : SettingStore Settings Slot where
  setting? settings slot :=
    match slot with
    | .datadir => some (.text settings.datadir)
    | .bundle mode field => some ((settings.bundle mode).setting field)
  read settings slot text :=
    match slot with
    | .datadir => (settings.datadir.read text).map ({ settings with datadir := · })
    | .bundle mode field =>
      ((settings.bundle mode).read field text).map (settings.withBundle mode)
  reset settings slot :=
    match slot with
    | .datadir => { settings with datadir := settings.datadir.reset }
    | .bundle mode field => settings.withBundle mode ((settings.bundle mode).reset field)

/-- The names under which a mode's settings are registered. -/
def bundleNames (mode : RunMode) : List (String × Slot) :=
  Bundle.Field.all.map fun field => (field.name, .bundle mode field)

/-- Where a configuration file finds the settings. -/
def catalog : Catalog Slot :=
  ⟨[(rootSection, [("datadir", .datadir)]),
    (RunMode.game.sectionName, bundleNames .game),
    (RunMode.edit.sectionName, bundleNames .edit)]⟩

/-- The registry of the settings, in the root section. -/
def registry (settings : Settings) (defaultSection : String) : Registry Settings Slot :=
  ⟨catalog, settings, rootSection, defaultSection⟩

/-- Reads a configuration for a mode. -/
def parse (settings : Settings) (mode : RunMode) (stream : Conf.Stream) :
    Settings × List RegistryNotice :=
  let (registry, notices) := (settings.registry mode.sectionName).parse stream
  (registry.store, notices)

/-- Returns every setting to its default. -/
def reset (settings : Settings) : Settings :=
  (settings.registry initialSection).reset.store

/-- The flags of a run in a mode. A blank data directory means the built-in one. -/
def flags (settings : Settings) (mode : RunMode) : Flags :=
  { (settings.bundle mode).flags with
    datadir := if settings.datadir.value.isEmpty then none else some settings.datadir.value }

/-- The configuration file that holds every default, piece by piece. -/
def defaultPieces (settings : Settings) : List String :=
  (settings.registry initialSection).defaultPieces fileHeader

/-- The configuration file that holds every default. -/
def defaultsText (settings : Settings) : String :=
  (settings.registry initialSection).defaultsText fileHeader

/-- A reset returns the defaults to themselves. -/
theorem reset_initial : initial.reset = initial := by
  decide

end Settings

end GameSetup
