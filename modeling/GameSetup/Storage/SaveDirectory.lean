import GameSetup.Storage.Script

/-!
# The save directory

Saved games, the configuration file and the logs are kept in one directory, which is in the
user's home unless the environment says otherwise. Without a home, there may be none.
-/

namespace GameSetup

/-- The part of the environment that matters. -/
structure Environment where
  /-- The user's home directory, if there is one. -/
  home : Option Path
  /-- The directory to use for saved games; an empty one counts as none. -/
  saveDirectory : Option Path
  deriving DecidableEq, Repr

/-- Why there is no directory to use. -/
inductive DirectoryError where
  /-- It could not be made. -/
  | notMade (path : Path) (fault : Fault)
  /-- Nothing says where it would be. -/
  | unknown
  deriving DecidableEq, Repr

/-- The text of a missing directory. -/
def DirectoryError.message : DirectoryError → String
  | .notMade path fault => "Failed to create directory " ++ path.text ++ ": " ++ fault.message
  | .unknown => "No save directory available"

namespace Environment

/-- The variable that moves the save directory. -/
def saveDirectoryVariable : String := "ABUSE_SAVE_DIR"

/-- The directory of saved games. -/
def saveDirectoryPath (environment : Environment) : Option Path :=
  match environment.saveDirectory.filter (!·.text.isEmpty) with
  | some path => some path
  | none => environment.home.map (·.join ".abuse")

/-- The configuration file. -/
def configPath (environment : Environment) : Option Path :=
  environment.saveDirectoryPath.map (·.join "abuserc")

/-- The directory of the logs. -/
def logsPath (environment : Environment) : Option Path :=
  environment.saveDirectoryPath.map (·.join "logs")

/-- Makes a directory, and gives its path. -/
def ensure (path : Path) : Script (Except DirectoryError Path) := do
  match ← Script.makeDirectories path with
  | .ok () => return .ok path
  | .error fault => return .error (.notMade path fault)

/-- Makes the directory of saved games. -/
def ensureSaveDirectory (environment : Environment) : Script (Except DirectoryError Path) :=
  match environment.saveDirectoryPath with
  | some path => ensure path
  | none => return .error .unknown

/-- Makes the directory of the logs, after that of saved games. -/
def ensureLogs (environment : Environment) : Script (Except DirectoryError Path) := do
  match ← environment.ensureSaveDirectory with
  | .ok path => ensure (path.join "logs")
  | .error error => return .error error

end Environment

end GameSetup
