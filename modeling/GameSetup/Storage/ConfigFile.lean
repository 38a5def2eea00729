import GameSetup.Settings.Basic
import GameSetup.Storage.SaveDirectory
import GameSetup.Storage.Writer

/-!
# The configuration file

At start the configuration file is read. If it is not there, one that holds every default is
written in its place, so that there is something to edit. Nothing that goes wrong keeps the game
from starting: the defaults are in effect then, and a notice says why.
-/

namespace GameSetup

/-- A failed operation on a configuration file. -/
inductive FileError where
  | read (path : Path) (fault : Fault)
  | write (path : Path) (fault : Fault)
  /-- There is no directory in which the file could be. -/
  | noDirectory
  deriving DecidableEq, Repr

/-- The text of a failed operation. -/
def FileError.message : FileError → String
  | .read path fault => "failed to read " ++ path.text ++ ": " ++ fault.message
  | .write path fault => "failed to write " ++ path.text ++ ": " ++ fault.message
  | .noDirectory => "no save directory available"

/-- What there is to say about a configuration file. -/
inductive FileNotice where
  /-- A line of the file, as the registry sees it. -/
  | line (notice : RegistryNotice)
  /-- The file could not be opened. -/
  | notOpened (path : Path) (fault : Fault)
  /-- The file was read to its end. -/
  | loaded (path : Path)
  /-- There is no file, so one is about to be written. -/
  | absent (path : Path)
  /-- A file with the defaults was written. -/
  | written (path : Path)
  /-- A file with the defaults could not be written. -/
  | notWritten (error : FileError)
  /-- The file could not be read to its end. -/
  | unreadable (error : FileError)
  deriving DecidableEq, Repr

namespace FileNotice

/-- How important a notice is. -/
def severity : FileNotice → Severity
  | .line notice => notice.severity
  | .notOpened _ _ => .debug
  | .loaded _ => .info
  | .absent _ => .debug
  | .written _ => .info
  | .notWritten _ => .warn
  | .unreadable _ => .warn

/-- The text of a notice. -/
def message : FileNotice → String
  | .line notice => notice.message
  | .notOpened path fault => "Unable to open " ++ path.text ++ ": " ++ fault.message
  | .loaded path => "Loaded configuration from " ++ path.text
  | .absent path => "No configuration at " ++ path.text ++ ", generating one"
  | .written path => "Wrote default configuration to " ++ path.text
  | .notWritten error => "Unable to create default configuration: " ++ error.message
  | .unreadable error => error.message ++ " (using defaults)"

end FileNotice

/-- What became of the configuration file. -/
inductive FileStatus where
  /-- It was read to its end. -/
  | loaded
  /-- It was not there, and one with the defaults was written. -/
  | created
  /-- It was not there, and none could be written. -/
  | missing
  /-- It could be opened, but not read to its end. -/
  | unreadable
  deriving DecidableEq, Repr

/-- Settings at start, the flags that follow from them, and what became of the file. -/
structure LoadedSettings where
  settings : Settings
  flags : Flags
  status : FileStatus
  deriving DecidableEq, Repr

/-- What reading a configuration file comes to. -/
structure FileReading where
  settings : Settings
  /-- Whether the file could be opened, unless reading it failed. -/
  found : Except FileError Bool
  notices : List FileNotice

namespace ConfigFile

/-- Where the configuration file is if none is named. -/
def defaultPath (environment : Environment) : Except FileError Path :=
  match environment.configPath with
  | some path => .ok path
  | none => .error .noDirectory

/-- The settings that an opened file gives. What was read before a fault stays in effect. -/
def readStream (settings : Settings) (mode : RunMode) (path : Path) (stream : Conf.Stream) :
    FileReading :=
  let (settings, notices) := settings.parse mode stream
  { settings := settings
    found := stream.outcome.map (fun _ => true) |>.mapError (.read path)
    notices := notices.map .line }

/-- Reads a file into settings. One that cannot be opened changes nothing. -/
def read (settings : Settings) (mode : RunMode) (path : Path) : Script FileReading := do
  match ← Script.open? path with
  | .error fault => return ⟨settings, .ok false, [.notOpened path fault]⟩
  | .ok stream => return readStream settings mode path stream

/-- Writes a file with every default, and the directories that are missing on the way to it. -/
def writeDefaults (path : Path) : Script (Except FileError Unit) := do
  match ← Script.makeFolder path with
  | .error fault => return .error (.write path fault)
  | .ok () =>
    return (← Writer.write path (Settings.initial.defaultPieces.map Text.Utf8.encode)).mapError
      (.write path)

/-- What writing the defaults has to say for itself. -/
def writeNotices (path : Path) : Except FileError Unit → List FileNotice
  | .ok () => [.written path]
  | .error _ => []

/-- Reads the file at start. -/
def load (mode : RunMode) (path : Path) : Script (LoadedSettings × List FileNotice) := do
  let reading ← read .initial mode path
  match reading.found with
  | .ok true =>
    return (finish reading.settings .loaded, reading.notices ++ [.loaded path])
  | .ok false =>
    let written ← writeDefaults path
    let notices := reading.notices ++ [.absent path] ++ writeNotices path written
    match written with
    | .ok () => return (finish reading.settings .created, notices)
    | .error error => return (finish reading.settings .missing, notices ++ [.notWritten error])
  | .error error =>
    return (finish .initial .unreadable, reading.notices ++ [.unreadable error])
where
  /-- The result for some settings. -/
  finish (settings : Settings) (status : FileStatus) : LoadedSettings :=
    ⟨settings, settings.flags mode, status⟩

end ConfigFile

end GameSetup
