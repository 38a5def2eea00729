import GameSetup.Program.Basic

/-!
# Command line entry

Runs the program on the file system of the computer: requests are carried out one after another,
what the run prints goes to the two output streams, and warnings follow on the second.
-/

namespace GameSetup.Main

/-- The fault that an error of the operating system stands for. -/
def faultOf (error : IO.Error) : Fault :=
  match error with
  | .noFileOrDirectory _ _ _ => .notFound
  | .alreadyExists _ _ _ => .alreadyExists
  | .inappropriateType _ 20 _ => .notDirectory
  | .inappropriateType _ 21 _ => .isDirectory
  | .illegalOperation 21 _ => .isDirectory
  | .invalidArgument _ 36 _ => .nameTooLong
  | other => .other (toString other)

/-- What an action gives, or why it fails. -/
def attempt {α : Type} (action : IO α) : IO (Except Fault α) := do
  match ← action.toBaseIO with
  | .ok result => return .ok result
  | .error error => return .error (faultOf error)

/-- Reads a file to its end, or to the fault that stops it. -/
partial def readAll (file : IO.FS.Handle) (bytes : ByteArray) : IO Conf.Stream := do
  match ← attempt (file.read 65536) with
  | .error fault => return ⟨bytes.data.toList, some fault⟩
  | .ok more =>
    if more.isEmpty then return ⟨bytes.data.toList, none⟩
    else readAll file (bytes ++ more)

/-- Opens a path for reading, and reads what is there. -/
def openPath (path : Path) : IO (Except Fault Conf.Stream) := do
  match ← attempt (IO.FS.Handle.mk path.text .read) with
  | .error fault => return .error fault
  | .ok file => return .ok (← readAll file ByteArray.empty)

/-- Whether a path leads to a directory: only then can it be opened with a slash behind it. -/
def isDirectory (path : Path) : IO Bool := do
  match ← attempt (IO.FS.Handle.mk (path.text ++ "/") .read) with
  | .error _ => return false
  | .ok _ => return true

/-- Adds bytes to a file. How many are taken before a fault is not known, so that none of them is
written again. -/
def appendTo (path : Path) (bytes : List UInt8) : IO Progress := do
  match ← attempt (IO.FS.Handle.mk path.text .append) with
  | .error fault => return ⟨0, some fault⟩
  | .ok file =>
    match ← attempt (do file.write ⟨bytes.toArray⟩; file.flush) with
    | .error fault => return ⟨bytes.length, some fault⟩
    | .ok () => return ⟨bytes.length, none⟩

/-- Carries out the requests of a script. -/
def perform {α : Type} : Script α → IO α
  | .done result => pure result
  | .makeDirectory path next => do
    perform (next (← attempt (IO.FS.createDir path.text)))
  | .isDirectory path next => do
    perform (next (← isDirectory path))
  | .openFile path next => do
    perform (next (← openPath path))
  | .createFile path next => do
    perform (next (← attempt (discard (IO.FS.Handle.mk path.text .write))))
  | .appendFile path bytes next => do
    perform (next (← appendTo path bytes))

/-- The environment of this process. -/
def environment : IO Environment := do
  let home ← IO.getEnv "HOME"
  let saveDirectory ← IO.getEnv Environment.saveDirectoryVariable
  return ⟨(home.filter (!·.isEmpty)).map Path.mk, saveDirectory.map Path.mk⟩

end GameSetup.Main

/-- Runs the program on the words of the command line. -/
def main (words : List String) : IO UInt32 := do
  let environment ← GameSetup.Main.environment
  let outcome ← GameSetup.Main.perform (GameSetup.Program.run environment words)
  IO.print outcome.out
  IO.eprint outcome.err
  for notice in outcome.notices do
    if notice.severity = .warn then
      IO.eprintln (notice.severity.name ++ " " ++ notice.message)
  return outcome.exitCode
