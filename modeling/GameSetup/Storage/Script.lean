import GameSetup.Storage.Disk

/-!
# Scripts

A script asks for files and directories one request at a time, and goes on with the answers. It
says nothing of where they are kept: here it is run on a disk in memory, and a program can carry
out the same requests on a real one. A path that no request can carry is refused beforehand.
-/

namespace GameSetup

/-- How far a request to write has got. -/
structure Progress where
  /-- How many bytes the file has taken. -/
  taken : Nat
  /-- What kept the file from taking the others. -/
  fault : Option Fault
  deriving DecidableEq, Repr

/-- Whether everything was written. -/
def Progress.outcome (progress : Progress) : Except Fault Unit :=
  match progress.fault with
  | none => .ok ()
  | some fault => .error fault

/-- Requests to a file system, each followed by what its answer leads to. -/
inductive Script (α : Type) where
  | done (result : α)
  | makeDirectory (path : Path) (next : Except Fault Unit → Script α)
  | isDirectory (path : Path) (next : Bool → Script α)
  | openFile (path : Path) (next : Except Fault Conf.Stream → Script α)
  | createFile (path : Path) (next : Except Fault Unit → Script α)
  | appendFile (path : Path) (bytes : List UInt8) (next : Progress → Script α)

namespace Script

variable {α β : Type}

/-- Goes on with another script when one is done. -/
def andThen : Script α → (α → Script β) → Script β
  | .done result, next => next result
  | .makeDirectory path rest, next => .makeDirectory path fun answer => (rest answer).andThen next
  | .isDirectory path rest, next => .isDirectory path fun answer => (rest answer).andThen next
  | .openFile path rest, next => .openFile path fun answer => (rest answer).andThen next
  | .createFile path rest, next => .createFile path fun answer => (rest answer).andThen next
  | .appendFile path bytes rest, next =>
    .appendFile path bytes fun answer => (rest answer).andThen next

instance : Monad Script where
  pure := .done
  bind := andThen

/-- Runs a script on a disk: the result, and the disk afterwards. -/
def run : Script α → Disk → α × Disk
  | .done result, disk => (result, disk)
  | .makeDirectory path next, disk =>
    match disk.makeDirectory path with
    | .ok changed => (next (.ok ())).run changed
    | .error fault => (next (.error fault)).run disk
  | .isDirectory path next, disk => (next (disk.isDirectory path)).run disk
  | .openFile path next, disk => (next (disk.openFile path)).run disk
  | .createFile path next, disk =>
    match disk.createFile path with
    | .ok changed => (next (.ok ())).run changed
    | .error fault => (next (.error fault)).run disk
  | .appendFile path bytes next, disk =>
    match disk.appendFile path bytes with
    | .ok changed => (next ⟨bytes.length, none⟩).run changed
    | .error fault => (next ⟨0, some fault⟩).run disk

/-- A script that is done asks for nothing. -/
@[simp] theorem run_pure (result : α) (disk : Disk) :
    (pure result : Script α).run disk = (result, disk) := rfl

/-- One script after another runs on the disk that the first leaves. -/
theorem run_andThen (script : Script α) (next : α → Script β) (disk : Disk) :
    (script.andThen next).run disk = (next (script.run disk).1).run (script.run disk).2 := by
  induction script generalizing disk with
  | done result => rfl
  | makeDirectory path rest ih =>
    simp only [andThen, run]
    split <;> exact ih _ _
  | isDirectory path rest ih => exact ih _ _
  | openFile path rest ih => exact ih _ _
  | createFile path rest ih =>
    simp only [andThen, run]
    split <;> exact ih _ _
  | appendFile path bytes rest ih =>
    simp only [andThen, run]
    split <;> exact ih _ _

/-- Steps run one after another, each on the disk that the last one leaves. -/
@[simp] theorem run_bind (script : Script α) (next : α → Script β) (disk : Disk) :
    (script >>= next).run disk = (next (script.run disk).1).run (script.run disk).2 :=
  run_andThen script next disk

/-- Makes a request unless its path cannot be passed on. -/
def guarded (path : Path) (request : Script (Except Fault α)) : Script (Except Fault α) :=
  if path.hasNul then .done (.error .nulInName) else request

/-- Opens a file for reading. -/
def open? (path : Path) : Script (Except Fault Conf.Stream) :=
  guarded path (.openFile path .done)

/-- Creates a file, or empties the one that is there. -/
def create (path : Path) : Script (Except Fault Unit) :=
  guarded path (.createFile path .done)

/-- Adds bytes to a file that has been created. -/
def append (path : Path) (bytes : List UInt8) : Script Progress :=
  .appendFile path bytes .done

/-- Makes a directory in one that is there. -/
def mkdir (path : Path) : Script (Except Fault Unit) :=
  guarded path (.makeDirectory path .done)

/-- A failure to make a directory counts only if the path does not lead to one. -/
def forgive (path : Path) (fault : Fault) : Script (Except Fault Unit) :=
  guarded path (.isDirectory path fun isDirectory =>
    .done (if isDirectory then .ok () else .error fault))

/-- Makes a directory unless it is there; if the way to it is not there either, that is made
first. -/
def ensureDirectory (path : Path) (ensureFolder : Unit → Script (Except Fault Unit)) :
    Script (Except Fault Unit) := do
  match ← mkdir path with
  | .ok () => return .ok ()
  | .error .notFound =>
    match ← ensureFolder () with
    | .error fault => return .error fault
    | .ok () =>
      match ← mkdir path with
      | .ok () => return .ok ()
      | .error fault => forgive path fault
  | .error fault => forgive path fault

/-- Makes the directories along some parts of a path, which are given in reverse. -/
def ensureAlong : List String → Script (Except Fault Unit)
  | [] => .done (.ok ())
  | part :: above =>
    if Path.isFiller part then ensureAlong above
    else ensureDirectory (.ofParts (part :: above).reverse) fun _ => ensureAlong above

/-- Makes the directory of a path's last name, and all that are missing on the way to it. -/
def makeFolder (path : Path) : Script (Except Fault Unit) :=
  ensureAlong path.reversedFolder

/-- Makes a directory and all that are missing on the way to it. -/
def makeDirectories (path : Path) : Script (Except Fault Unit) :=
  if path.names = [] then .done (.ok ())
  else ensureDirectory path fun _ => makeFolder path

end Script

end GameSetup
