import GameSetup.Conf.Event
import GameSetup.Storage.Path
import GameSetup.Storage.Tree

/-!
# Disks

A disk is a tree with a working directory, in which relative paths start. Every request either
does what it says or fails as the operating system would, without changing anything. There are
no links, every file may be opened, and there is always room: what else can go wrong with a request
is not a matter of the disk.
-/

namespace GameSetup

/-- A file system, and the directory in which relative paths start. -/
structure Disk where
  root : Tree
  workingDirectory : Way

/-- The length from which on a path is too long, in bytes. -/
def pathLimit : Nat := 4096

/-- Where a path leads. -/
inductive Target where
  /-- To a directory that is there, without naming it last. -/
  | folder (directory : Trail)
  /-- To a name in a directory that is there. -/
  | named (directory : Trail) (name : String)

namespace Disk

/-- The directory in which a path starts. -/
def start (disk : Disk) (path : Path) : Except Fault Trail :=
  let top : Trail := ⟨disk.root, []⟩
  if path.isAbsolute then .ok top else top.walk disk.workingDirectory

/-- Where a path leads, if the directories on the way are there. -/
def locate (disk : Disk) (path : Path) : Except Fault Target :=
  if path.text.isEmpty then .error .notFound
  else if pathLimit ≤ path.text.utf8ByteSize then .error .nameTooLong
  else
    match disk.start path with
    | .error fault => .error fault
    | .ok start =>
      match path.names.getLast?, path.ending with
      | none, _ => .ok (.folder start)
      | some _, .dot => (start.walk path.names).map .folder
      | some name, _ =>
        if name = ".." then (start.walk path.names).map .folder
        else (start.walk path.names.dropLast).map (.named · name)

/-- Puts something under a name of a directory. -/
def putIn (disk : Disk) (directory : Trail) (name : String) (content : Tree) : Disk :=
  { disk with root := disk.root.put (directory.way ++ [name]) content }

/-- Makes a directory in one that is there. -/
def makeDirectory (disk : Disk) (path : Path) : Except Fault Disk :=
  match disk.locate path with
  | .error fault => .error fault
  | .ok (.folder _) => .error .alreadyExists
  | .ok (.named directory name) =>
    match directory.lookUp name with
    | .error fault => .error fault
    | .ok (some _) => .error .alreadyExists
    | .ok none => .ok (disk.putIn directory name .empty)

/-- Whether a path leads to a directory. -/
def isDirectory (disk : Disk) (path : Path) : Bool :=
  match disk.locate path with
  | .error _ => false
  | .ok (.folder _) => true
  | .ok (.named directory name) =>
    match directory.lookUp name with
    | .ok (some (.directory _)) => true
    | _ => false

/-- Opens a file for reading. A directory can be opened, but reading it fails at once. -/
def openFile (disk : Disk) (path : Path) : Except Fault Conf.Stream :=
  match disk.locate path with
  | .error fault => .error fault
  | .ok (.folder _) => .ok ⟨[], some .isDirectory⟩
  | .ok (.named directory name) =>
    match directory.lookUp name with
    | .error fault => .error fault
    | .ok none => .error .notFound
    | .ok (some (.directory _)) => .ok ⟨[], some .isDirectory⟩
    | .ok (some (.file bytes)) =>
      if path.ending = .slash then .error .notDirectory else .ok ⟨bytes, none⟩

/-- Creates a file in a directory that is there. One that is there already is emptied. -/
def createFile (disk : Disk) (path : Path) : Except Fault Disk :=
  match disk.locate path with
  | .error fault => .error fault
  | .ok (.folder _) => .error .isDirectory
  | .ok (.named directory name) =>
    if path.ending = .slash then .error .isDirectory
    else
      match directory.lookUp name with
      | .error fault => .error fault
      | .ok (some (.directory _)) => .error .isDirectory
      | .ok _ => .ok (disk.putIn directory name (.file []))

/-- Adds bytes at the end of a file that is there. -/
def appendFile (disk : Disk) (path : Path) (bytes : List UInt8) : Except Fault Disk :=
  match disk.locate path with
  | .error fault => .error fault
  | .ok (.folder _) => .error .isDirectory
  | .ok (.named directory name) =>
    match directory.lookUp name with
    | .error fault => .error fault
    | .ok none => .error .notFound
    | .ok (some (.directory _)) => .error .isDirectory
    | .ok (some (.file held)) => .ok (disk.putIn directory name (.file (held ++ bytes)))

end Disk

end GameSetup
