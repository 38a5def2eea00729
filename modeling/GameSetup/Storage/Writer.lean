import GameSetup.Storage.Script

/-!
# Writers

What is written to a new file waits in a buffer, and is passed on when there is too much of it and
once more in the end. So a fault can show late, and part of what was written before it may be in the
file. A writer that is given up still passes on what it can, and nobody hears how that went.
-/

namespace GameSetup

/-- A file that is being written. -/
structure Writer where
  path : Path
  /-- The bytes that have not been passed on to the file. -/
  waiting : List UInt8
  deriving DecidableEq, Repr

namespace Writer

/-- How many bytes can wait. -/
def capacity : Nat := 8192

/-- Passes on all that waits, as far as the file takes it. -/
def flush (writer : Writer) : Script (Except Fault Unit × Writer) :=
  if writer.waiting.isEmpty then return (.ok (), writer)
  else do
    let progress ← Script.append writer.path writer.waiting
    return (progress.outcome, { writer with waiting := writer.waiting.drop progress.taken })

/-- Makes sure that some more bytes can wait beside the others, if they can wait at all. -/
def makeRoom (writer : Writer) (count : Nat) : Script (Except Fault Unit × Writer) :=
  if capacity < writer.waiting.length + count then writer.flush else return (.ok (), writer)

/-- Writes bytes. If there are as many as can wait, they do not. -/
def put (writer : Writer) (bytes : List UInt8) : Script (Except Fault Unit × Writer) := do
  match ← writer.makeRoom bytes.length with
  | (.error fault, writer) => return (.error fault, writer)
  | (.ok (), writer) =>
    if capacity ≤ bytes.length then
      let progress ← Script.append writer.path bytes
      return (progress.outcome, writer)
    else return (.ok (), { writer with waiting := writer.waiting ++ bytes })

/-- Writes pieces one after another, up to the first that fails. -/
def putAll (writer : Writer) : List (List UInt8) → Script (Except Fault Unit × Writer)
  | [] => return (.ok (), writer)
  | piece :: rest => do
    match ← writer.put piece with
    | (.error fault, writer) => return (.error fault, writer)
    | (.ok (), writer) => writer.putAll rest

/-- Writes pieces and passes on all that waits in the end. -/
def save (writer : Writer) (pieces : List (List UInt8)) : Script (Except Fault Unit × Writer) := do
  match ← writer.putAll pieces with
  | (.error fault, writer) => return (.error fault, writer)
  | (.ok (), writer) => writer.flush

/-- Writes pieces and gives up the writer. What still waits then is passed on if it can be. -/
def finish (writer : Writer) (pieces : List (List UInt8)) : Script (Except Fault Unit) := do
  let (outcome, writer) ← writer.save pieces
  let _ ← writer.flush
  return outcome

/-- Writes a whole file, new or in place of what it held. -/
def write (path : Path) (pieces : List (List UInt8)) : Script (Except Fault Unit) := do
  match ← Script.create path with
  | .error fault => return .error fault
  | .ok () => finish ⟨path, []⟩ pieces

end Writer

end GameSetup
