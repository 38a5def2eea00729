/-!
# Faults

Why a stream or a file could not be read or written. The faults that the file system reports carry
the number under which it does so; any other fault has its own text.
-/

namespace GameSetup

/-- A failed operation on a stream, a file or a directory. -/
inductive Fault where
  /-- Something on the way, or the file itself, does not exist. -/
  | notFound
  /-- What was to be created is already there. -/
  | alreadyExists
  /-- Something on the way is a file. -/
  | notDirectory
  /-- What was to be read or written as a file is a directory. -/
  | isDirectory
  /-- A name, or a path as a whole, is longer than the file system allows. -/
  | nameTooLong
  /-- A path holds the character that ends names for the operating system. -/
  | nulInName
  /-- A fault of a source that is not a file. -/
  | other (text : String)
  deriving DecidableEq, Repr

/-- The text of a fault, as the operating system words it. -/
def Fault.message : Fault → String
  | .notFound => "No such file or directory (os error 2)"
  | .alreadyExists => "File exists (os error 17)"
  | .notDirectory => "Not a directory (os error 20)"
  | .isDirectory => "Is a directory (os error 21)"
  | .nameTooLong => "File name too long (os error 36)"
  | .nulInName => "file name contained an unexpected NUL byte"
  | .other text => text

end GameSetup
