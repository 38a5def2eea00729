/-!
# Paths

A path is kept as it was written, because messages show it so. Some of the parts between its
slashes are names along the way; empty parts and single dots only fill it. The end of a path
matters to the file system: behind a slash or a dot stands a directory.
-/

namespace GameSetup

/-- How a written path ends. -/
inductive PathEnd where
  /-- In a name, or in two dots. -/
  | plain
  /-- In a slash, so the last name must be that of a directory. -/
  | slash
  /-- In a single dot, which is the directory before it. Slashes may follow. -/
  | dot
  deriving DecidableEq, Repr

/-- A path as it was written. -/
structure Path where
  text : String
  deriving DecidableEq, Repr

namespace Path

/-- The parts of a text between slashes. -/
def splitSlashes : List Char → List (List Char)
  | [] => [[]]
  | c :: rest =>
    if c = '/' then [] :: splitSlashes rest
    else
      match splitSlashes rest with
      | [] => [[c]]
      | part :: parts => (c :: part) :: parts

/-- The text with slashes between the given parts. -/
def joinSlashes : List (List Char) → List Char
  | [] => []
  | [part] => part
  | part :: rest => part ++ '/' :: joinSlashes rest

/-- There is always a part, though it may be empty. -/
theorem splitSlashes_ne_nil (cs : List Char) : splitSlashes cs ≠ [] := by
  cases cs with
  | nil => simp [splitSlashes]
  | cons c rest =>
    simp only [splitSlashes]
    split
    · simp
    · split <;> simp

/-- The parts of a text join to the text again. -/
theorem joinSlashes_splitSlashes (cs : List Char) : joinSlashes (splitSlashes cs) = cs := by
  induction cs with
  | nil => rfl
  | cons c rest ih =>
    simp only [splitSlashes]
    split
    · next slash =>
      subst slash
      cases parts : splitSlashes rest with
      | nil => exact absurd parts (splitSlashes_ne_nil rest)
      | cons part more =>
        rw [parts] at ih
        simp [joinSlashes, ih]
    · cases parts : splitSlashes rest with
      | nil => exact absurd parts (splitSlashes_ne_nil rest)
      | cons part more =>
        rw [parts] at ih
        cases more with
        | nil => simpa [joinSlashes] using ih
        | cons next others => simpa [joinSlashes] using ih

/-- The parts of a path between slashes. -/
def parts (path : Path) : List String :=
  (splitSlashes path.text.toList).map String.ofList

/-- The path with the given parts. -/
def ofParts (parts : List String) : Path :=
  ⟨String.ofList (joinSlashes (parts.map String.toList))⟩

/-- A path is made of its parts. -/
@[simp] theorem ofParts_parts (path : Path) : ofParts path.parts = path := by
  simp [ofParts, parts, Function.comp_def, joinSlashes_splitSlashes]

/-- Whether a part fills a path without meaning. -/
def isFiller (part : String) : Bool :=
  part == "" || part == "."

/-- The names along the way, two dots among them. -/
def names (path : Path) : List String :=
  path.parts.filter (!isFiller ·)

/-- Whether a path starts at the root, and not in the working directory. -/
def isAbsolute (path : Path) : Bool :=
  path.text.toList.head? == some '/'

/-- How a path ends. -/
def ending (path : Path) : PathEnd :=
  if path.parts.reverse.find? (· ≠ "") = some "." then .dot
  else if path.parts.getLast? = some "" then .slash
  else .plain

/-- Whether a path holds the character that ends names for the operating system. -/
def hasNul (path : Path) : Bool :=
  path.text.toList.contains '\x00'

/-- The parts of a path that lead to the directory in which its last name is, in reverse. -/
def reversedFolder (path : Path) : List String :=
  (path.parts.reverse.dropWhile isFiller).tail

/-- Adds a name to a path, and a slash where one is missing. -/
def join (path : Path) (name : String) : Path :=
  match path.text.toList.getLast? with
  | none => ⟨name⟩
  | some '/' => ⟨path.text ++ name⟩
  | some _ => ⟨path.text ++ "/" ++ name⟩

example : (Path.mk "a//b").join "c" = ⟨"a//b/c"⟩ := by decide
example : (Path.mk "./a/./b/").names = ["a", "b"] := by decide
example : (Path.mk "a/.//").ending = .dot := by decide
example : ofParts (Path.mk "/a//b/./c/").reversedFolder.reverse = ⟨"/a//b/."⟩ := by decide

end Path

end GameSetup
