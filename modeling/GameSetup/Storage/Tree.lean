import GameSetup.Fault
import GameSetup.Keyed

/-!
# File trees

A tree is a file, or a directory with a tree under each of its names. What is at the end of a way
can be looked up and replaced: a replacement is there afterwards, and what lies off the way stays
as it was. A trail remembers the directories on the way to one, so that two dots lead back.
-/

namespace GameSetup

/-- A file with its bytes, or a directory with what it holds. -/
inductive Tree where
  | file (bytes : List UInt8)
  | directory (entries : List (String × Tree))

/-- The names from the root to a file or directory. -/
abbrev Way := List String

namespace Tree

/-- A directory that holds nothing. -/
def empty : Tree := .directory []

/-- What a tree holds; a file holds nothing. -/
def entries : Tree → List (String × Tree)
  | .file _ => []
  | .directory entries => entries

/-- What is under a name. -/
def child? (tree : Tree) (name : String) : Option Tree :=
  tree.entries.lookup name

/-- What is at the end of a way. -/
def get? : Tree → Way → Option Tree
  | tree, [] => some tree
  | tree, name :: rest => (tree.child? name).bind fun child => child.get? rest

/-- Puts something at the end of a way. Directories that are missing on the way are made, and a
file on the way becomes one. -/
def put : Tree → Way → Tree → Tree
  | _, [], content => content
  | tree, name :: rest, content =>
    .directory (Keyed.enter name (fun old => (old.getD empty).put rest content) tree.entries)

mutual

/-- The ways to everything in a tree. -/
def ways : Tree → List Way
  | .file _ => []
  | .directory entries => waysOfEntries entries

/-- The ways to everything under some names. -/
def waysOfEntries : List (String × Tree) → List Way
  | [] => []
  | (name, tree) :: rest => [name] :: tree.ways.map (name :: ·) ++ waysOfEntries rest

end

/-- The ways to everything in a tree, directories before what they hold, and the names of each
directory in order. -/
def sortedWays (tree : Tree) : List Way :=
  tree.ways.mergeSort fun way other => !other.lex way

/-- A directory has its entries. -/
@[simp] theorem entries_directory (entries : List (String × Tree)) :
    (directory entries).entries = entries := rfl

/-- A way without names leads nowhere else. -/
@[simp] theorem get?_nil (tree : Tree) : tree.get? [] = some tree := by
  simp [get?]

/-- An empty directory has nothing at the end of any way that leaves it. -/
theorem get?_empty {way : Way} (h : way ≠ []) : empty.get? way = none := by
  cases way with
  | nil => exact absurd rfl h
  | cons name rest => simp [get?, empty, child?]

/-- What was put somewhere is there. -/
theorem get?_put_self (tree content : Tree) (way : Way) :
    (tree.put way content).get? way = some content := by
  induction way generalizing tree with
  | nil => simp [put]
  | cons name rest ih =>
    simp [put, get?, child?, Keyed.lookup_enter_self, ih]

/-- What lies off the way stays as it was. -/
theorem get?_put_of_not_isPrefix (tree content : Tree) {way other : Way} (h : ¬ way <+: other)
    (h' : ¬ other <+: way) : (tree.put way content).get? other = tree.get? other := by
  induction way generalizing tree other with
  | nil => exact absurd (List.nil_prefix) h
  | cons name rest ih =>
    cases other with
    | nil => exact absurd (List.nil_prefix) h'
    | cons first more =>
      by_cases same : first = name
      · subst same
        have hrest : ¬ rest <+: more := fun e => h (List.cons_prefix_cons.mpr ⟨rfl, e⟩)
        have hmore : ¬ more <+: rest := fun e => h' (List.cons_prefix_cons.mpr ⟨rfl, e⟩)
        have hne : more ≠ [] := fun e => hmore (e ▸ List.nil_prefix)
        simp only [put, get?, child?, entries_directory, Keyed.lookup_enter_self,
          Option.bind_some]
        rw [ih _ hrest hmore]
        cases tree.entries.lookup first with
        | none => simp [get?_empty hne]
        | some child => simp
      · simp only [put, get?, child?, entries_directory, Keyed.lookup_enter_of_ne same]

end Tree

/-- The longest name that a directory can hold, in bytes. -/
def nameLimit : Nat := 255

/-- A directory in a tree, and the directories on the way to it. -/
structure Trail where
  root : Tree
  /-- Names with the directories they lead to, the innermost first. -/
  steps : List (String × Tree)

namespace Trail

/-- The directory itself. -/
def here (trail : Trail) : Tree :=
  match trail.steps with
  | [] => trail.root
  | (_, tree) :: _ => tree

/-- The way to the directory. -/
def way (trail : Trail) : Way :=
  (trail.steps.map (·.1)).reverse

/-- The directory above; above the root is the root. -/
def up (trail : Trail) : Trail :=
  { trail with steps := trail.steps.tail }

/-- Looks for a name in the directory. -/
def lookUp (trail : Trail) (name : String) : Except Fault (Option Tree) :=
  if nameLimit < name.utf8ByteSize then .error .nameTooLong else .ok (trail.here.child? name)

/-- Follows a name to a directory, or two dots to the one above. -/
def step (trail : Trail) (name : String) : Except Fault Trail :=
  if name = ".." then .ok trail.up
  else
    match trail.lookUp name with
    | .error fault => .error fault
    | .ok none => .error .notFound
    | .ok (some (.file _)) => .error .notDirectory
    | .ok (some (.directory entries)) =>
      .ok { trail with steps := (name, .directory entries) :: trail.steps }

/-- Follows names one after another. -/
def walk : Trail → List String → Except Fault Trail
  | trail, [] => .ok trail
  | trail, name :: rest =>
    match trail.step name with
    | .error fault => .error fault
    | .ok next => next.walk rest

end Trail

end GameSetup
