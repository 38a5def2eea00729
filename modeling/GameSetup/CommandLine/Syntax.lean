import GameSetup.Numeral.Decimal

/-!
# Words of the command line

What the words of a command line can be: switches, options with values, commands and what
belongs to them. Names are matched exactly, without abbreviations.
-/

namespace GameSetup.CommandLine

/-- Options that are either given or not. -/
inductive Switch where
  | edit
  | fullscreen
  | borderless
  | window
  | software
  | nosound
  | antialias
  | mono
  | grabmouse
  deriving DecidableEq, Repr

/-- The name of a switch, without its dashes. -/
def Switch.name : Switch → String
  | .edit => "edit"
  | .fullscreen => "fullscreen"
  | .borderless => "borderless"
  | .window => "window"
  | .software => "software"
  | .nosound => "nosound"
  | .antialias => "antialias"
  | .mono => "mono"
  | .grabmouse => "grabmouse"

/-- All switches. -/
def Switch.all : List Switch :=
  [.edit, .fullscreen, .borderless, .window, .software, .nosound, .antialias, .mono, .grabmouse]

/-- Every switch is listed. -/
theorem Switch.mem_all (switch : Switch) : switch ∈ all := by
  cases switch <;> decide

/-- The switches that are declared not to go with a switch. -/
def Switch.conflicts : Switch → List Switch
  | .fullscreen => [.borderless, .window]
  | .borderless => [.window]
  | _ => []

/-- Options that take values. -/
inductive ValueOption where
  | size
  | datadir
  | config
  deriving DecidableEq, Repr

/-- The name of an option, without its dashes. -/
def ValueOption.name : ValueOption → String
  | .size => "size"
  | .datadir => "datadir"
  | .config => "config"

/-- All options that take values. -/
def ValueOption.all : List ValueOption :=
  [.size, .datadir, .config]

/-- How many values an option takes. -/
def ValueOption.arity : ValueOption → Nat
  | .size => 2
  | .datadir => 1
  | .config => 1

/-- What the words belong to: the program, or one of its commands. -/
inductive Level where
  | program
  | display
  | defaults
  | key
  deriving DecidableEq, Repr

/-- The word of a command. -/
def Level.ofWord? (word : String) : Option Level :=
  if word = "show" then some .display
  else if word = "defaults" then some .defaults
  else if word = "key" then some .key
  else none

/-- The command that explains the others. -/
def helpWord : String := "help"

/-- Options with a long name. -/
inductive LongOption where
  | switch (found : Switch)
  | value (option : ValueOption)
  /-- Asks for machine-readable output. -/
  | json
  | help
  | version
  deriving DecidableEq, Repr

namespace LongOption

/-- All options with a long name. -/
def all : List LongOption :=
  Switch.all.map .switch ++ ValueOption.all.map .value ++ [.json, .help, .version]

/-- The name of an option, without its dashes. -/
def name : LongOption → String
  | .switch found => found.name
  | .value option => option.name
  | .json => "json"
  | .help => "help"
  | .version => "version"

/-- Whether an option is declared to belong to the whole program. It may then stand behind a command
as well as in front of it. -/
def isGlobal : LongOption → Bool
  | .switch _ => true
  | .value _ => true
  | .json => false
  | .help => false
  | .version => false

/-- Whether an option is declared for a level by itself. -/
def isOwn (level : Level) : LongOption → Bool
  | .switch _ => level = .program
  | .value _ => level = .program
  | .json => level = .display
  | .help => true
  | .version => level = .program

/-- The option of a long name at a level. -/
def ofName? (level : Level) (name : String) : Option LongOption :=
  all.find? fun option => option.name == name && (option.isGlobal || option.isOwn level)

end LongOption

/-- What a word looks like, whatever it means. -/
inductive Word where
  /-- Two dashes: what follows has no dashes that count. -/
  | escape
  /-- Two dashes and a name, and perhaps a value after a sign of equality. -/
  | long (name : String) (attached : Option String)
  /-- One dash and at least one letter. -/
  | short (letter : Char)
  /-- Anything else, a single dash among them. -/
  | plain
  deriving DecidableEq, Repr

/-- A name and what is attached to it by a sign of equality. -/
def splitAttached (cs : List Char) : String × Option String :=
  (String.ofList (cs.takeWhile (· ≠ '=')),
    match cs.dropWhile (· ≠ '=') with
    | [] => none
    | _ :: value => some (String.ofList value))

/-- What a word looks like. -/
def Word.ofString (word : String) : Word :=
  match word.toList with
  | ['-', '-'] => .escape
  | '-' :: '-' :: rest =>
    let (name, attached) := splitAttached rest
    .long name attached
  | '-' :: letter :: _ => .short letter
  | _ => .plain

/-- A size in words: an optional sign and decimal digits, nothing else, within 32 bits. -/
def sideOfWord? (word : String) : Option Int32 :=
  let (sign, digits) := Numeral.splitSign word.toList
  let value := Numeral.withSign sign (Numeral.valueOf 10 digits)
  if digits.isEmpty ∨ ¬ digits.all (Numeral.isDigitOf 10) ∨ ¬ Numeral.fitsInt32 value then none
  else some (Int32.ofInt value)

end GameSetup.CommandLine
