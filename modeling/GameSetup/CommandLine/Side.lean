import GameSetup.CommandLine.Refusal
import GameSetup.CommandLine.Syntax

/-!
# One side of a command line

A command divides a command line into two sides, and the options that belong to the whole program
may stand on either. Each side is read by itself: an option given twice, or two that exclude each
other, are found only if they stand on the same side. The values that follow an option are taken
up when the next option, or the end of the side, shows that there are no more.
-/

namespace GameSetup.CommandLine

/-- The options of the whole program that have been given. -/
structure Given where
  switches : List Switch
  size : Option (List Int32)
  datadir : Option String
  config : Option String
  deriving DecidableEq, Repr

/-- Nothing has been given. -/
def Given.empty : Given := ⟨[], none, none, none⟩

/-- An option whose values are being read. -/
structure Pending where
  option : ValueOption
  values : List String
  deriving DecidableEq, Repr

/-- What has been read of a side. -/
structure Side where
  given : Given
  /-- Whether machine-readable output was asked for. -/
  json : Bool
  /-- The words that belong to the command. -/
  words : List String
  pending : Option Pending
  deriving DecidableEq, Repr

/-- Nothing has been read. -/
def Side.empty : Side := ⟨.empty, false, [], none⟩

namespace Given

/-- Adds a switch, which can be given only once. -/
def addSwitch (given : Given) (switch : Switch) : Except Refusal Given :=
  if switch ∈ given.switches then .error (.conflict switch.name switch.name)
  else .ok { given with switches := given.switches ++ [switch] }

/-- The sizes that words stand for. -/
def sides : List String → Except Refusal (List Int32)
  | [] => .ok []
  | word :: rest => do
    match sideOfWord? word with
    | none => .error (.badValue ValueOption.size.name word)
    | some value => return value :: (← sides rest)

/-- Adds the values of an option. Sizes accumulate; the other options can be given only once. -/
def addValues (given : Given) (option : ValueOption) (values : List String) :
    Except Refusal Given :=
  match option with
  | .size => do
    let more ← sides values
    return { given with size := some (given.size.getD [] ++ more) }
  | .datadir =>
    if given.datadir.isSome then .error (.conflict option.name option.name)
    else .ok { given with datadir := values.head? }
  | .config =>
    if given.config.isSome then .error (.conflict option.name option.name)
    else if values.head? = some "" then .error (.noValue option.name)
    else .ok { given with config := values.head? }

/-- Two of the given switches that are declared not to go with each other. -/
def exclusion? (given : Given) : Option (Switch × Switch) :=
  (Switch.all.filter (· ∈ given.switches)).findSome? fun first =>
    (first.conflicts.find? (· ∈ given.switches)).map (first, ·)

/-- What is given on two sides; for an option on both, the later side counts. -/
def merge (earlier later : Given) : Given where
  switches := earlier.switches ++ later.switches
  size := later.size.or earlier.size
  datadir := later.datadir.or earlier.datadir
  config := later.config.or earlier.config

end Given

namespace Side

/-- Takes up an option with its values, whose number must be right. -/
def accept (side : Side) (option : ValueOption) (values : List String) : Except Refusal Side :=
  if values.isEmpty then .error (.noValue option.name)
  else if values.length ≠ option.arity then .error (.wrongCount option.name)
  else (side.given.addValues option values).map ({ side with given := · })

/-- Takes up the option whose values are being read. -/
def settle (side : Side) : Except Refusal Side :=
  match side.pending with
  | none => .ok side
  | some pending => { side with pending := none }.accept pending.option pending.values

/-- Without an option to take up, nothing changes. -/
theorem settle_of_pending_eq_none {side : Side} (h : side.pending = none) :
    side.settle = .ok side := by
  simp [settle, h]

/-- Whether the next word without dashes is a value. -/
def awaitsValue (side : Side) : Bool :=
  match side.pending with
  | none => false
  | some pending => pending.values.length < pending.option.arity

/-- Adds a value to the option whose values are being read. -/
def addValue (side : Side) (value : String) : Side :=
  { side with pending := side.pending.map fun pending =>
      { pending with values := pending.values ++ [value] } }

/-- Reads an option with a long name. -/
def readLong (side : Side) (level : Level) (name : String) (attached : Option String) :
    Except Refusal Side :=
  match LongOption.ofName? level name, attached with
  | none, _ => .error (.unknownArgument ("--" ++ name))
  | some (.value option), none => do
    return { ← side.settle with pending := some ⟨option, []⟩ }
  | some (.value option), some value => do
    (← side.settle).accept option [value]
  | some _, some _ => .error (.unexpectedValue name)
  | some (.switch found), none => do
    let side ← side.settle
    return { side with given := ← side.given.addSwitch found }
  | some .json, none => do
    let side ← side.settle
    if side.json then .error (.conflict name name) else return { side with json := true }
  | some .help, none => do
    let _ ← side.settle
    .error .help
  | some .version, none => do
    let _ ← side.settle
    .error .version

/-- Reads an option with a short name; both there are end the reading. -/
def readShort (side : Side) (level : Level) (letter : Char) : Refusal :=
  let answer : Option Refusal :=
    if letter = 'h' then some .help
    else if letter = 'V' ∧ level = .program then some .version
    else none
  match answer with
  | none => .unknownArgument (String.ofList ['-', letter])
  | some refusal =>
    match side.settle with
    | .ok _ => refusal
    | .error error => error

/-- Reads a word that belongs to the command. -/
def readWord (side : Side) (level : Level) (word : String) : Except Refusal Side :=
  match level with
  | .key => do
    let side ← side.settle
    return { side with words := side.words ++ [word] }
  | .program => .error (.unknownCommand word)
  | .display => .error (.unknownArgument word)
  | .defaults => .error (.unknownArgument word)

/-- Whether a word is that of a command. -/
def isCommand (word : String) : Bool :=
  (Level.ofWord? word).isSome || word == helpWord

/-- Reads words that follow two dashes. A command can no longer stand there. -/
def readEscaped (side : Side) (level : Level) : List String → Except Refusal Side
  | [] => .ok side
  | word :: rest => do
    if level = .program ∧ isCommand word then .error (.unknownArgument word)
    (← side.readWord level word).readEscaped level rest

/-- The answer to the command that explains the others, given the words behind it. -/
def explain : List String → Refusal
  | [] => .help
  | word :: rest =>
    if ¬ isCommand word then .unknownCommand word
    else
      match rest with
      | [] => .help
      | extra :: _ => .unknownCommand extra

/-- Reads the words of a side, up to the command that ends it. The result holds the command and
the words behind it. -/
def read (side : Side) (level : Level) :
    List String → Except Refusal (Side × Option (Level × List String))
  | [] => .ok (side, none)
  | word :: rest =>
    match Word.ofString word with
    | .escape => do return (← side.readEscaped level rest, none)
    | .long name attached => do (← side.readLong level name attached).read level rest
    | .short letter => .error (side.readShort level letter)
    | .plain =>
      if side.awaitsValue then (side.addValue word).read level rest
      else if level = .program ∧ word = helpWord then .error (explain rest)
      else
        match if level = .program then Level.ofWord? word else none with
        | some command => .ok (side, some (command, rest))
        | none => do (← side.readWord level word).read level rest

/-- Ends a side: the last option is taken up, and the whole is checked. -/
def finish (side : Side) (level : Level) : Except Refusal Side := do
  let side ← side.settle
  match side.given.exclusion? with
  | some (first, second) => .error (.conflict first.name second.name)
  | none => if level = .key ∧ side.words.isEmpty then .error .noDefinition else .ok side

end Side

end GameSetup.CommandLine
