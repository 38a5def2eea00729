import GameSetup.Input.Definition

/-!
# Key names

The older way to name a single key. One character is always the name of a key, so `4` is the key
and not the scancode. Otherwise a number is a scancode, `scancode` and a mark force what follows
to be one, and in names a hyphen or an underscore stands for a space.
-/

namespace GameSetup.KeyName

/-- Whether a character can stand between `scancode` and what it forces. -/
def isForcingMark (c : Char) : Bool :=
  c == ':' || c == '_' || c == '-' || c == ' '

/-- A scancode by number, or by name if it is no number. -/
def forced (cs : List Char) : Option Scancode :=
  match Numeral.wholeInteger cs with
  | some value => Scancode.ofIndex? value
  | none => Scancode.ofName? cs

/-- The part of a name that is forced to be a scancode. -/
def forcedPart? (cs : List Char) : Option (List Char) :=
  match Definition.dropLetters "scancode".toList cs with
  | some (mark :: rest) => if isForcingMark mark then some rest else none
  | _ => none

/-- Reads hyphens and underscores as spaces. -/
def spaced (cs : List Char) : List Char :=
  cs.map fun c => if c == '-' || c == '_' then ' ' else c

/-- A name of more than one character. -/
def readLong (cs : List Char) : Option Scancode :=
  match (Numeral.wholeInteger cs).bind Scancode.ofIndex? with
  | some scancode => some scancode
  | none =>
    match forcedPart? cs with
    | some part => forced part
    | none => Scancode.ofName? (spaced cs)

/-- The key that a name stands for. -/
def read (name : String) : Option Scancode :=
  match name.toList with
  | [c] => Scancode.ofName? [c]
  | cs => readLong cs

end GameSetup.KeyName
