import GameSetup.Input.Device
import GameSetup.Numeral.Radix
import GameSetup.Text.Alphabetic

/-!
# Input definitions

How a binding names its input: `scancode`, `scan` or `sc` with a number, `mouse button` with a
side or a number, or the name of a key. A keyword counts only as a whole word, so the name of a
key may start with one. Controller inputs have a keyword but cannot be defined yet.
-/

namespace GameSetup

/-- Why a definition names no input. -/
inductive DefinitionError where
  /-- The definition asks for a game controller. -/
  | controller
  /-- The definition follows no form, or its number is out of range. -/
  | notUnderstood
  deriving DecidableEq, Repr

namespace Definition

/-- Takes a word off the front of a text, without regard to the case of basic letters. -/
def dropLetters : List Char → List Char → Option (List Char)
  | [], rest => some rest
  | w :: word, c :: rest => if c.toLower == w.toLower then dropLetters word rest else none
  | _ :: _, [] => none

/-- Takes a keyword off the front of a text. It must end there or before a character that is not
alphabetic. -/
def dropKeyword (keyword : String) (cs : List Char) : Option (List Char) :=
  match dropLetters keyword.toList cs with
  | none => none
  | some [] => some []
  | some (c :: rest) => if Text.isAlphabetic c then none else some (c :: rest)

/-- What follows the keyword of a scancode. -/
def scancode (cs : List Char) : Option Input :=
  ((Numeral.wholeInteger cs).bind Scancode.ofIndex?).map .key

/-- The number of a mouse button. -/
def buttonOfInt (value : Int) : Option UInt8 :=
  if 0 ≤ value ∧ value < 256 then some (UInt8.ofNat value.toNat) else none

/-- A word that must stand last, as the button that it names. -/
def namedButton (name : String) (button : UInt8) (cs : List Char) : Option (Option Input) :=
  (dropKeyword name cs).map fun rest =>
    if Text.onlyBlank rest then some (.mouseButton button) else none

/-- What follows the two keywords of a mouse button. -/
def button (cs : List Char) : Option Input :=
  match namedButton "left" mouseNumbers.left cs with
  | some found => found
  | none =>
    match namedButton "middle" mouseNumbers.middle cs with
    | some found => found
    | none =>
      match namedButton "right" mouseNumbers.right cs with
      | some found => found
      | none => ((Numeral.wholeInteger cs).bind buttonOfInt).map .mouseButton

/-- What follows the keyword of the mouse. -/
def mouse (cs : List Char) : Option Input :=
  match dropKeyword "button" (Text.trimStart cs) with
  | some rest => button (Text.trimStart rest)
  | none => none

/-- An input that was found, or a definition that was not understood. -/
def understood : Option Input → Except DefinitionError Input
  | some input => .ok input
  | none => .error .notUnderstood

/-- The text behind the first of some keywords that the text starts with. -/
def dropAnyKeyword (keywords : List String) (cs : List Char) : Option (List Char) :=
  keywords.findSome? (dropKeyword · cs)

/-- The input that a definition names. -/
def read (definition : String) : Except DefinitionError Input :=
  let cs := Text.trimStart definition.toList
  match dropAnyKeyword ["scancode", "scan", "sc"] cs with
  | some rest => understood (scancode rest)
  | none =>
    match dropKeyword "mouse" cs with
    | some rest => understood (mouse rest)
    | none =>
      match dropKeyword "control" cs with
      | some _ => .error .controller
      | none => understood ((Scancode.ofName? (Text.trimEnd cs)).map .key)

end Definition

/-- The input that a definition names; no input if it names none. -/
def Input.ofDefinition (definition : String) : Input :=
  match Definition.read definition with
  | .ok input => input
  | .error _ => .invalid

end GameSetup
