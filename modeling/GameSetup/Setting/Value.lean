import GameSetup.Numeral.Decimal

/-!
# Values of settings

A type of values comes with a reader, which accepts or rejects a text and has no other effect,
and with a canonical text. Here are flags, texts and integers of 32 bits; window modes and
resolutions have modules of their own.
-/

namespace GameSetup

/-- Why a text is not accepted as the value of a setting. -/
inductive Rejection where
  /-- The text is none of the ten words for yes and no. -/
  | notBoolean
  /-- The text is not a decimal integer from end to end. -/
  | notInteger
  /-- The text starts with an integer that needs more than 32 bits. -/
  | outsideInt32
  /-- The value lies outside the bounds of its setting, which are given as texts. -/
  | outsideBounds (least greatest : String)
  /-- The text names no window mode. -/
  | notWindowMode
  /-- The text is not a width and a height. -/
  | notResolution
  deriving DecidableEq, Repr

/-- What a message says about a rejected text. -/
def Rejection.message : Rejection → String
  | .notBoolean => "invalid boolean"
  | .notInteger => "expected integer"
  | .outsideInt32 => "out of int range"
  | .outsideBounds least greatest =>
    "out of range (allowed " ++ least ++ " to " ++ greatest ++ ")"
  | .notWindowMode => "unknown mode"
  | .notResolution => "expected <width>x<height> where <width> and <height> are integers"

/-- Values that a setting can hold. -/
class SettingValue (α : Type) where
  /-- The value that a text stands for. -/
  read : String → Except Rejection α
  /-- The canonical text of a value. -/
  text : α → String

/-- Flags are read from five words each way and written in full. -/
instance : SettingValue Bool where
  read text :=
    if text ∈ ["yes", "y", "true", "1", "on"] then .ok true
    else if text ∈ ["no", "n", "false", "0", "off"] then .ok false
    else .error .notBoolean
  text value := if value then "true" else "false"

/-- Every text is a value, and stands for itself. -/
instance : SettingValue String where
  read text := .ok text
  text value := value

/-- An integer is a whole text in decimal, though blanks may stand in front. -/
instance : SettingValue Int32 where
  read text :=
    match Numeral.leadingDecimal text.toList with
    | .ok (value, cut) => if cut.rest.isEmpty then .ok value else .error .notInteger
    | .error .noDigits => .error .notInteger
    | .error .overflow => .error .outsideInt32
  text value := Numeral.decimalText value.toInt

end GameSetup
