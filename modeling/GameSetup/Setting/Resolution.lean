import GameSetup.Setting.Value

/-!
# Resolutions

A width and a height, such as a window or game size. They are written with blanks and at most
one comma or `x` between them. The gap has to end at a digit, so only the width can carry a
sign, and nothing may follow the height.
-/

namespace GameSetup

/-- A width and a height. -/
structure Resolution where
  width : Int32
  height : Int32
  deriving DecidableEq, Repr

namespace Resolution

/-- The usual form of a resolution. -/
def text (size : Resolution) : String :=
  Numeral.decimalText size.width.toInt ++ "x" ++ Numeral.decimalText size.height.toInt

/-- Skips what stands between the two numbers. The flag says whether the separator has been
seen; a second one, or anything else but a blank, is an error. -/
def skipGap : Bool → List Char → Except Rejection (List Char)
  | _, [] => .ok []
  | separated, c :: rest =>
    if Text.isBlank c then skipGap separated rest
    else if c == ',' || c == 'x' then
      if separated then .error .notResolution else skipGap true rest
    else if Numeral.isDigitOf 10 c then .ok (c :: rest)
    else .error .notResolution

/-- A number inside a resolution: too large is told apart from missing. -/
def readSide (cs : List Char) : Except Rejection (Int32 × Numeral.Cut) :=
  match Numeral.leadingDecimal cs with
  | .ok side => .ok side
  | .error .noDigits => .error .notResolution
  | .error .overflow => .error .outsideInt32

/-- The resolution that a text writes. -/
def read (text : String) : Except Rejection Resolution := do
  let (width, afterWidth) ← readSide text.toList
  let second ← skipGap false afterWidth.rest
  let (height, afterHeight) ← readSide second
  if afterHeight.rest.isEmpty then .ok ⟨width, height⟩ else .error .notResolution

end Resolution

/-- A resolution is read by its grammar and written in the usual form. -/
instance : SettingValue Resolution where
  read := Resolution.read
  text := Resolution.text

end GameSetup
