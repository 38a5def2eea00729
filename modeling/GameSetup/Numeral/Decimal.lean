import GameSetup.Numeral.Digits

/-!
# Decimal integers at the start of a text

Blanks, an optional sign, then at least one decimal digit; whatever follows is left alone. The
value must fit in 32 bits. A leading zero means nothing here.
-/

namespace GameSetup.Numeral

/-- Why a text does not start with a decimal integer of 32 bits. -/
inductive DecimalError where
  /-- No digit stands where the integer was expected. -/
  | noDigits
  /-- The digits are there, and their value does not fit. -/
  | overflow
  deriving DecidableEq, Repr

/-- The values of a signed machine integer of 32 bits. -/
def fitsInt32 (value : Int) : Bool :=
  -2147483648 ≤ value && value < 2147483648

/-- Cuts a text after the decimal integer it starts with. -/
def decimalCut (cs : List Char) : Cut :=
  let signed := splitSign (Text.trimStart cs)
  { blank := cs.takeWhile Text.isBlank
    sign := signed.1
    mark := []
    digits := signed.2.takeWhile (isDigitOf 10)
    rest := signed.2.dropWhile (isDigitOf 10) }

/-- The cut loses nothing of the text. -/
theorem decimalCut_taken_append_rest (cs : List Char) :
    (decimalCut cs).taken ++ (decimalCut cs).rest = cs := by
  simp only [decimalCut, Cut.taken, List.append_nil, List.append_assoc,
    List.takeWhile_append_dropWhile]
  rw [splitSign_append, Text.takeWhile_append_trimStart]

/-- What is cut off as digits are digits. -/
theorem isDigitOf_of_mem_digits {cs : List Char} {c : Char} (h : c ∈ (decimalCut cs).digits) :
    isDigitOf 10 c = true := by
  have all := List.all_takeWhile (l := (splitSign (Text.trimStart cs)).2) (p := isDigitOf 10)
  exact List.all_eq_true.mp all c h

/-- The decimal integer at the start of a text, and the text's cut after it. -/
def leadingDecimal (cs : List Char) : Except DecimalError (Int32 × Cut) :=
  let cut := decimalCut cs
  let value := withSign cut.sign (valueOf 10 cut.digits)
  if cut.digits.isEmpty then .error .noDigits
  else if fitsInt32 value then .ok (Int32.ofInt value, cut)
  else .error .overflow

/-- The decimal digits of an integer, after a minus sign if it is negative. -/
def decimalText (value : Int) : String :=
  String.ofList ((if value < 0 then ['-'] else []) ++ Nat.toDigits 10 value.natAbs)

end GameSetup.Numeral
