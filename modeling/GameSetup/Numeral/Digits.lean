import GameSetup.Text.Blank

/-!
# Digits and signs

The pieces that every written integer is made of: an optional sign and a run of digits of some
radix up to sixteen. A run's value is the usual positional one, without any limit; the limits
of machine integers belong to the readers.
-/

namespace GameSetup.Numeral

/-- The value of a hexadecimal digit in either case; sixteen for every other character. -/
def digitValue (c : Char) : Nat :=
  if '0' ≤ c ∧ c ≤ '9' then c.toNat - '0'.toNat
  else if 'a' ≤ c ∧ c ≤ 'f' then c.toNat - 'a'.toNat + 10
  else if 'A' ≤ c ∧ c ≤ 'F' then c.toNat - 'A'.toNat + 10
  else 16

/-- Whether a character is a digit of a radix up to sixteen. -/
def isDigitOf (radix : Nat) (c : Char) : Bool :=
  digitValue c < radix

/-- The value of a run of digits. -/
def valueOf (radix : Nat) (digits : List Char) : Nat :=
  digits.foldl (fun value c => radix * value + digitValue c) 0

/-- No digits stand for zero. -/
@[simp] theorem valueOf_nil (radix : Nat) : valueOf radix [] = 0 := rfl

/-- One more digit at the end shifts the value by the radix. -/
theorem valueOf_append_singleton (radix : Nat) (digits : List Char) (c : Char) :
    valueOf radix (digits ++ [c]) = radix * valueOf radix digits + digitValue c := by
  simp [valueOf]

/-- Takes an optional sign off the front: the sign, then the rest. -/
def splitSign : List Char → List Char × List Char
  | '+' :: rest => (['+'], rest)
  | '-' :: rest => (['-'], rest)
  | rest => ([], rest)

/-- Nothing is lost when the sign is taken off. -/
theorem splitSign_append (cs : List Char) : (splitSign cs).1 ++ (splitSign cs).2 = cs := by
  unfold splitSign
  split <;> rfl

/-- A magnitude with the sign that stood before it. -/
def withSign (sign : List Char) (magnitude : Nat) : Int :=
  if sign = ['-'] then -(magnitude : Int) else magnitude

/-- A text cut where the integer that it starts with ends. -/
structure Cut where
  /-- The blanks in front. -/
  blank : List Char
  /-- The sign, if there is one. -/
  sign : List Char
  /-- The mark that selects the radix, if there is one. -/
  mark : List Char
  /-- The longest run of digits. -/
  digits : List Char
  /-- What follows. -/
  rest : List Char
  deriving DecidableEq, Repr

namespace Cut

/-- The part of the text that the integer takes, blanks included. -/
def taken (cut : Cut) : List Char :=
  cut.blank ++ cut.sign ++ cut.mark ++ cut.digits

/-- The length of that part. All its characters take one byte, so this is also its length in
bytes. -/
def used (cut : Cut) : Nat :=
  cut.taken.length

end Cut

end GameSetup.Numeral
