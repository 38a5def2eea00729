import GameSetup.Numeral.Digits

/-!
# Integers that choose their radix

Scancodes and button numbers may be written in decimal, in octal with a leading zero, or in
hexadecimal after `0x`. The mark `0x` counts only when a hexadecimal digit follows; otherwise
its zero is read alone. The magnitude must stay below two to the sixty-third.
-/

namespace GameSetup.Numeral

/-- The radix that an unsigned text selects, its mark, and the rest after the mark. -/
def splitMark : List Char → Nat × List Char × List Char
  | '0' :: x :: c :: rest =>
    if (x == 'x' || x == 'X') && isDigitOf 16 c then (16, ['0', x], c :: rest)
    else (8, [], '0' :: x :: c :: rest)
  | '0' :: rest => (8, [], '0' :: rest)
  | rest => (10, [], rest)

/-- Nothing is lost when the mark is taken off. -/
theorem splitMark_append (cs : List Char) : (splitMark cs).2.1 ++ (splitMark cs).2.2 = cs := by
  unfold splitMark
  split
  · split <;> rfl
  · rfl
  · rfl

/-- The radix of the integer that a text starts with, and the text's cut after it. -/
def radixCut (cs : List Char) : Nat × Cut :=
  let signed := splitSign (Text.trimStart cs)
  let marked := splitMark signed.2
  (marked.1,
    { blank := cs.takeWhile Text.isBlank
      sign := signed.1
      mark := marked.2.1
      digits := marked.2.2.takeWhile (isDigitOf marked.1)
      rest := marked.2.2.dropWhile (isDigitOf marked.1) })

/-- The cut loses nothing of the text. -/
theorem radixCut_taken_append_rest (cs : List Char) :
    (radixCut cs).2.taken ++ (radixCut cs).2.rest = cs := by
  simp only [radixCut, Cut.taken, List.append_assoc, List.takeWhile_append_dropWhile]
  rw [splitMark_append, splitSign_append, Text.takeWhile_append_trimStart]

/-- Two to the sixty-third, which no magnitude reaches. -/
def magnitudeLimit : Nat := 9223372036854775808

/-- The integer at the start of a text, and the text's cut after it. -/
def leadingInteger (cs : List Char) : Option (Int × Cut) :=
  let (radix, cut) := radixCut cs
  let magnitude := valueOf radix cut.digits
  if cut.digits.isEmpty || magnitudeLimit ≤ magnitude then none
  else some (withSign cut.sign magnitude, cut)

/-- The integer that a whole text writes, up to blanks on either side. -/
def wholeInteger (cs : List Char) : Option Int :=
  match leadingInteger cs with
  | some (value, cut) => if Text.onlyBlank cut.rest then some value else none
  | none => none

end GameSetup.Numeral
