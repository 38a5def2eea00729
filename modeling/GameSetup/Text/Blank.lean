/-!
# Blank characters

The blanks that the configuration format, numbers and input definitions skip: space, tab,
line feed, vertical tab, form feed and carriage return. No other character counts, so a
no-break space or an ideographic space is ordinary text.
-/

namespace GameSetup.Text

/-- Whether a character is one of the six blanks. -/
def isBlank (c : Char) : Bool :=
  c == ' ' || c == '\t' || c == '\n' || c == '\x0b' || c == '\x0c' || c == '\r'

/-- The same six blanks, as bytes of an encoded text. -/
def isBlankByte (b : UInt8) : Bool :=
  b == 0x20 || b == 0x09 || b == 0x0a || b == 0x0b || b == 0x0c || b == 0x0d

/-- Drops the blanks at the front. -/
def trimStart (cs : List Char) : List Char :=
  cs.dropWhile isBlank

/-- Drops the blanks at the end. -/
def trimEnd (cs : List Char) : List Char :=
  (cs.reverse.dropWhile isBlank).reverse

/-- Whether nothing but blanks is left. -/
def onlyBlank (cs : List Char) : Bool :=
  cs.all isBlank

/-- Nothing can be cut off an empty text. -/
@[simp] theorem trimStart_nil : trimStart [] = [] := rfl

/-- A first blank is dropped. -/
theorem trimStart_cons_of_blank {c : Char} (cs : List Char) (h : isBlank c = true) :
    trimStart (c :: cs) = trimStart cs := by
  simp [trimStart, h]

/-- A text that starts with anything else is kept whole. -/
theorem trimStart_cons_of_not_blank {c : Char} (cs : List Char) (h : isBlank c = false) :
    trimStart (c :: cs) = c :: cs := by
  simp [trimStart, h]

/-- Trimming splits the text: the blanks in front, then what is kept. -/
theorem takeWhile_append_trimStart (cs : List Char) :
    cs.takeWhile isBlank ++ trimStart cs = cs :=
  List.takeWhile_append_dropWhile

end GameSetup.Text
