import GameSetup.Conf.Reader
import GameSetup.Proofs.Conf.Trim

/-!
# The grammar of a configuration, line by line

A text is cut into lines, and every line is read by trimming it and cutting it at its marks. No
state is carried from one byte to the next, and no offset is kept. The grammar says what each line
means; that the reader agrees with it is proved elsewhere.

The bytes of a part are decoded on their own, as the reader does.
-/

namespace GameSetup.Conf.Grammar

/-- Whether a byte stands inside a line. -/
def isInLine (byte : UInt8) : Bool :=
  byte != carriageReturn && byte != lineFeed

/-- The text without the line feed that may stand in front. -/
def dropFeed : List UInt8 → List UInt8
  | [] => []
  | byte :: rest => if byte = lineFeed then rest else byte :: rest

/-- What follows the end of a line at the front of a text. The longer end counts. -/
def afterLineEnd : List UInt8 → List UInt8
  | [] => []
  | byte :: rest => if byte = carriageReturn then dropFeed rest else rest

/-- A text does not grow without its first line feed. -/
theorem length_dropFeed_le (text : List UInt8) : (dropFeed text).length ≤ text.length := by
  cases text with
  | nil => exact Nat.le_refl _
  | cons byte rest =>
    rw [dropFeed]
    split
    · exact Nat.le_succ _
    · exact Nat.le_refl _

/-- What is behind the end of a line is shorter than what is in front of it. -/
theorem length_afterLineEnd_lt {text : List UInt8} (h : text ≠ []) :
    (afterLineEnd text).length < text.length := by
  cases text with
  | nil => exact absurd rfl h
  | cons byte rest =>
    have hfeed := length_dropFeed_le rest
    rw [afterLineEnd, List.length_cons]
    split <;> omega

/-- The lines of a text. What follows the last end of line is a line too. -/
def lines (text : List UInt8) : List (List UInt8) :=
  if _h : text.dropWhile isInLine = [] then [text.takeWhile isInLine]
  else text.takeWhile isInLine :: lines (afterLineEnd (text.dropWhile isInLine))
termination_by text.length
decreasing_by
  exact Nat.lt_of_lt_of_le (length_afterLineEnd_lt _h) (List.dropWhile_suffix _).length_le

/-- A text in which no line ends is a line. -/
theorem lines_of_dropWhile_eq_nil {text : List UInt8} (h : text.dropWhile isInLine = []) :
    lines text = [text.takeWhile isInLine] := by
  rw [lines, dif_pos h]

/-- Else the first line is cut off. -/
theorem lines_of_dropWhile_ne_nil {text : List UInt8} (h : text.dropWhile isInLine ≠ []) :
    lines text = text.takeWhile isInLine :: lines (afterLineEnd (text.dropWhile isInLine)) := by
  rw [lines, dif_neg h]

/-- An empty text has one line, which is empty. -/
@[simp] theorem lines_nil : lines [] = [[]] :=
  lines_of_dropWhile_eq_nil rfl

/-- A line feed ends a line. -/
theorem lines_feed (text : List UInt8) : lines (lineFeed :: text) = [] :: lines text :=
  lines_of_dropWhile_ne_nil (List.cons_ne_nil _ _)

/-- A carriage return ends a line, together with the line feed that may stand behind it. -/
theorem lines_return (text : List UInt8) :
    lines (carriageReturn :: text) = [] :: lines (dropFeed text) :=
  lines_of_dropWhile_ne_nil (List.cons_ne_nil _ _)

/-- A byte that ends no line belongs to the first one. -/
theorem lines_cons_of_isInLine {byte : UInt8} (text : List UInt8) (h : isInLine byte = true) :
    lines (byte :: text) = (lines text).modifyHead (byte :: ·) := by
  have hdrop : (byte :: text).dropWhile isInLine = text.dropWhile isInLine :=
    List.dropWhile_cons_of_pos h
  have htake : (byte :: text).takeWhile isInLine = byte :: text.takeWhile isInLine :=
    List.takeWhile_cons_of_pos h
  by_cases hend : text.dropWhile isInLine = []
  · rw [lines_of_dropWhile_eq_nil hend, lines_of_dropWhile_eq_nil (hdrop.trans hend), htake]
    rfl
  · rw [lines_of_dropWhile_ne_nil hend,
      lines_of_dropWhile_ne_nil (fun h => hend (hdrop.symm.trans h)), htake, hdrop]
    rfl

/-- There is always a line. -/
theorem lines_ne_nil (text : List UInt8) : lines text ≠ [] := by
  rw [lines]
  split <;> exact List.cons_ne_nil _ _

/-- The text in front of the first semicolon. -/
def beforeComment (text : List UInt8) : List UInt8 :=
  text.takeWhile (· ≠ ';'.toUInt8)

/-- Nothing precedes a comment in an empty line. -/
@[simp] theorem beforeComment_nil : beforeComment [] = [] := rfl

/-- A comment starts at its semicolon. -/
theorem beforeComment_semicolon (text : List UInt8) : beforeComment (';'.toUInt8 :: text) = [] :=
  List.takeWhile_cons_of_neg (by simp)

/-- Any other byte stands before the comment. -/
theorem beforeComment_cons_of_ne {byte : UInt8} (text : List UInt8) (h : byte ≠ ';'.toUInt8) :
    beforeComment (byte :: text) = byte :: beforeComment text :=
  List.takeWhile_cons_of_pos (by simp [h])

/-- Whether nothing but blanks follows, or blanks and a comment. -/
def closes (text : List UInt8) : Bool :=
  match text.dropWhile Text.isBlankByte with
  | [] => true
  | byte :: _ => byte = ';'.toUInt8

/-- A header can end with its bracket. -/
@[simp] theorem closes_nil : closes [] = true := rfl

/-- A comment may follow. -/
theorem closes_semicolon (text : List UInt8) : closes (';'.toUInt8 :: text) = true := rfl

/-- A blank may follow, if what is behind it may. -/
theorem closes_cons_of_blank {byte : UInt8} (text : List UInt8)
    (h : Text.isBlankByte byte = true) : closes (byte :: text) = closes text := by
  rw [closes, List.dropWhile_cons_of_pos h, ← closes]

/-- Nothing else may follow. -/
theorem closes_cons_of_not_blank {byte : UInt8} (text : List UInt8)
    (h : Text.isBlankByte byte = false) (hmark : byte ≠ ';'.toUInt8) :
    closes (byte :: text) = false := by
  rw [closes, List.dropWhile_cons_of_neg (by simp [h])]
  exact decide_eq_false hmark

/-- Whether a byte behind the first belongs to the name of a section. -/
def isInName (byte : UInt8) : Bool :=
  byte != ']'.toUInt8 && byte != ';'.toUInt8

/-- The name of a section whose first byte has been found, given the text behind that byte. The
name ends at a bracket, and nothing that counts may follow it. -/
def nameFrom? (front text : List UInt8) : Option (List UInt8) :=
  match text.dropWhile isInName with
  | [] => none
  | byte :: rest =>
    if byte = ']'.toUInt8 ∧ closes rest then some (trimEnd (front ++ text.takeWhile isInName))
    else none

/-- A name without a bracket behind it is none. -/
@[simp] theorem nameFrom?_nil (front : List UInt8) : nameFrom? front [] = none := rfl

/-- A closing bracket ends a name. -/
theorem nameFrom?_bracket (front text : List UInt8) :
    nameFrom? front (']'.toUInt8 :: text) =
      if closes text then some (trimEnd front) else none := by
  have hname : isInName ']'.toUInt8 = false := rfl
  rw [nameFrom?, List.dropWhile_cons_of_neg (by simp [hname]),
    List.takeWhile_cons_of_neg (by simp [hname]), List.append_nil]
  simp

/-- A semicolon spoils a name. -/
theorem nameFrom?_semicolon (front text : List UInt8) :
    nameFrom? front (';'.toUInt8 :: text) = none := rfl

/-- Any other byte belongs to the name. -/
theorem nameFrom?_cons {byte : UInt8} (front text : List UInt8) (h : isInName byte = true) :
    nameFrom? front (byte :: text) = nameFrom? (front ++ [byte]) text := by
  rw [nameFrom?, nameFrom?, List.dropWhile_cons_of_pos h, List.takeWhile_cons_of_pos h,
    List.append_cons]

/-- The name of the section in a line, given the text behind the opening bracket. A closing bracket
ends an empty name; any other first byte belongs to the name. -/
def name? (text : List UInt8) : Option (List UInt8) :=
  match text.dropWhile Text.isBlankByte with
  | [] => none
  | byte :: rest =>
    if byte = ']'.toUInt8 then if closes rest then some [] else none
    else nameFrom? [byte] rest

/-- There is no name in front of nothing. -/
@[simp] theorem name?_nil : name? [] = none := rfl

/-- A closing bracket right behind the opening one leaves the name empty. -/
theorem name?_bracket (text : List UInt8) :
    name? (']'.toUInt8 :: text) = if closes text then some [] else none := rfl

/-- Blanks may stand in front of a name. -/
theorem name?_cons_of_blank {byte : UInt8} (text : List UInt8)
    (h : Text.isBlankByte byte = true) : name? (byte :: text) = name? text := by
  rw [name?, List.dropWhile_cons_of_pos h, ← name?]

/-- Any other byte is the first of a name. -/
theorem name?_cons_of_not_blank {byte : UInt8} (text : List UInt8)
    (h : Text.isBlankByte byte = false) (hmark : byte ≠ ']'.toUInt8) :
    name? (byte :: text) = nameFrom? [byte] text := by
  rw [name?, List.dropWhile_cons_of_neg (by simp [h])]
  exact if_neg hmark

/-- What a line in brackets comes to, given its name if it is well-formed. -/
def headerEvent (malformed : Event) : Option (List UInt8) → Event
  | some name => .header (Text.Utf8.decode name)
  | none => malformed

/-- A key, and perhaps a value behind a sign of equality. What stands in front is part of the key,
whatever it is. -/
def assignment (front text : List UInt8) : Event :=
  match text.dropWhile (· ≠ '='.toUInt8) with
  | [] => .bare (Text.Utf8.decode (trim (front ++ text)))
  | _ :: value =>
    .pair (Text.Utf8.decode (trim (front ++ text.takeWhile (· ≠ '='.toUInt8))))
      (Text.Utf8.decode (trim value))

/-- Without a sign of equality, all of it is the key. -/
theorem assignment_nil (front : List UInt8) :
    assignment front [] = .bare (Text.Utf8.decode (trim front)) := by
  rw [assignment, List.dropWhile_nil, List.append_nil]

/-- The first sign of equality ends the key. -/
theorem assignment_equals (front text : List UInt8) :
    assignment front ('='.toUInt8 :: text) =
      .pair (Text.Utf8.decode (trim front)) (Text.Utf8.decode (trim text)) := by
  rw [assignment, List.dropWhile_cons_of_neg (by simp), List.takeWhile_cons_of_neg (by simp),
    List.append_nil]

/-- Any other byte belongs to the key. -/
theorem assignment_cons_of_ne {byte : UInt8} (front text : List UInt8)
    (h : byte ≠ '='.toUInt8) :
    assignment front (byte :: text) = assignment (front ++ [byte]) text := by
  rw [assignment, assignment, List.dropWhile_cons_of_pos (by simp [h]),
    List.takeWhile_cons_of_pos (by simp [h])]
  simp only [List.append_assoc, List.singleton_append]

/-- What the trimmed text of a line says, if it says anything, and what it comes to if it is
malformed. -/
def textEvent? (malformed : Event) : List UInt8 → Option Event
  | [] => none
  | first :: rest =>
    if first = ';'.toUInt8 then none
    else if first = '['.toUInt8 then some (headerEvent malformed (name? rest))
    else some (assignment [first] (beforeComment rest))

/-- What a line says, if it says anything. A malformed line is reported with all its bytes. -/
def lineEvent? (number : Nat) (line : List UInt8) : Option Event :=
  textEvent? (.badLine (Text.Utf8.decode line) number) (trim line)

/-- The events of lines that are numbered onwards from a number. -/
def eventsFrom (number : Nat) (lines : List (List UInt8)) : List Event :=
  (lines.zipIdx number).filterMap fun (line, number) => lineEvent? number line

/-- The first line comes first, and the others are numbered onwards. -/
theorem eventsFrom_cons (number : Nat) (line : List UInt8) (rest : List (List UInt8)) :
    eventsFrom number (line :: rest) =
      (lineEvent? number line).toList ++ eventsFrom (number + 1) rest := by
  cases hevent : lineEvent? number line <;>
    simp [eventsFrom, List.zipIdx_cons, hevent]

/-- The events of a text, whose lines are counted from one. -/
def events (text : List UInt8) : List Event :=
  eventsFrom 1 (lines text)

/-- A blank is not a mark that is no blank. -/
theorem ne_of_isBlankByte {byte : UInt8} (hbyte : Text.isBlankByte byte = true) (mark : UInt8)
    (hmark : Text.isBlankByte mark = false) : byte ≠ mark := by
  rintro rfl
  rw [hbyte] at hmark
  exact Bool.noConfusion hmark

/-- Blanks do not end what comes before a comment. -/
theorem ne_semicolon_of_isBlankByte (byte : UInt8) (h : Text.isBlankByte byte = true) :
    decide (byte ≠ ';'.toUInt8) = true :=
  decide_eq_true (ne_of_isBlankByte h _ rfl)

/-- Blanks do not end a key. -/
theorem ne_equals_of_isBlankByte (byte : UInt8) (h : Text.isBlankByte byte = true) :
    decide (byte ≠ '='.toUInt8) = true :=
  decide_eq_true (ne_of_isBlankByte h _ rfl)

/-- Blanks do not end the name of a section. -/
theorem isInName_of_isBlankByte (byte : UInt8) (h : Text.isBlankByte byte = true) :
    isInName byte = true := by
  simp [isInName, ne_of_isBlankByte h ']'.toUInt8 rfl, ne_of_isBlankByte h ';'.toUInt8 rfl]

/-- What ends a prefix that blanks may belong to is no blank. -/
theorem isBlankByte_of_dropWhile_eq_cons {p : UInt8 → Bool}
    (hp : ∀ byte, Text.isBlankByte byte = true → p byte = true) {text rest : List UInt8}
    {byte : UInt8} (h : text.dropWhile p = byte :: rest) : Text.isBlankByte byte = false := by
  have hstop := List.head?_dropWhile_not p text
  rw [h] at hstop
  rw [Bool.eq_false_iff]
  exact fun hblank => Bool.noConfusion (hstop.symm.trans (hp byte hblank))

/-- Blanks at the end do not matter behind a section's brackets. -/
theorem closes_trimEnd (text : List UInt8) : closes (trimEnd text) = closes text := by
  rw [closes, closes, dropWhile_trimEnd fun _ hblank => hblank]
  cases hrest : text.dropWhile Text.isBlankByte with
  | nil => rfl
  | cons byte rest =>
    rw [trimEnd_cons_of_not_blank rest
      (isBlankByte_of_dropWhile_eq_cons (fun _ hblank => hblank) hrest)]

/-- Blanks at the end do not matter where the name of a section is completed. -/
theorem nameFrom?_trimEnd (front text : List UInt8) :
    nameFrom? front (trimEnd text) = nameFrom? front text := by
  have hname : trimEnd (front ++ (trimEnd text).takeWhile isInName) =
      trimEnd (front ++ text.takeWhile isInName) :=
    trimEnd_append_congr front (trimEnd_takeWhile_trimEnd isInName_of_isBlankByte text)
  rw [nameFrom?, nameFrom?, dropWhile_trimEnd isInName_of_isBlankByte]
  cases hrest : text.dropWhile isInName with
  | nil => rfl
  | cons byte rest =>
    rw [trimEnd_cons_of_not_blank rest
      (isBlankByte_of_dropWhile_eq_cons isInName_of_isBlankByte hrest)]
    simp only [closes_trimEnd, hname]

/-- Blanks at the end do not matter behind an opening bracket. -/
theorem name?_trimEnd (text : List UInt8) : name? (trimEnd text) = name? text := by
  rw [name?, name?, dropWhile_trimEnd fun _ hblank => hblank]
  cases hrest : text.dropWhile Text.isBlankByte with
  | nil => rfl
  | cons byte rest =>
    rw [trimEnd_cons_of_not_blank rest
      (isBlankByte_of_dropWhile_eq_cons (fun _ hblank => hblank) hrest)]
    simp only [closes_trimEnd, nameFrom?_trimEnd]

/-- An assignment is the same up to blanks at the end. -/
theorem assignment_trimEnd (front text : List UInt8) :
    assignment front (trimEnd text) = assignment front text := by
  have hkey : trim (front ++ (trimEnd text).takeWhile (· ≠ '='.toUInt8)) =
      trim (front ++ text.takeWhile (· ≠ '='.toUInt8)) :=
    trim_congr (trimEnd_append_congr front
      (trimEnd_takeWhile_trimEnd ne_equals_of_isBlankByte text))
  have hbare : trim (front ++ trimEnd text) = trim (front ++ text) :=
    trim_congr (trimEnd_append_congr front (trimEnd_trimEnd text))
  rw [assignment, assignment, dropWhile_trimEnd ne_equals_of_isBlankByte]
  cases hrest : text.dropWhile (· ≠ '='.toUInt8) with
  | nil => simp only [trimEnd_nil, hbare]
  | cons byte rest =>
    rw [trimEnd_cons_of_not_blank rest
      (isBlankByte_of_dropWhile_eq_cons ne_equals_of_isBlankByte hrest)]
    simp only [hkey, trim_congr (trimEnd_trimEnd rest)]

/-- An assignment is the same up to blanks in front of its comment. -/
theorem assignment_beforeComment_trimEnd (front text : List UInt8) :
    assignment front (beforeComment (trimEnd text)) = assignment front (beforeComment text) := by
  rw [← assignment_trimEnd, beforeComment,
    trimEnd_takeWhile_trimEnd ne_semicolon_of_isBlankByte, assignment_trimEnd, ← beforeComment]

/-- It is enough to trim the front of a line. -/
theorem lineEvent?_eq (number : Nat) (line : List UInt8) :
    lineEvent? number line =
      textEvent? (.badLine (Text.Utf8.decode line) number) (line.dropWhile Text.isBlankByte) := by
  rw [lineEvent?, trim]
  cases htext : line.dropWhile Text.isBlankByte with
  | nil => rfl
  | cons first rest =>
    rw [trimEnd_cons_of_not_blank rest
      (isBlankByte_of_dropWhile_eq_cons (fun _ hblank => hblank) htext)]
    simp only [textEvent?, name?_trimEnd, assignment_beforeComment_trimEnd]

end GameSetup.Conf.Grammar
