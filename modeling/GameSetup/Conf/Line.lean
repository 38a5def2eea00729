import GameSetup.Text.Blank

/-!
# One line of a configuration

A line is read byte by byte. The state says what the line is so far, and the span holds the
offsets of its key and its value. The end of a part moves only on bytes that are not blank, so
no part starts or ends with a blank. A line gives at most one find: when it reaches its comment,
or else when it ends.
-/

namespace GameSetup.Conf

/-- What the line is so far. -/
inductive State where
  /-- Nothing but blanks. -/
  | start
  /-- A key. -/
  | key
  /-- An opening bracket, and blanks. -/
  | bracket
  /-- A bracket and the name of a section. -/
  | name
  /-- A section in closed brackets. -/
  | closed
  /-- A key and the sign of equality. -/
  | equals
  /-- A key and a value. -/
  | value
  /-- A comment, or what stands before one and the comment. -/
  | comment
  /-- No well-formed line, whatever follows. -/
  | malformed
  deriving DecidableEq, Repr

/-- What a line turns out to hold. -/
inductive Find where
  | bareKey
  | header
  | pair
  | emptyPair
  | badLine
  deriving DecidableEq, Repr

/-- Offsets of the key, or of the section's name, and of the value within the line. -/
structure Span where
  keyStart : Nat
  keyStop : Nat
  valueStart : Nat
  valueStop : Nat
  deriving DecidableEq, Repr

/-- Nothing found yet. -/
def Span.empty : Span := ⟨0, 0, 0, 0⟩

/-- Reads one byte that does not end the line. The position is that of the byte. -/
def State.advance (state : State) (byte : UInt8) (position : Nat) (span : Span) :
    State × Span × Option Find :=
  match state with
  | .start =>
    if Text.isBlankByte byte then (.start, span, none)
    else if byte == '['.toUInt8 then
      (.bracket, { span with keyStart := position + 1, keyStop := position + 1 }, none)
    else if byte == ';'.toUInt8 then (.comment, span, none)
    else (.key, { span with keyStart := position, keyStop := position + 1 }, none)
  | .key =>
    if byte == ';'.toUInt8 then (.comment, span, some .bareKey)
    else if byte == '='.toUInt8 then (.equals, span, none)
    else if Text.isBlankByte byte then (.key, span, none)
    else (.key, { span with keyStop := position + 1 }, none)
  | .bracket =>
    if byte == ']'.toUInt8 then (.closed, { span with keyStart := 0, keyStop := 0 }, none)
    else if Text.isBlankByte byte then (.bracket, span, none)
    else (.name, { span with keyStart := position, keyStop := position + 1 }, none)
  | .name =>
    if byte == ']'.toUInt8 then (.closed, span, none)
    else if byte == ';'.toUInt8 then (.malformed, span, none)
    else if Text.isBlankByte byte then (.name, span, none)
    else (.name, { span with keyStop := position + 1 }, none)
  | .closed =>
    if byte == ';'.toUInt8 then (.comment, span, some .header)
    else if Text.isBlankByte byte then (.closed, span, none)
    else (.malformed, span, none)
  | .equals =>
    if Text.isBlankByte byte then (.equals, span, none)
    else if byte == ';'.toUInt8 then (.comment, span, some .emptyPair)
    else (.value, { span with valueStart := position, valueStop := position + 1 }, none)
  | .value =>
    if Text.isBlankByte byte then (.value, span, none)
    else if byte == ';'.toUInt8 then (.comment, span, some .pair)
    else (.value, { span with valueStop := position + 1 }, none)
  | .comment => (.comment, span, none)
  | .malformed => (.malformed, span, none)

/-- What the end of the line reveals. -/
def State.atEnd : State → Option Find
  | .start => none
  | .key => some .bareKey
  | .bracket => some .badLine
  | .name => some .badLine
  | .closed => some .header
  | .equals => some .emptyPair
  | .value => some .pair
  | .comment => none
  | .malformed => some .badLine

/-- A line that is being read: its bytes, its state and the span of its parts. -/
structure Line where
  bytes : Array UInt8
  state : State
  span : Span
  deriving DecidableEq, Repr

namespace Line

/-- A line of which nothing has been read. -/
def empty : Line := ⟨#[], .start, .empty⟩

/-- Reads one byte that does not end the line. -/
def push : Line → UInt8 → Line
  | ⟨bytes, state, span⟩, byte =>
    let next := state.advance byte bytes.size span
    ⟨bytes.push byte, next.1, next.2.1⟩

/-- What a byte that does not end the line reveals. -/
def found (line : Line) (byte : UInt8) : Option Find :=
  (line.state.advance byte line.bytes.size line.span).2.2

/-- The bytes of the key, or of the section's name. -/
def key (line : Line) : List UInt8 :=
  (line.bytes.extract line.span.keyStart line.span.keyStop).toList

/-- The bytes of the value. -/
def value (line : Line) : List UInt8 :=
  (line.bytes.extract line.span.valueStart line.span.valueStop).toList

/-- A line grows by a byte at a time. -/
@[simp] theorem size_push (line : Line) (byte : UInt8) :
    (line.push byte).bytes.size = line.bytes.size + 1 := by
  simp [push]

end Line

end GameSetup.Conf
