import GameSetup.Conf.Event
import GameSetup.Conf.Line
import GameSetup.Text.Utf8

/-!
# Reading a configuration

The reader takes one byte at a time. A line feed, a carriage return, and the two together each
end a line: the return ends it at once, and a feed right behind it is skipped. What follows the
last end of line is a line too, unless the source fails. A malformed line is reported and never
stops the reader.
-/

namespace GameSetup.Conf

/-- The line feed. -/
def lineFeed : UInt8 := 0x0a

/-- The carriage return. -/
def carriageReturn : UInt8 := 0x0d

/-- The event of a find, given the line as read so far and its number. Every part is decoded on
its own. -/
def Find.event (find : Find) (line : Line) (number : Nat) : Event :=
  match find with
  | .bareKey => .bare (Text.Utf8.decode line.key)
  | .header => .header (Text.Utf8.decode line.key)
  | .pair => .pair (Text.Utf8.decode line.key) (Text.Utf8.decode line.value)
  | .emptyPair => .pair (Text.Utf8.decode line.key) ""
  | .badLine => .badLine (Text.Utf8.decode line.bytes.toList) number

/-- A configuration that is being read. -/
structure Reader where
  /-- The line being read. -/
  line : Line
  /-- Its number, counted from one. -/
  number : Nat
  /-- Whether the byte before was a carriage return. -/
  afterReturn : Bool
  /-- The events so far. -/
  events : Array Event
  deriving DecidableEq, Repr

namespace Reader

/-- Before the first byte. -/
def start : Reader := ⟨.empty, 1, false, #[]⟩

/-- Adds an event, if there is one. -/
def note (events : Array Event) : Option Event → Array Event
  | none => events
  | some event => events.push event

/-- Ends the line. The flag says whether a carriage return does so. -/
def endLine (returned : Bool) : Reader → Reader
  | ⟨line, number, _, events⟩ =>
    let event := line.state.atEnd.map (·.event line number)
    ⟨.empty, number + 1, returned, note events event⟩

/-- Reads a byte inside a line. -/
def inLine : Reader → UInt8 → Reader
  | ⟨line, number, _, events⟩, byte =>
    let found := line.found byte
    let line := line.push byte
    ⟨line, number, false, note events (found.map (·.event line number))⟩

/-- Reads a byte. -/
def push (reader : Reader) (byte : UInt8) : Reader :=
  if byte == carriageReturn then reader.endLine true
  else if byte == lineFeed then
    if reader.afterReturn then { reader with afterReturn := false } else reader.endLine false
  else reader.inLine byte

/-- Reads bytes one after another. -/
def pushAll (reader : Reader) (bytes : List UInt8) : Reader :=
  bytes.foldl push reader

/-- Bytes can be read in any number of portions. -/
theorem pushAll_append (reader : Reader) (front back : List UInt8) :
    reader.pushAll (front ++ back) = (reader.pushAll front).pushAll back :=
  List.foldl_append

end Reader

/-- The events of a stream. The line that a fault interrupts is dropped. -/
def events (stream : Stream) : List Event :=
  let reader := Reader.start.pushAll stream.bytes
  match stream.fault with
  | none => (reader.endLine false).events.toList
  | some _ => reader.events.toList

/-- The signals of a stream. -/
def signals (stream : Stream) : List Signal :=
  .start :: (events stream).map .event ++
    match stream.fault with
    | none => [.finish]
    | some _ => []

end GameSetup.Conf
