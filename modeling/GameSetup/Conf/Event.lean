import GameSetup.Fault

/-!
# Events of a configuration

What a configuration says, line by line, without regard to what the keys mean. Reading brackets
the events between two signals; the second is missing when the source fails.
-/

namespace GameSetup.Conf

/-- What one line says. -/
inductive Event where
  /-- A section starts. -/
  | header (name : String)
  /-- A key is given a value, which may be empty. -/
  | pair (key value : String)
  /-- A key stands without a sign of equality. -/
  | bare (key : String)
  /-- The line could not be understood; lines are counted from one. -/
  | badLine (line : String) (number : Nat)
  deriving DecidableEq, Repr

/-- The key and the text that a line assigns; a bare key is given the empty text. -/
def Event.assignment? : Event → Option (String × String)
  | .pair key value => some (key, value)
  | .bare key => some (key, "")
  | .header _ => none
  | .badLine _ _ => none

/-- The line that could not be understood, and its number. -/
def Event.badLine? : Event → Option (String × Nat)
  | .badLine line number => some (line, number)
  | .header _ => none
  | .pair _ _ => none
  | .bare _ => none

/-- What a reader tells whoever follows it. -/
inductive Signal where
  /-- Reading starts. -/
  | start
  /-- A line has been understood, or given up. -/
  | event (found : Event)
  /-- The last line has been read. -/
  | finish
  deriving DecidableEq, Repr

/-- The event that a signal carries. -/
def Signal.event? : Signal → Option Event
  | .event found => some found
  | .start => none
  | .finish => none

/-- Bytes that arrive one after another, and the fault that ends them, if one does. -/
structure Stream where
  bytes : List UInt8
  fault : Option Fault
  deriving DecidableEq, Repr

/-- A stream that ends without a fault. -/
def Stream.ofBytes (bytes : List UInt8) : Stream := ⟨bytes, none⟩

/-- What reading a stream comes to. -/
def Stream.outcome (stream : Stream) : Except Fault Unit :=
  match stream.fault with
  | none => .ok ()
  | some fault => .error fault

end GameSetup.Conf
