import GameSetup.Registry.Basic

/-!
# Configurations that hold every default

A registry can write a configuration that assigns its default to every setting: first the root's
settings without a header, then each other section under its header, all in the order in which
they were registered. A description becomes a comment above its setting.
-/

namespace GameSetup

/-- The lines of one setting. -/
def AnySetting.defaultLines (name : String) (setting : AnySetting) : List String :=
  (if setting.description.isEmpty then [] else ["; " ++ setting.description ++ "\n"]) ++
    [name ++ " = " ++ setting.defaultText ++ "\n\n"]

namespace Registry

variable {σ ι : Type} [SettingStore σ ι]

/-- The settings of a section. -/
def sectionLines (registry : Registry σ ι) (names : List (String × ι)) : List String :=
  names.flatMap fun (name, slot) =>
    match SettingStore.setting? registry.store slot with
    | some setting => setting.defaultLines name
    | none => []

/-- The whole configuration, piece by piece. -/
def defaultPieces (registry : Registry σ ι) (header : String) : List String :=
  [header ++ "\n\n"] ++
    registry.sectionLines ((registry.catalog.names? rootSection).getD []) ++
    (registry.catalog.sections.filter (·.1 ≠ rootSection)).flatMap fun (name, names) =>
      ("[" ++ name ++ "]\n\n") :: registry.sectionLines names

/-- The whole configuration. -/
def defaultsText (registry : Registry σ ι) (header : String) : String :=
  String.join (registry.defaultPieces header)

end Registry

/-- A place to write to that takes a limited number of bytes and then fails. -/
structure Sink where
  /-- How many bytes still fit. -/
  room : Nat
  /-- The fault of a text that does not fit. -/
  fault : Fault
  deriving DecidableEq, Repr

namespace Sink

/-- Writes a text, or fails when the room does not suffice. -/
def write (sink : Sink) (text : String) : Except Fault Sink :=
  if text.utf8ByteSize ≤ sink.room then .ok { sink with room := sink.room - text.utf8ByteSize }
  else .error sink.fault

/-- Writes texts one after another, up to the first that fails. -/
def writeAll (sink : Sink) (texts : List String) : Except Fault Sink :=
  texts.foldlM write sink

end Sink

end GameSetup
