import GameSetup.Input.KeyName
import GameSetup.Settings.Flags
import GameSetup.Text.Quoted

/-!
# Reports

What the program prints: the flags of a run, as a table or as a JSON document, and what an input
definition stands for in either grammar.
-/

namespace GameSetup.Report

/-- The word for a truth value. -/
def boolText (value : Bool) : String :=
  if value then "true" else "false"

/-- The flags of a run as a table. -/
def flagLines (flags : Flags) : List String := [
  "window_mode = " ++ flags.windowMode.name,
  "window_size = " ++ flags.windowSize.text,
  "game_size   = " ++ flags.gameSize.text,
  "monitor     = " ++ Numeral.decimalText flags.monitor.toInt,
  "software    = " ++ boolText flags.software,
  "mono        = " ++ boolText flags.mono,
  "nosound     = " ++ boolText flags.nosound,
  "grabmouse   = " ++ boolText flags.grabmouse,
  "antialias   = " ++ boolText flags.antialias,
  "datadir     = " ++ flags.datadir.getD "(default)"]

section Document

-- How a text is written as a JSON string.
variable (jsonString : String → String)

/-- The members of the JSON document, in order. -/
def flagMembers (flags : Flags) : List (String × String) := [
  ("window_mode", jsonString flags.windowMode.name),
  ("mono", boolText flags.mono),
  ("nosound", boolText flags.nosound),
  ("grabmouse", boolText flags.grabmouse),
  ("antialias", boolText flags.antialias),
  ("software", boolText flags.software),
  ("game_width", Numeral.decimalText flags.gameSize.width.toInt),
  ("game_height", Numeral.decimalText flags.gameSize.height.toInt),
  ("monitor", Numeral.decimalText flags.monitor.toInt),
  ("window_width", Numeral.decimalText flags.windowSize.width.toInt),
  ("window_height", Numeral.decimalText flags.windowSize.height.toInt),
  ("datadir", match flags.datadir with
    | some directory => jsonString directory
    | none => "null")]

/-- The flags of a run as a JSON document. -/
def flagDocument (flags : Flags) : List String :=
  let members := (flagMembers jsonString flags).map fun (name, value) =>
    "  " ++ jsonString name ++ ": " ++ value
  ["\x7b\n" ++ ",\n".intercalate members ++ "\n\x7d"]

end Document

/-- A key with its scancode. -/
def keyText (scancode : Scancode) : String :=
  scancode.text ++ " (scancode " ++ toString scancode.index ++ ")"

/-- What a definition stands for. -/
def definitionLines (definition : String) : List String :=
  let input := match Input.ofDefinition definition with
    | .key scancode => keyText scancode
    | other => other.text
  let key := match KeyName.read definition with
    | some scancode => keyText scancode
    | none => "unknown"
  [Text.quoted definition, "  input:    " ++ input, "  key name: " ++ key]

/-- Lines of text, each ended by a line feed. -/
def unlines (lines : List String) : String :=
  String.join (lines.map (· ++ "\n"))

end GameSetup.Report
