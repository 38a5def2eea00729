import GameSetup.CommandLine.Basic
import GameSetup.Program.Report
import GameSetup.Storage.ConfigFile
import GameSetup.Storage.SaveDirectory
import GameSetup.Text.JsonString

/-!
# The program

The program reads its command line, makes the directory of its logs, and carries out one command.
It needs nothing of the world but the environment and a script's worth of files, so a run is a
function of these.
-/

namespace GameSetup.Program

open CommandLine

/-- The name and version of the program. -/
def versionLine : String := "abuserc 0.3.0"

/-- How the program is used. -/
def usage : String :=
  "Usage: abuserc [OPTIONS] [show [--json] | defaults | key <DEFINITION>...]\n\n" ++
  "Options: --edit --fullscreen --borderless --window --size <WIDTH> <HEIGHT>\n" ++
  "         --software --nosound --antialias --mono --grabmouse\n" ++
  "         --datadir <DIR> --config <PATH> --help --version"

/-- What a run leaves behind, files apart. -/
structure Outcome where
  exitCode : UInt32
  /-- What is printed for the user. -/
  out : String
  /-- What is printed about the run. -/
  err : String
  notices : List FileNotice

/-- The outcome of a refused command line. -/
def refuse (refusal : Refusal) : Outcome :=
  match refusal with
  | .help => ⟨0, Report.unlines [usage], "", []⟩
  | .version => ⟨0, Report.unlines [versionLine], "", []⟩
  | _ => ⟨2, "", Report.unlines ["error: " ++ refusal.message, "", usage], []⟩

/-- The outcome of a failed run. -/
def fail (warnings : String) (lines : List String) : Outcome :=
  ⟨1, "", warnings ++ Report.unlines lines, []⟩

/-- The configuration file of a run. -/
def configPath (environment : Environment) (startup : Startup) : Except FileError Path :=
  match startup.config with
  | some path => .ok path
  | none => ConfigFile.defaultPath environment

/-- The flags of a run: those of the configuration file, with the command line's on top. -/
def resolve (environment : Environment) (startup : Startup) :
    Script (Except FileError (Flags × List FileNotice)) :=
  match configPath environment startup with
  | .error error => return .error error
  | .ok path => do
    let (loaded, notices) ← ConfigFile.load startup.mode path
    return .ok (startup.overrides.apply loaded.flags, notices)

/-- What is printed when the directory of the logs cannot be made. -/
def logsWarning : Except DirectoryError Path → String
  | .ok _ => ""
  | .error error =>
    Report.unlines ["Warning: Could not initialize file logging: " ++ error.message]

/-- What a run leaves to others: to read its words, and to write a text as a JSON string. -/
structure Helpers where
  read : ArgumentReader
  jsonString : String → String

namespace Helpers

/-- Those that the program runs with. -/
def standard : Helpers where
  read := parse
  jsonString := Text.jsonString

variable (helpers : Helpers)

/-- Carries out a command. The warnings are what was printed about the run before. -/
def execute (environment : Environment) (startup : Startup) (warnings : String) :
    Script Outcome :=
  match startup.command with
  | .display json => do
    match ← resolve environment startup with
    | .error error =>
      return fail warnings ["Error: Cannot locate the configuration file", "", "Caused by:",
        "    " ++ error.message]
    | .ok (flags, notices) =>
      let lines := if json then Report.flagDocument helpers.jsonString flags
        else Report.flagLines flags
      return ⟨0, Report.unlines lines, warnings, notices⟩
  | .defaults => return ⟨0, Settings.initial.defaultsText, warnings, []⟩
  | .key definitions =>
    return ⟨0, Report.unlines (definitions.flatMap Report.definitionLines), warnings, []⟩

/-- A whole run, given the words of the command line. -/
def run (environment : Environment) (words : List String) : Script Outcome :=
  match helpers.read words with
  | .error refusal => return refuse refusal
  | .ok arguments => do
    let warnings := logsWarning (← environment.ensureLogs)
    match arguments.startup with
    | .error error => return fail warnings ["Error: " ++ error.message]
    | .ok startup => helpers.execute environment startup warnings

end Helpers

/-- A run with the standard helpers. -/
def run (environment : Environment) (words : List String) : Script Outcome :=
  Helpers.standard.run environment words

end GameSetup.Program
