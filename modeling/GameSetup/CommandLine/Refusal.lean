/-!
# Refused command lines

Why a command line does not lead to a run: it is at fault, or it asks for an explanation or the
version instead.
-/

namespace GameSetup.CommandLine

/-- Why a command line does not lead to a run. -/
inductive Refusal where
  /-- Two options exclude each other, or one is given twice. -/
  | conflict (option other : String)
  /-- An option has too few or too many values. -/
  | wrongCount (option : String)
  /-- An option has no value, or an empty one that it does not accept. -/
  | noValue (option : String)
  /-- A value is not of the kind that its option takes. -/
  | badValue (option value : String)
  /-- A value is attached to an option that takes none. -/
  | unexpectedValue (option : String)
  /-- A word has no meaning where it stands. -/
  | unknownArgument (word : String)
  /-- A word stands where a command was expected. -/
  | unknownCommand (word : String)
  /-- No definition is given where at least one is needed. -/
  | noDefinition
  /-- An explanation is asked for. -/
  | help
  /-- The version is asked for. -/
  | version
  deriving DecidableEq, Repr

/-- What a refused user is told. -/
def Refusal.message : Refusal → String
  | .conflict option other =>
    if option = other then "--" ++ option ++ " cannot be used multiple times"
    else "--" ++ option ++ " cannot be used with --" ++ other
  | .wrongCount option => "wrong number of values for --" ++ option
  | .noValue option => "a value is required for --" ++ option
  | .badValue option value => "invalid value '" ++ value ++ "' for --" ++ option
  | .unexpectedValue option => "unexpected value for --" ++ option
  | .unknownArgument word => "unexpected argument '" ++ word ++ "'"
  | .unknownCommand word => "unrecognized subcommand '" ++ word ++ "'"
  | .noDefinition => "at least one definition is required"
  | .help => "help was asked for"
  | .version => "the version was asked for"

end GameSetup.CommandLine
