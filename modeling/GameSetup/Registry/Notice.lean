import GameSetup.Setting.Value
import GameSetup.Severity
import GameSetup.Text.Quoted

/-!
# Notices of a registry

Every line that has no effect draws one warning, and every assignment that is carried out one
message for debugging.
-/

namespace GameSetup

/-- What a registry has to say about a line. -/
inductive RegistryNotice where
  /-- A line that could not be understood. -/
  | badLine (line : String) (number : Nat)
  /-- A header names a section that has no settings. -/
  | unknownSection (name : String)
  /-- A key names no setting of the current section. -/
  | unknownSetting (currentSection key : String)
  /-- A text is not accepted by its setting. -/
  | rejected (currentSection key text : String) (cause : Rejection)
  /-- A text was read into its setting. -/
  | assigned (currentSection key text : String)
  deriving DecidableEq, Repr

namespace RegistryNotice

/-- All but carried-out assignments are warnings. -/
def severity : RegistryNotice → Severity
  | .badLine _ _ => .warn
  | .unknownSection _ => .warn
  | .unknownSetting _ _ => .warn
  | .rejected _ _ _ _ => .warn
  | .assigned _ _ _ => .debug

/-- The text of a notice. -/
def message : RegistryNotice → String
  | .badLine line number => "Could not parse line " ++ toString number ++ ": " ++ line
  | .unknownSection name => "Unknown section \"" ++ name ++ "\": its options will be ignored"
  | .unknownSetting currentSection key =>
    if currentSection.isEmpty then "Unknown option \"" ++ key ++ "\": ignored"
    else "Unknown option \"" ++ key ++ "\" in section " ++ currentSection ++ ": ignored"
  | .rejected currentSection key text cause =>
    "Invalid value \"" ++ text ++ "\" for " ++ key ++ " in " ++ Text.quoted currentSection ++
      ": " ++ cause.message
  | .assigned currentSection key text =>
    "Set " ++ key ++ " = " ++ Text.quoted text ++ " (section " ++ Text.quoted currentSection ++ ")"

end RegistryNotice

end GameSetup
