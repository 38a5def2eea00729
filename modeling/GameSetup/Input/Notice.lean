import GameSetup.Input.Definition
import GameSetup.Severity
import GameSetup.Text.Quoted

/-!
# Notices of the binding table

Names that stand for nothing draw a warning. What the table does, and the bindings that it
refuses for other reasons, are reported for debugging.
-/

namespace GameSetup

/-- What the binding table and the fixed keys have to say. -/
inductive BindingNotice where
  /-- A control takes the place of another of the same name. -/
  | replaced (control : String)
  /-- A binding names no registered control. -/
  | unknownControl (input : Input) (control : String)
  /-- A binding names an input outside the tables. -/
  | noSuchInput (input : Input) (control : String)
  /-- An input was bound. -/
  | bound (input : Input) (control : String)
  /-- A definition asks for a game controller. -/
  | controllerDefinition (definition : String)
  /-- A definition names no input. -/
  | unknownDefinition (definition : String)
  /-- A key name stands for no key. -/
  | unknownKey (keyName : String)
  /-- A key name for a slot stands for no key. -/
  | unknownKeyForSlot (keyName slotName : String)
  /-- A name stands for no slot. -/
  | unknownSlot (slotName : String)
  deriving DecidableEq, Repr

namespace BindingNotice

/-- How important a notice is. -/
def severity : BindingNotice → Severity
  | .replaced _ => .debug
  | .unknownControl _ _ => .debug
  | .noSuchInput _ _ => .debug
  | .bound _ _ => .debug
  | .controllerDefinition _ => .debug
  | .unknownDefinition _ => .warn
  | .unknownKey _ => .warn
  | .unknownKeyForSlot _ _ => .warn
  | .unknownSlot _ => .warn

/-- The text of a notice. -/
def message : BindingNotice → String
  | .replaced control => "Replacing control " ++ control
  | .unknownControl input control =>
    "Cannot bind " ++ input.text ++ " to unknown control " ++ control
  | .noSuchInput input control =>
    "Cannot bind " ++ input.text ++ " to " ++ control ++ ": no such input"
  | .bound input control => "Bound " ++ input.text ++ " to " ++ control
  | .controllerDefinition definition =>
    "Controller bindings are not supported: " ++ Text.quoted definition
  | .unknownDefinition definition =>
    "Unable to parse \"" ++ definition ++ "\" as a control input (binding ignored)"
  | .unknownKey keyName => "Unknown key name \"" ++ keyName ++ "\" (binding ignored)"
  | .unknownKeyForSlot keyName slotName =>
    "Unknown key name \"" ++ keyName ++ "\" for " ++ slotName
  | .unknownSlot slotName => "Unknown key slot " ++ slotName

end BindingNotice

/-- What reading a definition has to say for itself. -/
def DefinitionError.notices (definition : String) : DefinitionError → List BindingNotice
  | .controller => [.controllerDefinition definition]
  | .notUnderstood => []

/-- What there is to say about a definition, whoever reads it. -/
def Definition.notices (definition : String) : List BindingNotice :=
  match Definition.read definition with
  | .ok _ => []
  | .error error => error.notices definition

end GameSetup
