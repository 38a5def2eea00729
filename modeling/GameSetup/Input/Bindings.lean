import GameSetup.Input.Keys
import GameSetup.Input.Tables
import GameSetup.Keyed

/-!
# Bindings

Controls are registered under names and are driven by the inputs bound to them. An input drives
at most one control, and a control can be driven by any number of inputs. Operations say what
became of the controls: each state that one receives and each control that is given up.
-/

namespace GameSetup

/-- A control and the name under which it is registered. -/
structure NamedControl (α : Type) where
  name : String
  control : α
  deriving DecidableEq, Repr

/-- What becomes of a control. -/
inductive Occurrence (α : Type) where
  | delivered (control : α) (state : Int16)
  | dropped (control : α)
  deriving DecidableEq, Repr

/-- What stands for a control that is a bare function. -/
def functionControlText : String := "FnControl"

/-- The registered controls, what drives them, and the device that was used last. -/
structure Bindings (α : Type) where
  /-- The controls, in order of first registration. -/
  controls : List (NamedControl α)
  /-- Where the control of a name stands. -/
  ids : List (String × ControlId)
  tables : Tables
  mode : DeviceClass

namespace Bindings

variable {α : Type}

/-- No controls, and nothing bound. -/
def empty : Bindings α := ⟨[], [], .empty, .initial⟩

/-- The control registered under a name. -/
def controlId? (bindings : Bindings α) (name : String) : Option ControlId :=
  bindings.ids.lookup name

/-- The name of a control. -/
def controlName? (bindings : Bindings α) (id : ControlId) : Option String :=
  (bindings.controls[id.position]?).map (·.name)

/-- The registered names, in order of first registration. -/
def controlNames (bindings : Bindings α) : List String :=
  bindings.controls.map (·.name)

/-- What registering a control comes to. -/
structure Registered (α : Type) where
  bindings : Bindings α
  id : ControlId
  occurrences : List (Occurrence α)
  notices : List BindingNotice

/-- Registers a control. A control of the same name is given up, and what drove it drives the
new one. -/
def add (bindings : Bindings α) (name : String) (control : α) : Registered α :=
  match bindings.controlId? name with
  | some id =>
    { bindings :=
        { bindings with
          controls := bindings.controls.modify id.position ({ · with control := control }) }
      id := id
      occurrences := (bindings.controls[id.position]?).toList.map (.dropped ·.control)
      notices := [.replaced name] }
  | none =>
    let id : ControlId := ⟨bindings.controls.length⟩
    { bindings :=
        { bindings with
          controls := bindings.controls ++ [⟨name, control⟩]
          ids := Keyed.enter name (fun _ => id) bindings.ids }
      id := id
      occurrences := []
      notices := [] }

/-- Binds an input to the control of a name, and says whether both exist. -/
def bind (bindings : Bindings α) (input : Input) (name : String) :
    Bindings α × Bool × List BindingNotice :=
  match bindings.controlId? name with
  | none => (bindings, false, [.unknownControl input name])
  | some id =>
    if Tables.hasPlace input then
      ({ bindings with tables := bindings.tables.put input (some id) }, true,
        [.bound input name])
    else (bindings, false, [.noSuchInput input name])

/-- Binds the key that a key name stands for. -/
def bindKeyName (bindings : Bindings α) (keyName name : String) :
    Bindings α × Bool × List BindingNotice :=
  match KeyName.read keyName with
  | some scancode => bindings.bind (.key scancode) name
  | none => (bindings, false, [.unknownKey keyName])

/-- Binds the input that a definition names. -/
def bindDefinition (bindings : Bindings α) (definition name : String) :
    Bindings α × Bool × List BindingNotice :=
  match Definition.read definition with
  | .ok input => bindings.bind input name
  | .error error =>
    (bindings, false, error.notices definition ++ [.unknownDefinition definition])

/-- Binds the inputs of several definitions, and counts those that succeed. -/
def bindAll (bindings : Bindings α) (definitions : List String) (name : String) :
    Bindings α × Nat × List BindingNotice :=
  match definitions with
  | [] => (bindings, 0, [])
  | definition :: rest =>
    let (next, bound, notices) := bindings.bindDefinition definition name
    let (last, count, more) := next.bindAll rest name
    (last, (if bound then 1 else 0) + count, notices ++ more)

/-- Binds several keys, each to a control of its own, and counts those that succeed. -/
def bindEach (bindings : Bindings α) :
    List (KeySlot × Scancode) → Bindings α × Nat × List BindingNotice
  | [] => (bindings, 0, [])
  | (slot, scancode) :: rest =>
    let (next, bound, notices) := bindings.bind (.key scancode) slot.name
    let (last, count, more) := next.bindEach rest
    (last, (if bound then 1 else 0) + count, notices ++ more)

/-- Binds every fixed key to the control with the name of its slot. -/
def bindKeys (bindings : Bindings α) (keys : Keys) : Bindings α × Nat × List BindingNotice :=
  bindings.bindEach keys.filled

/-- Frees an input, and says whether it has a place. -/
def unbind (bindings : Bindings α) (input : Input) : Bindings α × Bool :=
  ({ bindings with tables := bindings.tables.put input none }, Tables.hasPlace input)

/-- Frees every input. The controls stay registered. -/
def reset (bindings : Bindings α) : Bindings α :=
  { bindings with tables := .empty }

/-- The name of the control that an input drives. -/
def boundTo? (bindings : Bindings α) (input : Input) : Option String :=
  (bindings.tables.driven? input).bind bindings.controlName?

/-- Delivers an event to the control that its input drives, if there is one. The device of the
event is now the one used last. -/
def fire (bindings : Bindings α) (event : DeviceEvent) : Bindings α × List (Occurrence α) :=
  let driven := (bindings.tables.driven? event.input).bind fun id =>
    bindings.controls[id.position]?
  ({ bindings with mode := event.device },
    driven.toList.map fun control => .delivered control.control event.state)

/-- Gives up the table with all its controls. -/
def close (bindings : Bindings α) : List (Occurrence α) :=
  bindings.controls.map fun control => .dropped control.control

/-- The inputs that drive a control. -/
def inputsOf (bindings : Bindings α) (id : ControlId) : List Input :=
  (bindings.tables.bound.filter (·.2 == id)).map (·.1)

/-- The inputs that drive the control of a name, for the screen. Those of the device used last
are listed, or if there are none the others. -/
def describe (bindings : Bindings α) (name : String) : Option String :=
  (bindings.controlId? name).bind fun id =>
    let (controller, keyboardMouse) := (bindings.inputsOf id).partition Input.isController
    let (preferred, others) :=
      match bindings.mode with
      | .keyboardMouse => (keyboardMouse, controller)
      | .controller => (controller, keyboardMouse)
    let chosen := if preferred.isEmpty then others else preferred
    if chosen.isEmpty then none else some ("/".intercalate (chosen.map Input.text))

/-- A short text about the table. -/
def summary (bindings : Bindings α) : String :=
  "Bindings \x7b controls: " ++ Text.quotedList bindings.controlNames ++
    ", bound_inputs: " ++ toString bindings.tables.bound.length ++ ", mode: " ++
    bindings.mode.name ++ " \x7d"

end Bindings

end GameSetup
