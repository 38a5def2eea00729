import GameSetup.Input.Scancode

/-!
# Inputs and device events

An input is a key, a mouse button, or a button or axis of a game controller. A device event says
what happened to an input, and carries the state that it delivers to whatever is bound there.
-/

namespace GameSetup

/-- Something that can be bound. -/
inductive Input where
  | key (scancode : Scancode)
  | mouseButton (button : UInt8)
  | controllerButton (button : UInt8)
  | controllerAxis (axis : UInt8)
  /-- No input at all. -/
  | invalid
  deriving DecidableEq, Repr

/-- The kind of device that an input belongs to. -/
inductive DeviceClass where
  | keyboardMouse
  | controller
  deriving DecidableEq, Repr

/-- The name of a kind of device. -/
def DeviceClass.name : DeviceClass → String
  | .keyboardMouse => "KeyboardMouse"
  | .controller => "Controller"

/-- The device in use before any event. -/
def DeviceClass.initial : DeviceClass := .keyboardMouse

/-- Buttons of a mouse that have a name. -/
structure MouseNumbers where
  left : UInt8
  middle : UInt8
  right : UInt8

/-- The numbers of the named mouse buttons. -/
def mouseNumbers : MouseNumbers := ⟨1, 2, 3⟩

namespace Input

/-- Whether there is an input. -/
def isValid (input : Input) : Bool :=
  input != .invalid

/-- Whether the input belongs to a game controller. -/
def isController : Input → Bool
  | .controllerButton _ => true
  | .controllerAxis _ => true
  | _ => false

/-- What an input is called on the screen. -/
def text : Input → String
  | .key scancode => scancode.text
  | .mouseButton button =>
    if button = mouseNumbers.left then "Left Mouse Button"
    else if button = mouseNumbers.middle then "Middle Mouse Button"
    else if button = mouseNumbers.right then "Right Mouse Button"
    else "Mouse Button " ++ toString button.toNat
  | .controllerButton button => "Controller Button " ++ toString button.toNat
  | .controllerAxis axis => "Controller Axis " ++ toString axis.toNat
  | .invalid => "Invalid"

end Input

/-- The state of a control whose input is released. -/
def released : Int16 := 0

/-- The state of a control whose input is fully pressed. -/
def active : Int16 := 0x7fff

/-- What happened to an input. -/
inductive DeviceEvent where
  | key (scancode : Scancode) (pressed : Bool)
  | mouseButton (button : UInt8) (pressed : Bool)
  | controllerButton (button : UInt8) (pressed : Bool)
  | controllerAxis (axis : UInt8) (value : Int16)
  deriving DecidableEq, Repr

namespace DeviceEvent

/-- The input that an event comes from. -/
def input : DeviceEvent → Input
  | .key scancode _ => .key scancode
  | .mouseButton button _ => .mouseButton button
  | .controllerButton button _ => .controllerButton button
  | .controllerAxis axis _ => .controllerAxis axis

/-- The state that an event delivers. The least value of an axis has no positive counterpart and
is raised by one. -/
def state : DeviceEvent → Int16
  | .key _ pressed => if pressed then active else released
  | .mouseButton _ pressed => if pressed then active else released
  | .controllerButton _ pressed => if pressed then active else released
  | .controllerAxis _ value => if value < -active then -active else value

/-- The kind of device that an event comes from. -/
def device (event : DeviceEvent) : DeviceClass :=
  if event.input.isController then .controller else .keyboardMouse

end DeviceEvent

end GameSetup
