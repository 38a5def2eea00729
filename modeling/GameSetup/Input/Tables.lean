import GameSetup.Input.Device

/-!
# Lookup tables

Four tables, one per kind of input, whose places hold the control that an input drives. The
keyboard table has a place for every scancode in use, the others are as long as the devices
need. Inputs beyond a table's end have no place.
-/

namespace GameSetup

/-- A registered control, by its position. -/
structure ControlId where
  position : Nat
  deriving DecidableEq, Repr

/-- Places for the mouse buttons. -/
def mouseButtonCount : Nat := 32

/-- Places for the buttons of a controller. -/
def controllerButtonCount : Nat := 32

/-- Places for the axes of a controller. -/
def controllerAxisCount : Nat := 16

/-- What every input drives. -/
structure Tables where
  keys : Vector (Option ControlId) Scancode.count
  mouseButtons : Vector (Option ControlId) mouseButtonCount
  controllerButtons : Vector (Option ControlId) controllerButtonCount
  controllerAxes : Vector (Option ControlId) controllerAxisCount
  deriving DecidableEq, Repr

namespace Tables

/-- Nothing is bound. -/
def empty : Tables where
  keys := Vector.replicate _ none
  mouseButtons := Vector.replicate _ none
  controllerButtons := Vector.replicate _ none
  controllerAxes := Vector.replicate _ none

/-- The place of an input, if it has one, and what is there. -/
def place? (tables : Tables) : Input → Option (Option ControlId)
  | .key scancode => tables.keys[scancode.index]?
  | .mouseButton button => tables.mouseButtons[button.toNat]?
  | .controllerButton button => tables.controllerButtons[button.toNat]?
  | .controllerAxis axis => tables.controllerAxes[axis.toNat]?
  | .invalid => none

/-- What an input drives. -/
def driven? (tables : Tables) (input : Input) : Option ControlId :=
  (tables.place? input).join

/-- Puts something into the place of an input. An input without a place changes nothing. -/
def put (tables : Tables) (input : Input) (content : Option ControlId) : Tables :=
  match input with
  | .key scancode => { tables with keys := tables.keys.setIfInBounds scancode.index content }
  | .mouseButton button =>
    { tables with mouseButtons := tables.mouseButtons.setIfInBounds button.toNat content }
  | .controllerButton button =>
    { tables with
      controllerButtons := tables.controllerButtons.setIfInBounds button.toNat content }
  | .controllerAxis axis =>
    { tables with controllerAxes := tables.controllerAxes.setIfInBounds axis.toNat content }
  | .invalid => tables

/-- Whether an input has a place. -/
def hasPlace (input : Input) : Bool :=
  match input with
  | .key scancode => scancode.index < Scancode.count
  | .mouseButton button => button.toNat < mouseButtonCount
  | .controllerButton button => button.toNat < controllerButtonCount
  | .controllerAxis axis => axis.toNat < controllerAxisCount
  | .invalid => false

/-- The filled places of one table, as inputs. -/
def filledPlaces (input : Nat → Input) (places : List (Option ControlId)) :
    List (Input × ControlId) :=
  places.zipIdx.filterMap fun (content, position) => content.map (input position, ·)

/-- Every bound input with what it drives, table by table. -/
def bound (tables : Tables) : List (Input × ControlId) :=
  filledPlaces (fun code => .key ⟨UInt16.ofNat code⟩) tables.keys.toList ++
    filledPlaces (fun button => .mouseButton (UInt8.ofNat button)) tables.mouseButtons.toList ++
    filledPlaces (fun button => .controllerButton (UInt8.ofNat button))
      tables.controllerButtons.toList ++
    filledPlaces (fun axis => .controllerAxis (UInt8.ofNat axis)) tables.controllerAxes.toList

/-- What was put into the place of an input is there. -/
theorem place?_put_self (tables : Tables) {input : Input} (content : Option ControlId)
    (h : hasPlace input = true) : (tables.put input content).place? input = some content := by
  cases input <;> simp_all [hasPlace, put, place?]

/-- An input has a place exactly when it lies within its table. -/
theorem isSome_place? (tables : Tables) (input : Input) :
    (tables.place? input).isSome = hasPlace input := by
  cases input <;> simp [place?, hasPlace, getElem?_def] <;> split <;> simp_all

end Tables

end GameSetup
