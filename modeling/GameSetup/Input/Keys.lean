import GameSetup.Input.KeyName
import GameSetup.Input.Notice

/-!
# Fixed keys

Twelve slots, for movement, its alternates and four buttons, each of which holds one key or
none. A slot's name is read without regard to the case of basic letters and to underscores.
-/

namespace GameSetup

/-- A slot for one key. -/
inductive KeySlot where
  | left
  | left2
  | right
  | right2
  | up
  | up2
  | down
  | down2
  | b1
  | b2
  | b3
  | b4
  deriving DecidableEq, Repr

namespace KeySlot

/-- All slots, in order. -/
def all : List KeySlot :=
  [.left, .left2, .right, .right2, .up, .up2, .down, .down2, .b1, .b2, .b3, .b4]

/-- The name of a slot, which is also that of the control it drives. -/
def name : KeySlot → String
  | .left => "left"
  | .left2 => "left2"
  | .right => "right"
  | .right2 => "right2"
  | .up => "up"
  | .up2 => "up2"
  | .down => "down"
  | .down2 => "down2"
  | .b1 => "b1"
  | .b2 => "b2"
  | .b3 => "b3"
  | .b4 => "b4"

/-- A name in small letters and without underscores. -/
def plainName (name : String) : List Char :=
  (name.toList.map Char.toLower).filter (· != '_')

/-- The slot into which a key is put under a name. -/
def ofName? (name : String) : Option KeySlot :=
  match String.ofList (plainName name) with
  | "left" => some .left
  | "left2" => some .left2
  | "right" => some .right
  | "right2" => some .right2
  | "up" => some .up
  | "up2" => some .up2
  | "down" => some .down
  | "down2" => some .down2
  | "b1" => some .b1
  | "b2" => some .b2
  | "b3" => some .b3
  | "b4" => some .b4
  | _ => none

/-- Every slot is listed. -/
theorem mem_all (slot : KeySlot) : slot ∈ all := by
  cases slot <;> decide

/-- A slot is found under its own name. -/
theorem ofName?_name (slot : KeySlot) : ofName? slot.name = some slot := by
  cases slot <;> decide

end KeySlot

/-- The keys in the slots. -/
structure Keys where
  key? : KeySlot → Option Scancode

namespace Keys

/-- The arrow keys, with the left hand's letters as alternates. -/
def initial : Keys where
  key?
    | .left => some ⟨80⟩
    | .left2 => some ⟨4⟩
    | .right => some ⟨79⟩
    | .right2 => some ⟨7⟩
    | .up => some ⟨82⟩
    | .up2 => some ⟨26⟩
    | .down => some ⟨81⟩
    | .down2 => some ⟨22⟩
    | .b1 => none
    | .b2 => none
    | .b3 => some ⟨228⟩
    | .b4 => some ⟨73⟩

/-- The key that is found under a name. -/
def get? (keys : Keys) (name : String) : Option Scancode :=
  match String.ofList (KeySlot.plainName name) with
  | "left" => keys.key? .left
  | "left2" => keys.key? .left2
  | "right" => keys.key? .right
  | "right2" => keys.key? .right2
  | "up" => keys.key? .up
  | "up2" => keys.key? .up2
  | "down" => keys.key? .down
  | "down2" => keys.key? .down2
  | "b1" => keys.key? .b1
  | "b2" => keys.key? .b2
  | "b3" => keys.key? .b3
  | "b4" => keys.key? .b4
  | _ => none

/-- A key is found under a name in the slot into which it would be put under that name. -/
theorem get?_eq (keys : Keys) (name : String) :
    keys.get? name = (KeySlot.ofName? name).bind keys.key? := by
  rw [get?, KeySlot.ofName?]
  split <;> rfl

/-- Puts a key into a slot. -/
def put (keys : Keys) (slot : KeySlot) (scancode : Scancode) : Keys :=
  ⟨fun other => if other = slot then some scancode else keys.key? other⟩

/-- A slot holds what was put there last, and keeps it when another is filled. -/
theorem key?_put (keys : Keys) (slot other : KeySlot) (scancode : Scancode) :
    (keys.put slot scancode).key? other =
      if other = slot then some scancode else keys.key? other := rfl

/-- Puts the key of one name into the slot of another, and says whether both are known. -/
def set (keys : Keys) (slotName keyName : String) : Keys × Bool × List BindingNotice :=
  match KeyName.read keyName with
  | none => (keys, false, [.unknownKeyForSlot keyName slotName])
  | some scancode =>
    match KeySlot.ofName? slotName with
    | none => (keys, false, [.unknownSlot slotName])
    | some slot => (keys.put slot scancode, true, [])

/-- The keys of the filled slots, in order. -/
def filled (keys : Keys) : List (KeySlot × Scancode) :=
  KeySlot.all.filterMap fun slot => (keys.key? slot).map (slot, ·)

end Keys

end GameSetup
