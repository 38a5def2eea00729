import GameSetup.Setting.Value

/-!
# Settings

A setting holds a value that the user can change and the default that it returns to. A ranged
setting also has bounds, and rejects what lies outside them; its default is not checked. A
rejected text changes nothing.
-/

namespace GameSetup

/-- A value with its default. -/
structure Setting (α : Type) where
  /-- The value in the absence of user input. -/
  initial : α
  /-- The value in effect. -/
  value : α
  /-- Whether the value in effect was read from user input. -/
  userSet : Bool
  /-- What a written configuration says about the setting. -/
  description : String
  deriving DecidableEq, Repr

namespace Setting

variable {α : Type}

/-- A setting at its default. -/
def fresh (initial : α) (description : String) : Setting α :=
  ⟨initial, initial, false, description⟩

/-- Takes over a value that the user gave. -/
def assign (setting : Setting α) (value : α) : Setting α :=
  { setting with value := value, userSet := true }

/-- Returns to the default and forgets that the user gave a value. -/
def reset (setting : Setting α) : Setting α :=
  { setting with value := setting.initial, userSet := false }

/-- A setting that was never assigned is not changed by a reset. -/
@[simp] theorem reset_fresh (initial : α) (description : String) :
    (fresh initial description).reset = fresh initial description := rfl

/-- A reset undoes an assignment. -/
@[simp] theorem reset_assign (setting : Setting α) (value : α) :
    (setting.assign value).reset = setting.reset := rfl

variable [SettingValue α]

/-- Reads a text into the setting. -/
def read (setting : Setting α) (text : String) : Except Rejection (Setting α) :=
  (SettingValue.read text).map setting.assign

/-- The canonical text of the value in effect. -/
def valueText (setting : Setting α) : String :=
  SettingValue.text setting.value

/-- The canonical text of the default. -/
def defaultText (setting : Setting α) : String :=
  SettingValue.text setting.initial

end Setting

/-- A setting that accepts only the values between two bounds, both included. -/
structure RangedSetting (α : Type) extends Setting α where
  /-- The least accepted value. -/
  least : α
  /-- The greatest accepted value. -/
  greatest : α
  deriving DecidableEq, Repr

namespace RangedSetting

variable {α : Type}

/-- Returns to the default; the bounds stay. -/
def reset (setting : RangedSetting α) : RangedSetting α :=
  { setting with toSetting := setting.toSetting.reset }

variable [LE α] [DecidableLE α]

/-- A ranged setting at its default. The bounds may come in either order. -/
def fresh (initial bound other : α) (description : String) : RangedSetting α :=
  if bound ≤ other then ⟨Setting.fresh initial description, bound, other⟩
  else ⟨Setting.fresh initial description, other, bound⟩

variable [SettingValue α]

/-- Reads a text into the setting if its value lies within the bounds. -/
def read (setting : RangedSetting α) (text : String) : Except Rejection (RangedSetting α) := do
  let value ← SettingValue.read text
  if setting.least ≤ value ∧ value ≤ setting.greatest then
    .ok { setting with toSetting := setting.toSetting.assign value }
  else
    .error (.outsideBounds (SettingValue.text setting.least) (SettingValue.text setting.greatest))

end RangedSetting

end GameSetup
