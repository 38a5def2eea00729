import GameSetup.Proofs.Setting.Acceptance
import Mathlib.Data.Bool.Basic
import Mathlib.Data.List.DropRight

/-!
# What a setting holds

A setting is declared with a default, and perhaps with two bounds. Then texts are read into it, and
now and then it is reset. Of all this only one thing counts: the last value that was taken over
since the last reset. It says what the setting holds, and with the declaration it says everything.

A default is not checked, so it may lie outside the bounds. What was taken over never does.
-/

namespace GameSetup

/-- What can be done to a setting. -/
inductive SettingStep where
  | read (text : String)
  | reset
  deriving DecidableEq, Repr

/-- The text that a step reads. -/
def SettingStep.text? : SettingStep → Option String
  | .read text => some text
  | .reset => none

/-- The texts that were read since the last reset, or from the first step on. -/
def textsSinceReset (steps : List SettingStep) : List String :=
  (steps.rtakeWhile (·.text?.isSome)).filterMap SettingStep.text?

/-- A text that is read comes last. -/
theorem textsSinceReset_read (steps : List SettingStep) (text : String) :
    textsSinceReset (steps ++ [.read text]) = textsSinceReset steps ++ [text] := by
  rw [textsSinceReset, List.rtakeWhile_concat_pos _ _ _ rfl, List.filterMap_append]
  rfl

/-- After a reset there are none. -/
theorem textsSinceReset_reset (steps : List SettingStep) :
    textsSinceReset (steps ++ [.reset]) = [] := by
  rw [textsSinceReset, List.rtakeWhile_concat_neg _ _ _ Bool.false_ne_true]
  rfl

/-- A plain setting takes over every value. -/
theorem Setting.toOption_read {α : Type} [SettingValue α] (setting : Setting α) (text : String) :
    (setting.read text).toOption = (SettingValue.read text).toOption.map setting.assign :=
  toOption_map _ _

/-- A ranged setting takes over the values within its bounds. -/
theorem RangedSetting.toOption_read {α : Type} [LE α] [DecidableLE α] [SettingValue α]
    (setting : RangedSetting α) (text : String) :
    (setting.read text).toOption =
      ((SettingValue.read text).toOption.filter fun value =>
        setting.least ≤ value ∧ value ≤ setting.greatest).map fun value =>
          { setting with toSetting := setting.toSetting.assign value } := by
  rw [read]
  cases (SettingValue.read text : Except Rejection α) with
  | error cause => rfl
  | ok value =>
    rw [ok_bind, Except.toOption, Option.filter_some]
    split
    · next hwithin => rw [if_pos (decide_eq_true hwithin)]; rfl
    · next hoff => rw [if_neg (by simpa using hoff)]; rfl

/-- A setting without bounds, or one whose values have an order and bounds. -/
inductive SettingForm (α : Type) where
  | plain (setting : Setting α)
  | ranged [LE α] [DecidableLE α] (setting : RangedSetting α)

namespace SettingForm

variable {α : Type}

/-- The setting without its bounds. -/
def setting : SettingForm α → Setting α
  | .plain setting => setting
  | @ranged _ _ _ setting => setting.toSetting

/-- The least and the greatest accepted value. -/
def bounds? : SettingForm α → Option (α × α)
  | .plain _ => none
  | @ranged _ _ _ setting => some (setting.least, setting.greatest)

/-- The bounds come in their order. -/
def Ordered : SettingForm α → Prop
  | .plain _ => True
  | @ranged _ _ _ setting => setting.least ≤ setting.greatest

/-- Returns to the default. -/
def reset : SettingForm α → SettingForm α
  | .plain setting => .plain setting.reset
  | @ranged _ _ _ setting => .ranged setting.reset

variable [SettingValue α]

/-- Reads a text. -/
def read : SettingForm α → String → Except Rejection (SettingForm α)
  | .plain setting, text => (setting.read text).map .plain
  | @ranged _ _ _ setting, text => (setting.read text).map .ranged

/-- The setting after a step. A text that is rejected leaves it as it is. -/
def apply (form : SettingForm α) : SettingStep → SettingForm α
  | .read text =>
    match form.read text with
    | .ok next => next
    | .error _ => form
  | .reset => form.reset

/-- The setting after some steps. -/
def run (form : SettingForm α) (steps : List SettingStep) : SettingForm α :=
  steps.foldl apply form

end SettingForm

/-- The declaration of a setting: its default and its description, and for a setting with bounds
the two of them, in either order. -/
inductive SettingDeclaration (α : Type) where
  | plain (initial : α) (description : String)
  | ranged [LE α] [DecidableLE α] [Std.IsLinearOrder α] (initial bound other : α)
      (description : String)

namespace SettingDeclaration

variable {α : Type}

/-- The value in the absence of user input. -/
def initial : SettingDeclaration α → α
  | .plain initial _ => initial
  | @ranged _ _ _ _ initial _ _ _ => initial

/-- What a written configuration says about the setting. -/
def description : SettingDeclaration α → String
  | .plain _ description => description
  | @ranged _ _ _ _ _ _ _ description => description

/-- The declared bounds, the lesser one first. -/
def bounds? : SettingDeclaration α → Option (α × α)
  | .plain _ _ => none
  | @ranged _ _ _ _ _ bound other _ =>
    some (if bound ≤ other then (bound, other) else (other, bound))

/-- Whether a value lies between the bounds, whichever of them comes first. -/
def Allows : SettingDeclaration α → α → Prop
  | .plain _ _, _ => True
  | @ranged _ _ _ _ _ bound other _, value =>
    bound ≤ value ∧ value ≤ other ∨ other ≤ value ∧ value ≤ bound

instance (declaration : SettingDeclaration α) : DecidablePred declaration.Allows :=
  match declaration with
  | .plain _ _ => fun _ => inferInstanceAs (Decidable True)
  | @ranged _ _ _ _ _ bound other _ => fun value =>
    inferInstanceAs (Decidable (bound ≤ value ∧ value ≤ other ∨ other ≤ value ∧ value ≤ bound))

/-- The same declaration with the bounds the other way round. -/
def swap : SettingDeclaration α → SettingDeclaration α
  | .plain initial description => .plain initial description
  | @ranged _ _ _ _ initial bound other description => .ranged initial other bound description

/-- The setting as it is declared. -/
def fresh : SettingDeclaration α → SettingForm α
  | .plain initial description => .plain (.fresh initial description)
  | @ranged _ _ _ _ initial bound other description =>
    .ranged (.fresh initial bound other description)

/-- The setting when it holds a value that was taken over, or when it holds none. -/
def holding (declaration : SettingDeclaration α) (held : Option α) : SettingForm α :=
  let setting : Setting α :=
    ⟨declaration.initial, held.getD declaration.initial, held.isSome, declaration.description⟩
  match declaration with
  | .plain _ _ => .plain setting
  | @ranged _ _ _ _ initial bound other description =>
    .ranged { RangedSetting.fresh initial bound other description with toSetting := setting }

/-- A setting that was only declared holds nothing. -/
theorem fresh_eq (declaration : SettingDeclaration α) :
    declaration.fresh = declaration.holding none := by
  cases declaration with
  | plain initial description => rfl
  | ranged initial bound other description =>
    rw [fresh, holding, RangedSetting.fresh]
    split <;> rfl

/-- A reset forgets what was taken over. -/
theorem reset_holding (declaration : SettingDeclaration α) (held : Option α) :
    (declaration.holding held).reset = declaration.holding none := by
  cases declaration <;> rfl

/-- What is declared stays, whatever is held. -/
theorem declared_holding (declaration : SettingDeclaration α) (held : Option α) :
    (declaration.holding held).setting =
        ⟨declaration.initial, held.getD declaration.initial, held.isSome, declaration.description⟩ ∧
      (declaration.holding held).bounds? = declaration.bounds? := by
  cases declaration with
  | plain initial description => exact ⟨rfl, rfl⟩
  | ranged initial bound other description =>
    refine ⟨rfl, ?_⟩
    rw [holding, SettingForm.bounds?, bounds?, RangedSetting.fresh]
    split <;> rfl

/-- The bounds are put in order. -/
theorem ordered_holding (declaration : SettingDeclaration α) (held : Option α) :
    (declaration.holding held).Ordered := by
  cases declaration with
  | plain initial description => exact trivial
  | ranged initial bound other description =>
    change (RangedSetting.fresh initial bound other description).least ≤
      (RangedSetting.fresh initial bound other description).greatest
    rw [RangedSetting.fresh]
    split
    · next hle => exact hle
    · next hnot => exact Std.le_of_not_ge hnot

/-- It does not matter which bound comes first. -/
theorem fresh_swap (declaration : SettingDeclaration α) :
    declaration.swap.fresh = declaration.fresh := by
  cases declaration with
  | plain initial description => rfl
  | ranged initial bound other description =>
    rw [swap, fresh, fresh, RangedSetting.fresh, RangedSetting.fresh]
    by_cases hle : bound ≤ other
    · rw [if_pos hle]
      split
      · next hge => rw [Std.le_antisymm hle hge]
      · rfl
    · rw [if_neg hle, if_pos (Std.le_of_not_ge hle)]

/-- The bounds of the setting let through what lies between those of the declaration. -/
theorem allows_iff [LE α] [DecidableLE α] [Std.IsLinearOrder α] {initial bound other value : α}
    {description : String} :
    (ranged initial bound other description).Allows value ↔
      (RangedSetting.fresh initial bound other description).least ≤ value ∧
        value ≤ (RangedSetting.fresh initial bound other description).greatest := by
  rw [Allows, RangedSetting.fresh]
  split
  · next hle =>
    refine ⟨fun h => h.elim id fun hother => ?_, .inl⟩
    exact ⟨Std.le_trans hle hother.1, Std.le_trans hother.2 hle⟩
  · next hnot =>
    have hle := Std.le_of_not_ge hnot
    refine ⟨fun h => h.elim (fun hbound => ?_) id, .inr⟩
    exact ⟨Std.le_trans hle hbound.1, Std.le_trans hbound.2 hle⟩

variable [SettingValue α]

/-- The value that a text stands for, if the declaration allows it. -/
def accepted? (declaration : SettingDeclaration α) (text : String) : Option α :=
  (SettingValue.read text).toOption.filter (declaration.Allows ·)

/-- The last value that was taken over since the last reset. -/
def lastAccepted? (declaration : SettingDeclaration α) (steps : List SettingStep) : Option α :=
  ((textsSinceReset steps).filterMap declaration.accepted?).getLast?

/-- A text is accepted if it is read as a value that is allowed. -/
theorem accepted?_eq_some_iff {declaration : SettingDeclaration α} {text : String} {value : α} :
    declaration.accepted? text = some value ↔
      SettingValue.read text = .ok value ∧ declaration.Allows value := by
  rw [accepted?, Option.filter_eq_some_iff, decide_eq_true_iff]
  refine and_congr_left' ⟨eq_ok_of_toOption_eq_some, fun h => ?_⟩
  rw [h]
  rfl

/-- Reading a text takes over its value, or fails if there is none that the declaration allows. -/
theorem read_holding (declaration : SettingDeclaration α) (held : Option α) (text : String) :
    ((declaration.holding held).read text).toOption =
      (declaration.accepted? text).map fun value => declaration.holding (some value) := by
  cases declaration with
  | plain initial description =>
    rw [holding, SettingForm.read, toOption_map, Setting.toOption_read, accepted?]
    cases (SettingValue.read text : Except Rejection α) <;> rfl
  | ranged initial bound other description =>
    simp only [accepted?, allows_iff]
    rw [holding, SettingForm.read, toOption_map, RangedSetting.toOption_read, Option.map_map]
    rfl

/-- What is held after one more text. -/
theorem lastAccepted?_read (declaration : SettingDeclaration α) (steps : List SettingStep)
    (text : String) :
    declaration.lastAccepted? (steps ++ [.read text]) =
      (declaration.accepted? text).or (declaration.lastAccepted? steps) := by
  rw [lastAccepted?, textsSinceReset_read, Text.getLast?_filterMap_concat, lastAccepted?]

/-- Nothing is held after a reset. -/
theorem lastAccepted?_reset (declaration : SettingDeclaration α) (steps : List SettingStep) :
    declaration.lastAccepted? (steps ++ [.reset]) = none := by
  rw [lastAccepted?, textsSinceReset_reset]
  rfl

/-- A step from a setting that holds a value or none. -/
theorem apply_read_holding (declaration : SettingDeclaration α) (held : Option α) (text : String) :
    (declaration.holding held).apply (.read text) =
      declaration.holding ((declaration.accepted? text).or held) := by
  have hread := declaration.read_holding held text
  rw [SettingForm.apply]
  cases hresult : (declaration.holding held).read text with
  | error cause =>
    rw [hresult] at hread
    rw [Option.map_eq_none_iff.mp hread.symm, Option.none_or]
  | ok next =>
    rw [hresult] at hread
    obtain ⟨value, hvalue, rfl⟩ := Option.map_eq_some_iff.mp hread.symm
    rw [hvalue, Option.some_or]

/-- After any steps the setting holds the last value that was taken over since the last reset. The
induction is on the steps from their end, since the last ones count. -/
theorem run_fresh (declaration : SettingDeclaration α) (steps : List SettingStep) :
    declaration.fresh.run steps = declaration.holding (declaration.lastAccepted? steps) := by
  induction steps using List.reverseRecOn with
  | nil => exact declaration.fresh_eq
  | append_singleton steps step ih =>
    have hrun : declaration.fresh.run (steps ++ [step]) =
        (declaration.fresh.run steps).apply step := List.foldl_append
    rw [hrun, ih]
    cases step with
    | read text => rw [apply_read_holding, lastAccepted?_read]
    | reset => rw [SettingForm.apply, reset_holding, lastAccepted?_reset]

/-- What is promised of a setting that was declared and has gone through some steps. -/
structure Remembers (declaration : SettingDeclaration α) (steps : List SettingStep)
    (now : SettingForm α) : Prop where
  /-- It holds the value of the last text that was accepted since the last reset, or else its
  default. -/
  value : now.setting.value = (declaration.lastAccepted? steps).getD declaration.initial
  /-- It says whether there was such a text. -/
  userSet : now.setting.userSet = (declaration.lastAccepted? steps).isSome
  /-- A text is accepted exactly if it stands for a value that lies between the bounds. -/
  accepts : ∀ text, (∃ next, now.read text = .ok next) ↔
    ∃ value, SettingValue.read text = .ok value ∧ declaration.Allows value
  /-- Any other text changes nothing. -/
  refuses : ∀ text, (¬∃ value, SettingValue.read text = .ok value ∧ declaration.Allows value) →
    now.apply (.read text) = now
  /-- The default stays. -/
  initial : now.setting.initial = declaration.initial
  /-- So does the description. -/
  description : now.setting.description = declaration.description
  /-- And so do the bounds. -/
  bounds : now.bounds? = declaration.bounds?
  /-- The lesser bound comes first. -/
  ordered : now.Ordered
  /-- A value that the user gave lies between the bounds, wherever the default lies. -/
  within : now.setting.userSet = true → declaration.Allows now.setting.value
  /-- It does not matter which bound was given first. -/
  swapped : declaration.swap.fresh.run steps = now

/-- What was taken over lies between the bounds. -/
theorem allows_of_lastAccepted? {declaration : SettingDeclaration α} {steps : List SettingStep}
    {value : α} (h : declaration.lastAccepted? steps = some value) : declaration.Allows value := by
  obtain ⟨text, -, haccepted⟩ := List.mem_filterMap.mp (List.mem_of_getLast? h)
  exact (accepted?_eq_some_iff.mp haccepted).2

/-- A setting that holds a value or none accepts what the declaration accepts. -/
theorem exists_read_holding_iff (declaration : SettingDeclaration α) (held : Option α)
    (text : String) :
    (∃ next, (declaration.holding held).read text = .ok next) ↔
      ∃ value, declaration.accepted? text = some value := by
  have hread := declaration.read_holding held text
  constructor
  · rintro ⟨next, hnext⟩
    rw [hnext] at hread
    obtain ⟨value, hvalue, -⟩ := Option.map_eq_some_iff.mp hread.symm
    exact ⟨value, hvalue⟩
  · rintro ⟨value, hvalue⟩
    rw [hvalue] at hread
    exact ⟨_, eq_ok_of_toOption_eq_some hread⟩

/-- Whatever is read into a setting and however often it is reset, it holds the last value that was
accepted since the last reset, or else its default. Nothing else about it ever changes. -/
theorem run_remembers_lastAccepted (declaration : SettingDeclaration α)
    (steps : List SettingStep) : declaration.Remembers steps (declaration.fresh.run steps) := by
  obtain ⟨hsetting, hbounds⟩ := declaration.declared_holding (declaration.lastAccepted? steps)
  rw [run_fresh]
  refine { value := ?_, userSet := ?_, accepts := fun text => ?_, refuses := fun text hnone => ?_,
           initial := ?_, description := ?_, bounds := hbounds,
           ordered := declaration.ordered_holding _, within := fun huser => ?_, swapped := ?_ }
  · rw [hsetting]
  · rw [hsetting]
  · simp only [exists_read_holding_iff, accepted?_eq_some_iff]
  · have hrejected : declaration.accepted? text = none :=
      Option.eq_none_iff_forall_ne_some.mpr fun value hvalue =>
        hnone ⟨value, accepted?_eq_some_iff.mp hvalue⟩
    rw [apply_read_holding, hrejected, Option.none_or]
  · rw [hsetting]
  · rw [hsetting]
  · rw [hsetting] at huser ⊢
    obtain ⟨value, hvalue⟩ := Option.isSome_iff_exists.mp huser
    rw [hvalue]
    exact allows_of_lastAccepted? hvalue
  · rw [fresh_swap, run_fresh]

example :
    let setting := (ranged (12 : Int32) 10 0 "Monitor to use").fresh.run
      [.read "3", .reset, .read "4", .read "11", .read "four"]
    setting.setting.value = 4 ∧ setting.bounds? = some (0, 10) := by
  decide

example :
    ((ranged false true true "Always on").fresh.run [.read "no"]).setting.userSet = false ∧
      ((ranged "sound" "n" "a" "Device").fresh.run [.read "card", .read "port"]).setting.value =
        "card" := by
  decide

end SettingDeclaration

end GameSetup
