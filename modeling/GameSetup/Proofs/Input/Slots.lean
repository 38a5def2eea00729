import GameSetup.Input.Keys
import GameSetup.Proofs.Input.KeyName
import GameSetup.Proofs.Text.Runs
import Mathlib.Data.List.Induction

/-!
# What the slots hold

Keys are put into the slots one after another. A slot can be written in many ways, with capitals and
with underscores, but what counts is its plain name, both where a key is put and where it is looked
up. So a name finds the key that was put last under any name that reads alike, and nothing that was
put under another.

Whatever is put into a slot has a scancode that the keyboard table has room for.
-/

namespace GameSetup

namespace KeySlot

/-- The names of the slots, in order. -/
def names : List String :=
  all.map name

/-- Whether a name stands for a slot, once it is in small letters and without underscores. -/
def IsName (name : String) : Prop :=
  String.ofList (plainName name) ∈ names

instance (name : String) : Decidable (IsName name) :=
  inferInstanceAs (Decidable (String.ofList (plainName name) ∈ names))

/-- A name stands for the slot that has it as its plain name. -/
theorem ofName?_eq_some_iff {name : String} {slot : KeySlot} :
    ofName? name = some slot ↔ String.ofList (plainName name) = slot.name := by
  constructor
  · intro h
    rw [ofName?] at h
    split at h
    case h_13 => cases h
    all_goals
      next hname =>
      obtain rfl := Option.some.inj h
      exact hname
  · intro h
    rw [ofName?, h]
    cases slot <;> rfl

/-- Names that read alike stand for the same slot. -/
theorem ofName?_congr {name other : String} (h : plainName name = plainName other) :
    ofName? name = ofName? other := by
  rw [ofName?, ofName?, h]

/-- Names of the same slot read alike. -/
theorem plainName_eq_of_ofName? {name other : String} {slot : KeySlot}
    (h : ofName? name = some slot) (hother : ofName? other = some slot) :
    plainName name = plainName other :=
  String.ofList_injective
    ((ofName?_eq_some_iff.mp h).trans (ofName?_eq_some_iff.mp hother).symm)

/-- The names of the slots are those under which keys can be put. -/
theorem isName_iff {name : String} : IsName name ↔ ∃ slot, ofName? name = some slot := by
  rw [IsName, names, List.mem_map]
  refine exists_congr fun slot => ?_
  rw [ofName?_eq_some_iff, and_iff_right (mem_all slot), eq_comm]

end KeySlot

open KeySlot

/-- What an attempt to put a key into a slot comes to. -/
structure PutsKey (before : Keys) (slotName keyName : String) (after : Keys) (done : Bool) :
    Prop where
  /-- Both names have to be known. -/
  done_iff : done = true ↔ (KeyName.read keyName).isSome = true ∧ IsName slotName
  /-- The key is found under every name that reads like that of the slot. -/
  get?_alike : done = true → ∀ name, plainName name = plainName slotName →
    after.get? name = KeyName.read keyName
  /-- Under any other name the same is found as before. -/
  get?_other : ∀ name, plainName name ≠ plainName slotName → after.get? name = before.get? name
  /-- Without success, no slot changes. -/
  unchanged : done = false → after = before

namespace Keys

variable (keys : Keys)

/-- The key that a call puts where a name finds it, if it puts any there. -/
def putUnder? (name : String) : String × String → Option Scancode
  | (slotName, keyName) =>
    if IsName slotName ∧ plainName slotName = plainName name then KeyName.read keyName else none

/-- The keys after calls that follow one another, each with the name of a slot and that of a key. -/
def setAll (calls : List (String × String)) : Keys :=
  calls.foldl (fun keys (slotName, keyName) => (keys.set slotName keyName).1) keys

/-- The last call is made on what the others leave. -/
theorem setAll_concat (calls : List (String × String)) (slotName keyName : String) :
    keys.setAll (calls ++ [(slotName, keyName)]) =
      ((keys.setAll calls).set slotName keyName).1 :=
  List.foldl_concat ..

/-- What is put into a slot is found under the names of that slot. -/
theorem get?_put {slotName : String} {slot : KeySlot} (hslot : ofName? slotName = some slot)
    (scancode : Scancode) (name : String) :
    (keys.put slot scancode).get? name =
      if plainName name = plainName slotName then some scancode else keys.get? name := by
  rw [get?_eq, get?_eq]
  split
  · next halike =>
    rw [ofName?_congr halike, hslot, Option.bind_some, key?_put, if_pos rfl]
  · next hother =>
    cases hname : ofName? name with
    | none => rfl
    | some found =>
      have hne : found ≠ slot := by
        rintro rfl
        exact hother (plainName_eq_of_ofName? hname hslot)
      rw [Option.bind_some, Option.bind_some, key?_put, if_neg hne]

/-- One attempt, whatever the slots hold. -/
theorem putsKey_set (slotName keyName : String) :
    PutsKey keys slotName keyName (keys.set slotName keyName).1
      (keys.set slotName keyName).2.1 := by
  have hfailed (h : ¬ ((KeyName.read keyName).isSome = true ∧ IsName slotName)) :
      PutsKey keys slotName keyName keys false :=
    ⟨iff_of_false Bool.false_ne_true h, fun hdone => Bool.noConfusion hdone, fun _ _ => rfl,
      fun _ => rfl⟩
  rw [set]
  cases hkey : KeyName.read keyName with
  | none => exact hfailed (by simp [hkey])
  | some scancode =>
    cases hslot : ofName? slotName with
    | none => exact hfailed (by simp [isName_iff, hslot])
    | some slot =>
      refine ⟨iff_of_true rfl ⟨by rw [hkey, Option.isSome_some], isName_iff.mpr ⟨slot, hslot⟩⟩,
        fun _ name halike => ?_, fun name hother => ?_, fun hdone => Bool.noConfusion hdone⟩
      · rw [keys.get?_put hslot, if_pos halike, hkey]
      · rw [keys.get?_put hslot, if_neg hother]

/-- What a name finds after one more attempt. -/
theorem get?_set (slotName keyName name : String) :
    (keys.set slotName keyName).1.get? name =
      (putUnder? name (slotName, keyName)).or (keys.get? name) := by
  obtain ⟨hdone, halike, hother, hunchanged⟩ := keys.putsKey_set slotName keyName
  rw [putUnder?]
  by_cases hname : plainName name = plainName slotName
  · by_cases hsuccess : (keys.set slotName keyName).2.1 = true
    · obtain ⟨hkey, hslot⟩ := hdone.mp hsuccess
      obtain ⟨scancode, hread⟩ := Option.isSome_iff_exists.mp hkey
      rw [halike hsuccess name hname, if_pos ⟨hslot, hname.symm⟩, hread, Option.some_or]
    · rw [hunchanged (Bool.eq_false_iff.mpr hsuccess)]
      split
      · next hslot =>
        have hread : KeyName.read keyName = none :=
          Option.not_isSome_iff_eq_none.mp fun hkey => hsuccess (hdone.mpr ⟨hkey, hslot.1⟩)
        rw [hread, Option.none_or]
      · rw [Option.none_or]
  · rw [hother name hname, if_neg fun h => hname h.2.symm, Option.none_or]

/-- A name finds the key that was put last under a name that reads alike. -/
theorem get?_setAll (calls : List (String × String)) (name : String) :
    (keys.setAll calls).get? name =
      (calls.filterMap (putUnder? name)).getLast?.or (keys.get? name) := by
  induction calls using List.reverseRecOn with
  | nil => rfl
  | append_singleton calls call ih =>
    obtain ⟨slotName, keyName⟩ := call
    rw [setAll_concat, get?_set, ih, Text.getLast?_filterMap_concat, Option.or_assoc]

/-- The keyboard table has room for every key in a slot. -/
def Fits (keys : Keys) : Prop :=
  ∀ slot scancode, keys.key? slot = some scancode → scancode.index < Scancode.count

/-- The first keys fit their slots. -/
theorem fits_initial : initial.Fits := by
  intro slot scancode hkey
  cases slot <;> cases hkey <;> decide

/-- An attempt puts only keys into slots for which there is room. -/
theorem Fits.set {keys : Keys} (h : keys.Fits) (slotName keyName : String) :
    (keys.set slotName keyName).1.Fits := by
  rw [Keys.set]
  cases hkey : KeyName.read keyName with
  | none => exact h
  | some found =>
    cases KeySlot.ofName? slotName with
    | none => exact h
    | some filled =>
      intro slot scancode hslot
      rw [key?_put] at hslot
      split at hslot
      · exact Option.some.inj hslot ▸ KeyName.index_lt_of_read hkey
      · exact h slot scancode hslot

/-- Keys that fit still do after any calls. -/
theorem Fits.setAll {keys : Keys} (h : keys.Fits) (calls : List (String × String)) :
    (keys.setAll calls).Fits := by
  induction calls generalizing keys with
  | nil => exact h
  | cons call calls ih => exact ih (h.set call.1 call.2)

/-- However keys were put into the slots, a name finds the one that was put last under a name that
reads alike, or else the one from the start, and one more attempt changes what such names find, and
nothing else. Every key in a slot has its place in the keyboard table. -/
theorem setAll_initial (calls : List (String × String)) :
    (∀ slotName keyName, PutsKey (initial.setAll calls) slotName keyName
      ((initial.setAll calls).set slotName keyName).1
      ((initial.setAll calls).set slotName keyName).2.1) ∧
      (∀ name, (initial.setAll calls).get? name =
        (calls.filterMap (putUnder? name)).getLast?.or (initial.get? name)) ∧
      ∀ slot scancode, (initial.setAll calls).key? slot = some scancode → scancode.index < 512 :=
  ⟨(initial.setAll calls).putsKey_set, initial.get?_setAll calls, fits_initial.setAll calls⟩

example : (initial.setAll [("Left_2", "b"), ("left", "c"), ("jump", "d")]).get? "LEFT2" =
    some ⟨5⟩ := by
  decide +kernel

end Keys

end GameSetup
