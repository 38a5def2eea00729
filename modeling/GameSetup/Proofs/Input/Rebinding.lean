import GameSetup.Proofs.Input.Refinement

/-!
# Binding several inputs

To bind inputs is to change what they drive. The controls, their ids and the device that was used
last are not concerned, so a table after several bindings is known once it is known what each input
drives. That is what the last of the bindings of the input says which succeeds, or else what it was
before. Doing the same bindings once more changes nothing.
-/

namespace GameSetup

variable {α : Type}

/-- A table differs from an earlier one at most in what the inputs drive. -/
structure Rebound (before after : Bindings α) : Prop where
  controls_eq : after.controls = before.controls
  ids_eq : after.ids = before.ids
  mode_eq : after.mode = before.mode

namespace Rebound

variable {before after other : Bindings α}

/-- Nothing need be bound anew. -/
theorem refl (bindings : Bindings α) : Rebound bindings bindings := ⟨rfl, rfl, rfl⟩

/-- What is rebound twice is rebound. -/
theorem trans (h : Rebound before after) (h' : Rebound after other) : Rebound before other :=
  ⟨h'.controls_eq.trans h.controls_eq, h'.ids_eq.trans h.ids_eq, h'.mode_eq.trans h.mode_eq⟩

/-- Binding an input changes nothing but bindings. -/
theorem bind (bindings : Bindings α) (input : Input) (name : String) :
    Rebound bindings (bindings.bind input name).1 := by
  rw [Bindings.bind]
  split
  · exact refl bindings
  · split
    · exact ⟨rfl, rfl, rfl⟩
    · exact refl bindings

/-- Nor does binding a key by its name. -/
theorem bindKeyName (bindings : Bindings α) (keyName name : String) :
    Rebound bindings (bindings.bindKeyName keyName name).1 := by
  rw [Bindings.bindKeyName]
  split
  · exact bind bindings _ name
  · exact refl bindings

/-- Nor does binding what a definition stands for. -/
theorem bindDefinition (bindings : Bindings α) (definition name : String) :
    Rebound bindings (bindings.bindDefinition definition name).1 := by
  rw [Bindings.bindDefinition]
  split
  · exact bind bindings _ name
  · exact refl bindings

/-- Nor does binding several definitions. -/
theorem bindAll (bindings : Bindings α) (definitions : List String) (name : String) :
    Rebound bindings (bindings.bindAll definitions name).1 := by
  induction definitions generalizing bindings with
  | nil => exact refl bindings
  | cons definition rest ih => exact (bindDefinition bindings definition name).trans (ih _)

/-- Nor does binding the keys of several slots. -/
theorem bindEach (bindings : Bindings α) (keys : List (KeySlot × Scancode)) :
    Rebound bindings (bindings.bindEach keys).1 := by
  induction keys generalizing bindings with
  | nil => exact refl bindings
  | cons entry rest ih => exact (bind bindings (.key entry.2) entry.1.name).trans (ih _)

end Rebound

namespace Represents

variable {bindings other : Bindings α} {map : BindingMap α}

/-- Tables that differ at most in what the inputs drive and stand for the same map are the same. -/
theorem eq_of_rebound {before : Bindings α} (h : Represents bindings map)
    (h' : Represents other map) (hbindings : Rebound before bindings)
    (hother : Rebound before other) : bindings = other := by
  have htables : bindings.tables = other.tables :=
    Tables.ext_driven? fun input => (h.driven?_eq input).trans (h'.driven?_eq input).symm
  have hcontrols := hbindings.controls_eq.trans hother.controls_eq.symm
  have hids := hbindings.ids_eq.trans hother.ids_eq.symm
  have hmode := hbindings.mode_eq.trans hother.mode_eq.symm
  cases bindings
  cases other
  exact congr (congr (congr (congrArg Bindings.mk hcontrols) hids) htables) hmode

/-- The registered names are those of the map. -/
theorem controlNames_eq (h : Represents bindings map) : bindings.controlNames = map.names := by
  rw [Bindings.controlNames, BindingMap.names, ← h.controls_eq, List.map_map]
  rfl

end Represents

namespace BindingMap

variable (map : BindingMap α)

/-- Whether an input can be bound to a name. -/
def Takes (pair : Input × String) : Prop :=
  pair.2 ∈ map.names ∧ pair.1.InRange

instance : DecidablePred map.Takes :=
  fun pair => inferInstanceAs (Decidable (pair.2 ∈ map.names ∧ pair.1.InRange))

/-- The name to which an input is bound by the last of some bindings that succeeds. -/
def lastName? (pairs : List (Input × String)) (input : Input) : Option String :=
  ((pairs.filter fun pair => map.Takes pair ∧ pair.1 = input).map (·.2)).getLast?

/-- Maps with the same controls and the same bindings are the same. -/
theorem ext {map other : BindingMap α} (hcontrols : map.controls = other.controls)
    (hdriver : map.driver = other.driver) : map = other := by
  cases map
  cases other
  exact congr (congrArg BindingMap.mk hcontrols) hdriver

/-- A map with the same controls takes the same bindings. -/
theorem takes_congr {map next : BindingMap α} (h : next.controls = map.controls) :
    next.Takes = map.Takes := by
  funext pair
  rw [Takes, Takes, names, names, h]

/-- Which name is taken last depends on the controls only. -/
theorem lastName?_congr {map next : BindingMap α} (h : next.controls = map.controls) :
    next.lastName? = map.lastName? := by
  have htakes := takes_congr h
  funext pairs input
  simp only [lastName?, htakes]

/-- What one more binding in front of others says about an input. -/
theorem lastName?_cons (pair : Input × String) (rest : List (Input × String)) (input : Input) :
    map.lastName? (pair :: rest) input =
      (map.lastName? rest input).or
        (if map.Takes pair ∧ pair.1 = input then some pair.2 else none) := by
  rw [lastName?, lastName?, List.filter_cons]
  split
  · next htakes =>
    rw [if_pos (of_decide_eq_true htakes), List.map_cons, List.getLast?_cons]
    cases ((rest.filter fun pair => map.Takes pair ∧ pair.1 = input).map (·.2)).getLast? <;> rfl
  · next hnot =>
    rw [if_neg (by simpa using hnot), Option.or_none]

/-- A binding that succeeds counts for its input. -/
theorem driver_bind (input : Input) (name : String) (other : Input) :
    (map.bind input name).1.driver other =
      if map.Takes (input, name) ∧ input = other then some name else map.driver other := by
  rw [bind]
  split
  · next htakes =>
    refine (Function.update_apply ..).trans ?_
    exact if_congr ⟨fun h => ⟨htakes, h.symm⟩, fun h => h.2.symm⟩ rfl rfl
  · next hnot => rw [if_neg fun h => hnot h.1]

/-- Binding succeeds exactly if the map takes the pair. -/
theorem bind_snd (input : Input) (name : String) :
    (map.bind input name).2 = decide (map.Takes (input, name)) := by
  rw [bind]
  split
  · next htakes => exact (decide_eq_true (p := map.Takes (input, name)) htakes).symm
  · next hnot => exact (decide_eq_false (p := map.Takes (input, name)) hnot).symm

/-- After several bindings, an input drives what the last of them says that succeeds for it, or else
what it drove before. -/
theorem driver_bindEach (pairs : List (Input × String)) (input : Input) :
    (map.bindEach pairs).1.driver input = (map.lastName? pairs input).or (map.driver input) := by
  induction pairs generalizing map with
  | nil => rfl
  | cons pair rest ih =>
    have hlast := lastName?_congr (map.controls_bind pair.1 pair.2)
    refine (ih (map.bind pair.1 pair.2).1).trans ?_
    rw [hlast, driver_bind, lastName?_cons, Option.or_assoc]
    split <;> rfl

/-- The count is that of the bindings that succeed. -/
theorem bindEach_snd (pairs : List (Input × String)) :
    (map.bindEach pairs).2 = pairs.countP (map.Takes ·) := by
  induction pairs generalizing map with
  | nil => rfl
  | cons pair rest ih =>
    have htakes := takes_congr (map.controls_bind pair.1 pair.2)
    have hcount := ih (map.bind pair.1 pair.2).1
    simp only [htakes] at hcount
    change (if (map.bind pair.1 pair.2).2 = true then 1 else 0) +
      ((map.bind pair.1 pair.2).1.bindEach rest).2 = _
    rw [hcount, bind_snd, List.countP_cons, Nat.add_comm]

/-- The same bindings once more change nothing, and succeed as often. -/
theorem bindEach_bindEach (pairs : List (Input × String)) :
    (map.bindEach pairs).1.bindEach pairs = map.bindEach pairs := by
  have hcontrols := map.controls_bindEach pairs
  have hcount : ((map.bindEach pairs).1.bindEach pairs).2 = (map.bindEach pairs).2 := by
    simp only [bindEach_snd, takes_congr hcontrols]
  refine Prod.ext (ext (controls_bindEach _ pairs) (funext fun input => ?_)) hcount
  rw [driver_bindEach, lastName?_congr hcontrols, driver_bindEach, ← Option.or_assoc,
    Option.or_self]

end BindingMap

end GameSetup
