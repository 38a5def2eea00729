import GameSetup.Input.Tables
import Mathlib.Data.List.Induction
import Mathlib.Data.List.Nodup

/-!
# Places for inputs

Keys below 512, 32 buttons of the mouse and of a controller and 16 axes have a place each. The
tables are a map from these inputs: a change of one place leaves the others alone, and a change
without a place leaves everything alone. The list of bound inputs is the map, gone through in order.
-/

namespace GameSetup

namespace Input

/-- The inputs that can be bound. -/
def InRange : Input → Prop
  | .key scancode => scancode.index < 512
  | .mouseButton button => button.toNat < 32
  | .controllerButton button => button.toNat < 32
  | .controllerAxis axis => axis.toNat < 16
  | .invalid => False

instance : DecidablePred InRange
  | .key scancode => inferInstanceAs (Decidable (scancode.index < 512))
  | .mouseButton button => inferInstanceAs (Decidable (button.toNat < 32))
  | .controllerButton button => inferInstanceAs (Decidable (button.toNat < 32))
  | .controllerAxis axis => inferInstanceAs (Decidable (axis.toNat < 16))
  | .invalid => inferInstanceAs (Decidable False)

/-- The key at a position of its table. -/
def ofKeyPosition (position : Nat) : Input := .key ⟨UInt16.ofNat position⟩

def ofMouseButtonPosition (position : Nat) : Input := .mouseButton (UInt8.ofNat position)

def ofControllerButtonPosition (position : Nat) : Input := .controllerButton (UInt8.ofNat position)

def ofControllerAxisPosition (position : Nat) : Input := .controllerAxis (UInt8.ofNat position)

/-- The inputs that can be bound, in the order of the tables. -/
def inRange : List Input :=
  (List.range 512).map ofKeyPosition ++ (List.range 32).map ofMouseButtonPosition ++
    (List.range 32).map ofControllerButtonPosition ++ (List.range 16).map ofControllerAxisPosition

end Input

namespace Tables

open Input

/-- The inputs with a place are those that can be bound. -/
theorem hasPlace_eq (input : Input) : hasPlace input = decide input.InRange := by
  cases input <;> rfl

/-- Empty tables drive nothing. -/
theorem driven?_empty (input : Input) : empty.driven? input = none := by
  have hnone (size position : Nat) :
      (Vector.replicate size (none : Option ControlId))[position]?.join = none := by
    rw [Vector.getElem?_replicate]
    split <;> rfl
  cases input with
  | invalid => rfl
  | key | mouseButton | controllerButton | controllerAxis => exact hnone _ _

/-- An input that can not be bound drives nothing. -/
theorem driven?_of_not_inRange (tables : Tables) {input : Input} (h : ¬input.InRange) :
    tables.driven? input = none := by
  have hplace := tables.isSome_place? input
  rw [hasPlace_eq, decide_eq_false h, Option.isSome_eq_false_iff,
    Option.isNone_iff_eq_none] at hplace
  rw [driven?, hplace, Option.join_none]

/-- An input drives what was put into its place. -/
theorem driven?_put_self (tables : Tables) {input : Input} (content : Option ControlId)
    (h : input.InRange) : (tables.put input content).driven? input = content := by
  have hplace : hasPlace input = true := (hasPlace_eq input).trans (decide_eq_true h)
  rw [driven?, tables.place?_put_self content hplace, Option.join_some]

/-- The other inputs drive what they drove. -/
theorem driven?_put_of_ne (tables : Tables) {input other : Input} (content : Option ControlId)
    (hne : other ≠ input) : (tables.put input content).driven? other = tables.driven? other := by
  have hkept {size : Nat} (places : Vector (Option ControlId) size) {position changed : Nat}
      (h : changed ≠ position) :
      (places.setIfInBounds changed content)[position]?.join = places[position]?.join :=
    congrArg Option.join (Vector.getElem?_setIfInBounds_ne h)
  cases input with
  | invalid => rfl
  | key scancode =>
    cases other with
    | key kept =>
      refine hkept tables.keys fun hindex => hne ?_
      exact congrArg (Input.key ∘ Scancode.mk) (UInt16.toNat_inj.mp hindex.symm)
    | _ => rfl
  | mouseButton button =>
    cases other with
    | mouseButton kept =>
      refine hkept tables.mouseButtons fun hindex => hne ?_
      exact congrArg Input.mouseButton (UInt8.toNat_inj.mp hindex.symm)
    | _ => rfl
  | controllerButton button =>
    cases other with
    | controllerButton kept =>
      refine hkept tables.controllerButtons fun hindex => hne ?_
      exact congrArg Input.controllerButton (UInt8.toNat_inj.mp hindex.symm)
    | _ => rfl
  | controllerAxis axis =>
    cases other with
    | controllerAxis kept =>
      refine hkept tables.controllerAxes fun hindex => hne ?_
      exact congrArg Input.controllerAxis (UInt8.toNat_inj.mp hindex.symm)
    | _ => rfl

/-- Nothing changes without a place. -/
theorem put_of_not_inRange (tables : Tables) {input : Input} (content : Option ControlId)
    (h : ¬input.InRange) : tables.put input content = tables := by
  cases input with
  | invalid => rfl
  | key scancode =>
    exact congrArg ({ tables with keys := · })
      (Vector.setIfInBounds_eq_of_size_le (Nat.le_of_not_lt h))
  | mouseButton button =>
    exact congrArg ({ tables with mouseButtons := · })
      (Vector.setIfInBounds_eq_of_size_le (Nat.le_of_not_lt h))
  | controllerButton button =>
    exact congrArg ({ tables with controllerButtons := · })
      (Vector.setIfInBounds_eq_of_size_le (Nat.le_of_not_lt h))
  | controllerAxis axis =>
    exact congrArg ({ tables with controllerAxes := · })
      (Vector.setIfInBounds_eq_of_size_le (Nat.le_of_not_lt h))

/-- The filled places of a table by position. -/
theorem filledPlaces_eq (input : Nat → Input) (places : List (Option ControlId)) :
    filledPlaces input places = (List.range places.length).filterMap fun position =>
      places[position]?.join.map (input position, ·) := by
  rw [filledPlaces]
  induction places using List.reverseRecOn with
  | nil => rfl
  | append_singleton places last ih =>
    have hfront : ∀ position ∈ List.range places.length,
        (places ++ [last])[position]?.join.map (input position, ·) =
          places[position]?.join.map (input position, ·) := by
      intro position hmem
      rw [List.getElem?_append_left (List.mem_range.mp hmem)]
    rw [List.zipIdx_append, List.filterMap_append, ih, List.length_append, List.length_singleton,
      List.range_succ, List.filterMap_append, List.filterMap_congr hfront]
    cases last <;> simp

/-- The filled places of a table are the bound inputs among those of the table. -/
theorem filledPlaces_toList (tables : Tables) (input : Nat → Input) {size : Nat}
    (places : Vector (Option ControlId) size)
    (h : ∀ position < size, tables.driven? (input position) = places[position]?.join) :
    filledPlaces input places.toList =
      ((List.range size).map input).filterMap fun input =>
        (tables.driven? input).map (input, ·) := by
  rw [filledPlaces_eq, Vector.length_toList, List.filterMap_map]
  refine List.filterMap_congr fun position hmem => ?_
  rw [Function.comp_apply, h position (List.mem_range.mp hmem), Vector.getElem?_toList]

section Positions

variable (tables : Tables) {position : Nat}

/-- The key at a position drives what its place holds. -/
theorem driven?_ofKeyPosition (h : position < 512) :
    tables.driven? (ofKeyPosition position) = tables.keys[position]?.join :=
  congrArg (tables.keys[·]?.join) (UInt16.toNat_ofNat_of_lt' (Nat.lt_trans h (by decide)))

/-- A mouse button is looked up at its position. -/
theorem driven?_ofMouseButtonPosition (h : position < 32) :
    tables.driven? (ofMouseButtonPosition position) = tables.mouseButtons[position]?.join :=
  congrArg (tables.mouseButtons[·]?.join) (UInt8.toNat_ofNat_of_lt' (Nat.lt_trans h (by decide)))

/-- So is a controller button. -/
theorem driven?_ofControllerButtonPosition (h : position < 32) :
    tables.driven? (ofControllerButtonPosition position) =
      tables.controllerButtons[position]?.join :=
  congrArg (tables.controllerButtons[·]?.join)
    (UInt8.toNat_ofNat_of_lt' (Nat.lt_trans h (by decide)))

/-- So is an axis. -/
theorem driven?_ofControllerAxisPosition (h : position < 16) :
    tables.driven? (ofControllerAxisPosition position) = tables.controllerAxes[position]?.join :=
  congrArg (tables.controllerAxes[·]?.join)
    (UInt8.toNat_ofNat_of_lt' (Nat.lt_trans h (by decide)))

end Positions

/-- The bound inputs are those that drive something, in order. -/
theorem bound_eq (tables : Tables) :
    tables.bound = inRange.filterMap fun input => (tables.driven? input).map (input, ·) := by
  have hkeys := tables.filledPlaces_toList ofKeyPosition tables.keys fun _ =>
    tables.driven?_ofKeyPosition
  have hmouseButtons := tables.filledPlaces_toList ofMouseButtonPosition tables.mouseButtons
    fun _ => tables.driven?_ofMouseButtonPosition
  have hcontrollerButtons := tables.filledPlaces_toList ofControllerButtonPosition
    tables.controllerButtons fun _ => tables.driven?_ofControllerButtonPosition
  have hcontrollerAxes := tables.filledPlaces_toList ofControllerAxisPosition
    tables.controllerAxes fun _ => tables.driven?_ofControllerAxisPosition
  rw [inRange, List.filterMap_append, List.filterMap_append, List.filterMap_append]
  exact congrArg₂ (· ++ ·) (congrArg₂ (· ++ ·) (congrArg₂ (· ++ ·) hkeys hmouseButtons)
    hcontrollerButtons) hcontrollerAxes

/-- Tables in which each input drives the same are the same. -/
theorem ext_driven? {tables other : Tables}
    (h : ∀ input, tables.driven? input = other.driven? input) : tables = other := by
  have hplaces {size : Nat} (ofPosition : Nat → Input)
      (places seen : Vector (Option ControlId) size)
      (hplaces : ∀ position < size, tables.driven? (ofPosition position) = places[position]?.join)
      (hseen : ∀ position < size, other.driven? (ofPosition position) = seen[position]?.join) :
      places = seen := by
    refine Vector.ext fun position hposition => ?_
    have hsame := h (ofPosition position)
    rwa [hplaces position hposition, hseen position hposition,
      Vector.getElem?_eq_getElem hposition, Vector.getElem?_eq_getElem hposition,
      Option.join_some, Option.join_some] at hsame
  have hkeys := hplaces ofKeyPosition tables.keys other.keys
    (fun _ => tables.driven?_ofKeyPosition) (fun _ => other.driven?_ofKeyPosition)
  have hmouseButtons := hplaces ofMouseButtonPosition tables.mouseButtons other.mouseButtons
    (fun _ => tables.driven?_ofMouseButtonPosition) (fun _ => other.driven?_ofMouseButtonPosition)
  have hcontrollerButtons := hplaces ofControllerButtonPosition tables.controllerButtons
    other.controllerButtons (fun _ => tables.driven?_ofControllerButtonPosition)
    (fun _ => other.driven?_ofControllerButtonPosition)
  have hcontrollerAxes := hplaces ofControllerAxisPosition tables.controllerAxes
    other.controllerAxes (fun _ => tables.driven?_ofControllerAxisPosition)
    (fun _ => other.driven?_ofControllerAxisPosition)
  cases tables
  cases other
  exact congr (congr (congr (congrArg Tables.mk hkeys) hmouseButtons) hcontrollerButtons)
    hcontrollerAxes

end Tables

namespace Input

/-- The list holds the inputs that can be bound, and no others. -/
theorem mem_inRange (input : Input) : input ∈ inRange ↔ input.InRange := by
  have hposition {size position : Nat} (ofPosition : Nat → Input) (h : position < size)
      (hinput : ofPosition position = input) : input ∈ (List.range size).map ofPosition :=
    List.mem_map.mpr ⟨position, List.mem_range.mpr h, hinput⟩
  have hbyte {size place : Nat} (h : place < size) (hsize : size ≤ 256) :
      (UInt8.ofNat place).toNat < size := by
    rw [UInt8.toNat_ofNat_of_lt' (Nat.lt_of_lt_of_le h hsize)]
    exact h
  rw [inRange, List.mem_append, List.mem_append, List.mem_append]
  constructor
  · intro hmem
    rcases hmem with ((hkey | hmouse) | hbutton) | haxis
    · obtain ⟨place, hplace, rfl⟩ := List.mem_map.mp hkey
      have hlt := List.mem_range.mp hplace
      change (UInt16.ofNat place).toNat < 512
      rw [UInt16.toNat_ofNat_of_lt' (Nat.lt_trans hlt (by decide))]
      exact hlt
    · obtain ⟨place, hplace, rfl⟩ := List.mem_map.mp hmouse
      exact hbyte (List.mem_range.mp hplace) (by decide)
    · obtain ⟨place, hplace, rfl⟩ := List.mem_map.mp hbutton
      exact hbyte (List.mem_range.mp hplace) (by decide)
    · obtain ⟨place, hplace, rfl⟩ := List.mem_map.mp haxis
      exact hbyte (List.mem_range.mp hplace) (by decide)
  · intro hrange
    cases input with
    | key scancode =>
      have hsame : ofKeyPosition scancode.index = .key scancode :=
        congrArg (Input.key ∘ Scancode.mk) UInt16.ofNat_toNat
      exact .inl (.inl (.inl (hposition ofKeyPosition hrange hsame)))
    | mouseButton button =>
      have hsame : ofMouseButtonPosition button.toNat = .mouseButton button :=
        congrArg Input.mouseButton UInt8.ofNat_toNat
      exact .inl (.inl (.inr (hposition ofMouseButtonPosition hrange hsame)))
    | controllerButton button =>
      have hsame : ofControllerButtonPosition button.toNat = .controllerButton button :=
        congrArg Input.controllerButton UInt8.ofNat_toNat
      exact .inl (.inr (hposition ofControllerButtonPosition hrange hsame))
    | controllerAxis axis =>
      have hsame : ofControllerAxisPosition axis.toNat = .controllerAxis axis :=
        congrArg Input.controllerAxis UInt8.ofNat_toNat
      exact .inr (hposition ofControllerAxisPosition hrange hsame)
    | invalid => exact hrange.elim

/-- The position of an input in all the tables together. -/
def position : Input → Nat
  | .key scancode => scancode.index
  | .mouseButton button => 512 + button.toNat
  | .controllerButton button => 544 + button.toNat
  | .controllerAxis axis => 576 + axis.toNat
  | .invalid => 592

/-- The list goes through the positions one by one. -/
theorem map_position_inRange : inRange.map position = List.range 592 := by
  have hpart {size : Nat} (first : Nat) (ofPosition : Nat → Input)
      (h : ∀ place < size, (ofPosition place).position = first + place) :
      ((List.range size).map ofPosition).map position = (List.range size).map (first + ·) := by
    rw [List.map_map]
    exact List.map_congr_left fun place hmem => h place (List.mem_range.mp hmem)
  have hkeys := hpart 0 ofKeyPosition fun place (hplace : place < 512) =>
    (UInt16.toNat_ofNat_of_lt' (Nat.lt_trans hplace (by decide))).trans (Nat.zero_add place).symm
  have hbyte {place first : Nat} (hplace : place < 32) :
      first + (UInt8.ofNat place).toNat = first + place :=
    congrArg (first + ·) (UInt8.toNat_ofNat_of_lt' (Nat.lt_trans hplace (by decide)))
  have hmouseButtons := hpart 512 ofMouseButtonPosition fun _ => hbyte
  have hcontrollerButtons := hpart 544 ofControllerButtonPosition fun _ => hbyte
  have hcontrollerAxes := hpart 576 ofControllerAxisPosition fun place (hplace : place < 16) =>
    hbyte (Nat.lt_trans hplace (by decide))
  rw [inRange, List.map_append, List.map_append, List.map_append, hkeys, hmouseButtons,
    hcontrollerButtons, hcontrollerAxes]
  simp only [Nat.zero_add, List.map_id', ← List.range_add]

/-- No input is listed twice. -/
theorem nodup_inRange : inRange.Nodup := by
  refine List.Nodup.of_map position ?_
  rw [map_position_inRange]
  exact List.nodup_range

/-- The inputs of the tables come one after another. -/
theorem pairwise_inRange : inRange.Pairwise (·.position < ·.position) := by
  rw [← List.pairwise_map (f := position), map_position_inRange]
  exact List.pairwise_lt_range

/-- Lists of the same inputs, each in the order of the tables, are the same. -/
theorem eq_of_pairwise {inputs others : List Input}
    (hinputs : inputs.Pairwise (·.position < ·.position))
    (hothers : others.Pairwise (·.position < ·.position))
    (h : ∀ input, input ∈ inputs ↔ input ∈ others) : inputs = others := by
  have hnodup {inputs : List Input} (hinputs : inputs.Pairwise (·.position < ·.position)) :
      inputs.Nodup :=
    hinputs.imp fun hlt hsame => Nat.ne_of_lt hlt (congrArg position hsame)
  refine List.Perm.eq_of_pairwise (fun input other _ _ hlt hgt => ?_) hinputs hothers
    ((List.perm_ext_iff_of_nodup (hnodup hinputs) (hnodup hothers)).mpr h)
  exact absurd hgt (Nat.lt_asymm hlt)

end Input

namespace Tables

open Input

/-- An input is listed with what it drives. -/
theorem mem_bound_iff (tables : Tables) (input : Input) (id : ControlId) :
    (input, id) ∈ tables.bound ↔ tables.driven? input = some id := by
  rw [bound_eq, List.mem_filterMap]
  constructor
  · rintro ⟨other, -, hother⟩
    obtain ⟨found, hfound, hpair⟩ := Option.map_eq_some_iff.mp hother
    cases hpair
    exact hfound
  · intro hdriven
    have hrange : input.InRange := by
      by_contra hout
      rw [tables.driven?_of_not_inRange hout] at hdriven
      cases hdriven
    exact ⟨input, (mem_inRange input).mpr hrange, by rw [hdriven, Option.map_some]⟩

/-- No input is listed twice. -/
theorem nodup_map_bound (tables : Tables) : (tables.bound.map (·.1)).Nodup := by
  rw [bound_eq, List.map_filterMap]
  refine nodup_inRange.filterMap fun input other found hinput hother => ?_
  rw [Option.map_map, Option.mem_def, Option.map_eq_some_iff] at hinput hother
  obtain ⟨_, -, rfl⟩ := hinput
  obtain ⟨_, -, hsame⟩ := hother
  exact hsame.symm

end Tables

end GameSetup
