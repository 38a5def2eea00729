import GameSetup.Proofs.Input.BindingMap
import Mathlib.Data.List.Nodup

/-!
# The binding table keeps a map

The controls, the table of names and the four tables of places stand for one map from inputs to
names. Every operation on the table, whether it succeeds or not, is the operation on the map, and
gives the same reply. The invariant is that each name has the id that its position gives, and that
each place holds the id of a registered name.
-/

namespace GameSetup

variable {α : Type}

/-- A table stands for a map. -/
structure Represents (bindings : Bindings α) (map : BindingMap α) : Prop where
  controls_eq : bindings.controls.map (fun entry => (entry.name, entry.control)) = map.controls
  nodup_names : map.names.Nodup
  controlId?_eq : ∀ name, bindings.controlId? name = map.id? name
  driven?_eq : ∀ input, bindings.tables.driven? input = (map.driver input).bind map.id?
  registered : ∀ input name, map.driver input = some name → name ∈ map.names

namespace Represents

variable {bindings : Bindings α} {map : BindingMap α}

/-- Empty bindings stand for the empty map. -/
theorem empty : Represents (.empty : Bindings α) .empty where
  controls_eq := rfl
  nodup_names := List.nodup_nil
  controlId?_eq _ := rfl
  driven?_eq := Tables.driven?_empty
  registered _ _ h := nomatch h

/-- What an id refers to has the registered name. -/
theorem controlName?_eq (h : Represents bindings map) (id : ControlId) :
    bindings.controlName? id = map.names[id.position]? := by
  rw [Bindings.controlName?, BindingMap.names, ← h.controls_eq, List.map_map, List.getElem?_map]
  rfl

/-- There are as many controls as names. -/
theorem length_controls (h : Represents bindings map) :
    bindings.controls.length = map.names.length := by
  rw [BindingMap.names, ← h.controls_eq, List.length_map, List.length_map]

/-- What an id refers to is the control of its name. -/
theorem control_eq (h : Represents bindings map) {name : String} {id : ControlId}
    (hid : map.id? name = some id) :
    (bindings.controls[id.position]?).map (·.control) = map.control? name := by
  rw [← map.getElem?_controls_of_id? hid, ← h.controls_eq, List.getElem?_map, Option.map_map]
  rfl

/-- An input drives the control that the map says. -/
theorem boundTo?_eq (h : Represents bindings map) (input : Input) :
    bindings.boundTo? input = map.driver input := by
  rw [Bindings.boundTo?, h.driven?_eq]
  cases hdriver : map.driver input with
  | none => rfl
  | some name =>
    have hid := map.id?_of_mem (h.registered input name hdriver)
    rw [Option.bind_some, hid, Option.bind_some, h.controlName?_eq, map.getElem?_names_of_id? hid]

/-- Only inputs in range drive anything. -/
theorem inRange (h : Represents bindings map) {input : Input} {name : String}
    (hdriver : map.driver input = some name) : input.InRange := by
  by_contra hout
  have hdriven := h.driven?_eq input
  rw [bindings.tables.driven?_of_not_inRange hout, hdriver, Option.bind_some,
    map.id?_of_mem (h.registered input name hdriver)] at hdriven
  cases hdriven

/-- A control of a known name changes nothing but the control. -/
theorem add_of_mem (h : Represents bindings map) {name : String} (hmem : name ∈ map.names)
    (control : α) :
    Represents (bindings.add name control).bindings (map.add name control) ∧
      (bindings.add name control).id = (map.id? name).getD ⟨map.names.length⟩ ∧
      (bindings.add name control).occurrences = (map.control? name).toList.map .dropped := by
  have hid := map.id?_of_mem hmem
  have hadd := map.names_add_of_mem hmem control
  have hids : (map.add name control).id? = map.id? := by
    funext other
    rw [BindingMap.id?, BindingMap.id?, hadd]
  rw [Bindings.add, h.controlId?_eq, hid]
  refine ⟨⟨?_, hadd ▸ h.nodup_names, fun other => ?_, fun input => ?_,
    fun input other hdriver => ?_⟩, rfl, ?_⟩
  · refine (map_modify_of_comm _ (fun entry => (entry.1, control)) (fun _ => rfl) _ _).trans ?_
    rw [h.controls_eq, BindingMap.add, Keyed.enter_of_mem hmem]
    rfl
  · rw [hids]
    exact h.controlId?_eq other
  · rw [hids]
    exact h.driven?_eq input
  · rw [hadd]
    exact h.registered input other hdriver
  · rw [← h.control_eq hid, Option.toList_map, List.map_map]
    rfl

/-- A control of a new name comes last and is driven by nothing. -/
theorem add_of_not_mem (h : Represents bindings map) {name : String} (hmem : name ∉ map.names)
    (control : α) :
    Represents (bindings.add name control).bindings (map.add name control) ∧
      (bindings.add name control).id = (map.id? name).getD ⟨map.names.length⟩ ∧
      (bindings.add name control).occurrences = (map.control? name).toList.map .dropped := by
  have hid := map.id?_of_not_mem hmem
  have hadd := map.names_add_of_not_mem hmem control
  rw [Bindings.add, h.controlId?_eq, hid]
  refine ⟨⟨?_, ?_, fun other => ?_, fun input => ?_, fun input other hdriver => ?_⟩, ?_, ?_⟩
  · rw [BindingMap.add, Keyed.enter_of_not_mem hmem, ← h.controls_eq]
    exact List.map_append
  · rw [hadd, ← List.concat_eq_append]
    exact h.nodup_names.concat hmem
  · rw [map.id?_add_of_not_mem hmem, ← h.controlId?_eq, ← h.length_controls]
    by_cases hother : other = name
    · rw [if_pos hother, hother]
      exact Keyed.lookup_enter_self name _ bindings.ids
    · rw [if_neg hother]
      exact Keyed.lookup_enter_of_ne hother _ bindings.ids
  · refine (h.driven?_eq input).trans ?_
    change (map.driver input).bind _ = (map.driver input).bind _
    cases hdriver : map.driver input with
    | none => rfl
    | some other =>
      have hother : other ≠ name := fun hsame => hmem (hsame ▸ h.registered input other hdriver)
      rw [Option.bind_some, Option.bind_some, map.id?_add_of_not_mem hmem, if_neg hother]
  · exact map.mem_names_add (h.registered input other hdriver) control
  · exact congrArg ControlId.mk h.length_controls
  · have hnone : map.control? name = none := by
      refine List.lookup_eq_none_iff.mpr fun entry hentry => bne_iff_ne.mpr fun hsame => hmem ?_
      exact hsame ▸ List.mem_map_of_mem hentry
    rw [hnone]
    rfl

/-- Registering is registering in the map. -/
theorem add (h : Represents bindings map) (name : String) (control : α) :
    Represents (bindings.add name control).bindings (map.add name control) ∧
      (bindings.add name control).id = (map.id? name).getD ⟨map.names.length⟩ ∧
      (bindings.add name control).occurrences = (map.control? name).toList.map .dropped := by
  by_cases hmem : name ∈ map.names
  · exact h.add_of_mem hmem control
  · exact h.add_of_not_mem hmem control

/-- A change of one place is a change of what one input drives. -/
theorem put (h : Represents bindings map) {input : Input} (hrange : input.InRange)
    (target : Option String) (htarget : ∀ name, target = some name → name ∈ map.names) :
    Represents { bindings with tables := bindings.tables.put input (target.bind map.id?) }
      { map with driver := Function.update map.driver input target } where
  controls_eq := h.controls_eq
  nodup_names := h.nodup_names
  controlId?_eq := h.controlId?_eq
  driven?_eq other := by
    change (bindings.tables.put input _).driven? other =
      (Function.update map.driver input target other).bind map.id?
    by_cases hother : other = input
    · subst hother
      rw [bindings.tables.driven?_put_self _ hrange, Function.update_self]
    · rw [bindings.tables.driven?_put_of_ne _ hother, Function.update_of_ne hother]
      exact h.driven?_eq other
  registered other name hdriver := by
    change Function.update map.driver input target other = some name at hdriver
    by_cases hother : other = input
    · subst hother
      rw [Function.update_self] at hdriver
      exact htarget name hdriver
    · rw [Function.update_of_ne hother] at hdriver
      exact h.registered other name hdriver

/-- Binding is binding in the map. -/
theorem bind (h : Represents bindings map) (input : Input) (name : String) :
    Represents (bindings.bind input name).1 (map.bind input name).1 ∧
      (bindings.bind input name).2.1 = (map.bind input name).2 := by
  rw [Bindings.bind, BindingMap.bind, h.controlId?_eq, Tables.hasPlace_eq]
  by_cases hmem : name ∈ map.names
  · have hid := map.id?_of_mem hmem
    rw [hid]
    by_cases hrange : input.InRange
    · have hput := h.put hrange (some name) fun _ hsame => Option.some.inj hsame ▸ hmem
      rw [Option.bind_some, hid] at hput
      rw [if_pos ⟨hmem, hrange⟩, decide_eq_true hrange]
      exact ⟨hput, rfl⟩
    · rw [if_neg fun hboth => hrange hboth.2, decide_eq_false hrange]
      exact ⟨h, rfl⟩
  · rw [map.id?_of_not_mem hmem, if_neg fun hboth => hmem hboth.1]
    exact ⟨h, rfl⟩

/-- Freeing an input is freeing it in the map. -/
theorem unbind (h : Represents bindings map) (input : Input) :
    Represents (bindings.unbind input).1 (map.unbind input).1 ∧
      (bindings.unbind input).2 = (map.unbind input).2 := by
  rw [Bindings.unbind, BindingMap.unbind, Tables.hasPlace_eq]
  by_cases hrange : input.InRange
  · rw [if_pos hrange]
    exact ⟨h.put hrange none (fun _ hsame => nomatch hsame), decide_eq_true hrange⟩
  · rw [if_neg hrange, bindings.tables.put_of_not_inRange none hrange]
    exact ⟨h, decide_eq_false hrange⟩

/-- Freeing every input empties the map. -/
theorem reset (h : Represents bindings map) : Represents bindings.reset map.reset where
  controls_eq := h.controls_eq
  nodup_names := h.nodup_names
  controlId?_eq := h.controlId?_eq
  driven?_eq := Tables.driven?_empty
  registered _ _ hdriver := nomatch hdriver

/-- A definition that names no input binds nothing. -/
theorem bindDefinition (h : Represents bindings map) (definition name : String) :
    Represents (bindings.bindDefinition definition name).1
        (map.bind (.ofDefinition definition) name).1 ∧
      (bindings.bindDefinition definition name).2.1 =
        (map.bind (.ofDefinition definition) name).2 := by
  rw [Bindings.bindDefinition, Input.ofDefinition]
  cases Definition.read definition with
  | ok input => exact h.bind input name
  | error error =>
    have hnone : map.bind .invalid name = (map, false) := if_neg fun hboth => hboth.2
    rw [hnone]
    exact ⟨h, rfl⟩

/-- Definitions are bound one after another. -/
theorem bindAll (h : Represents bindings map) (definitions : List String) (name : String) :
    Represents (bindings.bindAll definitions name).1
        (map.bindEach (definitions.map (.ofDefinition ·, name))).1 ∧
      (bindings.bindAll definitions name).2.1 =
        (map.bindEach (definitions.map (.ofDefinition ·, name))).2 := by
  induction definitions generalizing bindings map with
  | nil => exact ⟨h, rfl⟩
  | cons definition rest ih =>
    obtain ⟨hnext, hbound⟩ := h.bindDefinition definition name
    obtain ⟨hlast, hcount⟩ := ih hnext
    exact ⟨hlast, congrArg₂ (fun (bound : Bool) count => (if bound then 1 else 0) + count)
      hbound hcount⟩

/-- Keys are bound one after another. -/
theorem bindEach (h : Represents bindings map) (keys : List (KeySlot × Scancode)) :
    Represents (bindings.bindEach keys).1
        (map.bindEach (keys.map fun (slot, scancode) => (.key scancode, slot.name))).1 ∧
      (bindings.bindEach keys).2.1 =
        (map.bindEach (keys.map fun (slot, scancode) => (.key scancode, slot.name))).2 := by
  induction keys generalizing bindings map with
  | nil => exact ⟨h, rfl⟩
  | cons entry rest ih =>
    obtain ⟨slot, scancode⟩ := entry
    obtain ⟨hnext, hbound⟩ := h.bind (.key scancode) slot.name
    obtain ⟨hlast, hcount⟩ := ih hnext
    exact ⟨hlast, congrArg₂ (fun (bound : Bool) count => (if bound then 1 else 0) + count)
      hbound hcount⟩

/-- An event changes no binding, and reaches the control that the map says. -/
theorem fire (h : Represents bindings map) (event : DeviceEvent) :
    Represents (bindings.fire event).1 map ∧
      (bindings.fire event).2 = ((map.driver event.input).bind map.control?).toList.map
        (.delivered · event.state) := by
  refine ⟨⟨h.controls_eq, h.nodup_names, h.controlId?_eq, h.driven?_eq, h.registered⟩, ?_⟩
  have hcontrol : ((bindings.tables.driven? event.input).bind fun id =>
      bindings.controls[id.position]?).map (·.control) =
        (map.driver event.input).bind map.control? := by
    rw [h.driven?_eq]
    cases hdriver : map.driver event.input with
    | none => rfl
    | some name =>
      have hid := map.id?_of_mem (h.registered event.input name hdriver)
      rw [Option.bind_some, hid, Option.bind_some, Option.bind_some]
      exact h.control_eq hid
  rw [← hcontrol, Option.toList_map, List.map_map]
  rfl

/-- Every step on the table is the step on the map. -/
theorem apply (h : Represents bindings map) (step : BindingStep α) :
    Represents (bindings.apply step).1 (map.apply step).1 ∧
      (bindings.apply step).2 = (map.apply step).2 := by
  cases step with
  | add name control =>
    obtain ⟨hnext, hid, hoccurrences⟩ := h.add name control
    refine ⟨hnext, ?_⟩
    rw [Bindings.apply, BindingMap.apply, hid, hoccurrences]
  | bind input name =>
    obtain ⟨hnext, hdone⟩ := h.bind input name
    exact ⟨hnext, congrArg BindingReply.decided hdone⟩
  | bindKey scancode name =>
    obtain ⟨hnext, hdone⟩ := h.bind (.key scancode) name
    exact ⟨hnext, congrArg BindingReply.decided hdone⟩
  | bindKeyName keyName name =>
    rw [Bindings.apply, BindingMap.apply, Bindings.bindKeyName]
    cases KeyName.read keyName with
    | none => exact ⟨h, rfl⟩
    | some scancode =>
      obtain ⟨hnext, hdone⟩ := h.bind (.key scancode) name
      exact ⟨hnext, congrArg BindingReply.decided hdone⟩
  | bindDefinition definition name =>
    obtain ⟨hnext, hdone⟩ := h.bindDefinition definition name
    exact ⟨hnext, congrArg BindingReply.decided hdone⟩
  | bindAll definitions name =>
    obtain ⟨hnext, hcount⟩ := h.bindAll definitions name
    exact ⟨hnext, congrArg BindingReply.counted hcount⟩
  | bindKeys keys =>
    obtain ⟨hnext, hcount⟩ := h.bindEach keys.filled
    exact ⟨hnext, congrArg BindingReply.counted hcount⟩
  | unbind input =>
    obtain ⟨hnext, hdone⟩ := h.unbind input
    exact ⟨hnext, congrArg BindingReply.decided hdone⟩
  | reset => exact ⟨h.reset, rfl⟩
  | fire event =>
    obtain ⟨hnext, hoccurrences⟩ := h.fire event
    exact ⟨hnext, congrArg (BindingReply.mk .silent) hoccurrences⟩

/-- Every run on the table is the run on the map. -/
theorem run (h : Represents bindings map) (steps : List (BindingStep α)) :
    Represents (bindings.run steps).1 (map.run steps).1 ∧
      (bindings.run steps).2 = (map.run steps).2 := by
  induction steps generalizing bindings map with
  | nil => exact ⟨h, rfl⟩
  | cons step rest ih =>
    obtain ⟨hnext, hreply⟩ := h.apply step
    obtain ⟨hlast, hreplies⟩ := ih hnext
    rw [Bindings.run, BindingMap.run]
    exact ⟨hlast, congrArg₂ List.cons hreply hreplies⟩

/-- Names and ids refer to each other. -/
theorem controlId?_iff (h : Represents bindings map) (name : String) (id : ControlId) :
    bindings.controlId? name = some id ↔ bindings.controlName? id = some name := by
  rw [h.controlId?_eq, h.controlName?_eq]
  exact ⟨map.getElem?_names_of_id?, map.id?_of_getElem?_names h.nodup_names⟩

/-- The list of bound inputs is the map, written out. -/
theorem mem_bound_iff (h : Represents bindings map) (input : Input) (id : ControlId) :
    (input, id) ∈ bindings.tables.bound ↔
      ∃ name, map.driver input = some name ∧ bindings.controlId? name = some id := by
  rw [bindings.tables.mem_bound_iff, h.driven?_eq, Option.bind_eq_some_iff]
  simp only [h.controlId?_eq]

end Represents

/-- From an empty table on, whatever is done, the table answers as the map from inputs to names
does, and in the end its controls, its bindings and its list of bound inputs are those of the map.
Only inputs in range are bound, and only to registered names, which their ids lead back to. -/
theorem Bindings.run_refines_map (steps : List (BindingStep α)) :
    let bindings := ((Bindings.empty : Bindings α).run steps).1
    let map := ((BindingMap.empty : BindingMap α).run steps).1
    ((Bindings.empty : Bindings α).run steps).2 =
        ((BindingMap.empty : BindingMap α).run steps).2 ∧
      (∀ input, bindings.boundTo? input = map.driver input) ∧
      (∀ input name, map.driver input = some name → input.InRange ∧ name ∈ map.names) ∧
      (∀ input id, (input, id) ∈ bindings.tables.bound ↔
        ∃ name, map.driver input = some name ∧ bindings.controlId? name = some id) ∧
      (bindings.tables.bound.map (·.1)).Nodup ∧
      bindings.controls.map (fun entry => (entry.name, entry.control)) = map.controls ∧
      (∀ name, (bindings.controlId? name).isSome ↔ name ∈ map.names) ∧
      (∀ name id, bindings.controlId? name = some id ↔ bindings.controlName? id = some name) := by
  intro bindings map
  obtain ⟨h, hreplies⟩ := Represents.empty.run steps
  refine ⟨hreplies, h.boundTo?_eq, fun input name hdriver => ⟨h.inRange hdriver, ?_⟩,
    h.mem_bound_iff, bindings.tables.nodup_map_bound, h.controls_eq, fun name => ?_,
    h.controlId?_iff⟩
  · exact h.registered input name hdriver
  · rw [h.controlId?_eq, BindingMap.id?]
    split
    · next hmem => exact iff_of_true rfl hmem
    · next hmem => exact iff_of_false Bool.false_ne_true hmem

end GameSetup
