import GameSetup.Input.Bindings
import GameSetup.Proofs.Input.Places
import GameSetup.Proofs.Keyed
import Mathlib.Logic.Function.Basic

/-!
# Bindings as a map

What a binding table is for, without its tables: controls under names, and for each input the name
of the control that it drives. The last binding of an input counts. Operations on the map answer as
those on the table are meant to.

A control that takes the place of another leaves the names alone, and a new name comes last, so the
ids of the names stay what they are.
-/

namespace GameSetup

/-- A change at a place carries over to the image of the list. -/
theorem map_modify_of_comm {α β : Type} (view : α → β) {change : α → α} (seen : β → β)
    (h : ∀ entry, view (change entry) = seen (view entry)) (entries : List α) (place : Nat) :
    (entries.modify place change).map view = (entries.map view).modify place seen := by
  refine List.ext_getElem? fun position => ?_
  rw [List.getElem?_map, List.getElem?_modify, List.getElem?_modify, List.getElem?_map]
  cases entries[position]? with
  | none => rfl
  | some entry =>
    by_cases hplace : place = position
    · simp [hplace, h]
    · simp [hplace]

/-- Controls under names, and what each input drives. -/
structure BindingMap (α : Type) where
  /-- The controls, in order of first registration. -/
  controls : List (String × α)
  /-- The name of the control that an input drives. -/
  driver : Input → Option String

/-- What can be done to a binding table. -/
inductive BindingStep (α : Type) where
  | add (name : String) (control : α)
  | bind (input : Input) (name : String)
  | bindKey (scancode : Scancode) (name : String)
  | bindKeyName (keyName name : String)
  | bindDefinition (definition name : String)
  | bindAll (definitions : List String) (name : String)
  | bindKeys (keys : Keys)
  | unbind (input : Input)
  | reset
  | fire (event : DeviceEvent)

/-- What a step answers. -/
inductive BindingAnswer where
  | registered (id : ControlId)
  | decided (done : Bool)
  | counted (count : Nat)
  | silent
  deriving DecidableEq, Repr

/-- What a step answers, and what becomes of the controls. -/
structure BindingReply (α : Type) where
  answer : BindingAnswer
  occurrences : List (Occurrence α)
  deriving DecidableEq, Repr

/-- The answer to whether something was done. No control is concerned. -/
def BindingReply.decided {α : Type} (done : Bool) : BindingReply α := ⟨.decided done, []⟩

/-- The answer to how often something was done. -/
def BindingReply.counted {α : Type} (count : Nat) : BindingReply α := ⟨.counted count, []⟩

namespace BindingMap

variable {α : Type}

/-- No controls, and nothing bound. -/
def empty : BindingMap α := ⟨[], fun _ => none⟩

/-- The registered names, in order of first registration. -/
def names (map : BindingMap α) : List String :=
  map.controls.map (·.1)

/-- The control of a name. -/
def control? (map : BindingMap α) (name : String) : Option α :=
  map.controls.lookup name

/-- The id of a registered name counts the names before it. -/
def id? (map : BindingMap α) (name : String) : Option ControlId :=
  if name ∈ map.names then some ⟨map.names.idxOf name⟩ else none

/-- Registers a control, in the place of that of the same name if there is one. -/
def add (map : BindingMap α) (name : String) (control : α) : BindingMap α :=
  { map with controls := Keyed.enter name (fun _ => control) map.controls }

/-- Binds an input in range to a registered name. -/
def bind (map : BindingMap α) (input : Input) (name : String) : BindingMap α × Bool :=
  if name ∈ map.names ∧ input.InRange then
    ({ map with driver := Function.update map.driver input (some name) }, true)
  else
    (map, false)

/-- Binds several inputs, and counts those that succeed. -/
def bindEach (map : BindingMap α) : List (Input × String) → BindingMap α × Nat
  | [] => (map, 0)
  | (input, name) :: rest =>
    let (next, bound) := map.bind input name
    let (last, count) := next.bindEach rest
    (last, (if bound then 1 else 0) + count)

/-- Frees an input in range. -/
def unbind (map : BindingMap α) (input : Input) : BindingMap α × Bool :=
  if input.InRange then ({ map with driver := Function.update map.driver input none }, true)
  else (map, false)

/-- Frees every input. -/
def reset (map : BindingMap α) : BindingMap α :=
  { map with driver := fun _ => none }

/-- The map after a step, and the reply. A known name keeps its id, and a new one takes the next. -/
def apply (map : BindingMap α) : BindingStep α → BindingMap α × BindingReply α
  | .add name control =>
    (map.add name control,
      ⟨.registered ((map.id? name).getD ⟨map.names.length⟩),
        (map.control? name).toList.map .dropped⟩)
  | .bind input name =>
    let (next, done) := map.bind input name
    (next, .decided done)
  | .bindKey scancode name =>
    let (next, done) := map.bind (.key scancode) name
    (next, .decided done)
  | .bindKeyName keyName name =>
    match KeyName.read keyName with
    | some scancode =>
      let (next, done) := map.bind (.key scancode) name
      (next, .decided done)
    | none => (map, .decided false)
  | .bindDefinition definition name =>
    let (next, done) := map.bind (.ofDefinition definition) name
    (next, .decided done)
  | .bindAll definitions name =>
    let (next, count) := map.bindEach (definitions.map (.ofDefinition ·, name))
    (next, .counted count)
  | .bindKeys keys =>
    let (next, count) := map.bindEach
      (keys.filled.map fun (slot, scancode) => (.key scancode, slot.name))
    (next, .counted count)
  | .unbind input =>
    let (next, done) := map.unbind input
    (next, .decided done)
  | .reset => (map.reset, ⟨.silent, []⟩)
  | .fire event =>
    (map, ⟨.silent, ((map.driver event.input).bind map.control?).toList.map
      (.delivered · event.state)⟩)

/-- The map after some steps, and the replies. -/
def run (map : BindingMap α) : List (BindingStep α) → BindingMap α × List (BindingReply α)
  | [] => (map, [])
  | step :: rest =>
    let (next, reply) := map.apply step
    let (last, replies) := next.run rest
    (last, reply :: replies)

example :
    ((empty.run [.add "fire" 1, .add "jump" 2, .bind (.mouseButton 1) "fire",
      .bind (.mouseButton 1) "jump", .bind (.mouseButton 32) "jump"]).1.driver (.mouseButton 1)) =
        some "jump" := by
  decide

/-- A control of a known name takes the place of the old one. -/
theorem names_add_of_mem {map : BindingMap α} {name : String} (h : name ∈ map.names)
    (control : α) : (map.add name control).names = map.names :=
  (Keyed.keys_enter name _ map.controls).trans (if_pos h)

/-- A new name comes last. -/
theorem names_add_of_not_mem {map : BindingMap α} {name : String} (h : name ∉ map.names)
    (control : α) : (map.add name control).names = map.names ++ [name] :=
  (Keyed.keys_enter name _ map.controls).trans (if_neg h)

/-- A registered name has the id of its place. -/
theorem id?_of_mem {map : BindingMap α} {name : String} (h : name ∈ map.names) :
    map.id? name = some ⟨map.names.idxOf name⟩ := if_pos h

/-- Any other name has none. -/
theorem id?_of_not_mem {map : BindingMap α} {name : String} (h : name ∉ map.names) :
    map.id? name = none := if_neg h

/-- A new name takes the next id, and the others keep theirs. -/
theorem id?_add_of_not_mem {map : BindingMap α} {name : String} (h : name ∉ map.names)
    (control : α) (other : String) :
    (map.add name control).id? other =
      if other = name then some ⟨map.names.length⟩ else map.id? other := by
  rw [id?, id?, names_add_of_not_mem h]
  by_cases hother : other = name
  · subst hother
    rw [if_pos rfl, if_pos (List.mem_append_right _ List.mem_cons_self),
      List.idxOf_append_of_notMem h, List.idxOf_cons_self]
    rfl
  · rw [if_neg hother]
    by_cases hmem : other ∈ map.names
    · rw [if_pos hmem, if_pos (List.mem_append_left _ hmem), List.idxOf_append_of_mem hmem]
    · have hnew : other ∉ map.names ++ [name] := fun hin =>
        (List.mem_append.mp hin).elim hmem fun hlast => hother (List.mem_singleton.mp hlast)
      rw [if_neg hmem, if_neg hnew]

/-- Registered names stay registered. -/
theorem mem_names_add {map : BindingMap α} {name other : String} (h : other ∈ map.names)
    (control : α) : other ∈ (map.add name control).names := by
  by_cases hname : name ∈ map.names
  · rw [names_add_of_mem hname]
    exact h
  · rw [names_add_of_not_mem hname]
    exact List.mem_append_left _ h

/-- The id of a name leads back to the name. -/
theorem getElem?_names_of_id? {map : BindingMap α} {name : String} {id : ControlId}
    (h : map.id? name = some id) : map.names[id.position]? = some name := by
  rw [id?] at h
  split at h
  · next hmem =>
    cases h
    exact List.getElem?_idxOf hmem
  · cases h

/-- Where no name is registered twice, a position leads to the id that leads to it. -/
theorem id?_of_getElem?_names {map : BindingMap α} (hnodup : map.names.Nodup) {name : String}
    {id : ControlId} (h : map.names[id.position]? = some name) : map.id? name = some id := by
  obtain ⟨hposition, rfl⟩ := List.getElem?_eq_some_iff.mp h
  rw [id?, if_pos (List.getElem_mem hposition), hnodup.idxOf_getElem]

/-- The control of a name is the one at the position of its id. -/
theorem getElem?_controls_of_id? {map : BindingMap α} {name : String} {id : ControlId}
    (h : map.id? name = some id) : (map.controls[id.position]?).map (·.2) = map.control? name := by
  rw [id?] at h
  split at h
  · cases h
    exact Keyed.getElem?_idxOf name map.controls
  · cases h

/-- Bindings do not concern the controls. -/
theorem controls_bind (map : BindingMap α) (input : Input) (name : String) :
    (map.bind input name).1.controls = map.controls := by
  rw [bind]
  split <;> rfl

/-- Binding leaves the controls alone. -/
theorem controls_bindEach (map : BindingMap α) (pairs : List (Input × String)) :
    (map.bindEach pairs).1.controls = map.controls := by
  induction pairs generalizing map with
  | nil => rfl
  | cons pair rest ih => exact (ih _).trans (map.controls_bind pair.1 pair.2)

end BindingMap

namespace Bindings

variable {α : Type}

/-- The table after a step, and the reply. -/
def apply (bindings : Bindings α) : BindingStep α → Bindings α × BindingReply α
  | .add name control =>
    let registered := bindings.add name control
    (registered.bindings, ⟨.registered registered.id, registered.occurrences⟩)
  | .bind input name =>
    let (next, done, _) := bindings.bind input name
    (next, .decided done)
  | .bindKey scancode name =>
    let (next, done, _) := bindings.bind (.key scancode) name
    (next, .decided done)
  | .bindKeyName keyName name =>
    let (next, done, _) := bindings.bindKeyName keyName name
    (next, .decided done)
  | .bindDefinition definition name =>
    let (next, done, _) := bindings.bindDefinition definition name
    (next, .decided done)
  | .bindAll definitions name =>
    let (next, count, _) := bindings.bindAll definitions name
    (next, .counted count)
  | .bindKeys keys =>
    let (next, count, _) := bindings.bindKeys keys
    (next, .counted count)
  | .unbind input =>
    let (next, done) := bindings.unbind input
    (next, .decided done)
  | .reset => (bindings.reset, ⟨.silent, []⟩)
  | .fire event =>
    let (next, occurrences) := bindings.fire event
    (next, ⟨.silent, occurrences⟩)

/-- The table after some steps, and the replies. -/
def run (bindings : Bindings α) : List (BindingStep α) → Bindings α × List (BindingReply α)
  | [] => (bindings, [])
  | step :: rest =>
    let (next, reply) := bindings.apply step
    let (last, replies) := next.run rest
    (last, reply :: replies)

end Bindings

end GameSetup
