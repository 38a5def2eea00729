import GameSetup.Proofs.Input.Refinement

/-!
# Telling controls apart

A binding table never looks at its controls. So they can be marked before they are handed over, each
with the position of its registration, and nothing else about a run changes. A marked control is
recognised wherever it turns up, even if the same control is handed over twice.
-/

namespace GameSetup

variable {α β : Type}

/-- The step with another control. -/
def BindingStep.map (f : α → β) : BindingStep α → BindingStep β
  | .add name control => .add name (f control)
  | .bind input name => .bind input name
  | .bindKey scancode name => .bindKey scancode name
  | .bindKeyName keyName name => .bindKeyName keyName name
  | .bindDefinition definition name => .bindDefinition definition name
  | .bindAll definitions name => .bindAll definitions name
  | .bindKeys keys => .bindKeys keys
  | .unbind input => .unbind input
  | .reset => .reset
  | .fire event => .fire event

/-- What happens, to another control. -/
def Occurrence.map (f : α → β) : Occurrence α → Occurrence β
  | .delivered control state => .delivered (f control) state
  | .dropped control => .dropped (f control)

/-- The same answer, with what becomes of other controls. -/
def BindingReply.map (f : α → β) (reply : BindingReply α) : BindingReply β :=
  ⟨reply.answer, reply.occurrences.map (Occurrence.map f)⟩

/-- The steps, with each control marked by its position among them. -/
def numbered (steps : List (BindingStep α)) : List (BindingStep (Nat × α)) :=
  steps.zipIdx.map fun (step, position) => step.map (position, ·)

/-- Without the marks, the steps are what they were. -/
theorem map_numbered (steps : List (BindingStep α)) :
    (numbered steps).map (BindingStep.map Prod.snd) = steps := by
  have hstep (step : BindingStep α) (position : Nat) :
      (step.map (position, ·)).map Prod.snd = step := by
    cases step <;> rfl
  rw [numbered, List.map_map]
  calc
    steps.zipIdx.map (BindingStep.map Prod.snd ∘ fun (step, position) => step.map (position, ·)) =
        steps.zipIdx.map Prod.fst := List.map_congr_left fun entry _ => hstep entry.1 entry.2
    _ = steps := List.zipIdx_map_fst 0 steps

/-- Numbering neither adds nor drops a step. -/
theorem length_numbered (steps : List (BindingStep α)) :
    (numbered steps).length = steps.length := by
  rw [numbered, List.length_map, List.length_zipIdx]

/-- Each step carries its own place. -/
theorem getElem?_numbered (steps : List (BindingStep α)) (position : Nat) :
    (numbered steps)[position]? = (steps[position]?).map (·.map (position, ·)) := by
  rw [numbered, List.getElem?_map, List.getElem?_zipIdx, Option.map_map, Nat.zero_add]
  rfl

/-- The first steps are marked on their own. -/
theorem take_numbered (steps : List (BindingStep α)) (count : Nat) :
    (numbered steps).take count = numbered (steps.take count) := by
  refine List.ext_getElem? fun position => ?_
  rw [List.getElem?_take, getElem?_numbered, getElem?_numbered, List.getElem?_take]
  split <;> rfl

namespace BindingMap

/-- The map with other controls. -/
def mapControls (f : α → β) (map : BindingMap α) : BindingMap β :=
  ⟨map.controls.map fun entry => (entry.1, f entry.2), map.driver⟩

variable (f : α → β) (map : BindingMap α)

/-- A change of the controls is none of the names. -/
@[simp] theorem names_mapControls : (map.mapControls f).names = map.names := by
  rw [names, mapControls, List.map_map]
  rfl

/-- The control of a name is changed with the others. -/
@[simp] theorem control?_mapControls (name : String) :
    (map.mapControls f).control? name = (map.control? name).map f := by
  rw [control?, mapControls, control?]
  induction map.controls with
  | nil => rfl
  | cons entry rest ih =>
    rw [List.map_cons, List.lookup_cons, List.lookup_cons, ih]
    cases name == entry.1 <;> rfl

/-- It is none of the ids. -/
@[simp] theorem id?_mapControls (name : String) :
    (map.mapControls f).id? name = map.id? name := by
  rw [id?, id?, names_mapControls]

/-- Another control is entered where the control is. -/
theorem add_mapControls (name : String) (control : α) :
    (map.mapControls f).add name (f control) = (map.add name control).mapControls f := by
  have henter (entries : List (String × α)) :
      Keyed.enter name (fun _ => f control) (entries.map fun entry => (entry.1, f entry.2)) =
        (Keyed.enter name (fun _ => control) entries).map fun entry => (entry.1, f entry.2) := by
    induction entries with
    | nil => rfl
    | cons entry rest ih =>
      rw [List.map_cons, Keyed.enter, Keyed.enter, ih]
      split <;> rfl
  exact congrArg (BindingMap.mk · map.driver) (henter map.controls)

/-- Binding goes the same way with changed controls. -/
theorem bind_mapControls (input : Input) (name : String) :
    (map.mapControls f).bind input name =
      ((map.bind input name).1.mapControls f, (map.bind input name).2) := by
  rw [bind, bind, names_mapControls]
  split <;> rfl

/-- So does binding one after another. -/
theorem bindEach_mapControls (pairs : List (Input × String)) :
    (map.mapControls f).bindEach pairs =
      ((map.bindEach pairs).1.mapControls f, (map.bindEach pairs).2) := by
  induction pairs generalizing map with
  | nil => rfl
  | cons pair rest ih =>
    obtain ⟨input, name⟩ := pair
    simp only [bindEach, bind_mapControls, ih]

/-- So does unbinding. -/
theorem unbind_mapControls (input : Input) :
    (map.mapControls f).unbind input =
      ((map.unbind input).1.mapControls f, (map.unbind input).2) := by
  rw [unbind, unbind]
  split <;> rfl

/-- A step does the same with other controls. -/
theorem apply_mapControls (step : BindingStep α) :
    (map.mapControls f).apply (step.map f) =
      ((map.apply step).1.mapControls f, (map.apply step).2.map f) := by
  cases step with
  | add name control =>
    simp only [BindingStep.map, apply, add_mapControls, id?_mapControls, names_mapControls,
      control?_mapControls, BindingReply.map, Option.toList_map, List.map_map]
    rfl
  | bind input name => simp only [BindingStep.map, apply, bind_mapControls]; rfl
  | bindKey scancode name => simp only [BindingStep.map, apply, bind_mapControls]; rfl
  | bindKeyName keyName name =>
    simp only [BindingStep.map, apply, bind_mapControls]
    split <;> rfl
  | bindDefinition definition name => simp only [BindingStep.map, apply, bind_mapControls]; rfl
  | bindAll definitions name => simp only [BindingStep.map, apply, bindEach_mapControls]; rfl
  | bindKeys keys => simp only [BindingStep.map, apply, bindEach_mapControls]; rfl
  | unbind input => simp only [BindingStep.map, apply, unbind_mapControls]; rfl
  | reset => rfl
  | fire event =>
    have hcontrol : ((map.mapControls f).driver event.input).bind (map.mapControls f).control? =
        ((map.driver event.input).bind map.control?).map f := by
      change (map.driver event.input).bind _ = _
      cases map.driver event.input with
      | none => rfl
      | some name => exact map.control?_mapControls f name
    simp only [BindingStep.map, apply, hcontrol, BindingReply.map, Option.toList_map, List.map_map]
    rfl

/-- So does a run. -/
theorem run_mapControls (steps : List (BindingStep α)) :
    (map.mapControls f).run (steps.map (BindingStep.map f)) =
      ((map.run steps).1.mapControls f, (map.run steps).2.map (BindingReply.map f)) := by
  induction steps generalizing map with
  | nil => rfl
  | cons step rest ih => simp only [List.map_cons, run, apply_mapControls, ih]

end BindingMap

end GameSetup
