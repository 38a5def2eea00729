import GameSetup.Proofs.Input.Numbering

/-!
# What becomes of the controls

The trace of a run says for every step what became of the controls, with the closing of the table at
the end. A step changes the controls only by handing one over, so what it does is told by the
controls that were handed over before: a registration gives up the last control of the same name,
and an event reaches the last control of the name that is bound to its input.
-/

namespace GameSetup

variable {α : Type}

/-- The name and the control that a step hands over. -/
def BindingStep.handed? : BindingStep α → Option (String × α)
  | .add name control => some (name, control)
  | .bind _ _ => none
  | .bindKey _ _ => none
  | .bindKeyName _ _ => none
  | .bindDefinition _ _ => none
  | .bindAll _ _ => none
  | .bindKeys _ => none
  | .unbind _ => none
  | .reset => none
  | .fire _ => none

/-- The controls that some steps hand over, with their names. -/
def handed (steps : List (BindingStep α)) : List (String × α) :=
  steps.filterMap BindingStep.handed?

/-- The names of these controls, in order of first registration. -/
def namesOf (steps : List (BindingStep α)) : List String :=
  ((handed steps).map (·.1)).eraseDups

/-- The control that was handed over last under a name. -/
def holder? (steps : List (BindingStep α)) (name : String) : Option α :=
  (handed steps).reverse.lookup name

/-- What a step does to the controls, given the steps before it: it gives up the control whose name
it registers, or delivers a state to the control of the name that is bound. -/
def BindingStep.effect (before : List (BindingStep α)) : BindingStep α → List (Occurrence α)
  | .add name _ => (holder? before name).toList.map .dropped
  | .fire event =>
    (((Bindings.empty.run before).1.boundTo? event.input).bind (holder? before)).toList.map
      (.delivered · event.state)
  | .bind _ _ => []
  | .bindKey _ _ => []
  | .bindKeyName _ _ => []
  | .bindDefinition _ _ => []
  | .bindAll _ _ => []
  | .bindKeys _ => []
  | .unbind _ => []
  | .reset => []

/-- What becomes of the controls, step by step, and when the table is closed. -/
def Bindings.trace (steps : List (BindingStep α)) : List (List (Occurrence α)) :=
  let (last, replies) := (Bindings.empty : Bindings α).run steps
  replies.map (·.occurrences) ++ [last.close]

/-- The control that is given up. -/
def Occurrence.dropped? : Occurrence α → Option α
  | .dropped control => some control
  | .delivered _ _ => none

/-- The first step hands its control over first. -/
theorem handed_cons (step : BindingStep α) (steps : List (BindingStep α)) :
    handed (step :: steps) = step.handed?.toList ++ handed steps := by
  rw [handed, List.filterMap_cons]
  cases step.handed? <;> rfl

namespace BindingMap

variable (map : BindingMap α)

/-- A registered name has a control. -/
theorem isSome_control?_of_mem {map : BindingMap α} {name : String} (h : name ∈ map.names) :
    (map.control? name).isSome = true := by
  obtain ⟨entry, hentry, rfl⟩ := List.mem_map.mp h
  by_contra hnone
  have hne := List.lookup_eq_none_iff.mp (Option.not_isSome_iff_eq_none.mp hnone) entry hentry
  simp at hne

/-- Unbinding leaves the controls alone. -/
theorem controls_unbind (input : Input) : (map.unbind input).1.controls = map.controls := by
  rw [unbind]
  split <;> rfl

/-- Only a registration changes the controls. -/
theorem controls_apply (step : BindingStep α) :
    (map.apply step).1.controls = step.handed?.toList.foldl
      (fun entered entry => Keyed.enter entry.1 (fun _ => entry.2) entered) map.controls := by
  cases step with
  | add name control => rfl
  | bind input name => exact map.controls_bind input name
  | bindKey scancode name => exact map.controls_bind (.key scancode) name
  | bindKeyName keyName name =>
    rw [apply]
    split
    · exact map.controls_bind (.key _) name
    · rfl
  | bindDefinition definition name => exact map.controls_bind (.ofDefinition definition) name
  | bindAll definitions name => exact map.controls_bindEach _
  | bindKeys keys => exact map.controls_bindEach _
  | unbind input => exact map.controls_unbind input
  | reset => rfl
  | fire event => rfl

/-- After a run the controls are those handed over, each entered under its name. -/
theorem controls_run (steps : List (BindingStep α)) :
    (map.run steps).1.controls = (handed steps).foldl
      (fun entered entry => Keyed.enter entry.1 (fun _ => entry.2) entered) map.controls := by
  induction steps generalizing map with
  | nil => rfl
  | cons step rest ih =>
    rw [handed_cons, List.foldl_append, ← map.controls_apply step]
    exact ih (map.apply step).1

/-- After some steps, the control of a name is the one that was handed over last. -/
theorem control?_run_empty (steps : List (BindingStep α)) (name : String) :
    (BindingMap.empty.run steps).1.control? name = holder? steps name := by
  rw [control?, controls_run]
  exact Keyed.lookup_enterAll (handed steps) name

/-- The names are listed as they are registered for the first time. -/
theorem names_run_empty (steps : List (BindingStep α)) :
    (BindingMap.empty.run steps).1.names = namesOf steps := by
  rw [names, controls_run]
  exact Keyed.keys_enterAll (handed steps)

/-- The reply to a step is that of the map that the steps before it have left. -/
theorem getElem?_replies_run (steps : List (BindingStep α)) (position : Nat) :
    (map.run steps).2[position]? =
      (steps[position]?).map fun step => ((map.run (steps.take position)).1.apply step).2 := by
  induction steps generalizing map position with
  | nil => rfl
  | cons step rest ih =>
    cases position with
    | zero => rfl
    | succ position => exact ih (map.apply step).1 position

/-- Every step has a reply. -/
theorem length_replies_run (steps : List (BindingStep α)) :
    (map.run steps).2.length = steps.length := by
  induction steps generalizing map with
  | nil => rfl
  | cons step rest ih => exact congrArg (· + 1) (ih (map.apply step).1)

/-- What a step does to the controls is told by the steps before it. -/
theorem occurrences_apply_run_empty (before : List (BindingStep α)) (step : BindingStep α) :
    ((BindingMap.empty.run before).1.apply step).2.occurrences = step.effect before := by
  cases step with
  | add name control =>
    rw [BindingStep.effect, ← control?_run_empty]
    rfl
  | bindKeyName keyName name =>
    rw [apply]
    split <;> rfl
  | fire event =>
    have hcontrol : (BindingMap.empty.run before).1.control? = holder? before :=
      funext fun name => control?_run_empty before name
    rw [BindingStep.effect, (Represents.empty.run before).1.boundTo?_eq, ← hcontrol]
    rfl
  | bind _ _ | bindKey _ _ | bindDefinition _ _ | bindAll _ _ | bindKeys _ | unbind _ | reset => rfl

/-- What is given up in a step, and what is left, is what there was and what is handed over. -/
theorem perm_dropped_apply (step : BindingStep α) :
    ((map.apply step).2.occurrences.filterMap Occurrence.dropped? ++
        (map.apply step).1.controls.map (·.2)).Perm
      (map.controls.map (·.2) ++ step.handed?.toList.map (·.2)) := by
  -- Any step but a registration leaves the controls alone and gives none up.
  have hkept (hnone : step.handed? = none)
      (hdropped : (map.apply step).2.occurrences.filterMap Occurrence.dropped? = []) :
      ((map.apply step).2.occurrences.filterMap Occurrence.dropped? ++
          (map.apply step).1.controls.map (·.2)).Perm
        (map.controls.map (·.2) ++ step.handed?.toList.map (·.2)) := by
    rw [hdropped, map.controls_apply, hnone, List.nil_append]
    exact List.Perm.of_eq (List.append_nil _).symm
  cases step with
  | add name control =>
    have hdropped : ((map.control? name).toList.map Occurrence.dropped).filterMap
        Occurrence.dropped? = (map.control? name).toList := by
      cases map.control? name <;> rfl
    change (((map.control? name).toList.map Occurrence.dropped).filterMap _ ++ _).Perm _
    rw [hdropped]
    exact Keyed.perm_enter name control map.controls
  | bindKeyName keyName name =>
    refine hkept rfl ?_
    rw [apply]
    split <;> rfl
  | fire event =>
    refine hkept rfl ?_
    change (((map.driver event.input).bind map.control?).toList.map
      (Occurrence.delivered · event.state)).filterMap _ = []
    cases (map.driver event.input).bind map.control? <;> rfl
  | bind _ _ | bindKey _ _ | bindDefinition _ _ | bindAll _ _ | bindKeys _ | unbind _ | reset =>
    exact hkept rfl rfl

/-- So it is in a run. -/
theorem perm_dropped_run (steps : List (BindingStep α)) :
    (((map.run steps).2.flatMap (·.occurrences)).filterMap Occurrence.dropped? ++
        (map.run steps).1.controls.map (·.2)).Perm
      (map.controls.map (·.2) ++ (handed steps).map (·.2)) := by
  induction steps generalizing map with
  | nil => exact List.Perm.of_eq (List.append_nil _).symm
  | cons step rest ih =>
    have hnext := (ih (map.apply step).1).append_left
      ((map.apply step).2.occurrences.filterMap Occurrence.dropped?)
    rw [run, List.flatMap_cons, List.filterMap_append, handed_cons, List.map_append,
      List.append_assoc]
    refine hnext.trans ?_
    rw [← List.append_assoc, ← List.append_assoc]
    exact (map.perm_dropped_apply step).append_right _

end BindingMap

namespace Bindings

/-- The trace of a table is that of the map that it stands for. -/
theorem trace_eq (steps : List (BindingStep α)) :
    trace steps = (BindingMap.empty.run steps).2.map (·.occurrences) ++
      [(BindingMap.empty.run steps).1.controls.map fun entry => .dropped entry.2] := by
  obtain ⟨h, hreplies⟩ := Represents.empty.run steps
  have hclose : (Bindings.empty.run steps).1.close =
      (BindingMap.empty.run steps).1.controls.map fun entry => .dropped entry.2 := by
    rw [← h.controls_eq, List.map_map]
    rfl
  rw [← hclose, ← hreplies]
  rfl

/-- A trace has one state more than there are steps. -/
theorem length_trace (steps : List (BindingStep α)) :
    (trace steps).length = steps.length + 1 := by
  rw [trace_eq, List.length_append, List.length_map, BindingMap.length_replies_run,
    List.length_singleton]

/-- What a step does is told by the steps before it. -/
theorem getElem?_trace {steps : List (BindingStep α)} {position : Nat} {step : BindingStep α}
    (h : steps[position]? = some step) :
    (trace steps)[position]? = some (step.effect (steps.take position)) := by
  have hlength := (List.getElem?_eq_some_iff.mp h).1
  rw [trace_eq, List.getElem?_append_left (by simpa [BindingMap.length_replies_run] using hlength),
    List.getElem?_map, BindingMap.getElem?_replies_run, h]
  exact congrArg some (BindingMap.occurrences_apply_run_empty _ step)

/-- Closing the table gives up the controls that are left, in the order of their names. -/
theorem getElem?_trace_length (steps : List (BindingStep α)) :
    (trace steps)[steps.length]? =
      some (((namesOf steps).filterMap (holder? steps)).map .dropped) := by
  have hlength : ((BindingMap.empty.run steps).2.map
      (·.occurrences)).length = steps.length := by
    rw [List.length_map, BindingMap.length_replies_run]
  have hholders : (namesOf steps).filterMap (holder? steps) =
      (BindingMap.empty.run steps).1.controls.map (·.2) := by
    have hnodup := (Represents.empty.run steps).1.nodup_names
    rw [← Keyed.filterMap_lookup_keys hnodup, ← BindingMap.names_run_empty]
    exact List.filterMap_congr fun name _ => (BindingMap.control?_run_empty steps name).symm
  rw [trace_eq, List.getElem?_append_right (Nat.le_of_eq hlength), hlength, Nat.sub_self,
    List.getElem?_cons_zero, hholders, List.map_map]
  rfl

example : trace [.add "fire" 1, .bind (.mouseButton 1) "fire", .add "fire" 2,
    .fire (.mouseButton 1 true), .reset, .fire (.mouseButton 1 false)] =
      [[], [], [.dropped 1], [.delivered 2 0x7fff], [], [], [.dropped 2]] := by
  decide

/-- A name that is bound has a control. -/
theorem exists_holder?_of_boundTo? {steps : List (BindingStep α)} {input : Input} {name : String}
    (h : (Bindings.empty.run steps).1.boundTo? input = some name) :
    input.InRange ∧ (holder? steps name).isSome = true := by
  have hrun := (Represents.empty.run steps).1
  rw [hrun.boundTo?_eq] at h
  rw [← BindingMap.control?_run_empty]
  exact ⟨hrun.inRange h, BindingMap.isSome_control?_of_mem (hrun.registered input name h)⟩

/-- Marks change nothing else about a trace. -/
theorem trace_numbered (steps : List (BindingStep α)) :
    (trace (numbered steps)).map (List.map (Occurrence.map Prod.snd)) = trace steps := by
  have hrun := (BindingMap.empty : BindingMap (Nat × α)).run_mapControls Prod.snd (numbered steps)
  have hempty : (BindingMap.empty : BindingMap (Nat × α)).mapControls Prod.snd = .empty := rfl
  rw [map_numbered, hempty] at hrun
  rw [trace_eq, trace_eq, hrun, List.map_append, List.map_map, List.map_map]
  simp only [BindingMap.mapControls, List.map_map, List.map_cons, List.map_nil]
  rfl

/-- Every control that is handed over is given up once, as often as it is handed over. -/
theorem perm_dropped (steps : List (BindingStep α)) :
    ((trace steps).flatten.filterMap Occurrence.dropped?).Perm ((handed steps).map (·.2)) := by
  have hrun := (BindingMap.empty : BindingMap α).perm_dropped_run steps
  have hclose (entries : List (String × α)) :
      (entries.map fun entry => Occurrence.dropped entry.2).filterMap Occurrence.dropped? =
        entries.map (·.2) := by
    rw [List.filterMap_map, ← List.filterMap_eq_map]
    rfl
  rw [trace_eq, List.flatten_append, List.filterMap_append, List.flatten_singleton, hclose,
    ← List.flatMap_def]
  exact hrun

end Bindings

end GameSetup
