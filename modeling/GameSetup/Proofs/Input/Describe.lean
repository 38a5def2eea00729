import GameSetup.Proofs.Input.Rebinding

/-!
# What the screen says about a control

A control is described by the inputs that drive it. Those of the device that was used last are
shown, and if it has none of them, the others. The device used last is that of the last event, even
if nothing was bound to its input. The inputs are found by going through the tables from their
places to the controls, and so they have to agree with the way an event takes, from its input to a
control.
-/

namespace GameSetup

variable {α : Type}

/-- The device that an input belongs to. -/
def Input.device (input : Input) : DeviceClass :=
  if input.isController then .controller else .keyboardMouse

/-- The event that a step fires. -/
def BindingStep.event? : BindingStep α → Option DeviceEvent
  | .fire event => some event
  | _ => none

/-- The device that was used last, whatever its event has met with. -/
def lastDevice (steps : List (BindingStep α)) : DeviceClass :=
  ((steps.filterMap BindingStep.event?).getLast?.map (·.device)).getD .keyboardMouse

/-- The inputs that are shown: those of a device, or if there are none of them, all. -/
def shown (device : DeviceClass) (inputs : List Input) : List Input :=
  if inputs.filter (·.device = device) = [] then inputs
  else inputs.filter (·.device = device)

/-- What is shown is some of the inputs, in their order. -/
theorem shown_sublist (device : DeviceClass) (inputs : List Input) :
    (shown device inputs).Sublist inputs := by
  rw [shown]
  split
  · exact List.Sublist.refl inputs
  · exact List.filter_sublist

/-- Something is shown if there is something to show. -/
theorem shown_eq_nil_iff {device : DeviceClass} {inputs : List Input} :
    shown device inputs = [] ↔ inputs = [] := by
  rw [shown]
  split
  · exact Iff.rfl
  · next hsome => exact iff_of_false hsome fun hnil => hsome (by rw [hnil, List.filter_nil])

/-- An input is shown if it belongs to the device, or if none does. -/
theorem mem_shown_iff {device : DeviceClass} {inputs : List Input} {input : Input} :
    input ∈ shown device inputs ↔
      input ∈ inputs ∧ (input.device = device ∨ ∀ other ∈ inputs, other.device ≠ device) := by
  rw [shown]
  split
  · next hnone =>
    have hother : ∀ other ∈ inputs, other.device ≠ device := fun other hmem => by
      simpa using List.filter_eq_nil_iff.mp hnone other hmem
    exact ⟨fun hmem => ⟨hmem, .inr hother⟩, fun h => h.1⟩
  · next hsome =>
    obtain ⟨own, hown⟩ := List.exists_mem_of_ne_nil _ hsome
    obtain ⟨hmem, hdevice⟩ := List.mem_filter.mp hown
    have hnot : ¬∀ other ∈ inputs, other.device ≠ device := fun hnone =>
      hnone own hmem (of_decide_eq_true hdevice)
    rw [List.mem_filter, decide_eq_true_iff, or_iff_left hnot]

/-- Where a device has no inputs, what is left are the others. -/
theorem ite_filter_eq_shown {own others : Input → Bool} {device : DeviceClass}
    (hown : ∀ input, own input = decide (input.device = device))
    (hothers : ∀ input, others input = decide (input.device ≠ device)) (inputs : List Input) :
    (if inputs.filter own = [] then inputs.filter others else inputs.filter own) =
      shown device inputs := by
  have hsame : inputs.filter own = inputs.filter (·.device = device) :=
    List.filter_congr fun input _ => hown input
  rw [shown, hsame]
  refine ite_congr rfl (fun hnone => ?_) fun _ => rfl
  refine List.filter_eq_self.mpr fun input hmem => (hothers input).trans (decide_eq_true ?_)
  simpa using List.filter_eq_nil_iff.mp hnone input hmem

namespace Bindings

/-- The inputs that are bound to a name, in the order of the tables. -/
def inputsBoundTo (bindings : Bindings α) (name : String) : List Input :=
  Input.inRange.filter (bindings.boundTo? · = some name)

/-- Only an event changes the device that was used last. -/
theorem mode_apply (bindings : Bindings α) (step : BindingStep α) :
    (bindings.apply step).1.mode = (step.event?.map (·.device)).getD bindings.mode := by
  cases step with
  | add name control =>
    change (bindings.add name control).bindings.mode = bindings.mode
    rw [add]
    split <;> rfl
  | bind input name => exact (Rebound.bind bindings input name).mode_eq
  | bindKey scancode name => exact (Rebound.bind bindings (.key scancode) name).mode_eq
  | bindKeyName keyName name => exact (Rebound.bindKeyName bindings keyName name).mode_eq
  | bindDefinition definition name =>
    exact (Rebound.bindDefinition bindings definition name).mode_eq
  | bindAll definitions name => exact (Rebound.bindAll bindings definitions name).mode_eq
  | bindKeys keys => exact (Rebound.bindEach bindings keys.filled).mode_eq
  | unbind input => rfl
  | reset => rfl
  | fire event => rfl

/-- The mode is the device of the last event, if there was one. -/
theorem mode_run (bindings : Bindings α) (steps : List (BindingStep α)) :
    (bindings.run steps).1.mode =
      ((steps.filterMap BindingStep.event?).getLast?.map (·.device)).getD bindings.mode := by
  induction steps generalizing bindings with
  | nil => rfl
  | cons step rest ih =>
    refine (ih (bindings.apply step).1).trans ?_
    rw [mode_apply, List.filterMap_cons]
    cases step.event? with
    | none => rfl
    | some event =>
      rw [List.getLast?_cons]
      cases (rest.filterMap BindingStep.event?).getLast? <;> rfl

/-- What is said about the control of an id: nothing if there is no input to show. -/
theorem describe_of_controlId? (bindings : Bindings α) (name : String) {id : ControlId}
    (hid : bindings.controlId? name = some id) :
    bindings.describe name =
      if shown bindings.mode (bindings.inputsOf id) = [] then none
      else some ("/".intercalate
        ((shown bindings.mode (bindings.inputsOf id)).map Input.text)) := by
  have hcontroller (input : Input) :
      input.isController = decide (input.device = .controller) ∧
        input.isController = decide (input.device ≠ .keyboardMouse) := by
    cases input <;> exact ⟨rfl, rfl⟩
  have hkeyboardMouse (input : Input) :
      (not ∘ Input.isController) input = decide (input.device = .keyboardMouse) ∧
        (not ∘ Input.isController) input = decide (input.device ≠ .controller) := by
    cases input <;> exact ⟨rfl, rfl⟩
  rw [describe, hid, Option.bind_some, List.partition_eq_filter_filter]
  cases bindings.mode with
  | keyboardMouse =>
    have hshown := ite_filter_eq_shown (fun input => (hkeyboardMouse input).1)
      (fun input => (hcontroller input).2) (bindings.inputsOf id)
    simp only [List.isEmpty_iff, hshown]
  | controller =>
    have hshown := ite_filter_eq_shown (fun input => (hcontroller input).1)
      (fun input => (hkeyboardMouse input).2) (bindings.inputsOf id)
    simp only [List.isEmpty_iff, hshown]

end Bindings

namespace Represents

variable {bindings : Bindings α} {map : BindingMap α} {name : String} {id : ControlId}

/-- An input drives the control of a name if it is bound to the name. -/
theorem driven?_eq_some_iff (h : Represents bindings map)
    (hid : bindings.controlId? name = some id) (input : Input) :
    bindings.tables.driven? input = some id ↔ bindings.boundTo? input = some name := by
  rw [h.boundTo?_eq, h.driven?_eq, Option.bind_eq_some_iff]
  rw [h.controlId?_eq] at hid
  constructor
  · rintro ⟨other, hdriver, hother⟩
    have hsame := (map.getElem?_names_of_id? hother).symm.trans (map.getElem?_names_of_id? hid)
    rw [hdriver, Option.some.inj hsame]
  · exact fun hdriver => ⟨name, hdriver, hid⟩

/-- The inputs of a control are those that are bound to its name, in order. -/
theorem inputsOf_eq (h : Represents bindings map) (hid : bindings.controlId? name = some id) :
    bindings.inputsOf id = bindings.inputsBoundTo name := by
  rw [Bindings.inputsOf, Bindings.inputsBoundTo, bindings.tables.bound_eq, List.filter_filterMap,
    List.map_filterMap, ← List.filterMap_eq_filter]
  refine List.filterMap_congr fun input _ => ?_
  have hbound := h.driven?_eq_some_iff hid input
  rw [Option.guard]
  cases hdriven : bindings.tables.driven? input with
  | none =>
    have hnot : bindings.boundTo? input ≠ some name := fun hname => by
      rw [hbound.mpr hname] at hdriven
      cases hdriven
    simp [hnot]
  | some found =>
    rw [hdriven, Option.some.injEq] at hbound
    by_cases hfound : found = id
    · simp [hfound, hbound.mp hfound]
    · simp [hfound, hbound.not.mp hfound]

/-- Whatever is bound to a name is listed for it. -/
theorem mem_inputsBoundTo_iff (h : Represents bindings map) {input : Input} :
    input ∈ bindings.inputsBoundTo name ↔ bindings.boundTo? input = some name := by
  rw [Bindings.inputsBoundTo, List.mem_filter, decide_eq_true_iff, Input.mem_inRange,
    h.boundTo?_eq]
  exact and_iff_right_of_imp h.inRange

/-- A name has no inputs exactly if none is bound to it. -/
theorem inputsBoundTo_eq_nil_iff (h : Represents bindings map) :
    bindings.inputsBoundTo name = [] ↔ ∀ input, bindings.boundTo? input ≠ some name := by
  rw [List.eq_nil_iff_forall_not_mem]
  exact forall_congr' fun input => not_congr h.mem_inputsBoundTo_iff

/-- A name that is not registered has no inputs. -/
theorem boundTo?_ne_of_not_mem (h : Represents bindings map)
    (hname : name ∉ bindings.controlNames) (input : Input) :
    bindings.boundTo? input ≠ some name := by
  rw [h.boundTo?_eq]
  exact fun hdriver => hname (h.controlNames_eq ▸ h.registered input name hdriver)

/-- What is said about a name, registered or not: nothing if there is no input to show. -/
theorem describe_eq (h : Represents bindings map) (name : String) :
    bindings.describe name =
      if shown bindings.mode (bindings.inputsBoundTo name) = [] then none
      else some ("/".intercalate
        ((shown bindings.mode (bindings.inputsBoundTo name)).map Input.text)) := by
  cases hid : bindings.controlId? name with
  | some id => rw [bindings.describe_of_controlId? name hid, h.inputsOf_eq hid]
  | none =>
    have hname : name ∉ bindings.controlNames := fun hmem => by
      rw [h.controlNames_eq] at hmem
      rw [h.controlId?_eq, map.id?_of_mem hmem] at hid
      cases hid
    have hnil := h.inputsBoundTo_eq_nil_iff.mpr (h.boundTo?_ne_of_not_mem hname)
    rw [Bindings.describe, hid, if_pos (shown_eq_nil_iff.mpr hnil), Option.bind_none]

end Represents

/-- Whatever was done to a table, the description of a name is there exactly if the name is
registered and some input is bound to it. It lists, once and in the order of the tables, the inputs
bound to the name that belong to the device used last, or all of them if none does. The device used
last is that of the last event, and the keyboard and the mouse before the first. -/
theorem Bindings.describe_run (steps : List (BindingStep α)) (name : String) :
    let bindings := (Bindings.empty.run steps).1
    bindings.mode = lastDevice steps ∧
      (bindings.describe name = none ↔
        name ∉ bindings.controlNames ∨ ∀ input, bindings.boundTo? input ≠ some name) ∧
      ∀ text, bindings.describe name = some text ↔
        ∃ inputs, inputs ≠ [] ∧ text = "/".intercalate (inputs.map Input.text) ∧
          inputs.Pairwise (·.position < ·.position) ∧
          ∀ input, input ∈ inputs ↔ bindings.boundTo? input = some name ∧
            (input.device = lastDevice steps ∨
              ∀ other, bindings.boundTo? other = some name → other.device ≠ lastDevice steps) := by
  intro bindings
  have h : Represents bindings (BindingMap.empty.run steps).1 := (Represents.empty.run steps).1
  have hmode : bindings.mode = lastDevice steps := Bindings.empty.mode_run steps
  have hdescribe := h.describe_eq name
  have hsorted : (shown bindings.mode (bindings.inputsBoundTo name)).Pairwise
      (·.position < ·.position) :=
    Input.pairwise_inRange.sublist ((shown_sublist _ _).trans List.filter_sublist)
  have hmem (input : Input) : input ∈ shown bindings.mode (bindings.inputsBoundTo name) ↔
      bindings.boundTo? input = some name ∧ (input.device = lastDevice steps ∨
        ∀ other, bindings.boundTo? other = some name → other.device ≠ lastDevice steps) := by
    simp only [mem_shown_iff, h.mem_inputsBoundTo_iff, hmode]
  refine ⟨hmode, ?_, fun text => ?_⟩
  · rw [or_iff_right_of_imp h.boundTo?_ne_of_not_mem, ← h.inputsBoundTo_eq_nil_iff,
      ← @shown_eq_nil_iff bindings.mode, hdescribe]
    split
    · next hnil => exact iff_of_true rfl hnil
    · next hsome => exact iff_of_false (by simp) hsome
  · rw [hdescribe]
    constructor
    · intro htext
      split at htext
      · cases htext
      · next hsome => exact ⟨_, hsome, (Option.some.inj htext).symm, hsorted, hmem⟩
    · rintro ⟨inputs, hsome, rfl, hpairwise, hinputs⟩
      have hsame : inputs = shown bindings.mode (bindings.inputsBoundTo name) :=
        Input.eq_of_pairwise hpairwise hsorted fun input => (hinputs input).trans (hmem input).symm
      rw [← hsame, if_neg hsome]

end GameSetup
