import GameSetup.Proofs.Input.Trace

/-!
# How long a control lives

A control is handed over when it is registered, and it is given up once: when the next control is
registered under its name, or else when the table is closed. In between it is the one that is driven
by what is bound to its name, and afterwards nothing reaches it.

Controls are told apart by the positions of their registration, so that a control that is handed
over twice counts as two.
-/

namespace GameSetup

variable {α : Type}

/-- Whether a control is registered under a name at a position. -/
def RegistersAt (steps : List (BindingStep α)) (name : String) (position : Nat) : Prop :=
  ∃ control, steps[position]? = some (.add name control)

/-- Whether what was registered under a name at a position still has the name right before a later
one. -/
def HeldUntil (steps : List (BindingStep α)) (name : String) (start later : Nat) : Prop :=
  start < later ∧ ∀ between, start < between → between < later → ¬RegistersAt steps name between

/-- Whether the control with a mark is given up. -/
def Occurrence.drops (mark : Nat) (occurrence : Occurrence (Nat × α)) : Bool :=
  occurrence.dropped?.any (·.1 == mark)

/-- What becomes of the controls at a position, each marked with that of its registration. Behind
the last step, the table is closed. -/
def occurrencesAt (steps : List (BindingStep α)) (position : Nat) : List (Occurrence (Nat × α)) :=
  (Bindings.trace (numbered steps)).getD position []

/-- Only registering hands a control over. -/
theorem BindingStep.handed?_eq_some_iff {step : BindingStep α} {name : String} {control : α} :
    step.handed? = some (name, control) ↔ step = .add name control := by
  cases step <;> simp [handed?]

/-- A step that registers an image registers what it is the image of. -/
theorem BindingStep.map_eq_add_iff {β : Type} {f : α → β} {step : BindingStep α} {name : String}
    {image : β} : step.map f = .add name image ↔
      ∃ control, step = .add name control ∧ f control = image := by
  cases step <;> simp [map]

/-- A step gives up only what has the name that it registers. -/
theorem BindingStep.dropped_mem_effect_iff {before : List (BindingStep α)} {step : BindingStep α}
    {control : α} : .dropped control ∈ step.effect before ↔
      ∃ name given, step = .add name given ∧ holder? before name = some control := by
  cases step <;> simp [effect]

/-- A step delivers only to what has the name that is bound. -/
theorem BindingStep.delivered_mem_effect_iff {before : List (BindingStep α)} {step : BindingStep α}
    {control : α} {state : Int16} : .delivered control state ∈ step.effect before ↔
      ∃ event name, step = .fire event ∧ holder? before name = some control ∧
        (Bindings.empty.run before).1.boundTo? event.input = some name ∧ state = event.state := by
  cases step with
  | fire event =>
    simp only [effect, List.mem_map, Option.mem_toList, Option.bind_eq_some_iff,
      Occurrence.delivered.injEq, fire.injEq]
    constructor
    · rintro ⟨_, ⟨name, hbound, hholder⟩, rfl, rfl⟩
      exact ⟨event, name, rfl, hholder, hbound, rfl⟩
    · rintro ⟨_, name, rfl, hholder, hbound, rfl⟩
      exact ⟨control, ⟨name, hbound, hholder⟩, rfl, rfl⟩
  | add _ _ | bind _ _ | bindKey _ _ | bindKeyName _ _ | bindDefinition _ _ | bindAll _ _
  | bindKeys _ | unbind _ | reset => simp [effect]

section Positions

variable {steps : List (BindingStep α)} {name : String} {position start : Nat} {control : α}

/-- A registration among the first steps is one of the steps. -/
theorem registersAt_take {count : Nat} :
    RegistersAt (steps.take count) name position ↔
      position < count ∧ RegistersAt steps name position := by
  rw [RegistersAt, RegistersAt, List.getElem?_take]
  by_cases h : position < count
  · rw [if_pos h]
    exact (and_iff_right h).symm
  · rw [if_neg h]
    exact iff_of_false (fun ⟨_, hnone⟩ => nomatch hnone) fun hboth => h hboth.1

/-- A registration is one of the steps. -/
theorem RegistersAt.lt_length (h : RegistersAt steps name position) : position < steps.length :=
  h.elim fun _ hstep => (List.getElem?_eq_some_iff.mp hstep).1

/-- A registration among some steps and one more. -/
theorem getElem?_concat_eq_add {step : BindingStep α} :
    (steps ++ [step])[position]? = some (.add name control) ↔
      steps[position]? = some (.add name control) ∨
        position = steps.length ∧ step = .add name control := by
  rcases Nat.lt_trichotomy position steps.length with hlt | rfl | hgt
  · rw [List.getElem?_append_left hlt]
    exact (or_iff_left fun hboth => absurd hboth.1 (Nat.ne_of_lt hlt)).symm
  · simp
  · have hnone : steps[position]? = none := List.getElem?_eq_none (Nat.le_of_lt hgt)
    have hconcat : (steps ++ [step])[position]? = none :=
      List.getElem?_eq_none (List.length_append ▸ hgt)
    rw [hnone, hconcat]
    exact iff_of_false (fun h => nomatch h) fun h => h.elim (fun h => nomatch h) fun hboth =>
      absurd hboth.1 (Nat.ne_of_gt hgt)

/-- The last step is numbered by how many there are in front of it. -/
theorem numbered_concat (step : BindingStep α) :
    numbered (steps ++ [step]) = numbered steps ++ [step.map (steps.length, ·)] := by
  rw [numbered, List.zipIdx_append, List.map_append, ← numbered, Nat.zero_add]
  rfl

/-- The last step hands its control over last. -/
theorem handed_concat (step : BindingStep α) :
    handed (steps ++ [step]) = handed steps ++ step.handed?.toList := by
  rw [handed, List.filterMap_append, List.filterMap_cons]
  cases step.handed? <;> rfl

/-- The control that is handed over has its name. -/
theorem holder?_concat_self (name : String) (control : α) :
    holder? (steps ++ [.add name control]) name = some control := by
  rw [holder?, handed_concat, List.reverse_append]
  exact List.lookup_cons_self

/-- No other step gives the name away. -/
theorem holder?_concat_of_ne {step : BindingStep α} (h : ∀ control, step ≠ .add name control) :
    holder? (steps ++ [step]) name = holder? steps name := by
  rw [holder?, handed_concat, List.reverse_append]
  cases hhanded : step.handed? with
  | none => rfl
  | some entry =>
    have hname : name ≠ entry.1 := fun hsame =>
      h entry.2 (BindingStep.handed?_eq_some_iff.mp (hsame ▸ hhanded))
    exact List.lookup_cons.trans (by rw [beq_false_of_ne hname]; rfl)

/-- A name belongs to the control that was registered under it last. -/
theorem holder?_numbered_eq_some_iff :
    holder? (numbered steps) name = some (start, control) ↔
      steps[start]? = some (.add name control) ∧
        ∀ later, start < later → ¬RegistersAt steps name later := by
  -- The induction takes the steps from the last: only a registration of this name changes anything.
  induction steps using List.reverseRecOn with
  | nil => exact iff_of_false (fun h => nomatch h) fun h => nomatch h.1
  | append_singleton steps step ih =>
    rw [numbered_concat, getElem?_concat_eq_add]
    simp only [RegistersAt, getElem?_concat_eq_add]
    by_cases hstep : ∃ given, step = .add name given
    · obtain ⟨given, rfl⟩ := hstep
      have hlast : holder? (numbered steps ++ [BindingStep.map (steps.length, ·) (.add name given)])
          name = some (steps.length, given) := holder?_concat_self name _
      rw [hlast]
      constructor
      · rintro ⟨rfl, rfl⟩
        refine ⟨.inr ⟨rfl, rfl⟩, fun later hlater ⟨other, hother⟩ => ?_⟩
        rcases hother with hother | ⟨rfl, -⟩
        · exact absurd (RegistersAt.lt_length ⟨other, hother⟩) (Nat.lt_asymm hlater)
        · exact Nat.lt_irrefl _ hlater
      · rintro ⟨hstart | ⟨rfl, hgiven⟩, hlater⟩
        · exact absurd ⟨given, .inr ⟨rfl, rfl⟩⟩
            (hlater steps.length (List.getElem?_eq_some_iff.mp hstart).1)
        · cases hgiven
          rfl
    · have hkept (given : α) : ¬step = .add name given := fun h => hstep ⟨given, h⟩
      have hmarked (given : Nat × α) : step.map (steps.length, ·) ≠ .add name given := fun h =>
        (BindingStep.map_eq_add_iff.mp h).elim fun given hgiven => hkept given hgiven.1
      rw [holder?_concat_of_ne hmarked, ih]
      simp only [hkept, and_false, or_false, RegistersAt]

/-- Before a position, a name belongs to the control that still has it. -/
theorem holder?_numbered_take_eq_some_iff {later : Nat} :
    holder? (numbered (steps.take later)) name = some (start, control) ↔
      steps[start]? = some (.add name control) ∧ HeldUntil steps name start later := by
  rw [holder?_numbered_eq_some_iff, List.getElem?_take]
  simp only [registersAt_take, not_and]
  by_cases h : start < later
  · rw [if_pos h, HeldUntil]
    exact and_congr_right fun _ => (and_iff_right h).symm
  · rw [if_neg h]
    exact iff_of_false (fun hnone => nomatch hnone.1) fun hheld => h hheld.2.1

/-- Controls with marks are entered under the same names. -/
theorem namesOf_numbered (steps : List (BindingStep α)) :
    namesOf (numbered steps) = namesOf steps := by
  have hrun := (BindingMap.empty : BindingMap (Nat × α)).run_mapControls Prod.snd (numbered steps)
  rw [map_numbered] at hrun
  rw [← BindingMap.names_run_empty, ← BindingMap.names_run_empty, ← BindingMap.names_mapControls]
  exact congrArg (fun last => last.1.names) hrun.symm

/-- Inputs are bound to the same names. -/
theorem boundTo?_run_numbered (steps : List (BindingStep α)) (input : Input) :
    (Bindings.empty.run (numbered steps)).1.boundTo? input =
      (Bindings.empty.run steps).1.boundTo? input := by
  have hrun := (BindingMap.empty : BindingMap (Nat × α)).run_mapControls Prod.snd (numbered steps)
  rw [map_numbered] at hrun
  rw [(Represents.empty.run (numbered steps)).1.boundTo?_eq,
    (Represents.empty.run steps).1.boundTo?_eq]
  exact congrArg (fun last => last.1.driver input) hrun.symm

/-- Whoever has a name is found among the names. -/
theorem mem_namesOf_of_holder? (h : holder? steps name = some control) : name ∈ namesOf steps := by
  have hentry := List.mem_reverse.mp (Keyed.mem_of_lookup_eq_some h)
  exact List.mem_eraseDups.mpr (List.mem_map_of_mem hentry)

/-- What a step does to marked controls. -/
theorem occurrencesAt_of_getElem? {step : BindingStep α} (h : steps[position]? = some step) :
    occurrencesAt steps position =
      (step.map (position, ·)).effect (numbered (steps.take position)) := by
  have hmarked : (numbered steps)[position]? = some (step.map (position, ·)) := by
    rw [getElem?_numbered, h]
    rfl
  rw [occurrencesAt, List.getD_eq_getElem?_getD, Bindings.getElem?_trace hmarked, take_numbered]
  rfl

/-- What closing the table does to marked controls. -/
theorem occurrencesAt_length (steps : List (BindingStep α)) :
    occurrencesAt steps steps.length =
      ((namesOf steps).filterMap (holder? (numbered steps))).map .dropped := by
  have hclose := Bindings.getElem?_trace_length (numbered steps)
  rw [length_numbered, namesOf_numbered] at hclose
  rw [occurrencesAt, List.getD_eq_getElem?_getD, hclose]
  rfl

/-- Then there is nothing left to happen. -/
theorem occurrencesAt_of_length_lt (h : steps.length < position) :
    occurrencesAt steps position = [] := by
  have hnone : (Bindings.trace (numbered steps))[position]? = none := by
    refine List.getElem?_eq_none ?_
    rw [Bindings.length_trace, length_numbered]
    exact h
  rw [occurrencesAt, List.getD_eq_getElem?_getD, hnone]
  rfl

/-- A step gives up what still has the name that it registers. -/
theorem dropped_mem_occurrencesAt_iff_of_lt (h : position < steps.length) :
    .dropped (start, control) ∈ occurrencesAt steps position ↔
      ∃ name, steps[start]? = some (.add name control) ∧ HeldUntil steps name start position ∧
        RegistersAt steps name position := by
  have hstep := List.getElem?_eq_getElem h
  rw [occurrencesAt_of_getElem? hstep, BindingStep.dropped_mem_effect_iff]
  constructor
  · rintro ⟨name, given, hadd, hholder⟩
    obtain ⟨hstart, hheld⟩ := holder?_numbered_take_eq_some_iff.mp hholder
    obtain ⟨given, hadd, -⟩ := BindingStep.map_eq_add_iff.mp hadd
    exact ⟨name, hstart, hheld, given, hstep.trans (congrArg some hadd)⟩
  · rintro ⟨name, hstart, hheld, given, hadd⟩
    have hsame := Option.some.inj (hstep.symm.trans hadd)
    exact ⟨name, (position, given), BindingStep.map_eq_add_iff.mpr ⟨given, hsame, rfl⟩,
      holder?_numbered_take_eq_some_iff.mpr ⟨hstart, hheld⟩⟩

/-- Closing the table gives up what still has its name. -/
theorem dropped_mem_occurrencesAt_length_iff :
    .dropped (start, control) ∈ occurrencesAt steps steps.length ↔
      ∃ name, steps[start]? = some (.add name control) ∧
        HeldUntil steps name start steps.length := by
  have hholder (name : String) : holder? (numbered steps) name = some (start, control) ↔
      steps[start]? = some (.add name control) ∧ HeldUntil steps name start steps.length := by
    rw [← holder?_numbered_take_eq_some_iff, List.take_length]
  simp only [occurrencesAt_length, List.mem_map, List.mem_filterMap, Occurrence.dropped.injEq,
    exists_eq_right, hholder]
  constructor
  · rintro ⟨name, -, hheld⟩
    exact ⟨name, hheld⟩
  · rintro ⟨name, hheld⟩
    have hmem := mem_namesOf_of_holder? ((hholder name).mpr hheld)
    exact ⟨name, namesOf_numbered steps ▸ hmem, hheld⟩

/-- A control is given up at the next registration of its name, or else when the table is closed. -/
theorem dropped_mem_occurrencesAt_iff :
    .dropped (start, control) ∈ occurrencesAt steps position ↔
      ∃ name, steps[start]? = some (.add name control) ∧ HeldUntil steps name start position ∧
        (RegistersAt steps name position ∨ position = steps.length) := by
  rcases Nat.lt_trichotomy position steps.length with hlt | rfl | hgt
  · rw [dropped_mem_occurrencesAt_iff_of_lt hlt]
    simp only [Nat.ne_of_lt hlt, or_false]
  · rw [dropped_mem_occurrencesAt_length_iff]
    simp only [or_true, and_true]
  · rw [occurrencesAt_of_length_lt hgt]
    refine iff_of_false List.not_mem_nil ?_
    rintro ⟨name, -, -, hregisters | hlast⟩
    · exact Nat.lt_asymm hgt hregisters.lt_length
    · exact Nat.ne_of_gt hgt hlast

/-- A state is delivered by an event, to a control that still has its name. -/
theorem exists_of_delivered_mem_occurrencesAt {state : Int16}
    (h : .delivered (start, control) state ∈ occurrencesAt steps position) :
    ∃ name event, steps[position]? = some (.fire event) ∧
      steps[start]? = some (.add name control) ∧ HeldUntil steps name start position ∧
        state = event.state := by
  rcases Nat.lt_trichotomy position steps.length with hlt | rfl | hgt
  · have hstep := List.getElem?_eq_getElem hlt
    rw [occurrencesAt_of_getElem? hstep, BindingStep.delivered_mem_effect_iff] at h
    obtain ⟨event, name, hfire, hholder, -, hstate⟩ := h
    have hevent : steps[position] = .fire event := by
      cases hkind : steps[position] <;> rw [hkind] at hfire <;> cases hfire
      rfl
    obtain ⟨hstart, hheld⟩ := holder?_numbered_take_eq_some_iff.mp hholder
    exact ⟨name, event, hstep.trans (congrArg some hevent), hstart, hheld, hstate⟩
  · rw [occurrencesAt_length] at h
    obtain ⟨_, _, hdropped⟩ := List.mem_map.mp h
    cases hdropped
  · rw [occurrencesAt_of_length_lt hgt] at h
    cases h

/-- A step that hands over a control marks it with its own position. -/
theorem marks_concat (step : BindingStep α) :
    (handed (numbered (steps ++ [step]))).map (·.2.1) =
      (handed (numbered steps)).map (·.2.1) ++ step.handed?.toList.map fun _ => steps.length := by
  rw [numbered_concat, handed_concat, List.map_append]
  cases step <;> rfl

/-- A mark is the position of a step. -/
theorem lt_length_of_mem_marks {mark : Nat}
    (h : mark ∈ (handed (numbered steps)).map (·.2.1)) : mark < steps.length := by
  induction steps using List.reverseRecOn with
  | nil => cases h
  | append_singleton steps step ih =>
    rw [marks_concat, List.mem_append] at h
    rw [List.length_append]
    rcases h with hmark | hmark
    · exact Nat.lt_succ_of_lt (ih hmark)
    · obtain ⟨_, _, rfl⟩ := List.mem_map.mp hmark
      exact Nat.lt_succ_self _

/-- No two controls have the same mark. -/
theorem nodup_marks (steps : List (BindingStep α)) :
    ((handed (numbered steps)).map (·.2.1)).Nodup := by
  induction steps using List.reverseRecOn with
  | nil => exact List.nodup_nil
  | append_singleton steps step ih =>
    rw [marks_concat]
    cases step.handed? with
    | none => exact (List.append_nil _).symm ▸ ih
    | some entry =>
      have hnew : steps.length ∉ (handed (numbered steps)).map (·.2.1) := fun hmark =>
        Nat.lt_irrefl _ (lt_length_of_mem_marks hmark)
      exact List.concat_eq_append ▸ ih.concat hnew

/-- A control is given up once. -/
theorem countP_drops (h : steps[start]? = some (.add name control)) :
    (Bindings.trace (numbered steps)).flatten.countP (·.drops start) = 1 := by
  have hmarked : (numbered steps)[start]? = some (.add name (start, control)) := by
    rw [getElem?_numbered, h]
    rfl
  have hentry : (name, start, control) ∈ handed (numbered steps) :=
    List.mem_filterMap.mpr ⟨_, List.mem_of_getElem? hmarked, rfl⟩
  -- What is given up is what was handed over, and there every mark stands once.
  calc
    (Bindings.trace (numbered steps)).flatten.countP (·.drops start) =
        ((Bindings.trace (numbered steps)).flatten.filterMap Occurrence.dropped?).countP
          (·.1 == start) := by
      rw [List.countP_filterMap]
      exact List.countP_congr fun occurrence _ => by cases occurrence <;> rfl
    _ = ((handed (numbered steps)).map (·.2)).countP (·.1 == start) :=
      (Bindings.perm_dropped (numbered steps)).countP_eq _
    _ = ((handed (numbered steps)).map (·.2.1)).count start := by
      rw [List.count, List.countP_map, List.countP_map]
      rfl
    _ = 1 := List.count_eq_one_of_mem (nodup_marks steps)
      (List.mem_map_of_mem (f := (·.2.1)) hentry)

end Positions

/-- The least state is the negative of the greatest. -/
theorem DeviceEvent.toInt_state (event : DeviceEvent) :
    -32767 ≤ event.state.toInt ∧ event.state.toInt ≤ 32767 := by
  have hpressed (pressed : Bool) : -32767 ≤ (if pressed then active else released).toInt ∧
      (if pressed then active else released).toInt ≤ 32767 := by
    cases pressed <;> decide
  cases event with
  | controllerAxis axis value =>
    have hleast : (-active).toInt = -32767 := by decide
    rw [state]
    split
    · decide
    · next hvalue =>
      rw [Int16.lt_iff_toInt_lt, hleast] at hvalue
      exact ⟨Int.not_lt.mp hvalue, Int.le_of_lt_add_one value.toInt_lt⟩
  | key _ pressed | mouseButton _ pressed | controllerButton _ pressed => exact hpressed pressed

namespace Represents

variable {bindings : Bindings α} {map : BindingMap α} {id : ControlId}

/-- The id of a name is that of a control. -/
theorem position_lt_of_id? (h : Represents bindings map) {name : String}
    (hid : map.id? name = some id) : id.position < bindings.controls.length := by
  rw [h.length_controls]
  exact (List.getElem?_eq_some_iff.mp (map.getElem?_names_of_id? hid)).1

/-- The id of a name leads to a control. -/
theorem position_lt_of_controlId? (h : Represents bindings map) {name : String}
    (hid : bindings.controlId? name = some id) : id.position < bindings.controls.length :=
  h.position_lt_of_id? (h.controlId?_eq name ▸ hid)

/-- What an input drives is a control. -/
theorem position_lt_of_driven? (h : Represents bindings map) {input : Input}
    (hid : bindings.tables.driven? input = some id) : id.position < bindings.controls.length := by
  rw [h.driven?_eq, Option.bind_eq_some_iff] at hid
  obtain ⟨name, -, hname⟩ := hid
  exact h.position_lt_of_id? hname

end Represents

namespace Bindings

/-- What is promised about the controls in a run that ends with the closing of the table. -/
structure Lifetimes (steps : List (BindingStep α)) : Prop where
  /-- Each step has an entry in the trace, and the closing of the table has the last. -/
  entries : (trace steps).length = steps.length + 1
  /-- The marks that tell controls apart change nothing else. -/
  unmarked : (trace (numbered steps)).map (List.map (Occurrence.map Prod.snd)) = trace steps
  /-- Every control is given up once. -/
  once : ∀ start name control, steps[start]? = some (.add name control) →
    (trace (numbered steps)).flatten.countP (·.drops start) = 1
  /-- It happens at the next registration of its name, or else when the table is closed. -/
  dropped : ∀ position start control, .dropped (start, control) ∈ occurrencesAt steps position ↔
    ∃ name, steps[start]? = some (.add name control) ∧ HeldUntil steps name start position ∧
      (RegistersAt steps name position ∨ position = steps.length)
  /-- The table gives up what it has left in the order in which the names were first registered. -/
  closing : occurrencesAt steps steps.length =
    ((namesOf steps).filterMap (holder? (numbered steps))).map .dropped
  /-- Nothing reaches a control that has been given up. -/
  silenced : ∀ position later mark state, .delivered mark state ∈ occurrencesAt steps position →
    .dropped mark ∈ occurrencesAt steps later → position < later
  /-- A registration does nothing but give up the control that had the name. -/
  replaced : ∀ position name control, steps[position]? = some (.add name control) →
    occurrencesAt steps position =
      (holder? (numbered (steps.take position)) name).toList.map .dropped
  /-- An event delivers its state once, to what was registered last under the name that is bound to
  its input. -/
  fired : ∀ position event name, steps[position]? = some (.fire event) →
    (Bindings.empty.run (steps.take position)).1.boundTo? event.input = some name →
      ∃ start control, steps[start]? = some (.add name control) ∧
        HeldUntil steps name start position ∧
        occurrencesAt steps position = [.delivered (start, control) event.state]
  /-- Where no name is bound, nothing is delivered. -/
  ignored : ∀ position event, steps[position]? = some (.fire event) →
    (Bindings.empty.run (steps.take position)).1.boundTo? event.input = none →
      occurrencesAt steps position = []
  /-- The name bound to an input is that of its last binding, as in a map from inputs to names. -/
  bound : ∀ position input, (Bindings.empty.run (steps.take position)).1.boundTo? input =
    (BindingMap.empty.run (steps.take position)).1.driver input
  /-- Nothing is bound to an input out of the range of its table. -/
  outside : ∀ position input, ¬input.InRange →
    (Bindings.empty.run (steps.take position)).1.boundTo? input = none
  /-- Binding, unbinding and resetting do nothing to a control. -/
  quiet : ∀ position step, steps[position]? = some step → step.handed? = none →
    (∀ event, step ≠ .fire event) → occurrencesAt steps position = []
  /-- A state lies between the least and the greatest that a control knows. -/
  states : ∀ position mark state, .delivered mark state ∈ occurrencesAt steps position →
    -32767 ≤ state.toInt ∧ state.toInt ≤ 32767
  /-- The id of a name always leads to a control. -/
  named : ∀ position name id, (Bindings.empty.run (steps.take position)).1.controlId? name =
    some id → id.position < (Bindings.empty.run (steps.take position)).1.controls.length
  /-- So does what is found in the place of an input. -/
  placed : ∀ position input id, (Bindings.empty.run (steps.take position)).1.tables.driven? input =
    some id → id.position < (Bindings.empty.run (steps.take position)).1.controls.length

/-- A control that is given up stays silent. -/
theorem lt_of_delivered_of_dropped {steps : List (BindingStep α)} {position later : Nat}
    {mark : Nat × α} {state : Int16}
    (hdelivered : .delivered mark state ∈ occurrencesAt steps position)
    (hdropped : .dropped mark ∈ occurrencesAt steps later) : position < later := by
  obtain ⟨name, event, hfire, hstart, hheld, -⟩ := exists_of_delivered_mem_occurrencesAt hdelivered
  obtain ⟨other, hother, hlives, hend⟩ := dropped_mem_occurrencesAt_iff.mp hdropped
  obtain ⟨rfl, -⟩ := BindingStep.add.inj (Option.some.inj (hstart.symm.trans hother))
  have hlt := (List.getElem?_eq_some_iff.mp hfire).1
  rcases hend with ⟨given, hadd⟩ | rfl
  · -- A delivery at or behind the next registration would need the name that was given away.
    by_contra hnot
    rcases Nat.lt_or_eq_of_le (Nat.le_of_not_lt hnot) with hbefore | rfl
    · exact hheld.2 later hlives.1 hbefore ⟨given, hadd⟩
    · cases hfire.symm.trans hadd
  · exact hlt

/-- An event at a position reaches what has the name that is bound there. -/
theorem occurrencesAt_fire {steps : List (BindingStep α)} {position : Nat} {event : DeviceEvent}
    (h : steps[position]? = some (.fire event)) : occurrencesAt steps position =
      (((Bindings.empty.run (steps.take position)).1.boundTo? event.input).bind
        (holder? (numbered (steps.take position)))).toList.map (.delivered · event.state) := by
  rw [occurrencesAt_of_getElem? h, BindingStep.map, BindingStep.effect, boundTo?_run_numbered]

/-- Each control lives from its registration to the next one of its name, or to the end. -/
theorem lifetimes (steps : List (BindingStep α)) : Lifetimes steps where
  entries := length_trace steps
  unmarked := trace_numbered steps
  once _ _ _ h := countP_drops h
  dropped _ _ _ := dropped_mem_occurrencesAt_iff
  closing := occurrencesAt_length steps
  silenced _ _ _ _ := lt_of_delivered_of_dropped
  replaced _ _ _ h := occurrencesAt_of_getElem? h
  fired position event name h hbound := by
    obtain ⟨-, hholder⟩ := exists_holder?_of_boundTo?
      ((boundTo?_run_numbered (steps.take position) event.input).trans hbound)
    obtain ⟨⟨start, control⟩, hheld⟩ := Option.isSome_iff_exists.mp hholder
    obtain ⟨hstart, hlives⟩ := holder?_numbered_take_eq_some_iff.mp hheld
    refine ⟨start, control, hstart, hlives, ?_⟩
    rw [occurrencesAt_fire h, hbound, Option.bind_some, hheld]
    rfl
  ignored position event h hbound := by
    rw [occurrencesAt_fire h, hbound]
    rfl
  bound _ input := (Represents.empty.run _).1.boundTo?_eq input
  outside position input hout := by
    by_contra hbound
    obtain ⟨name, hname⟩ := Option.ne_none_iff_exists'.mp hbound
    exact hout (exists_holder?_of_boundTo? hname).1
  quiet position step h hhanded hfire := by
    rw [occurrencesAt_of_getElem? h]
    cases step with
    | add _ _ => cases hhanded
    | fire event => exact absurd rfl (hfire event)
    | bind _ _ | bindKey _ _ | bindKeyName _ _ | bindDefinition _ _ | bindAll _ _ | bindKeys _
    | unbind _ | reset => rfl
  states position mark state h := by
    obtain ⟨_, event, -, -, -, rfl⟩ := exists_of_delivered_mem_occurrencesAt h
    exact event.toInt_state
  named _ _ _ h := (Represents.empty.run _).1.position_lt_of_controlId? h
  placed _ _ _ h := (Represents.empty.run _).1.position_lt_of_driven? h

end Bindings

end GameSetup
