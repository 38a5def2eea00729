import GameSetup.Proofs.Registry.History

/-!
# What a registry warns of

A line either takes effect or draws one warning. Which of the two depends on the header above it and
on what the registry declares, never on the values that its settings hold. So the warnings of a
reading can be told from its events alone, in their order.
-/

namespace GameSetup

/-- The cause of a failure. -/
def cause? {ε α : Type} : Except ε α → Option ε
  | .ok _ => none
  | .error cause => some cause

/-- A change of the result is none of the cause. -/
theorem cause?_map {ε α β : Type} (result : Except ε α) (wrap : α → β) :
    cause? (result.map wrap) = cause? result := by
  cases result <;> rfl

/-- The bounds decide what is rejected, and not the value. -/
theorem RangedSetting.cause?_read_reset (setting : RangedSetting Int32) (input : String) :
    cause? (setting.reset.read input) = cause? (setting.read input) := by
  rw [read, read]
  cases (SettingValue.read input : Except Rejection Int32) with
  | error cause => rfl
  | ok value =>
    change cause? (if setting.least ≤ value ∧ value ≤ setting.greatest then _ else _) =
      cause? (if setting.least ≤ value ∧ value ≤ setting.greatest then _ else _)
    split <;> rfl

namespace AnySetting

/-- Why a text is not accepted, if it is not. -/
def rejection? (setting : AnySetting) (input : String) : Option Rejection :=
  cause? (setting.read input)

/-- What is rejected does not depend on the value in effect. -/
theorem rejection?_reset (setting : AnySetting) (input : String) :
    setting.reset.rejection? input = setting.rejection? input := by
  cases setting with
  | number inner =>
    rw [rejection?, rejection?, reset, read, read, cause?_map, cause?_map,
      inner.cause?_read_reset]
  | flag inner | text inner | windowMode inner | resolution inner =>
    rw [rejection?, rejection?, reset, read, read, cause?_map, cause?_map, Setting.read,
      Setting.read, cause?_map, cause?_map]

/-- Settings that differ in their values alone reject the same texts, for the same reasons. -/
theorem rejection?_congr {setting other : AnySetting} (h : setting.reset = other.reset)
    (input : String) : setting.rejection? input = other.rejection? input := by
  rw [← rejection?_reset, h, rejection?_reset]

end AnySetting

/-- Events with the header above each of them. -/
def Conf.headed (header : String) : List Event → List (String × Event)
  | [] => []
  | event :: events => (header, event) :: headed (event.headerName?.getD header) events

/-- The notices that are warnings. -/
def RegistryNotice.warnings (notices : List RegistryNotice) : List RegistryNotice :=
  notices.filter (·.severity = .warn)

open RegistryNotice (warnings)

/-- Warnings come in the order of the notices. -/
theorem RegistryNotice.warnings_append (notices more : List RegistryNotice) :
    warnings (notices ++ more) = warnings notices ++ warnings more :=
  List.filter_append notices more

namespace Registry

variable {σ ι : Type} [SettingStore σ ι]

/-- The warning that an assignment under a header draws: there is no such setting, or the setting
does not accept the text. -/
def assignmentWarning? (registry : Registry σ ι) (header key text : String) :
    Option RegistryNotice :=
  match (registry.catalog.slot? (registry.owner header key) key).bind registry.held? with
  | none => some (.unknownSetting header key)
  | some setting => (setting.rejection? text).map (.rejected header key text)

/-- The warning that an event under a header draws. The root is known, whether or not anything is
declared there. -/
def warning? (registry : Registry σ ι) : String × Conf.Event → Option RegistryNotice
  | (_, .header name) =>
    if name = rootSection ∨ registry.catalog.hasSection name then none
    else some (.unknownSection name)
  | (header, .pair key text) => registry.assignmentWarning? header key text
  | (header, .bare key) => registry.assignmentWarning? header key ""
  | (_, .badLine line number) => some (.badLine line number)

namespace SameDeclarations

variable {registry other : Registry σ ι}

/-- What is warned of depends on the declarations alone. -/
theorem assignmentWarning?_eq (h : SameDeclarations registry other) (header key text : String) :
    other.assignmentWarning? header key text = registry.assignmentWarning? header key text := by
  have howner : other.owner header key = registry.owner header key := by
    rw [owner, owner, h.catalog_eq, h.defaultSection_eq]
  rw [assignmentWarning?, assignmentWarning?, howner, h.catalog_eq]
  cases hslot : registry.catalog.slot? (registry.owner header key) key with
  | none => rfl
  | some slot =>
    obtain ⟨setting, changed, hheld, hother, hreset⟩ :=
      h.held slot (Catalog.mem_slots_of_slot? hslot)
    simp only [Option.bind_some, hheld, hother, AnySetting.rejection?_congr hreset]

/-- Whether there is a warning depends on the declarations only. -/
theorem warning?_eq (h : SameDeclarations registry other) (line : String × Conf.Event) :
    other.warning? line = registry.warning? line := by
  obtain ⟨header, event⟩ := line
  cases event with
  | header name => rw [warning?, warning?, h.catalog_eq]
  | pair key text => exact h.assignmentWarning?_eq header key text
  | bare key => exact h.assignmentWarning?_eq header key ""
  | badLine line number => rfl

end SameDeclarations

/-- The current section is the one whose header stands last. -/
theorem currentSection_handleEvent (registry : Registry σ ι) (event : Conf.Event) :
    (registry.handleEvent event).1.currentSection =
      event.headerName?.getD registry.currentSection := by
  cases event with
  | header name => rfl
  | pair key text =>
    obtain ⟨store, hstore⟩ := registry.exists_assign_fst key text
    exact (congrArg Registry.currentSection hstore :)
  | bare key =>
    obtain ⟨store, hstore⟩ := registry.exists_assign_fst key ""
    exact (congrArg Registry.currentSection hstore :)
  | badLine line number => rfl

/-- An event that assigns something is an assignment, whatever its form. -/
theorem handleEvent_of_assignment? {event : Conf.Event} {key text : String}
    (h : event.assignment? = some (key, text)) (registry : Registry σ ι) :
    registry.handleEvent event =
        ((registry.assign key text).1, [(registry.assign key text).2]) ∧
      ∀ header, registry.warning? (header, event) =
        registry.assignmentWarning? header key text := by
  cases event with
  | header name => cases h
  | pair key text =>
    cases h
    exact ⟨rfl, fun _ => rfl⟩
  | bare key =>
    cases h
    exact ⟨rfl, fun _ => rfl⟩
  | badLine line number => cases h

variable [LawfulStore σ ι] {registry : Registry σ ι}

/-- A text that is not accepted changes nothing. -/
theorem assign_of_read_eq_error {key text : String} {slot : ι} {setting : AnySetting}
    {cause : Rejection} (hslot : registry.slot? key = some slot)
    (hheld : registry.held? slot = some setting) (hread : setting.read text = .error cause) :
    registry.assign key text =
      (registry, .rejected registry.currentSection key text cause) := by
  have hstore := LawfulStore.map_read text hheld
  rw [hread] at hstore
  rw [assign, read, hslot, Option.map_some, eq_error_of_map_eq_error hstore]
  rfl

/-- An assignment draws its warning and changes nothing, or it draws none and the setting that its
key names holds the value of its text. -/
theorem WellFormed.assign_cases (h : registry.WellFormed) (key text : String) :
    (∃ warning, registry.assignmentWarning? registry.currentSection key text = some warning ∧
      warning.severity = .warn ∧ registry.assign key text = (registry, warning)) ∨
    (registry.assignmentWarning? registry.currentSection key text = none ∧
      (registry.assign key text).2 = .assigned registry.currentSection key text ∧
      ∃ slot before now, registry.slot? key = some slot ∧ registry.held? slot = some before ∧
        (registry.assign key text).1.held? slot = some now ∧
        before.accepted? text = some now.value ∧ now.userSet = true ∧
        now.reset = before.reset) := by
  rw [assignmentWarning?, ← slot?_eq]
  cases hslot : registry.slot? key with
  | none => exact .inl ⟨_, rfl, rfl, registry.assign_of_slot?_eq_none text hslot⟩
  | some slot =>
    obtain ⟨before, hheld⟩ := h.held slot (Catalog.mem_slots_of_slot? hslot)
    obtain ⟨hnow, hnotice⟩ := registry.assign_of_setting text hslot hheld
    simp only [Option.bind_some, hheld]
    cases hread : before.read text with
    | error cause =>
      exact .inl ⟨_, by rw [AnySetting.rejection?, hread]; rfl, rfl,
        assign_of_read_eq_error hslot hheld hread⟩
    | ok now =>
      obtain ⟨haccepted, huser, hreset⟩ := AnySetting.of_read_eq_ok hread
      rw [hread] at hnotice
      rw [AnySetting.take, hread] at hnow
      exact .inr ⟨by rw [AnySetting.rejection?, hread]; rfl, hnotice, slot, before, now, rfl, hheld,
        hnow, haccepted, huser, hreset⟩

/-- An event draws the warning that is foretold. -/
theorem WellFormed.warnings_handleEvent (h : registry.WellFormed) (event : Conf.Event) :
    warnings (registry.handleEvent event).2 =
      (registry.warning? (registry.currentSection, event)).toList := by
  have hassign (key text : String) : warnings [(registry.assign key text).2] =
      (registry.assignmentWarning? registry.currentSection key text).toList := by
    rcases h.assign_cases key text with ⟨warning, hwarning, hsevere, hassign⟩ | ⟨hnone, hnotice, -⟩
    · rw [hwarning, hassign]
      exact List.filter_cons_of_pos (decide_eq_true hsevere)
    · rw [hnone, hnotice]
      rfl
  cases event with
  | header name =>
    rw [handleEvent, enter, warning?]
    by_cases hknown : name = rootSection ∨ registry.catalog.hasSection name = true
    · have hnone : (decide (name = rootSection) || registry.catalog.hasSection name) = true := by
        simpa using hknown
      simp only [if_pos hknown, hnone, if_true]
      rfl
    · have hsome : (decide (name = rootSection) || registry.catalog.hasSection name) = false := by
        simpa using hknown
      simp only [if_neg hknown, hsome, Bool.false_eq_true, if_false]
      rfl
  | pair key text => exact hassign key text
  | bare key => exact hassign key ""
  | badLine line number => rfl

/-- An assignment is warned of and changes nothing, or it is not and the setting that its key names
holds the value of its text. -/
theorem WellFormed.handleEvent_cases (h : registry.WellFormed) {event : Conf.Event}
    {key text : String} (hassignment : event.assignment? = some (key, text)) :
    (∃ warning, registry.warning? (registry.currentSection, event) = some warning ∧
      warnings (registry.handleEvent event).2 = [warning] ∧
      (registry.handleEvent event).1 = registry) ∨
    (registry.warning? (registry.currentSection, event) = none ∧
      warnings (registry.handleEvent event).2 = [] ∧
      ∃ slot setting now, registry.slot? key = some slot ∧ registry.held? slot = some setting ∧
        (registry.handleEvent event).1.held? slot = some now ∧
        setting.accepted? text = some now.value ∧ now.userSet = true ∧
        now.reset = setting.reset) := by
  have hnotices := h.warnings_handleEvent event
  obtain ⟨hevent, hwarning⟩ := handleEvent_of_assignment? hassignment registry
  rw [hnotices, hwarning, hevent]
  rcases h.assign_cases key text with ⟨warning, hsome, -, hassign⟩ | ⟨hnone, -, hset⟩
  · rw [hsome, hassign]
    exact .inl ⟨warning, rfl, rfl, rfl⟩
  · rw [hnone]
    exact .inr ⟨rfl, rfl, hset⟩

/-- The warnings of a registry that follows events are foretold by its declarations. -/
theorem SameDeclarations.warnings_follow {other : Registry σ ι}
    (h : SameDeclarations registry other) (hwell : other.WellFormed) (events : List Conf.Event) :
    warnings (other.follow events).2 =
      (Conf.headed other.currentSection events).filterMap registry.warning? := by
  induction events generalizing other with
  | nil => rfl
  | cons event events ih =>
    have hevent := hwell.warnings_handleEvent event
    have hrest := ih (h.handle (.event event)) (hwell.handle (.event event))
    rw [h.warning?_eq] at hevent
    change warnings ((other.handleEvent event).1.follow events).2 =
      (Conf.headed (other.handleEvent event).1.currentSection events).filterMap _ at hrest
    rw [currentSection_handleEvent] at hrest
    rw [follow_cons, RegistryNotice.warnings_append, hevent, hrest, Conf.headed, List.filterMap_cons]
    cases registry.warning? (other.currentSection, event) <;> rfl

/-- What reading a configuration warns of. -/
theorem WellFormed.warnings_parse (h : registry.WellFormed) (stream : Conf.Stream) :
    warnings (registry.parse stream).2 =
      (Conf.headed rootSection (Conf.events stream)).filterMap registry.warning? := by
  rw [parse_eq]
  exact (h.sameDeclarations.handle .start).warnings_follow (h.handle .start) (Conf.events stream)

end Registry

namespace OpenRegistry

open Registry

/-- Reading a configuration warns of each header of an unknown section, of each assignment that
names no setting or has a text that its setting rejects, and of each line that could not be
understood: in the order of the lines, and of nothing else. An assignment that is warned of has
changed nothing at all. Any other has put the value of its text into the setting that its key names,
and marked it as set by the user. -/
theorem parse_build_warnings (defaultSection : String) (steps : List RegistryStep)
    (stream : Conf.Stream) :
    let registry := build defaultSection steps
    warnings (registry.parse stream).2 =
        (Conf.headed rootSection (Conf.events stream)).filterMap registry.warning? ∧
      ∀ front event back, Conf.signals stream = front ++ .event event :: back →
        let before := (registry.handleAll front).1
        let after := before.handle (.event event)
        (registry.parse stream).2 =
            (registry.handleAll front).2 ++ after.2 ++ (after.1.handleAll back).2 ∧
          ∀ key text, event.assignment? = some (key, text) →
            (∃ warning, registry.warning? (before.currentSection, event) = some warning ∧
              warnings after.2 = [warning] ∧ after.1 = before) ∨
            (registry.warning? (before.currentSection, event) = none ∧ warnings after.2 = [] ∧
              ∃ slot setting now, before.slot? key = some slot ∧
                before.held? slot = some setting ∧ after.1.held? slot = some now ∧
                setting.accepted? text = some now.value ∧ now.userSet = true ∧
                now.reset = setting.reset) := by
  intro registry
  have hwell : registry.WellFormed := wellFormed_build defaultSection steps
  refine ⟨hwell.warnings_parse stream, fun front event back hsignals => ⟨?_, ?_⟩⟩
  · rw [parse, hsignals, handleAll_append, List.append_assoc]
    rfl
  intro key text hassignment
  have hsame := hwell.sameDeclarations.handleAll front
  rw [← hsame.warning?_eq]
  exact (hwell.of_sameDeclarations hsame).handleEvent_cases hassignment

end OpenRegistry

end GameSetup
