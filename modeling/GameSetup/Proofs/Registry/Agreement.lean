import GameSetup.Proofs.Registry.Routing

/-!
# Registries that can not be told apart

Two registries agree if they have the same names and sections and hold the same settings under their
names. Agreement is kept by every event, and registries that agree give the same notices.

Before a configuration is read much less is needed: the settings under the names may hold different
values, and another section may be current.
-/

namespace GameSetup.Registry

variable {σ ι : Type} [SettingStore σ ι]

/-- The same names and sections, and the same settings under the names. -/
structure Agrees (registry other : Registry σ ι) : Prop where
  catalog_eq : other.catalog = registry.catalog
  currentSection_eq : other.currentSection = registry.currentSection
  defaultSection_eq : other.defaultSection = registry.defaultSection
  held : ∀ slot ∈ registry.catalog.slots, ∃ setting,
    registry.held? slot = some setting ∧ other.held? slot = some setting

/-- The same names and the same default section, and under the names settings that differ in their
values alone. -/
structure SameDeclarations (registry other : Registry σ ι) : Prop where
  catalog_eq : other.catalog = registry.catalog
  defaultSection_eq : other.defaultSection = registry.defaultSection
  held : ∀ slot ∈ registry.catalog.slots, ∃ setting changed, registry.held? slot = some setting ∧
    other.held? slot = some changed ∧ changed.reset = setting.reset

namespace Agrees

variable {registry other : Registry σ ι}

/-- A key names the same place in both. -/
theorem slot?_eq (h : Agrees registry other) (key : String) :
    other.slot? key = registry.slot? key := by
  rw [Registry.slot?_eq, Registry.slot?_eq, owner, owner, h.catalog_eq, h.currentSection_eq,
    h.defaultSection_eq]

variable [LawfulStore σ ι]

/-- After the same assignment, both hold the same in every slot. -/
theorem held_assign (h : Agrees registry other) (key text : String) {slot : ι}
    (hmem : slot ∈ registry.catalog.slots) :
    ∃ setting, (registry.assign key text).1.held? slot = some setting ∧
      (other.assign key text).1.held? slot = some setting := by
  obtain ⟨setting, hheld, hother⟩ := h.held slot hmem
  by_cases hslot : registry.slot? key = some slot
  · have hotherSlot := (h.slot?_eq key).trans hslot
    exact ⟨setting.take text, (registry.assign_of_setting text hslot hheld).1,
      (other.assign_of_setting text hotherSlot hother).1⟩
  · have hotherSlot := mt (h.slot?_eq key).symm.trans hslot
    exact ⟨setting, (registry.held?_assign_of_ne text hslot).trans hheld,
      (other.held?_assign_of_ne text hotherSlot).trans hother⟩

/-- They have the same to say about it. -/
theorem notice_assign (h : Agrees registry other) (key text : String) :
    (other.assign key text).2 = (registry.assign key text).2 := by
  cases hslot : registry.slot? key with
  | none =>
    rw [registry.assign_of_slot?_eq_none text hslot,
      other.assign_of_slot?_eq_none text ((h.slot?_eq key).trans hslot), h.currentSection_eq]
  | some slot =>
    obtain ⟨setting, hheld, hother⟩ := h.held slot (Catalog.mem_slots_of_slot? hslot)
    have hotherSlot := (h.slot?_eq key).trans hslot
    rw [(registry.assign_of_setting text hslot hheld).2,
      (other.assign_of_setting text hotherSlot hother).2, h.currentSection_eq]

/-- An assignment keeps the agreement. -/
theorem assign (h : Agrees registry other) (key text : String) :
    Agrees (registry.assign key text).1 (other.assign key text).1 := by
  have hheld := fun slot => @held_assign _ _ _ _ _ _ h key text slot
  obtain ⟨store, hstore⟩ := registry.exists_assign_fst key text
  obtain ⟨otherStore, hotherStore⟩ := other.exists_assign_fst key text
  rw [hstore, hotherStore] at hheld ⊢
  exact ⟨h.catalog_eq, h.currentSection_eq, h.defaultSection_eq, hheld⟩

/-- Every event keeps the agreement and draws the same notices. -/
theorem handleEvent (h : Agrees registry other) (event : Conf.Event) :
    Agrees (registry.handleEvent event).1 (other.handleEvent event).1 ∧
      (other.handleEvent event).2 = (registry.handleEvent event).2 := by
  cases event with
  | header name =>
    refine ⟨⟨h.catalog_eq, rfl, h.defaultSection_eq, h.held⟩, ?_⟩
    rw [Registry.handleEvent, Registry.handleEvent, enter, enter, h.catalog_eq]
  | pair key text => exact ⟨h.assign key text, congrArg ([·]) (h.notice_assign key text)⟩
  | bare key => exact ⟨h.assign key "", congrArg ([·]) (h.notice_assign key "")⟩
  | badLine line number => exact ⟨h, rfl⟩

/-- They follow events in agreement and say the same. -/
theorem follow (h : Agrees registry other) (events : List Conf.Event) :
    Agrees (registry.follow events).1 (other.follow events).1 ∧
      (other.follow events).2 = (registry.follow events).2 := by
  induction events generalizing registry other with
  | nil => exact ⟨h, rfl⟩
  | cons event events ih =>
    obtain ⟨hnext, hnotices⟩ := h.handleEvent event
    obtain ⟨hlast, hmore⟩ := ih hnext
    rw [follow_cons, follow_cons]
    exact ⟨hlast, congrArg₂ (· ++ ·) hnotices hmore⟩

end Agrees

namespace SameDeclarations

variable [LawfulStore σ ι] {registry other : Registry σ ι}

/-- A reset brings registries with the same declarations to agree. -/
theorem reset (h : SameDeclarations registry other) : Agrees registry.reset other.reset := by
  refine ⟨h.catalog_eq, rfl, h.defaultSection_eq, fun slot hmem => ?_⟩
  obtain ⟨setting, changed, hheld, hother, hreset⟩ := h.held slot hmem
  have hotherMem : slot ∈ other.catalog.slots := h.catalog_eq ▸ hmem
  refine ⟨setting.reset, registry.held?_reset hmem hheld, ?_⟩
  rw [← hreset]
  exact other.held?_reset hotherMem hother

/-- Registries with the same declarations read a configuration to the same end, with the same
notices. -/
theorem parse (h : SameDeclarations registry other) (stream : Conf.Stream) :
    Agrees (registry.parse stream).1 (other.parse stream).1 ∧
      (other.parse stream).2 = (registry.parse stream).2 := by
  rw [parse_eq, parse_eq]
  exact h.reset.follow (Conf.events stream)

end SameDeclarations

/-- A registry whose names have places of their own, and a setting in each of them. -/
structure WellFormed (registry : Registry σ ι) : Prop where
  nodup_slots : registry.catalog.slots.Nodup
  held : ∀ slot ∈ registry.catalog.slots, ∃ setting, registry.held? slot = some setting

namespace WellFormed

variable {registry other : Registry σ ι}

/-- A registry declares what it declares. -/
theorem sameDeclarations (h : registry.WellFormed) : SameDeclarations registry registry :=
  ⟨rfl, rfl, fun slot hmem =>
    have ⟨setting, hheld⟩ := h.held slot hmem
    ⟨setting, setting, hheld, hheld, rfl⟩⟩

/-- What a registry declares makes it well-formed. -/
theorem of_sameDeclarations (h : registry.WellFormed)
    (hsame : SameDeclarations registry other) : other.WellFormed := by
  refine ⟨hsame.catalog_eq ▸ h.nodup_slots, fun slot hmem => ?_⟩
  obtain ⟨-, changed, -, hother, -⟩ := hsame.held slot (hsame.catalog_eq ▸ hmem)
  exact ⟨changed, hother⟩

end WellFormed

/-- A signal declares nothing. -/
theorem catalog_handle (registry : Registry σ ι) (signal : Conf.Signal) :
    (registry.handle signal).1.catalog = registry.catalog := by
  cases signal with
  | start => rfl
  | event event =>
    obtain ⟨store, current, hnext⟩ := registry.exists_handleEvent_fst event
    rw [handle, hnext]
  | finish => rfl

variable [LawfulStore σ ι]

/-- An assignment changes a setting in its value alone. -/
theorem exists_held?_assign (registry : Registry σ ι) (key text : String) {slot : ι}
    {setting : AnySetting} (hheld : registry.held? slot = some setting) :
    ∃ next, (registry.assign key text).1.held? slot = some next ∧ next.reset = setting.reset := by
  by_cases hslot : registry.slot? key = some slot
  · exact ⟨setting.take text, (registry.assign_of_setting text hslot hheld).1,
      setting.reset_take text⟩
  · exact ⟨setting, (registry.held?_assign_of_ne text hslot).trans hheld, rfl⟩

/-- A signal changes a setting in its value alone. -/
theorem exists_held?_handle (registry : Registry σ ι) (signal : Conf.Signal) {slot : ι}
    {setting : AnySetting} (hheld : registry.held? slot = some setting) :
    ∃ next, (registry.handle signal).1.held? slot = some next ∧ next.reset = setting.reset := by
  cases signal with
  | start =>
    by_cases hmem : slot ∈ registry.catalog.slots
    · exact ⟨setting.reset, registry.held?_reset hmem hheld, setting.reset_reset⟩
    · exact ⟨setting, (registry.held?_reset_of_not_mem hmem).trans hheld, rfl⟩
  | event event =>
    cases event with
    | header name => exact ⟨setting, hheld, rfl⟩
    | pair key text => exact registry.exists_held?_assign key text hheld
    | bare key => exact registry.exists_held?_assign key "" hheld
    | badLine line number => exact ⟨setting, hheld, rfl⟩
  | finish => exact ⟨setting, hheld, rfl⟩

namespace SameDeclarations

variable {registry other : Registry σ ι}

/-- A signal declares nothing, and changes settings in their values alone. -/
theorem handle (h : SameDeclarations registry other) (signal : Conf.Signal) :
    SameDeclarations registry (other.handle signal).1 := by
  have hdefault : (other.handle signal).1.defaultSection = other.defaultSection := by
    cases signal with
    | start => rfl
    | event event =>
      obtain ⟨store, current, hnext⟩ := other.exists_handleEvent_fst event
      rw [Registry.handle, hnext]
    | finish => rfl
  refine ⟨(other.catalog_handle signal).trans h.catalog_eq, hdefault.trans h.defaultSection_eq,
    fun slot hmem => ?_⟩
  obtain ⟨setting, changed, hheld, hother, hreset⟩ := h.held slot hmem
  obtain ⟨next, hnext, hagain⟩ := other.exists_held?_handle signal hother
  exact ⟨setting, next, hheld, hnext, hagain.trans hreset⟩

/-- Signals leave the declarations alone. -/
theorem handleAll (h : SameDeclarations registry other) (signals : List Conf.Signal) :
    SameDeclarations registry (other.handleAll signals).1 := by
  induction signals generalizing other with
  | nil => exact h
  | cons signal signals ih => exact ih (h.handle signal)

end SameDeclarations

namespace WellFormed

variable {registry : Registry σ ι}

/-- Every signal keeps a registry well-formed. -/
theorem handle (h : registry.WellFormed) (signal : Conf.Signal) :
    (registry.handle signal).1.WellFormed :=
  h.of_sameDeclarations (h.sameDeclarations.handle signal)

/-- Reading changes the values alone. -/
theorem sameDeclarations_parse (h : registry.WellFormed) (stream : Conf.Stream) :
    SameDeclarations registry (registry.parse stream).1 :=
  h.sameDeclarations.handleAll (Conf.signals stream)

/-- Reading a configuration twice is reading it once. -/
theorem parse_parse (h : registry.WellFormed) (stream : Conf.Stream) :
    (registry.parse stream).1.parse stream = registry.parse stream := by
  obtain ⟨hagrees, hnotices⟩ := (h.sameDeclarations_parse stream).parse stream
  have hstore : ((registry.parse stream).1.parse stream).1.store =
      (registry.parse stream).1.store := by
    refine LawfulStore.ext fun slot => ?_
    by_cases hmem : slot ∈ (registry.parse stream).1.catalog.slots
    · obtain ⟨setting, hheld, hagain⟩ := hagrees.held slot hmem
      exact hagain.trans hheld.symm
    · exact (registry.parse stream).1.held?_parse_of_not_mem stream hmem
  refine Prod.ext ?_ hnotices
  have hcatalog := hagrees.catalog_eq
  have hcurrent := hagrees.currentSection_eq
  have hdefault := hagrees.defaultSection_eq
  generalize ((registry.parse stream).1.parse stream).1 = again at *
  generalize (registry.parse stream).1 = once at *
  cases again
  cases once
  subst hstore hcatalog hcurrent hdefault
  rfl

end WellFormed

end GameSetup.Registry
