import GameSetup.Proofs.Registry.Agreement

/-!
# Registries and the way they came about

A registry is built by declaring settings, choosing sections, following signals and changing what
lies under a name, in any order. Whatever came before, reading a configuration leaves in every
declared setting the last text for it that it accepts, or else its default. Nothing else of the past
matters.
-/

namespace GameSetup

/-- What can be done to a registry that owns its settings. -/
inductive RegistryStep where
  | select (name : String)
  | selectDefault (name : String)
  | register (sectionName name : String) (setting : AnySetting)
  | registerHere (name : String) (setting : AnySetting)
  /-- Anything at all happens to the setting that a key names. -/
  | change (key : String) (update : AnySetting → AnySetting)
  | signal (signal : Conf.Signal)

namespace OpenRegistry

open Registry

/-- Changes the setting that a key names, if there is one. -/
def change (registry : OpenRegistry) (key : String) (update : AnySetting → AnySetting) :
    OpenRegistry :=
  match registry.slot? key with
  | none => registry
  | some slot => { registry with store := registry.store.modify slot update }

/-- The registry after a step. -/
def apply (registry : OpenRegistry) : RegistryStep → OpenRegistry
  | .select name => Registry.select registry name
  | .selectDefault name => Registry.selectDefault registry name
  | .register sectionName name setting => registry.register sectionName name setting
  | .registerHere name setting => registry.registerHere name setting
  | .change key update => registry.change key update
  | .signal signal => (Registry.handle registry signal).1

/-- The registry that some steps build. -/
def build (defaultSection : String) (steps : List RegistryStep) : OpenRegistry :=
  steps.foldl apply (empty defaultSection)

/-- A registry without settings is well formed. -/
theorem wellFormed_empty (defaultSection : String) : (empty defaultSection).WellFormed :=
  ⟨List.nodup_nil, fun _ hmem => absurd hmem List.not_mem_nil⟩

/-- A new setting is put at a place of its own. -/
theorem wellFormed_register {registry : OpenRegistry} (h : registry.WellFormed)
    (sectionName name : String) (setting : AnySetting) :
    (registry.register sectionName name setting).WellFormed := by
  have hbound : ∀ slot ∈ registry.catalog.slots, slot < registry.store.length := by
    intro slot hmem
    obtain ⟨old, hheld⟩ := h.held slot hmem
    exact (List.getElem?_eq_some_iff.mp hheld).1
  have hfresh : registry.store.length ∉ registry.catalog.slots := fun hmem =>
    absurd (hbound _ hmem) (Nat.lt_irrefl _)
  refine ⟨Catalog.nodup_slots_add h.nodup_slots hfresh sectionName name, fun slot hmem => ?_⟩
  have hslot := (Catalog.subperm_slots_add registry.catalog sectionName name _).subset hmem
  rcases List.mem_cons.mp hslot with rfl | hold
  · exact ⟨setting, List.getElem?_concat_length⟩
  · obtain ⟨old, hheld⟩ := h.held slot hold
    exact ⟨old, (List.getElem?_append_left (hbound slot hold)).trans hheld⟩

/-- Changing a setting keeps it in its place. -/
theorem wellFormed_change {registry : OpenRegistry} (h : registry.WellFormed) (key : String)
    (update : AnySetting → AnySetting) : (registry.change key update).WellFormed := by
  rw [change]
  cases registry.slot? key with
  | none => exact h
  | some place =>
    refine ⟨h.nodup_slots, fun slot hmem => ?_⟩
    obtain ⟨setting, hheld⟩ := h.held slot hmem
    by_cases hplace : place = slot
    · subst hplace
      exact ⟨update setting, (List.getElem?_modify_eq update place registry.store).trans
        (congrArg (Option.map update) hheld)⟩
    · exact ⟨setting, (List.getElem?_modify_ne update registry.store hplace).trans hheld⟩

/-- It stays so whatever is done to it. -/
theorem wellFormed_apply {registry : OpenRegistry} (h : registry.WellFormed)
    (step : RegistryStep) : (registry.apply step).WellFormed := by
  cases step with
  | select name => exact ⟨h.nodup_slots, h.held⟩
  | selectDefault name => exact ⟨h.nodup_slots, h.held⟩
  | register sectionName name setting => exact wellFormed_register h sectionName name setting
  | registerHere name setting => exact wellFormed_register h registry.currentSection name setting
  | change key update => exact wellFormed_change h key update
  | signal signal => exact h.handle signal

/-- Whatever is done to a registry, its names have places of their own. -/
theorem wellFormed_build (defaultSection : String) (steps : List RegistryStep) :
    (build defaultSection steps).WellFormed := by
  have hrun : ∀ registry : OpenRegistry, registry.WellFormed →
      (steps.foldl apply registry).WellFormed := by
    induction steps with
    | nil => exact fun _ h => h
    | cons step steps ih => exact fun registry h => ih _ (wellFormed_apply h step)
  exact hrun _ (wellFormed_empty defaultSection)

/-- No step makes two names share a slot. -/
theorem distinct_apply {registry : OpenRegistry} (h : registry.catalog.Distinct)
    (step : RegistryStep) : (registry.apply step).catalog.Distinct := by
  cases step with
  | select name => exact h
  | selectDefault name => exact h
  | register sectionName name setting => exact h.add sectionName name _
  | registerHere name setting => exact h.add registry.currentSection name _
  | change key update =>
    change (registry.change key update).catalog.Distinct
    rw [OpenRegistry.change]
    split <;> exact h
  | signal signal => exact (Registry.catalog_handle registry signal).symm ▸ h

/-- Whatever is done to a registry, it lists its sections and names once. -/
theorem distinct_build (defaultSection : String) (steps : List RegistryStep) :
    (build defaultSection steps).catalog.Distinct := by
  have hrun : ∀ registry : OpenRegistry, registry.catalog.Distinct →
      (steps.foldl apply registry).catalog.Distinct := by
    induction steps with
    | nil => exact fun _ h => h
    | cons step steps ih => exact fun registry h => ih _ (distinct_apply h step)
  exact hrun _ Catalog.distinct_empty

/-- Reading a configuration leaves in every declared setting the last text for it that it accepts,
or else its default. A registry with the same declarations ends up with the same settings and gives
the same notices, whatever was current in it and whatever its settings held. Reading the same
configuration again changes nothing. -/
theorem parse_build_lastAccepted (defaultSection : String) (steps : List RegistryStep) (stream : Conf.Stream) :
    let registry := build defaultSection steps
    let after := (registry.parse stream).1
    (∀ sectionName name slot, registry.catalog.slot? sectionName name = some slot →
      ∃ before now, registry.held? slot = some before ∧ after.held? slot = some now ∧
        let last := before.lastAccepted?
          (registry.textsFor sectionName name rootSection (Conf.events stream))
        now.value = last.getD before.initialValue ∧ now.userSet = last.isSome ∧
          now.reset = before.reset) ∧
    (∀ other, SameDeclarations registry other →
      Agrees after (other.parse stream).1 ∧
        (other.parse stream).2 = (registry.parse stream).2) ∧
    after.parse stream = registry.parse stream := by
  intro registry after
  have hwell : registry.WellFormed := wellFormed_build defaultSection steps
  refine ⟨fun sectionName name slot hslot => ?_, fun other hsame => hsame.parse stream,
    hwell.parse_parse stream⟩
  obtain ⟨before, hheld⟩ := hwell.held slot (Catalog.mem_slots_of_slot? hslot)
  have hnow := registry.held?_parse hwell.nodup_slots hslot hheld stream
  exact ⟨before, _, hheld, hnow, before.foldl_take_reset _⟩

end OpenRegistry

end GameSetup
