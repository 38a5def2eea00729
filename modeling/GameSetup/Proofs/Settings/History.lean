import GameSetup.Proofs.Registry.Agreement
import GameSetup.Proofs.Settings.FileValues
import GameSetup.Proofs.Storage.FileSystem

/-!
# Settings and their past

The same settings can be read from one file after another, and be reset in between. Each of their
places is registered, so the reset at the start of a reading reaches them all, and nothing is left
of what was read before. A file that cannot be opened is not read, and nothing is reset for it.
-/

namespace GameSetup

open SettingStore

namespace Settings

/-- Every setting is registered. -/
theorem mem_slots (slot : Slot) : slot ∈ catalog.slots := by
  obtain ⟨sectionName, name, hslot⟩ := exists_slot? slot
  exact Catalog.mem_slots_of_slot? hslot

/-- Every place holds a setting. -/
theorem exists_setting? (settings : Settings) (slot : Slot) :
    ∃ setting, setting? settings slot = some setting := by
  cases slot with
  | datadir => exact ⟨_, rfl⟩
  | bundle mode field => exact ⟨_, rfl⟩

/-- The registry of the settings is well formed. -/
theorem wellFormed_registry (settings : Settings) (defaultSection : String) :
    (settings.registry defaultSection).WellFormed :=
  ⟨nodup_slots, fun slot _ => settings.exists_setting? slot⟩

/-- A reset reaches every setting. -/
theorem setting?_reset (settings : Settings) (slot : Slot) :
    setting? settings.reset slot = (setting? settings slot).map AnySetting.reset :=
  setting?_foldl_reset_of_mem settings (mem_slots slot)

/-- Settings that a reset makes equal are declared alike. -/
theorem sameDeclarations_registry {settings other : Settings} (h : settings.reset = other.reset)
    (defaultSection : String) : Registry.SameDeclarations (settings.registry defaultSection)
      (other.registry defaultSection) := by
  refine ⟨rfl, rfl, fun slot _ => ?_⟩
  obtain ⟨setting, hsetting⟩ := settings.exists_setting? slot
  obtain ⟨changed, hchanged⟩ := other.exists_setting? slot
  refine ⟨setting, changed, hsetting, hchanged, ?_⟩
  have hslot := congrArg (setting? · slot) h
  simp only [setting?_reset, hsetting, hchanged] at hslot
  exact (Option.some.inj hslot).symm

/-- Settings that are declared alike are made equal by a reset. -/
theorem reset_eq_of_sameDeclarations {settings : Settings} {defaultSection : String}
    {other : Registry Settings Slot}
    (h : Registry.SameDeclarations (settings.registry defaultSection) other) :
    other.store.reset = settings.reset := by
  refine LawfulStore.ext fun slot => ?_
  obtain ⟨setting, changed, hsetting, hchanged, hreset⟩ := h.held slot (mem_slots slot)
  change setting? settings slot = some setting at hsetting
  change setting? other.store slot = some changed at hchanged
  rw [setting?_reset, setting?_reset, hsetting, hchanged, Option.map_some, Option.map_some, hreset]

/-- Reading changes settings in their values alone. -/
theorem reset_parse (settings : Settings) (mode : RunMode) (stream : Conf.Stream) :
    (settings.parse mode stream).1.reset = settings.reset :=
  reset_eq_of_sameDeclarations
    ((settings.wellFormed_registry mode.sectionName).sameDeclarations_parse stream)

/-- A second reset does nothing. -/
theorem reset_reset (settings : Settings) : settings.reset.reset = settings.reset := by
  refine LawfulStore.ext fun slot => ?_
  rw [setting?_reset, setting?_reset, Option.map_map]
  exact congrArg (Option.map · (setting? settings slot)) (funext AnySetting.reset_reset)

/-- What is read does not depend on the values from before. -/
theorem parse_congr {settings other : Settings} (h : settings.reset = other.reset) (mode : RunMode)
    (stream : Conf.Stream) : settings.parse mode stream = other.parse mode stream := by
  obtain ⟨hagrees, hnotices⟩ :=
    (sameDeclarations_registry h mode.sectionName).parse stream
  have hcatalog : ((settings.registry mode.sectionName).parse stream).1.catalog = catalog :=
    ((settings.wellFormed_registry mode.sectionName).sameDeclarations_parse stream).catalog_eq
  have hstore : ((settings.registry mode.sectionName).parse stream).1.store =
      ((other.registry mode.sectionName).parse stream).1.store := by
    refine LawfulStore.ext fun slot => ?_
    obtain ⟨setting, hheld, hother⟩ := hagrees.held slot (hcatalog ▸ mem_slots slot)
    exact hheld.trans hother.symm
  exact Prod.ext hstore hnotices.symm

end Settings

/-- What is done to settings: a reading for a mode, in whatever state the files are then, or a
reset. -/
inductive SettingsCall (σ : Type) where
  | read (mode : RunMode) (path : Path) (state : σ)
  | reset

namespace SettingsCall

variable {σ : Type} (files : FileSystem σ)

/-- The settings after a call. -/
def apply (settings : Settings) : SettingsCall σ → Settings
  | .read mode path state => ((ConfigFile.read settings mode path).runOn files state).1.settings
  | .reset => settings.reset

/-- Whether a call is a reset or can open its file. -/
def takesEffect : SettingsCall σ → Bool
  | .read _ path state => ((Script.open? path).runOn files state).1.isOk
  | .reset => true

/-- The settings after calls that follow one another. -/
def run (settings : Settings) (calls : List (SettingsCall σ)) : Settings :=
  calls.foldl (apply files) settings

variable {files} {settings other : Settings} {call : SettingsCall σ}

/-- A call that takes no effect changes nothing. -/
theorem apply_eq_self (h : call.takesEffect files = false) :
    apply files settings call = settings := by
  cases call with
  | read mode path state =>
    rw [apply, ConfigFile.read_runOn]
    rw [takesEffect] at h
    cases hopened : ((Script.open? path).runOn files state).1 with
    | error fault => rfl
    | ok stream =>
      rw [hopened] at h
      cases h
  | reset => cases h

/-- A call that takes effect leaves nothing of what was there. -/
theorem apply_congr (h : call.takesEffect files = true) (hreset : settings.reset = other.reset) :
    apply files settings call = apply files other call := by
  cases call with
  | read mode path state =>
    rw [apply, apply, ConfigFile.read_runOn, ConfigFile.read_runOn]
    rw [takesEffect] at h
    cases hopened : ((Script.open? path).runOn files state).1 with
    | error fault =>
      rw [hopened] at h
      cases h
    | ok stream =>
      exact congrArg Prod.fst (Settings.parse_congr hreset mode stream)
  | reset => exact hreset

/-- A call changes settings in their values alone. -/
theorem reset_apply (settings : Settings) (call : SettingsCall σ) :
    (apply files settings call).reset = settings.reset := by
  cases call with
  | read mode path state =>
    rw [apply, ConfigFile.read_runOn]
    cases ((Script.open? path).runOn files state).1 with
    | error fault => rfl
    | ok stream => exact settings.reset_parse mode stream
  | reset => exact settings.reset_reset

/-- A reset takes back whatever the calls have done. -/
theorem reset_run (settings : Settings) (calls : List (SettingsCall σ)) :
    (run files settings calls).reset = settings.reset := by
  induction calls generalizing settings with
  | nil => rfl
  | cons call calls ih => exact (ih _).trans (reset_apply settings call)

/-- However settings were read and reset, they are what the last call that took effect would have
made of the defaults. A call that cannot open its file changes nothing. -/
theorem run_initial_eq_last (files : FileSystem σ) (calls : List (SettingsCall σ)) :
    run files .initial calls =
        ((calls.filter (takesEffect files)).getLast?.map (apply files .initial)).getD .initial ∧
      ∀ settings call, takesEffect files call = false → apply files settings call = settings := by
  refine ⟨?_, fun settings call => apply_eq_self⟩
  induction calls using List.reverseRecOn with
  | nil => rfl
  | append_singleton calls call ih =>
    have hrun : run files .initial (calls ++ [call]) =
        apply files (run files .initial calls) call := List.foldl_append
    rw [hrun, List.filter_append]
    cases heffect : takesEffect files call with
    | true =>
      rw [List.filter_cons_of_pos heffect, List.filter_nil, List.getLast?_concat, Option.map_some,
        Option.getD_some]
      exact apply_congr heffect (reset_run .initial calls)
    | false =>
      rw [List.filter_cons_of_neg (by simp [heffect]), List.filter_nil, List.append_nil,
        apply_eq_self heffect]
      exact ih

end SettingsCall

end GameSetup
