import GameSetup.Proofs.Registry.Routing
import GameSetup.Settings.Basic

/-!
# What a configuration gives for a mode

For a mode only the assignments under its own header count, and those that stand under no header or
under an empty one. The data directory is the exception: it is found outside the modes alone.
-/

namespace GameSetup

/-- The texts that events assign to a key under one of some headers, in order. -/
def Conf.textsUnder (headers : List String) (key : String) (events : List Event) : List String :=
  (placed rootSection events).filterMap fun (header, name, text) =>
    if header ∈ headers ∧ name = key then some text else none

example :
    Conf.textsUnder ["edit", ""] "mono"
      [.pair "mono" "1", .header "edit", .bare "mono", .header "game", .pair "mono" "2",
        .header "", .pair "mono" "3", .pair "monitor" "4"] = ["1", "", "3"] := by
  decide

namespace Settings

/-- Every setting of a mode has its place. -/
theorem slot?_sectionName (mode : RunMode) (field : Bundle.Field) :
    catalog.slot? mode.sectionName field.name = some (.bundle mode field) := by
  cases mode <;> cases field <;> decide

/-- The root declares the data directory and nothing else. -/
theorem slot?_rootSection_of_ne {name : String} (h : name ≠ "datadir") :
    catalog.slot? rootSection name = none := by
  change List.lookup name [("datadir", Slot.datadir)] = none
  rw [List.lookup_cons, beq_false_of_ne h, List.lookup_nil]

/-- It declares none of a mode's settings. -/
theorem slot?_rootSection_name (field : Bundle.Field) :
    catalog.slot? rootSection field.name = none :=
  slot?_rootSection_of_ne (by cases field <;> decide)

/-- The data directory is in the root section. -/
theorem slot?_rootSection_datadir : catalog.slot? rootSection "datadir" = some .datadir := by
  decide

/-- Every place is declared. -/
theorem exists_slot? (slot : Slot) :
    ∃ sectionName name, catalog.slot? sectionName name = some slot := by
  cases slot with
  | datadir => exact ⟨rootSection, "datadir", slot?_rootSection_datadir⟩
  | bundle mode field => exact ⟨mode.sectionName, field.name, slot?_sectionName mode field⟩

/-- No two settings share a place. -/
theorem nodup_slots : catalog.slots.Nodup := by
  decide

/-- The texts for a setting of the mode that is read for. -/
theorem textsFor_sectionName (settings : Settings) (mode : RunMode) (field : Bundle.Field)
    (events : List Conf.Event) :
    (settings.registry mode.sectionName).textsFor mode.sectionName field.name rootSection events =
      Conf.textsUnder [mode.sectionName, rootSection] field.name events := by
  apply List.filterMap_congr
  rintro ⟨header, key, text⟩ -
  have howner := (settings.registry mode.sectionName).owner_of_not_declared
    (slot?_rootSection_name field) header
  have hiff : ((settings.registry mode.sectionName).owner header key = mode.sectionName ∧
      key = field.name) ↔ (header ∈ [mode.sectionName, rootSection] ∧ key = field.name) := by
    refine and_congr_left ?_
    rintro rfl
    rw [howner, List.mem_pair]
    by_cases hroot : header = rootSection
    · rw [if_pos hroot]
      exact iff_of_true rfl (.inr hroot)
    · rw [if_neg hroot]
      exact (or_iff_left hroot).symm
  exact if_congr hiff rfl rfl

/-- The texts for the data directory. -/
theorem textsFor_datadir (settings : Settings) (mode : RunMode) (events : List Conf.Event) :
    (settings.registry mode.sectionName).textsFor rootSection "datadir" rootSection events =
      Conf.textsUnder [rootSection] "datadir" events := by
  apply List.filterMap_congr
  rintro ⟨header, key, text⟩ -
  have hiff : ((settings.registry mode.sectionName).owner header key = rootSection ∧
      key = "datadir") ↔ (header ∈ [rootSection] ∧ key = "datadir") := by
    refine and_congr_left ?_
    rintro rfl
    rw [(settings.registry mode.sectionName).owner_of_declared slot?_rootSection_datadir,
      List.mem_singleton]
  exact if_congr hiff rfl rfl

/-- What reading for a mode leaves in a place. -/
theorem setting?_parse (settings : Settings) (mode : RunMode) (stream : Conf.Stream)
    {sectionName name : String} {slot : Slot} {setting : AnySetting}
    (hslot : catalog.slot? sectionName name = some slot)
    (hsetting : SettingStore.setting? settings slot = some setting) :
    SettingStore.setting? (settings.parse mode stream).1 slot =
      some (((settings.registry mode.sectionName).textsFor sectionName name rootSection
        (Conf.events stream)).foldl AnySetting.take setting.reset) :=
  (settings.registry mode.sectionName).held?_parse nodup_slots hslot hsetting stream

/-- Reading for a mode leaves in each of its settings the last text that counts and is accepted, or
else the default. -/
theorem value_setting_parse (settings : Settings) (mode : RunMode) (field : Bundle.Field)
    (stream : Conf.Stream) :
    (((settings.parse mode stream).1.bundle mode).setting field).value =
      ((settings.bundle mode).setting field).valueAfter
        (Conf.textsUnder [mode.sectionName, rootSection] field.name (Conf.events stream)) := by
  have hparse := settings.setting?_parse mode stream (slot?_sectionName mode field) rfl
  rw [textsFor_sectionName] at hparse
  rw [Option.some.inj hparse, AnySetting.value_foldl_take_reset]

/-- Every text is accepted as the data directory. -/
theorem value_datadir_parse (settings : Settings) (mode : RunMode) (stream : Conf.Stream) :
    (settings.parse mode stream).1.datadir.value =
      (Conf.textsUnder [rootSection] "datadir" (Conf.events stream)).getLast?.getD
        settings.datadir.initial := by
  have hparse := settings.setting?_parse mode stream slot?_rootSection_datadir rfl
  rw [textsFor_datadir] at hparse
  have hvalue := congrArg AnySetting.value (Option.some.inj hparse)
  rw [AnySetting.value_foldl_take_reset] at hvalue
  rw [AnyValue.text.inj hvalue, Setting.valueAfter]
  have haccepted : settings.datadir.accepted? = some := rfl
  rw [haccepted, List.filterMap_some]

end Settings

end GameSetup
