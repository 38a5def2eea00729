import GameSetup.Proofs.Registry.Lawful
import GameSetup.Proofs.Registry.Places

/-!
# Where the assignments of a configuration go

An assignment stands under the last header before it, and under the root section if there is none.
The texts for a setting are those of the assignments that belong to its section and have its name. A
configuration is read by giving each setting its texts in turn, so the settings do not interfere.

Registries that declare the same settings and hold the same values in them can not be told apart,
neither by what they hold afterwards nor by what they say.
-/

namespace GameSetup

open SettingStore LawfulStore

/-- The assignments among some events, each with the section whose header stands last before it. -/
def Conf.placed (header : String) : List Event → List (String × String × String)
  | [] => []
  | .header name :: events => placed name events
  | .pair key text :: events => (header, key, text) :: placed header events
  | .bare key :: events => (header, key, "") :: placed header events
  | .badLine _ _ :: events => placed header events

/-- The section that an event starts, if it is a header. -/
def Conf.Event.headerName? : Event → Option String
  | .header name => some name
  | .pair _ _ => none
  | .bare _ => none
  | .badLine _ _ => none

/-- The first of some events is placed under the header above it, and may be the header of the
others. -/
theorem Conf.placed_cons (header : String) (event : Event) (events : List Event) :
    placed header (event :: events) =
      (event.assignment?.map fun (key, text) => (header, key, text)).toList ++
        placed (event.headerName?.getD header) events := by
  cases event <;> rfl

/-- Resets reach the places that are named. -/
theorem setting?_foldl_reset_of_not_mem {σ ι : Type} [SettingStore σ ι] [LawfulStore σ ι]
    {places : List ι} (store : σ) {slot : ι} (h : slot ∉ places) :
    setting? (places.foldl reset store) slot = setting? store slot := by
  induction places generalizing store with
  | nil => rfl
  | cons place places ih =>
    rw [List.foldl_cons, ih (reset store place) (List.not_mem_of_not_mem_cons h),
      setting?_reset_of_ne store (List.ne_of_not_mem_cons h)]

/-- A place may be named twice, as a second reset changes nothing. -/
theorem setting?_foldl_reset_of_mem {σ ι : Type} [SettingStore σ ι] [LawfulStore σ ι]
    {places : List ι} (store : σ) {slot : ι} (h : slot ∈ places) :
    setting? (places.foldl reset store) slot = (setting? store slot).map AnySetting.reset := by
  induction places generalizing store with
  | nil => exact absurd h List.not_mem_nil
  | cons place places ih =>
    rw [List.foldl_cons]
    by_cases hplaces : slot ∈ places
    · rw [ih (reset store place) hplaces]
      by_cases hplace : slot = place
      · rw [hplace, setting?_reset_self, Option.map_map]
        exact congrArg (Option.map · (setting? store place))
          (funext AnySetting.reset_reset)
      · rw [setting?_reset_of_ne store hplace]
    · obtain rfl := (List.mem_cons.mp h).resolve_right hplaces
      rw [setting?_foldl_reset_of_not_mem _ hplaces, setting?_reset_self]

namespace Registry

variable {σ ι : Type}

/-- The section that a key under a header belongs to. Under the root, a key that the root does not
declare belongs to the default section. -/
def owner (registry : Registry σ ι) (header key : String) : String :=
  if header = rootSection ∧ registry.catalog.slot? rootSection key = none then
    registry.defaultSection
  else
    header

/-- A key that the root declares belongs to the section whose header it stands under. -/
theorem owner_of_declared (registry : Registry σ ι) {key : String} {slot : ι}
    (h : registry.catalog.slot? rootSection key = some slot) (header : String) :
    registry.owner header key = header := by
  simp [owner, h]

/-- A key that the root does not declare belongs elsewhere. -/
theorem owner_of_not_declared (registry : Registry σ ι) {key : String}
    (h : registry.catalog.slot? rootSection key = none) (header : String) :
    registry.owner header key =
      if header = rootSection then registry.defaultSection else header := by
  simp [owner, h]

/-- What the root lists belongs to the root. -/
theorem owner_of_mem_root {registry : Registry σ ι} {key : String}
    (h : ∃ slot, (key, slot) ∈ (registry.catalog.names? rootSection).getD []) :
    registry.owner rootSection key = rootSection := by
  obtain ⟨place, hmem⟩ := h
  cases hnames : registry.catalog.names? rootSection with
  | none =>
    rw [hnames] at hmem
    exact absurd hmem List.not_mem_nil
  | some names =>
    rw [hnames] at hmem
    cases hfound : names.lookup key with
    | none =>
      have hne := List.lookup_eq_none_iff.mp hfound _ hmem
      simp at hne
    | some found =>
      have hslot : registry.catalog.slot? rootSection key = some found := by
        rw [Catalog.slot?, hnames, Option.bind_some, hfound]
      exact registry.owner_of_declared hslot rootSection

/-- The texts that some events assign to a setting, in order. The first events stand under the given
header. -/
def textsFor (registry : Registry σ ι) (sectionName name header : String)
    (events : List Conf.Event) : List String :=
  (Conf.placed header events).filterMap fun (header, key, text) =>
    if registry.owner header key = sectionName ∧ key = name then some text else none

/-- The texts that some pairs give to a name. -/
def textsNamed (name : String) (pairs : List (String × String)) : List String :=
  pairs.filterMap fun (key, text) => if key = name then some text else none

/-- Texts come in the order of the pairs. -/
theorem textsNamed_append (name : String) (pairs more : List (String × String)) :
    textsNamed name (pairs ++ more) = textsNamed name pairs ++ textsNamed name more :=
  List.filterMap_append

/-- What pairs under one header say for a setting, if those with its name belong to one section. -/
theorem textsNamed_under (registry : Registry σ ι) (sectionName name : String)
    {header owned : String} {pairs : List (String × String)}
    (howner : ∀ pair ∈ pairs, pair.1 = name → registry.owner header pair.1 = owned) :
    (pairs.map fun pair => (header, pair)).filterMap (fun (header, key, text) =>
        if registry.owner header key = sectionName ∧ key = name then some text else none) =
      if owned = sectionName then textsNamed name pairs else [] := by
  have hiff : ∀ pair ∈ pairs, registry.owner header pair.1 = sectionName ∧ pair.1 = name ↔
      owned = sectionName ∧ pair.1 = name := fun pair hpair =>
    and_congr_left fun hname => by rw [howner pair hpair hname]
  rw [List.filterMap_map]
  split
  · next hsection =>
    refine List.filterMap_congr fun pair hpair => ?_
    simp only [Function.comp_apply, hiff pair hpair, hsection, true_and]
  · next hsection =>
    refine List.filterMap_eq_nil_iff.mpr fun pair hpair => ?_
    simp only [Function.comp_apply, hiff pair hpair, hsection, false_and, if_false]

/-- The texts for a setting, the first assignment taken apart. -/
theorem foldl_take_textsFor (registry : Registry σ ι) {header key text : String}
    {events rest : List Conf.Event}
    (h : Conf.placed header events = (header, key, text) :: Conf.placed header rest)
    (sectionName name : String) (setting : AnySetting) :
    (registry.textsFor sectionName name header events).foldl AnySetting.take setting =
      (registry.textsFor sectionName name header rest).foldl AnySetting.take
        (if registry.owner header key = sectionName ∧ key = name then
          setting.take text else setting) := by
  rw [textsFor, textsFor, h, List.filterMap_cons]
  by_cases howned : registry.owner header key = sectionName ∧ key = name
  · simp only [if_pos howned, List.foldl_cons]
  · simp only [if_neg howned]

/-- The place that a key names is the one that its section declares under the key. -/
theorem slot?_eq (registry : Registry σ ι) (key : String) :
    registry.slot? key =
      registry.catalog.slot? (registry.owner registry.currentSection key) key := rfl

/-- Where the places are apart, a key names a place exactly if it belongs to the place's section and
has its name. -/
theorem slot?_eq_some_iff {registry : Registry σ ι} (hnodup : registry.catalog.slots.Nodup)
    {sectionName name : String} {slot : ι}
    (hslot : registry.catalog.slot? sectionName name = some slot) (key : String) :
    registry.slot? key = some slot ↔
      registry.owner registry.currentSection key = sectionName ∧ key = name := by
  rw [slot?_eq]
  constructor
  · intro hkey
    exact Catalog.slot?_inj hnodup hkey hslot
  · rintro ⟨hsection, rfl⟩
    rw [hsection, hslot]

variable [SettingStore σ ι]

/-- The setting that is kept at a place. -/
def held? (registry : Registry σ ι) (slot : ι) : Option AnySetting :=
  SettingStore.setting? registry.store slot

/-- An assignment changes nothing but the store. -/
theorem exists_assign_fst (registry : Registry σ ι) (key text : String) :
    ∃ store, (registry.assign key text).1 = { registry with store := store } := by
  rw [assign, read]
  cases registry.slot? key with
  | none => exact ⟨registry.store, rfl⟩
  | some slot =>
    cases hread : SettingStore.read registry.store slot text with
    | error cause => exact ⟨registry.store, by rw [Option.map_some, hread]; rfl⟩
    | ok store => exact ⟨store, by rw [Option.map_some, hread]; rfl⟩

/-- Places that the key does not name keep what they had. -/
theorem held?_assign_of_ne [LawfulStore σ ι] (registry : Registry σ ι) {key : String}
    (text : String) {slot : ι} (hne : registry.slot? key ≠ some slot) :
    (registry.assign key text).1.held? slot = registry.held? slot := by
  rw [assign, read]
  cases hplace : registry.slot? key with
  | none => rfl
  | some place =>
    rw [Option.map_some]
    cases hread : SettingStore.read registry.store place text with
    | error cause => rfl
    | ok store => exact setting?_of_read hread fun hslot => hne (hplace.trans (hslot ▸ rfl))

/-- The setting that the key names takes the text, and the notice says what came of it. -/
theorem assign_of_setting [LawfulStore σ ι] (registry : Registry σ ι) {key : String}
    (text : String) {slot : ι} {setting : AnySetting} (hslot : registry.slot? key = some slot)
    (hheld : registry.held? slot = some setting) :
    (registry.assign key text).1.held? slot = some (setting.take text) ∧
      (registry.assign key text).2 =
        match setting.read text with
        | .ok _ => .assigned registry.currentSection key text
        | .error cause => .rejected registry.currentSection key text cause := by
  have hread := map_read text hheld
  rw [assign, read, hslot, Option.map_some, AnySetting.take]
  cases hplace : SettingStore.read registry.store slot text with
  | error cause =>
    rw [hplace] at hread
    rw [eq_error_of_map_eq_error hread.symm]
    exact ⟨hheld, rfl⟩
  | ok store =>
    rw [hplace] at hread
    obtain ⟨next, hnext, hstore⟩ := exists_of_map_eq_ok hread.symm
    rw [hnext]
    exact ⟨hstore.symm, rfl⟩

/-- The registry and its notices after some events. -/
def follow (registry : Registry σ ι) (events : List Conf.Event) :
    Registry σ ι × List RegistryNotice :=
  registry.handleAll (events.map .event)

/-- The first event is handled before the others are followed. -/
theorem follow_cons (registry : Registry σ ι) (event : Conf.Event) (events : List Conf.Event) :
    registry.follow (event :: events) =
      (((registry.handleEvent event).1.follow events).1,
        (registry.handleEvent event).2 ++ ((registry.handleEvent event).1.follow events).2) := rfl

/-- Reading resets the registry and then follows the events. -/
theorem parse_eq (registry : Registry σ ι) (stream : Conf.Stream) :
    registry.parse stream = registry.reset.follow (Conf.events stream) := by
  rw [parse, Conf.signals, handleAll_append]
  cases stream.fault <;> simp [handleAll, handle, follow]

/-- Following an event changes nothing but the store and the current section. -/
theorem exists_handleEvent_fst (registry : Registry σ ι) (event : Conf.Event) :
    ∃ store current, (registry.handleEvent event).1 =
      ⟨registry.catalog, store, current, registry.defaultSection⟩ := by
  cases event with
  | header name => exact ⟨registry.store, name, rfl⟩
  | pair key text =>
    obtain ⟨store, hstore⟩ := registry.exists_assign_fst key text
    exact ⟨store, registry.currentSection, hstore⟩
  | bare key =>
    obtain ⟨store, hstore⟩ := registry.exists_assign_fst key ""
    exact ⟨store, registry.currentSection, hstore⟩
  | badLine line number => exact ⟨registry.store, registry.currentSection, rfl⟩

section

variable [LawfulStore σ ι]

/-- A reset returns a declared setting to its default. -/
theorem held?_reset (registry : Registry σ ι) {slot : ι} {setting : AnySetting}
    (hmem : slot ∈ registry.catalog.slots) (hheld : registry.held? slot = some setting) :
    registry.reset.held? slot = some setting.reset :=
  (setting?_foldl_reset_of_mem registry.store hmem).trans
    (congrArg (Option.map AnySetting.reset) hheld)

/-- A reset leaves settings alone that are not declared. -/
theorem held?_reset_of_not_mem (registry : Registry σ ι) {slot : ι}
    (hmem : slot ∉ registry.catalog.slots) : registry.reset.held? slot = registry.held? slot :=
  setting?_foldl_reset_of_not_mem registry.store hmem

/-- Settings that are not declared keep what they had. -/
theorem held?_follow_of_not_mem (registry : Registry σ ι) (events : List Conf.Event) {slot : ι}
    (h : slot ∉ registry.catalog.slots) :
    (registry.follow events).1.held? slot = registry.held? slot := by
  induction events generalizing registry with
  | nil => rfl
  | cons event events ih =>
    have hstep : (registry.handleEvent event).1.held? slot =
        registry.held? slot := by
      have hne (key : String) : registry.slot? key ≠ some slot := fun hkey =>
        h (Catalog.mem_slots_of_slot? hkey)
      cases event with
      | header name => rfl
      | pair key text => exact registry.held?_assign_of_ne text (hne key)
      | bare key => exact registry.held?_assign_of_ne "" (hne key)
      | badLine line number => rfl
    obtain ⟨store, current, hnext⟩ := registry.exists_handleEvent_fst event
    rw [follow_cons]
    rw [hnext] at hstep ⊢
    exact (ih ⟨registry.catalog, store, current, registry.defaultSection⟩ h).trans hstep

/-- A slot that no name leads to is not touched. -/
theorem held?_parse_of_not_mem (registry : Registry σ ι) (stream : Conf.Stream) {slot : ι}
    (h : slot ∉ registry.catalog.slots) :
    (registry.parse stream).1.held? slot = registry.held? slot := by
  rw [parse_eq, registry.reset.held?_follow_of_not_mem _ h, registry.held?_reset_of_not_mem h]

/-- What one more assignment means for a declared setting. -/
theorem held?_assign (registry : Registry σ ι) (hnodup : registry.catalog.slots.Nodup)
    {sectionName name : String} {slot : ι} {setting : AnySetting}
    (hslot : registry.catalog.slot? sectionName name = some slot)
    (hheld : registry.held? slot = some setting) (key text : String) :
    (registry.assign key text).1.held? slot =
      some (if registry.owner registry.currentSection key = sectionName ∧ key = name then
        setting.take text else setting) := by
  have hiff := slot?_eq_some_iff hnodup hslot key
  split
  · next howned => exact (registry.assign_of_setting text (hiff.mpr howned) hheld).1
  · next howned =>
    rw [registry.held?_assign_of_ne text (mt hiff.mp howned), hheld]

/-- A declared setting takes the texts that are for it, one after another. -/
theorem held?_follow (registry : Registry σ ι) (hnodup : registry.catalog.slots.Nodup)
    {sectionName name : String} {slot : ι} {setting : AnySetting}
    (hslot : registry.catalog.slot? sectionName name = some slot)
    (hheld : registry.held? slot = some setting) (events : List Conf.Event) :
    (registry.follow events).1.held? slot =
      some ((registry.textsFor sectionName name registry.currentSection events).foldl
        AnySetting.take setting) := by
  induction events generalizing registry setting with
  | nil => exact hheld
  | cons event events ih =>
    have hassign (key text : String) (hplaced : Conf.placed registry.currentSection
          (event :: events) = (registry.currentSection, key, text) ::
            Conf.placed registry.currentSection events) :
        ((registry.assign key text).1.follow events).1.held? slot =
          some ((registry.textsFor sectionName name registry.currentSection
            (event :: events)).foldl AnySetting.take setting) := by
      have hnext := registry.held?_assign hnodup hslot hheld key text
      obtain ⟨store, hstore⟩ := registry.exists_assign_fst key text
      rw [registry.foldl_take_textsFor hplaced]
      rw [hstore] at hnext ⊢
      exact ih { registry with store := store } hnodup hslot hnext
    cases event with
    | header name => exact ih (registry.select name) hnodup hslot hheld
    | pair key text => exact hassign key text rfl
    | bare key => exact hassign key "" rfl
    | badLine line number => exact ih registry hnodup hslot hheld

/-- After reading, a declared setting has been reset and has then taken the texts that are for
it. -/
theorem held?_parse (registry : Registry σ ι) (hnodup : registry.catalog.slots.Nodup)
    {sectionName name : String} {slot : ι} {setting : AnySetting}
    (hslot : registry.catalog.slot? sectionName name = some slot)
    (hheld : registry.held? slot = some setting) (stream : Conf.Stream) :
    (registry.parse stream).1.held? slot =
      some ((registry.textsFor sectionName name rootSection (Conf.events stream)).foldl
        AnySetting.take setting.reset) := by
  have hreset := registry.held?_reset (Catalog.mem_slots_of_slot? hslot) hheld
  rw [parse_eq]
  exact registry.reset.held?_follow hnodup hslot hreset (Conf.events stream)

end

end Registry

end GameSetup
