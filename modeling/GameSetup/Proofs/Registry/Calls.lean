import GameSetup.Proofs.Registry.Registrations
import GameSetup.Proofs.Registry.Warnings

/-!
# Registries in use

A registry is used through calls of a few kinds: sections are chosen, settings are registered and
reset, events are followed, whole configurations are read, and a text is read into the setting that
a key names. The calls alone tell which section is current, which is the default one, and which
registration a name leads to. From its registration on, a setting is changed by the calls that are
for its name, until another setting is registered under the same name; from then on by none.
-/

namespace GameSetup

/-- The header that stands last among some events, or else the one above them. -/
def Conf.headerAfter (header : String) (events : List Event) : String :=
  events.foldl (fun header event => event.headerName?.getD header) header

/-- What can be asked of a registry. -/
inductive RegistryCall where
  | select (name : String)
  | selectDefault (name : String)
  /-- Registers a setting in the current section. -/
  | registerHere (name : String) (setting : AnySetting)
  | register (sectionName name : String) (setting : AnySetting)
  | reset
  /-- Follows a header, an assignment, a bare key or a line that could not be understood. -/
  | follow (event : Conf.Event)
  | parse (stream : Conf.Stream)
  /-- Reads a text into the setting that a key names, if there is one. -/
  | readInto (key text : String)

namespace RegistryCall

/-- The name that a call registers, with its section, and the setting. -/
def registration? (current : String) : RegistryCall → Option ((String × String) × AnySetting)
  | .registerHere name setting => some ((current, name), setting)
  | .register sectionName name setting => some ((sectionName, name), setting)
  | .select _ => none
  | .selectDefault _ => none
  | .reset => none
  | .follow _ => none
  | .parse _ => none
  | .readInto _ _ => none

/-- The key and the text of a call that assigns a single one. -/
def assignment? : RegistryCall → Option (String × String)
  | .follow event => event.assignment?
  | .readInto key text => some (key, text)
  | .registerHere _ _ => none
  | .register _ _ _ => none
  | .select _ => none
  | .selectDefault _ => none
  | .reset => none
  | .parse _ => none

/-- What a call makes of the setting that is registered under a section and a name. -/
def effect (registry : OpenRegistry) (sectionName name : String) (setting : AnySetting)
    (call : RegistryCall) : AnySetting :=
  match call with
  | .reset => setting.reset
  | .parse stream =>
    (registry.textsFor sectionName name rootSection (Conf.events stream)).foldl AnySetting.take
      setting.reset
  | _ =>
    match call.assignment? with
    | none => setting
    | some (key, text) =>
      if registry.owner registry.currentSection key = sectionName ∧ key = name then
        setting.take text
      else setting

end RegistryCall

namespace OpenRegistry

open Registry

/-- The registry after a call. -/
def call (registry : OpenRegistry) : RegistryCall → OpenRegistry
  | .select name => Registry.select registry name
  | .selectDefault name => Registry.selectDefault registry name
  | .registerHere name setting => registry.registerHere name setting
  | .register sectionName name setting => registry.register sectionName name setting
  | .reset => Registry.reset registry
  | .follow event => (Registry.handleEvent registry event).1
  | .parse stream => (Registry.parse registry stream).1
  | .readInto key text =>
    match Registry.read registry key text with
    | some (.ok next) => next
    | some (.error _) => registry
    | none => registry

/-- The registry after some calls. -/
def run (defaultSection : String) (calls : List RegistryCall) : OpenRegistry :=
  calls.foldl call (empty defaultSection)

end OpenRegistry

/-- What calls have said: the current section, the default section, and the sections and names that
were registered, in order. -/
structure Scope where
  current : String
  fallback : String
  made : List (String × String)
  deriving DecidableEq, Repr

namespace Scope

/-- What has been said after one more call. -/
def step (scope : Scope) : RegistryCall → Scope
  | .select name => { scope with current := name }
  | .selectDefault name => { scope with fallback := name }
  | .registerHere name _ => { scope with made := scope.made ++ [(scope.current, name)] }
  | .register sectionName name _ => { scope with made := scope.made ++ [(sectionName, name)] }
  | .reset => { scope with current := rootSection }
  | .follow event => { scope with current := Conf.headerAfter scope.current [event] }
  | .parse stream => { scope with current := Conf.headerAfter rootSection (Conf.events stream) }
  | .readInto _ _ => scope

/-- What some calls say. -/
def after (defaultSection : String) (calls : List RegistryCall) : Scope :=
  calls.foldl step ⟨rootSection, defaultSection, []⟩

/-- A registry as the calls have it. -/
structure Describes (scope : Scope) (registry : OpenRegistry) : Prop where
  wellFormed : registry.WellFormed
  currentSection : registry.currentSection = scope.current
  defaultSection : registry.defaultSection = scope.fallback
  length : registry.store.length = scope.made.length
  lists : registry.catalog.Lists scope.made

end Scope

namespace OpenRegistry

open Registry

section Lengths

/-- Reading a text into a setting makes no room for more. -/
theorem length_of_read {settings next : List AnySetting} {place : Nat} {text : String}
    (h : SettingStore.read settings place text = .ok next) : next.length = settings.length := by
  simp only [SettingStore.read] at h
  split at h
  · cases h
    rfl
  · obtain ⟨read, -, rfl⟩ := exists_of_map_eq_ok h
    exact List.length_set

/-- An assignment adds no setting. -/
theorem length_store_assign (registry : OpenRegistry) (key text : String) :
    (registry.assign key text).1.store.length = registry.store.length := by
  rw [assign, Registry.read]
  cases registry.slot? key with
  | none => rfl
  | some place =>
    rw [Option.map_some]
    cases hread : SettingStore.read registry.store place text with
    | error cause => rfl
    | ok store => exact length_of_read hread

/-- Neither do resets. -/
theorem length_foldl_reset (places : List Nat) (settings : List AnySetting) :
    (places.foldl SettingStore.reset settings).length = settings.length := by
  induction places generalizing settings with
  | nil => rfl
  | cons place places ih => exact (ih _).trans (List.length_modify ..)

/-- Neither does a signal. -/
theorem length_store_handle (registry : OpenRegistry) (signal : Conf.Signal) :
    (Registry.handle registry signal).1.store.length = registry.store.length := by
  cases signal with
  | start => exact length_foldl_reset registry.catalog.slots registry.store
  | event event =>
    cases event with
    | header name => rfl
    | pair key text => exact registry.length_store_assign key text
    | bare key => exact registry.length_store_assign key ""
    | badLine line number => rfl
  | finish => rfl

/-- Neither do signals. -/
theorem length_store_handleAll (registry : OpenRegistry) (signals : List Conf.Signal) :
    (Registry.handleAll registry signals).1.store.length = registry.store.length := by
  induction signals generalizing registry with
  | nil => rfl
  | cons signal signals ih => exact (ih _).trans (registry.length_store_handle signal)

end Lengths

/-- After some events the last of their headers is current. -/
theorem currentSection_follow (registry : OpenRegistry) (events : List Conf.Event) :
    (Registry.follow registry events).1.currentSection =
      Conf.headerAfter registry.currentSection events := by
  induction events generalizing registry with
  | nil => rfl
  | cons event events ih =>
    rw [follow_cons, ih, currentSection_handleEvent]
    rfl

/-- Reading a text into the setting that a key names is following an assignment. -/
theorem call_readInto (registry : OpenRegistry) (key text : String) :
    registry.call (.readInto key text) = (registry.assign key text).1 := by
  rw [call, assign]
  cases Registry.read registry key text with
  | none => rfl
  | some result => cases result <;> rfl

/-- A call that assigns a text does so. -/
theorem call_of_assignment? {call : RegistryCall} {key text : String}
    (h : call.assignment? = some (key, text)) (registry : OpenRegistry) :
    registry.call call = (registry.assign key text).1 := by
  cases call with
  | follow event =>
    exact congrArg Prod.fst (handleEvent_of_assignment? h registry).1
  | readInto =>
    cases h
    exact registry.call_readInto key text
  | _ => cases h

/-- A call that registers a setting does so. -/
theorem call_of_registration? {call : RegistryCall} {registry : OpenRegistry}
    {sectionName name : String} {setting : AnySetting}
    (h : call.registration? registry.currentSection = some ((sectionName, name), setting)) :
    registry.call call = registry.register sectionName name setting := by
  cases call with
  | registerHere | register =>
    cases h
    rfl
  | _ => cases h

end OpenRegistry

namespace Scope

open Registry OpenRegistry

/-- A call adds what it registers. -/
theorem made_step (scope : Scope) (call : RegistryCall) :
    (scope.step call).made =
      scope.made ++ ((call.registration? scope.current).map (·.1)).toList := by
  cases call with
  | registerHere | register => rfl
  | _ => exact (List.append_nil _).symm

variable {scope : Scope} {registry next : OpenRegistry}

/-- At first nothing has been made. -/
theorem describes_empty (defaultSection : String) :
    Describes ⟨rootSection, defaultSection, []⟩ (OpenRegistry.empty defaultSection) where
  wellFormed := wellFormed_empty defaultSection
  currentSection := rfl
  defaultSection := rfl
  length := rfl
  lists := .empty

namespace Describes

/-- A registration is made in the next place. -/
theorem register (h : scope.Describes registry) (sectionName name : String) (setting : AnySetting) :
    Describes { scope with made := scope.made ++ [(sectionName, name)] }
      (registry.register sectionName name setting) where
  wellFormed := wellFormed_register h.wellFormed sectionName name setting
  currentSection := h.currentSection
  defaultSection := h.defaultSection
  length := by
    rw [store_register, List.length_append, List.length_append, h.length]
    rfl
  lists := by
    rw [OpenRegistry.register, h.length]
    exact h.lists.add sectionName name

/-- Nothing is declared where values alone are changed. -/
theorem of_sameDeclarations (h : scope.Describes registry) (hsame : SameDeclarations registry next)
    (hlength : next.store.length = registry.store.length) {current : String}
    (hcurrent : next.currentSection = current) :
    Describes { scope with current := current } next where
  wellFormed := h.wellFormed.of_sameDeclarations hsame
  currentSection := hcurrent
  defaultSection := hsame.defaultSection_eq.trans h.defaultSection
  length := hlength.trans h.length
  lists := hsame.catalog_eq ▸ h.lists

/-- A signal changes at most the current section. -/
theorem signal (h : scope.Describes registry) (signal : Conf.Signal) {current : String}
    (hcurrent : (Registry.handle registry signal).1.currentSection = current) :
    Describes { scope with current := current } (Registry.handle registry signal).1 :=
  h.of_sameDeclarations (h.wellFormed.sameDeclarations.handle signal)
    (registry.length_store_handle signal) hcurrent

/-- Every call keeps a registry as the calls have it. -/
theorem call (h : scope.Describes registry) (call : RegistryCall) :
    (scope.step call).Describes (registry.call call) := by
  cases call with
  | select name =>
    exact ⟨⟨h.wellFormed.nodup_slots, h.wellFormed.held⟩, rfl, h.defaultSection, h.length, h.lists⟩
  | selectDefault name =>
    exact ⟨⟨h.wellFormed.nodup_slots, h.wellFormed.held⟩, h.currentSection, rfl, h.length, h.lists⟩
  | registerHere name setting =>
    change Describes _ (registry.register registry.currentSection name setting)
    rw [h.currentSection]
    exact h.register scope.current name setting
  | register sectionName name setting => exact h.register sectionName name setting
  | reset => exact h.signal .start rfl
  | follow event =>
    refine h.signal (.event event) ?_
    rw [← h.currentSection]
    exact currentSection_handleEvent registry event
  | parse stream =>
    refine h.of_sameDeclarations (h.wellFormed.sameDeclarations_parse stream)
      (registry.length_store_handleAll _) ?_
    rw [parse_eq]
    exact currentSection_follow _ _
  | readInto key text =>
    rw [call_readInto]
    exact h.signal (.event (.pair key text))
      ((currentSection_handleEvent registry _).trans h.currentSection)

/-- The section that a key belongs to, as the calls have it. -/
theorem owner_eq (h : scope.Describes registry) (header key : String) :
    registry.owner header key =
      if header = rootSection ∧ (rootSection, key) ∉ scope.made then scope.fallback
      else header := by
  have hroot : registry.catalog.slot? rootSection key = none ↔ (rootSection, key) ∉ scope.made := by
    rw [Option.eq_none_iff_forall_ne_some, mem_iff_exists_lastAt, not_exists]
    exact forall_congr' fun place => not_congr (h.lists.slot?_eq_some_iff rootSection key place)
  rw [owner, h.defaultSection]
  simp only [hroot]

/-- A call changes a setting that is registered last under its name as the effect has it. -/
theorem held?_call (h : scope.Describes registry) {sectionName name : String} {place : Nat}
    (hlast : LastAt scope.made (sectionName, name) place) (call : RegistryCall) :
    ∃ setting, registry.held? place = some setting ∧
      (registry.call call).held? place = some (call.effect registry sectionName name setting) := by
  have hslot := (h.lists.slot?_eq_some_iff sectionName name place).mpr hlast
  have hmem := Catalog.mem_slots_of_slot? hslot
  have hnodup := h.wellFormed.nodup_slots
  obtain ⟨setting, hheld⟩ := h.wellFormed.held place hmem
  have hassign := registry.held?_assign hnodup hslot hheld
  have hregister (sectionName name : String) (other : AnySetting) :
      (registry.register sectionName name other).held? place = some setting :=
    (List.getElem?_append_left (List.getElem?_eq_some_iff.mp hheld).1).trans hheld
  refine ⟨setting, hheld, ?_⟩
  cases call with
  | select name => exact hheld
  | selectDefault name => exact hheld
  | registerHere name other => exact hregister registry.currentSection name other
  | register sectionName name other => exact hregister sectionName name other
  | reset => exact registry.held?_reset hmem hheld
  | follow event =>
    cases event with
    | header name => exact hheld
    | pair key text => exact hassign key text
    | bare key => exact hassign key ""
    | badLine line number => exact hheld
  | parse stream => exact registry.held?_parse hnodup hslot hheld stream
  | readInto key text =>
    rw [call_readInto]
    exact hassign key text

/-- A call leaves settings alone that are registered last under no name. -/
theorem held?_call_of_displaced (h : scope.Describes registry) {place : Nat}
    (hplace : place < scope.made.length) (hdisplaced : ∀ pair, ¬LastAt scope.made pair place)
    (call : RegistryCall) : (registry.call call).held? place = registry.held? place := by
  have hmem : place ∉ registry.catalog.slots := fun hmem =>
    (h.lists.mem_slots_iff.mp hmem).elim hdisplaced
  have hassign (key text : String) :
      (registry.assign key text).1.held? place = registry.held? place :=
    registry.held?_assign_of_ne text fun hslot => hmem (Catalog.mem_slots_of_slot? hslot)
  have hregister (sectionName name : String) (setting : AnySetting) :
      (registry.register sectionName name setting).held? place = registry.held? place :=
    List.getElem?_append_left (h.length ▸ hplace)
  cases call with
  | select name => rfl
  | selectDefault name => rfl
  | registerHere name setting => exact hregister registry.currentSection name setting
  | register sectionName name setting => exact hregister sectionName name setting
  | reset => exact registry.held?_reset_of_not_mem hmem
  | follow event =>
    cases event with
    | header name => rfl
    | pair key text => exact hassign key text
    | bare key => exact hassign key ""
    | badLine line number => rfl
  | parse stream => exact registry.held?_parse_of_not_mem stream hmem
  | readInto key text =>
    rw [call_readInto]
    exact hassign key text

/-- A setting that has lost its name is out of reach for good. -/
theorem held?_foldl_call_of_displaced (h : scope.Describes registry) {place : Nat}
    (hplace : place < scope.made.length) (hdisplaced : ∀ pair, ¬LastAt scope.made pair place)
    (calls : List RegistryCall) :
    (calls.foldl OpenRegistry.call registry).held? place = registry.held? place := by
  induction calls generalizing scope registry with
  | nil => rfl
  | cons call calls ih =>
    have hlength : place < (scope.step call).made.length := by
      rw [made_step, List.length_append]
      exact Nat.lt_add_right _ hplace
    have hstill (pair : String × String) : ¬LastAt (scope.step call).made pair place := by
      rw [made_step]
      exact fun hlast => hdisplaced pair (hlast.of_append hplace)
    rw [List.foldl_cons, ih (h.call call) hlength hstill]
    exact h.held?_call_of_displaced hplace hdisplaced call

/-- A setting is left as it is once another one is registered under its name. -/
theorem held?_foldl_call_of_registered (h : scope.Describes registry) {pair : String × String}
    {place : Nat} (hlast : LastAt scope.made pair place) {call : RegistryCall}
    {setting : AnySetting} (hcall : call.registration? scope.current = some (pair, setting))
    (calls : List RegistryCall) :
    ((call :: calls).foldl OpenRegistry.call registry).held? place = registry.held? place := by
  have hmade : (scope.step call).made = scope.made ++ [pair] := by
    rw [made_step, hcall]
    rfl
  have hlength : place < (scope.step call).made.length := by
    rw [hmade, List.length_append]
    exact Nat.lt_add_right _ hlast.lt_length
  have hdisplaced (other : String × String) : ¬LastAt (scope.step call).made other place := by
    rw [hmade, lastAt_concat_iff]
    split
    · exact Nat.ne_of_lt hlast.lt_length
    · next hne => exact fun hother => hne (Option.some.inj (hother.1.symm.trans hlast.1))
  rw [List.foldl_cons, (h.call call).held?_foldl_call_of_displaced hlength hdisplaced]
  rw [← h.currentSection] at hcall
  rw [call_of_registration? hcall]
  exact List.getElem?_append_left (h.length ▸ hlast.lt_length)

end Describes

/-- Whatever the calls, they tell what the registry is like. -/
theorem describes_run (defaultSection : String) (calls : List RegistryCall) :
    (after defaultSection calls).Describes (run defaultSection calls) := by
  have hrun : ∀ (scope : Scope) (registry : OpenRegistry), scope.Describes registry →
      (calls.foldl step scope).Describes (calls.foldl OpenRegistry.call registry) := by
    induction calls with
    | nil => exact fun _ _ h => h
    | cons call calls ih => exact fun _ _ h => ih _ _ (h.call call)
  exact hrun _ _ (describes_empty defaultSection)

end Scope

namespace OpenRegistry

/-- After any calls, sections and names are listed once, in the positions of their first
registrations, and a name leads to the setting that was registered last under it. A further call
changes that setting as its effect has it. If the call registers another setting under the same
name, the one before is left as it is, whatever calls follow. If it assigns a single text, it
changes at most the setting that its key leads to, and neither of the two sections. -/
theorem run_lastRegistered (defaultSection : String) (calls : List RegistryCall) :
    let registry := run defaultSection calls
    let scope := Scope.after defaultSection calls
    registry.currentSection = scope.current ∧
      registry.defaultSection = scope.fallback ∧
      (∀ header key, registry.owner header key =
        if header = rootSection ∧ (rootSection, key) ∉ scope.made then scope.fallback
        else header) ∧
      registry.catalog.Distinct ∧
      registry.catalog.sections.map (fun entry => (entry.1, entry.2.map (·.1))) =
        Catalog.layout scope.made ∧
      (∀ sectionName name place, registry.catalog.slot? sectionName name = some place ↔
        LastAt scope.made (sectionName, name) place) ∧
      (∀ key place, registry.slot? key = some place ↔
        LastAt scope.made (registry.owner registry.currentSection key, key) place) ∧
      ∀ call : RegistryCall,
        let next := registry.call call
        (∀ sectionName name place, LastAt scope.made (sectionName, name) place →
          ∃ setting, registry.held? place = some setting ∧
            next.held? place = some (call.effect registry sectionName name setting)) ∧
        (∀ pair setting, call.registration? scope.current = some (pair, setting) →
          next.held? scope.made.length = some setting ∧
            ∀ place, LastAt scope.made pair place → ∀ later : List RegistryCall,
              (run defaultSection (calls ++ call :: later)).held? place =
                registry.held? place) ∧
        ∀ key text, call.assignment? = some (key, text) →
          next.catalog = registry.catalog ∧
            next.currentSection = registry.currentSection ∧
            next.defaultSection = registry.defaultSection ∧
            ∀ place, registry.slot? key ≠ some place →
              next.held? place = registry.held? place := by
  intro registry scope
  have h : scope.Describes registry := Scope.describes_run defaultSection calls
  refine ⟨h.currentSection, h.defaultSection, h.owner_eq, h.lists.distinct, h.lists.layout_eq,
    h.lists.slot?_eq_some_iff, fun key => h.lists.slot?_eq_some_iff _ key, fun call =>
    ⟨fun sectionName name place hlast => h.held?_call hlast call, fun pair setting hcall =>
      ⟨?_, fun place hlast later => ?_⟩, fun key text hassigns => ?_⟩⟩
  · rw [← h.currentSection] at hcall
    rw [call_of_registration? hcall, ← h.length]
    exact List.getElem?_concat_length
  · rw [run, List.foldl_append]
    exact h.held?_foldl_call_of_registered hlast hcall later
  · obtain ⟨store, hstore⟩ := registry.exists_assign_fst key text
    have hframe : ∀ place, registry.slot? key ≠ some place →
        (registry.assign key text).1.held? place = registry.held? place :=
      fun place hne => registry.held?_assign_of_ne text hne
    rw [call_of_assignment? hassigns]
    rw [hstore] at hframe ⊢
    exact ⟨rfl, rfl, rfl, hframe⟩

example (first second : AnySetting) :
    let registry := run "game" [.registerHere "flag" first, .registerHere "flag" second]
    registry.slot? "flag" = some 1 ∧ registry.held? 0 = some first := by
  exact ⟨rfl, rfl⟩

end OpenRegistry

end GameSetup
