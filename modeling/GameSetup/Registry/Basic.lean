import GameSetup.Conf.Reader
import GameSetup.Registry.Catalog
import GameSetup.Registry.Notice
import GameSetup.Registry.Store

/-!
# Registries

A registry routes the lines of a configuration to settings. A key belongs to the section whose
header stands last before it. In the root section, before any header, a key that the root does
not declare belongs to the default section, so a file without headers can fill a named section.
Reading a configuration first resets every registered setting.
-/

namespace GameSetup

/-- The section of the keys before any header. -/
def rootSection : String := ""

/-- Named places for settings, the store that keeps them, and the two sections that guide the
search. -/
structure Registry (σ ι : Type) where
  catalog : Catalog ι
  store : σ
  currentSection : String
  defaultSection : String

namespace Registry

variable {σ ι : Type}

/-- The section that a key belongs to. -/
def sectionOf (registry : Registry σ ι) (key : String) : String :=
  if registry.currentSection = rootSection ∧ registry.catalog.slot? rootSection key = none then
    registry.defaultSection
  else
    registry.currentSection

/-- The place of the setting that a key names. -/
def slot? (registry : Registry σ ι) (key : String) : Option ι :=
  registry.catalog.slot? (registry.sectionOf key) key

/-- Makes a section, known or not, the current one. -/
def select (registry : Registry σ ι) (name : String) : Registry σ ι :=
  { registry with currentSection := name }

/-- Makes a section, known or not, the default one. -/
def selectDefault (registry : Registry σ ι) (name : String) : Registry σ ι :=
  { registry with defaultSection := name }

/-- Follows a header. The root section can be entered again. -/
def enter (registry : Registry σ ι) (name : String) : Registry σ ι × List RegistryNotice :=
  let known := name = rootSection || registry.catalog.hasSection name
  (registry.select name, if known then [] else [.unknownSection name])

variable [SettingStore σ ι]

/-- The setting that a key names. -/
def setting? (registry : Registry σ ι) (key : String) : Option AnySetting :=
  (registry.slot? key).bind (SettingStore.setting? registry.store)

/-- Returns to the root section, and every registered setting to its default. -/
def reset (registry : Registry σ ι) : Registry σ ι :=
  { registry with
    store := registry.catalog.slots.foldl SettingStore.reset registry.store
    currentSection := rootSection }

/-- Reads a text into the setting that a key names; nothing happens if there is none. -/
def read (registry : Registry σ ι) (key text : String) :
    Option (Except Rejection (Registry σ ι)) :=
  (registry.slot? key).map fun slot =>
    (SettingStore.read registry.store slot text).map fun store => { registry with store := store }

/-- Carries out an assignment, or says why it has no effect. -/
def assign (registry : Registry σ ι) (key text : String) : Registry σ ι × RegistryNotice :=
  match registry.read key text with
  | none => (registry, .unknownSetting registry.currentSection key)
  | some (.ok assigned) => (assigned, .assigned registry.currentSection key text)
  | some (.error cause) => (registry, .rejected registry.currentSection key text cause)

/-- Follows one event. -/
def handleEvent (registry : Registry σ ι) : Conf.Event → Registry σ ι × List RegistryNotice
  | .header name => registry.enter name
  | .pair key value => let (next, notice) := registry.assign key value; (next, [notice])
  | .bare key => let (next, notice) := registry.assign key ""; (next, [notice])
  | .badLine line number => (registry, [.badLine line number])

/-- Follows one signal; the start of a configuration resets the registry. -/
def handle (registry : Registry σ ι) : Conf.Signal → Registry σ ι × List RegistryNotice
  | .start => (registry.reset, [])
  | .event event => registry.handleEvent event
  | .finish => (registry, [])

/-- Follows signals one after another. -/
def handleAll (registry : Registry σ ι) :
    List Conf.Signal → Registry σ ι × List RegistryNotice
  | [] => (registry, [])
  | signal :: rest =>
    let (next, notices) := registry.handle signal
    let (last, more) := next.handleAll rest
    (last, notices ++ more)

/-- Reads a configuration. What was read before a fault stays in effect. -/
def parse (registry : Registry σ ι) (stream : Conf.Stream) :
    Registry σ ι × List RegistryNotice :=
  registry.handleAll (Conf.signals stream)

/-- A key that names no setting changes nothing. -/
theorem assign_of_slot?_eq_none (registry : Registry σ ι) {key : String} (text : String)
    (h : registry.slot? key = none) :
    registry.assign key text =
      (registry, .unknownSetting registry.currentSection key) := by
  simp [assign, read, h]

/-- Signals can be followed in any number of portions. -/
theorem handleAll_append (registry : Registry σ ι) (front back : List Conf.Signal) :
    registry.handleAll (front ++ back) =
      (((registry.handleAll front).1.handleAll back).1,
        (registry.handleAll front).2 ++ ((registry.handleAll front).1.handleAll back).2) := by
  induction front generalizing registry with
  | nil => simp [handleAll]
  | cons signal rest ih => simp [handleAll, ih, List.append_assoc]

end Registry

/-- A registry that owns its settings. A setting that loses its name to a later one stays in the
store but is out of reach. -/
abbrev OpenRegistry := Registry (List AnySetting) Nat

namespace OpenRegistry

/-- A registry without settings. -/
def empty (defaultSection : String) : OpenRegistry :=
  ⟨.empty, [], rootSection, defaultSection⟩

/-- Registers a setting under a section and a name. -/
def register (registry : OpenRegistry) (sectionName name : String) (setting : AnySetting) :
    OpenRegistry :=
  { registry with
    catalog := registry.catalog.add sectionName name registry.store.length
    store := registry.store ++ [setting] }

/-- Registers a setting under a name in the current section. -/
def registerHere (registry : OpenRegistry) (name : String) (setting : AnySetting) :
    OpenRegistry :=
  registry.register registry.currentSection name setting

/-- A registration leaves the settings that are there alone. -/
theorem store_register (registry : OpenRegistry) (sectionName name : String)
    (setting : AnySetting) :
    (registry.register sectionName name setting).store = registry.store ++ [setting] := rfl

end OpenRegistry

end GameSetup
