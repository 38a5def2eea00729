import GameSetup.Keyed

/-!
# Catalogs of settings

A catalog says where each named setting of each section is kept. Sections, and the names in a
section, stay in the order in which they were first entered; entering a name again changes only
where its setting is kept.
-/

namespace GameSetup

/-- Where the settings of each section are kept, in order of first entry. -/
structure Catalog (ι : Type) where
  sections : List (String × List (String × ι))
  deriving DecidableEq, Repr

namespace Catalog

variable {ι : Type}

/-- A catalog without sections. -/
def empty : Catalog ι := ⟨[]⟩

/-- Says where the setting of a section and name is kept. -/
def add (catalog : Catalog ι) (sectionName name : String) (slot : ι) : Catalog ι :=
  ⟨Keyed.enter sectionName (fun names => Keyed.enter name (fun _ => slot) (names.getD []))
    catalog.sections⟩

/-- The names of a section. -/
def names? (catalog : Catalog ι) (sectionName : String) : Option (List (String × ι)) :=
  catalog.sections.lookup sectionName

/-- Whether anything was ever entered in a section. -/
def hasSection (catalog : Catalog ι) (sectionName : String) : Bool :=
  (catalog.names? sectionName).isSome

/-- Where the setting of a section and name is kept. -/
def slot? (catalog : Catalog ι) (sectionName name : String) : Option ι :=
  (catalog.names? sectionName).bind (·.lookup name)

/-- Where all the settings are kept, in order. -/
def slots (catalog : Catalog ι) : List ι :=
  catalog.sections.flatMap fun entry => entry.2.map (·.2)

/-- Section, name and place of every setting, in order. -/
def entries (catalog : Catalog ι) : List (String × String × ι) :=
  catalog.sections.flatMap fun entry => entry.2.map fun (name, slot) => (entry.1, name, slot)

/-- A setting is found where it was entered last. -/
theorem slot?_add_self (catalog : Catalog ι) (sectionName name : String) (slot : ι) :
    (catalog.add sectionName name slot).slot? sectionName name = some slot := by
  simp [slot?, names?, add, Keyed.lookup_enter_self]

end Catalog

end GameSetup
