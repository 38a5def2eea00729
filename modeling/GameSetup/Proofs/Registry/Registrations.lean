import GameSetup.Proofs.Registry.Places

/-!
# What was registered, and where

Names are registered one after another, and each registration has its turn. A catalog that came
about in this way lists sections and names in the order of their first turns, and leads from a name
to its last.
-/

namespace GameSetup

section Last

variable {α : Type} {list : List α} {value other : α} {place : Nat}

/-- A value stands at a place of a list and nowhere behind it. -/
def LastAt (list : List α) (value : α) (place : Nat) : Prop :=
  list[place]? = some value ∧ ∀ later, place < later → list[later]? ≠ some value

/-- A last place is a place of the list. -/
theorem LastAt.lt_length (h : LastAt list value place) : place < list.length :=
  (List.getElem?_eq_some_iff.mp h.1).1

/-- What stands last among more stands last among fewer. -/
theorem LastAt.of_append {more : List α} (h : LastAt (list ++ more) value place)
    (hplace : place < list.length) : LastAt list value place := by
  refine ⟨(List.getElem?_append_left hplace).symm.trans h.1, fun later hlater hvalue => ?_⟩
  have hlength := (List.getElem?_eq_some_iff.mp hvalue).1
  exact h.2 later hlater ((List.getElem?_append_left hlength).trans hvalue)

/-- One more value stands last itself, and takes that from none but its equals. -/
theorem lastAt_concat_iff [DecidableEq α] :
    LastAt (list ++ [other]) value place ↔
      if value = other then place = list.length else LastAt list value place := by
  have hend : (list ++ [other])[list.length]? = some other := List.getElem?_concat_length
  split
  · next hsame =>
    subst hsame
    constructor
    · intro h
      have hplace := h.lt_length
      rw [List.length_append, List.length_singleton] at hplace
      have hlast := mt (h.2 list.length) (not_not.mpr hend)
      omega
    · rintro rfl
      refine ⟨hend, fun later hlater hvalue => ?_⟩
      have hlength := (List.getElem?_eq_some_iff.mp hvalue).1
      rw [List.length_append, List.length_singleton] at hlength
      omega
  · next hne =>
    have hback {later : Nat} (h : (list ++ [other])[later]? = some value) :
        list[later]? = some value := by
      rw [List.getElem?_append] at h
      split at h
      · exact h
      · obtain rfl := List.mem_singleton.mp (List.mem_of_getElem? h)
        exact absurd rfl hne
    constructor
    · intro h
      exact h.of_append (List.getElem?_eq_some_iff.mp (hback h.1)).1
    · intro h
      exact ⟨(List.getElem?_append_left h.lt_length).trans h.1, fun later hlater hvalue =>
        h.2 later hlater (hback hvalue)⟩

/-- Whatever is in a list stands last somewhere. -/
theorem mem_iff_exists_lastAt [DecidableEq α] :
    value ∈ list ↔ ∃ place, LastAt list value place := by
  constructor
  · intro hmem
    induction list using List.reverseRecOn with
    | nil => exact absurd hmem List.not_mem_nil
    | append_singleton list last ih =>
      simp only [lastAt_concat_iff]
      by_cases hlast : value = last
      · simp only [if_pos hlast, exists_eq]
      · simp only [if_neg hlast]
        exact ih ((List.mem_append.mp hmem).resolve_right (mt List.mem_singleton.mp hlast))
  · rintro ⟨place, h⟩
    exact List.mem_of_getElem? h.1

end Last

namespace Catalog

section Lookup

variable {ι : Type} {catalog : Catalog ι} {sectionName name otherSection otherName : String}
  {slot : ι}

/-- What is found under the section of a new entry. -/
theorem names?_add_self (catalog : Catalog ι) (sectionName name : String) (slot : ι) :
    (catalog.add sectionName name slot).names? sectionName =
      some (Keyed.enter name (fun _ => slot) ((catalog.names? sectionName).getD [])) :=
  Keyed.lookup_enter_self sectionName _ catalog.sections

/-- A registration concerns its own section only. -/
theorem names?_add_of_ne (h : otherSection ≠ sectionName) :
    (catalog.add sectionName name slot).names? otherSection = catalog.names? otherSection :=
  Keyed.lookup_enter_of_ne h _ catalog.sections

/-- A slot is looked up among the names of its section. -/
theorem slot?_eq_lookup (catalog : Catalog ι) (sectionName name : String) :
    catalog.slot? sectionName name = ((catalog.names? sectionName).getD []).lookup name := by
  rw [slot?]
  cases catalog.names? sectionName <;> rfl

/-- Other settings are found where they were. -/
theorem slot?_add_of_ne (h : (otherSection, otherName) ≠ (sectionName, name)) :
    (catalog.add sectionName name slot).slot? otherSection otherName =
      catalog.slot? otherSection otherName := by
  rw [slot?_eq_lookup, slot?_eq_lookup]
  by_cases hsection : otherSection = sectionName
  · subst hsection
    have hname : otherName ≠ name := fun hname => h (hname ▸ rfl)
    rw [names?_add_self, Option.getD_some, Keyed.lookup_enter_of_ne hname]
  · rw [names?_add_of_ne hsection]

/-- Where nothing is listed twice, every place is found under a section and a name. -/
theorem Distinct.mem_slots_iff (h : catalog.Distinct) :
    slot ∈ catalog.slots ↔ ∃ sectionName name, catalog.slot? sectionName name = some slot := by
  constructor
  · intro hmem
    obtain ⟨⟨sectionName, names⟩, hsection, hslot⟩ := List.mem_flatMap.mp hmem
    obtain ⟨⟨name, _⟩, hname, rfl⟩ := List.mem_map.mp hslot
    refine ⟨sectionName, name, ?_⟩
    rw [slot?, names?, Keyed.lookup_of_mem h.sections hsection]
    exact Keyed.lookup_of_mem (h.names _ hsection) hname
  · rintro ⟨sectionName, name, hslot⟩
    exact mem_slots_of_slot? hslot

end Lookup

/-- The sections of some registrations with the names in each of them, both as they were registered
for the first time. -/
def layout (made : List (String × String)) : List (String × List String) :=
  (made.map (·.1)).eraseDups.map fun sectionName =>
    (sectionName, ((made.filter (·.1 = sectionName)).map (·.2)).eraseDups)

/-- A catalog that came about by some registrations: it lists every section and every name once, as
they were registered for the first time, and finds each name in its last place. -/
structure Lists (catalog : Catalog Nat) (made : List (String × String)) : Prop where
  distinct : catalog.Distinct
  sections : catalog.sections.map (·.1) = (made.map (·.1)).eraseDups
  names : ∀ sectionName, ((catalog.names? sectionName).getD []).map (·.1) =
    ((made.filter (·.1 = sectionName)).map (·.2)).eraseDups
  slot?_eq_some_iff : ∀ sectionName name place,
    catalog.slot? sectionName name = some place ↔ LastAt made (sectionName, name) place

namespace Lists

variable {catalog : Catalog Nat} {made : List (String × String)}

/-- An empty catalog lists no registration. -/
theorem empty : (Catalog.empty : Catalog Nat).Lists [] where
  distinct := distinct_empty
  sections := rfl
  names _ := rfl
  slot?_eq_some_iff _ _ _ := ⟨nofun, nofun⟩

/-- One more registration takes the next place. -/
theorem add (h : catalog.Lists made) (sectionName name : String) :
    (catalog.add sectionName name made.length).Lists (made ++ [(sectionName, name)]) where
  distinct := h.distinct.add sectionName name made.length
  sections := by
    rw [List.map_append]
    exact Keyed.keys_enter_eraseDups h.sections sectionName _
  names other := by
    rw [List.filter_append, List.map_append]
    by_cases hsection : other = sectionName
    · subst hsection
      rw [names?_add_self, Option.getD_some, List.filter_singleton]
      simpa using Keyed.keys_enter_eraseDups (h.names other) name fun _ => made.length
    · rw [names?_add_of_ne hsection, h.names, List.filter_singleton]
      simp [Ne.symm hsection]
  slot?_eq_some_iff other otherName place := by
    rw [lastAt_concat_iff]
    split
    · next hsame =>
      cases hsame
      rw [slot?_add_self, Option.some.injEq]
      exact eq_comm
    · next hne => rw [slot?_add_of_ne hne, h.slot?_eq_some_iff]

/-- So each section and name has one entry, in the position of its first registration. -/
theorem layout_eq (h : catalog.Lists made) :
    catalog.sections.map (fun entry => (entry.1, entry.2.map (·.1))) = layout made := by
  rw [layout, ← h.sections, List.map_map]
  refine List.map_congr_left fun entry hentry => ?_
  have hnames : catalog.names? entry.1 = some entry.2 :=
    Keyed.lookup_of_mem h.distinct.sections hentry
  have hkeys := h.names entry.1
  rw [hnames, Option.getD_some] at hkeys
  exact congrArg (Prod.mk entry.1) hkeys

/-- The slots are the last places of the pairs. -/
theorem mem_slots_iff (h : catalog.Lists made) {place : Nat} :
    place ∈ catalog.slots ↔ ∃ pair, LastAt made pair place := by
  simp only [h.distinct.mem_slots_iff, h.slot?_eq_some_iff, Prod.exists]

end Lists

end Catalog

end GameSetup
