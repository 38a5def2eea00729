import GameSetup.Proofs.Keyed
import GameSetup.Registry.Catalog
import Mathlib.Data.List.Nodup

/-!
# Places in a catalog

Two names of one catalog may be entered with the same place, and then they share a setting. Where no
place is entered twice, a place tells its section and name, and stays apart from the others when
fresh places are added.

The sections themselves, and the names in a section, are always listed once.
-/

namespace GameSetup

open List (Subperm)

namespace Catalog

variable {ι : Type} {catalog : Catalog ι}

/-- A new entry adds its own place and no other. -/
theorem subperm_slots_add (catalog : Catalog ι) (sectionName name : String) (slot : ι) :
    Subperm (catalog.add sectionName name slot).slots (slot :: catalog.slots) := by
  have hnames (names : List (String × ι)) :
      Subperm ((Keyed.enter name (fun _ => slot) names).map (·.2))
        ([slot] ++ names.map (·.2)) := by
    rw [List.map_eq_flatMap, List.map_eq_flatMap]
    exact Keyed.subperm_flatMap_enter (fun place => [place]) [slot] name (fun _ => slot) (.refl _)
      (fun _ => (List.sublist_append_left _ _).subperm) names
  exact Keyed.subperm_flatMap_enter (List.map (·.2)) [slot] sectionName
    (fun names => Keyed.enter name (fun _ => slot) (names.getD [])) (hnames []) hnames
    catalog.sections

/-- A fresh place keeps the places apart. -/
theorem nodup_slots_add (hnodup : catalog.slots.Nodup) {slot : ι} (hfresh : slot ∉ catalog.slots)
    (sectionName name : String) : (catalog.add sectionName name slot).slots.Nodup := by
  obtain ⟨slots, hperm, hsublist⟩ := catalog.subperm_slots_add sectionName name slot
  exact hperm.nodup_iff.mp ((List.nodup_cons.mpr ⟨hfresh, hnodup⟩).sublist hsublist)

/-- The places are those of the entries. -/
theorem slots_eq_map_entries (catalog : Catalog ι) :
    catalog.slots = catalog.entries.map (·.2.2) := by
  rw [slots, entries, List.map_flatMap]
  refine congrArg (List.flatMap · catalog.sections) (funext fun entry => ?_)
  rw [List.map_map]
  rfl

/-- What is found is among the entries. -/
theorem mem_entries_of_slot? {sectionName name : String} {slot : ι}
    (h : catalog.slot? sectionName name = some slot) :
    (sectionName, name, slot) ∈ catalog.entries := by
  obtain ⟨names, hnames, hslot⟩ := Option.bind_eq_some_iff.mp h
  exact List.mem_flatMap.mpr ⟨(sectionName, names), Keyed.mem_of_lookup_eq_some hnames,
    List.mem_map.mpr ⟨(name, slot), Keyed.mem_of_lookup_eq_some hslot, rfl⟩⟩

/-- What is found is among the places. -/
theorem mem_slots_of_slot? {sectionName name : String} {slot : ι}
    (h : catalog.slot? sectionName name = some slot) : slot ∈ catalog.slots := by
  rw [slots_eq_map_entries]
  exact List.mem_map.mpr ⟨_, mem_entries_of_slot? h, rfl⟩

/-- Where the places are apart, no two names find the same one. -/
theorem slot?_inj (hnodup : catalog.slots.Nodup) {sectionName name otherSection otherName : String}
    {slot : ι} (h : catalog.slot? sectionName name = some slot)
    (hother : catalog.slot? otherSection otherName = some slot) :
    sectionName = otherSection ∧ name = otherName := by
  rw [slots_eq_map_entries] at hnodup
  have hsame := List.inj_on_of_nodup_map hnodup (mem_entries_of_slot? h)
    (mem_entries_of_slot? hother) rfl
  simpa using hsame

/-- A catalog that lists every section once, and every name once in its section. -/
structure Distinct (catalog : Catalog ι) : Prop where
  sections : (catalog.sections.map (·.1)).Nodup
  names : ∀ entry ∈ catalog.sections, (entry.2.map (·.1)).Nodup

/-- In an empty catalog no two names share a slot. -/
theorem distinct_empty : (empty : Catalog ι).Distinct :=
  ⟨List.nodup_nil, fun _ hmem => absurd hmem List.not_mem_nil⟩

/-- A name that is entered again is not listed again. -/
theorem Distinct.add (h : catalog.Distinct) (sectionName name : String) (slot : ι) :
    (catalog.add sectionName name slot).Distinct where
  sections := Keyed.nodup_keys_enter h.sections sectionName _
  names := by
    have hnames (names : List (String × ι)) (hnodup : (names.map (·.1)).Nodup) :
        ((Keyed.enter name (fun _ => slot) names).map (·.1)).Nodup :=
      Keyed.nodup_keys_enter hnodup name _
    have hnone := hnames [] List.nodup_nil
    exact @Keyed.forall_mem_enter _ (fun names => (names.map (·.1)).Nodup) _ h.names sectionName
      (fun names => Keyed.enter name (fun _ => slot) (names.getD [])) hnone hnames

end Catalog

end GameSetup
