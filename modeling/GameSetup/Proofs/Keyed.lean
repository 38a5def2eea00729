import GameSetup.Keyed
import Mathlib.Data.List.Basic
import Mathlib.Data.List.Induction
import Mathlib.Data.List.Nodup
import Mathlib.Data.List.Perm.Subperm

/-!
# Entries and their positions

An entry stands where the list of keys has its key for the first time. Entering changes the entry in
its position, or adds one at the end; either way it brings in nothing but the new contents.

No key is listed twice in a list that is built by entering.
-/

namespace GameSetup.Keyed

open List (Subperm)

variable {β : Type}

/-- What is found under a key is entered under it. -/
theorem mem_of_lookup_eq_some {entries : List (String × β)} {key : String} {value : β}
    (h : entries.lookup key = some value) : (key, value) ∈ entries := by
  obtain ⟨front, back, rfl, -⟩ := List.lookup_eq_some_iff.mp h
  exact List.mem_append_right front List.mem_cons_self

/-- Entering under a known key changes the entry that has it. -/
theorem enter_of_mem {key : String} {entries : List (String × β)}
    (h : key ∈ entries.map (·.1)) (value : β) :
    enter key (fun _ => value) entries =
      entries.modify ((entries.map (·.1)).idxOf key) fun entry => (entry.1, value) := by
  induction entries with
  | nil => exact absurd h List.not_mem_nil
  | cons entry rest ih =>
    obtain ⟨k, old⟩ := entry
    rw [enter, List.map_cons]
    by_cases hkey : k = key
    · rw [if_pos hkey, hkey, List.idxOf_cons_self]
      rfl
    · have hrest := (List.mem_cons.mp h).resolve_left (Ne.symm hkey)
      rw [if_neg hkey, List.idxOf_cons_ne _ hkey, ih hrest]
      rfl

/-- Entering under a new key adds an entry. -/
theorem enter_of_not_mem {key : String} {entries : List (String × β)}
    (h : key ∉ entries.map (·.1)) (value : β) :
    enter key (fun _ => value) entries = entries ++ [(key, value)] := by
  induction entries with
  | nil => rfl
  | cons entry rest ih =>
    obtain ⟨k, old⟩ := entry
    rw [List.map_cons] at h
    rw [enter, if_neg (Ne.symm (List.ne_of_not_mem_cons h)), ih (List.not_mem_of_not_mem_cons h)]
    rfl

/-- An entry is found under its key where the keys have it. -/
theorem getElem?_idxOf (key : String) (entries : List (String × β)) :
    (entries[(entries.map (·.1)).idxOf key]?).map (·.2) = entries.lookup key := by
  induction entries with
  | nil => rfl
  | cons entry rest ih =>
    obtain ⟨k, value⟩ := entry
    rw [List.map_cons, List.lookup_cons]
    by_cases hkey : k = key
    · subst hkey
      rw [List.idxOf_cons_self, beq_self_eq_true]
      rfl
    · rw [List.idxOf_cons_ne _ hkey, beq_false_of_ne (Ne.symm hkey), List.getElem?_cons_succ]
      exact ih

/-- Entering something brings in no more than what the new entry has, and loses at most what it
replaces. -/
theorem subperm_flatMap_enter {γ : Type} (contents : β → List γ) (extra : List γ)
    (key : String) (update : Option β → β) (hnone : Subperm (contents (update none)) extra)
    (hsome : ∀ old, Subperm (contents (update (some old))) (extra ++ contents old))
    (entries : List (String × β)) :
    Subperm ((enter key update entries).flatMap (contents ·.2))
      (extra ++ entries.flatMap (contents ·.2)) := by
  induction entries with
  | nil => simpa [enter] using hnone
  | cons entry rest ih =>
    obtain ⟨k, old⟩ := entry
    rw [enter, List.flatMap_cons]
    by_cases hkey : k = key
    · rw [if_pos hkey, List.flatMap_cons, ← List.append_assoc]
      exact (List.subperm_append_right _).mpr (hsome old)
    · rw [if_neg hkey, List.flatMap_cons]
      exact ((List.subperm_append_left (contents old)).mpr ih).trans
        (List.perm_append_comm_assoc _ _ _).subperm

/-- Entering adds a new key at the end and leaves the others where they are. -/
theorem keys_enter (key : String) (update : Option β → β) (entries : List (String × β)) :
    (enter key update entries).map (·.1) =
      if key ∈ entries.map (·.1) then entries.map (·.1) else entries.map (·.1) ++ [key] := by
  induction entries with
  | nil => rfl
  | cons entry rest ih =>
    obtain ⟨k, old⟩ := entry
    rw [enter]
    by_cases hkey : k = key
    · rw [if_pos hkey, List.map_cons, List.map_cons, if_pos (hkey ▸ List.mem_cons_self)]
    · have hmem : key ∈ ((k, old) :: rest).map (·.1) ↔ key ∈ rest.map (·.1) := by
        rw [List.map_cons, List.mem_cons, or_iff_right (Ne.symm hkey)]
      rw [if_neg hkey, List.map_cons, ih]
      simp only [hmem]
      split <;> rfl

/-- Entering lists no key twice. -/
theorem nodup_keys_enter {entries : List (String × β)} (h : (entries.map (·.1)).Nodup)
    (key : String) (update : Option β → β) : ((enter key update entries).map (·.1)).Nodup := by
  rw [keys_enter]
  split
  · exact h
  · next hnew => exact List.nodup_append_comm.mp (List.nodup_cons.mpr ⟨hnew, h⟩)

/-- What holds of all entries still does, if it holds of what is entered. -/
theorem forall_mem_enter {p : β → Prop} {entries : List (String × β)}
    (h : ∀ entry ∈ entries, p entry.2) (key : String) {update : Option β → β}
    (hnone : p (update none)) (hsome : ∀ old, p old → p (update (some old))) :
    ∀ entry ∈ enter key update entries, p entry.2 := by
  induction entries with
  | nil =>
    intro entry hmem
    exact List.mem_singleton.mp hmem ▸ hnone
  | cons first rest ih =>
    obtain ⟨hfirst, hrest⟩ := List.forall_mem_cons.mp h
    rw [enter]
    split
    · exact List.forall_mem_cons.mpr ⟨hsome first.2 hfirst, hrest⟩
    · exact List.forall_mem_cons.mpr ⟨hfirst, ih hrest⟩

/-- Where no key is listed twice, only one entry has a key. -/
theorem flatMap_ite_of_mem {γ : Type} {entries : List (String × β)}
    (hnodup : (entries.map (·.1)).Nodup) {key : String} {value : β}
    (hmem : (key, value) ∈ entries) (contents : β → List γ) :
    (entries.flatMap fun entry => if entry.1 = key then contents entry.2 else []) =
      contents value := by
  induction entries with
  | nil => exact absurd hmem List.not_mem_nil
  | cons first rest ih =>
    obtain ⟨hnew, hrest⟩ := List.nodup_cons.mp hnodup
    rw [List.flatMap_cons]
    rcases List.mem_cons.mp hmem with rfl | hlater
    · have hnone :
          (rest.flatMap fun entry => if entry.1 = key then contents entry.2 else []) = [] :=
        List.flatMap_eq_nil_iff.mpr fun entry hentry => if_neg fun hkey =>
          hnew (List.mem_map.mpr ⟨entry, hentry, hkey⟩)
      rw [if_pos rfl, hnone, List.append_nil]
    · have hne : first.1 ≠ key := fun hkey =>
        hnew (List.mem_map.mpr ⟨(key, value), hlater, hkey.symm⟩)
      rw [if_neg hne, List.nil_append, ih hrest hlater]

/-- What was kept under a key makes room for what is entered. -/
theorem perm_enter (key : String) (value : β) (entries : List (String × β)) :
    ((entries.lookup key).toList ++ (enter key (fun _ => value) entries).map (·.2)).Perm
      (entries.map (·.2) ++ [value]) := by
  induction entries with
  | nil => exact List.Perm.refl _
  | cons entry rest ih =>
    obtain ⟨k, old⟩ := entry
    rw [enter, List.lookup_cons]
    by_cases hkey : k = key
    · rw [if_pos hkey, hkey, beq_self_eq_true]
      exact (List.perm_append_singleton value (rest.map (·.2))).symm.cons old
    · rw [if_neg hkey, beq_false_of_ne (Ne.symm hkey)]
      exact List.perm_middle.trans (ih.cons old)

/-- Entries that are entered one after another. -/
def enterAll (entries : List (String × β)) : List (String × β) :=
  entries.foldl (fun entered entry => enter entry.1 (fun _ => entry.2) entered) []

/-- The last entry is entered last. -/
theorem enterAll_concat (entries : List (String × β)) (entry : String × β) :
    enterAll (entries ++ [entry]) = enter entry.1 (fun _ => entry.2) (enterAll entries) :=
  List.foldl_append

/-- The last one that is entered under a key stays there. -/
theorem lookup_enterAll (entries : List (String × β)) (key : String) :
    (enterAll entries).lookup key = entries.reverse.lookup key := by
  induction entries using List.reverseRecOn with
  | nil => rfl
  | append_singleton entries entry ih =>
    rw [enterAll_concat, List.reverse_append, List.reverse_singleton, List.singleton_append,
      List.lookup_cons]
    by_cases hkey : key = entry.1
    · rw [hkey, lookup_enter_self, beq_self_eq_true]
    · rw [lookup_enter_of_ne hkey, ih, beq_false_of_ne hkey]

/-- Where keys are listed as they are entered for the first time, so is one more. -/
theorem keys_enter_eraseDups {entries : List (String × β)} {keys : List String}
    (h : entries.map (·.1) = keys.eraseDups) (key : String) (update : Option β → β) :
    (enter key update entries).map (·.1) = (keys ++ [key]).eraseDups := by
  rw [keys_enter, h, List.eraseDups_append]
  simp only [List.mem_eraseDups]
  split
  · next hmem => simp [List.removeAll, hmem]
  · next hmem => simp [List.removeAll, hmem, List.eraseDups_cons]

/-- The keys are listed as they are entered for the first time. -/
theorem keys_enterAll (entries : List (String × β)) :
    (enterAll entries).map (·.1) = (entries.map (·.1)).eraseDups := by
  induction entries using List.reverseRecOn with
  | nil => rfl
  | append_singleton entries entry ih =>
    rw [enterAll_concat, List.map_append]
    exact keys_enter_eraseDups ih entry.1 _

/-- Where no key is listed twice, every entry is found under its key. -/
theorem lookup_of_mem {entries : List (String × β)} (hnodup : (entries.map (·.1)).Nodup)
    {key : String} {value : β} (hmem : (key, value) ∈ entries) :
    entries.lookup key = some value := by
  induction entries with
  | nil => exact absurd hmem List.not_mem_nil
  | cons first rest ih =>
    obtain ⟨hnew, hrest⟩ := List.nodup_cons.mp hnodup
    rw [List.lookup_cons]
    rcases List.mem_cons.mp hmem with rfl | hlater
    · rw [beq_self_eq_true]
    · have hne : key ≠ first.1 := fun hkey =>
        hnew (List.mem_map.mpr ⟨(key, value), hlater, hkey⟩)
      rw [beq_false_of_ne hne]
      exact ih hrest hlater

/-- So looking up the keys one after another finds all that is kept. -/
theorem filterMap_lookup_keys {entries : List (String × β)} (h : (entries.map (·.1)).Nodup) :
    ((entries.map (·.1)).filterMap fun key => entries.lookup key) = entries.map (·.2) := by
  rw [List.filterMap_map, ← List.filterMap_eq_map]
  exact List.filterMap_congr fun entry hmem => lookup_of_mem h hmem

end GameSetup.Keyed
