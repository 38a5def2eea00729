import GameSetup.Proofs.Storage.Trail
import GameSetup.Storage.Disk

/-!
# Requests to a disk

A path leads to a name in a directory as far as the disk has the directories on the way. A new
directory changes no file. A file that is created, and what is added to it, changes no other file;
whatever has been written can be read back under the path it was written to.

A path that cannot be read may still lead to a file once directories are made, because two dots
lead out of a directory only if it is there. Without two dots there is no such file.
-/

namespace GameSetup

/-- Whether a path can be asked for, and has a last name that is not the one of a directory. -/
structure Path.Names (path : Path) (name : String) : Prop where
  nonempty : path.text.isEmpty = false
  short : path.text.utf8ByteSize < pathLimit
  last : path.names.getLast? = some name
  not_dot : path.ending ≠ .dot
  not_up : name ≠ ".."

namespace Disk

/-- The names on the way to the directory in which a path's last name is. -/
def lead (disk : Disk) (path : Path) : List String :=
  (if path.isAbsolute then [] else disk.workingDirectory) ++ path.names.dropLast

/-- The way to the directory in which a path's last name is. -/
def folder (disk : Disk) (path : Path) : Way :=
  (disk.lead path).foldl Way.follow []

/-- The way to a path's last name. -/
def place (disk : Disk) (path : Path) (name : String) : Way :=
  disk.folder path ++ [name]

/-- What the file at the end of a way holds. -/
def file? (disk : Disk) (way : Way) : Option (List UInt8) :=
  disk.root.file? way

/-- Whether a path leads to a name, and what there is under it. -/
structure Finds (disk : Disk) (path : Path) (name : String) (found : Option Tree) : Prop where
  names : path.Names name
  fits : name.utf8ByteSize ≤ nameLimit
  passable : disk.root.Passable [] (disk.lead path)
  found : disk.root.get? (disk.place path name) = found

/-- Whether a disk has all that another one has, and possibly more directories. -/
structure AddsFolders (disk changed : Disk) : Prop where
  workingDirectory : changed.workingDirectory = disk.workingDirectory
  file? : ∀ way, changed.file? way = disk.file? way
  hasFolder : ∀ way, disk.root.HasFolder way → changed.root.HasFolder way

variable {disk changed last : Disk} {path : Path} {directory : Trail} {name : String}
  {found : Option Tree} {bytes held : List UInt8}

/-- All names on the way stand in the working directory or in the path. -/
theorem lead_sublist (disk : Disk) (path : Path) :
    (disk.lead path).Sublist (disk.workingDirectory ++ path.names) := by
  refine List.Sublist.append ?_ (List.dropLast_sublist _)
  split
  · exact List.nil_sublist _
  · exact List.Sublist.refl _

/-- From where a path starts, its names lead on. -/
theorem walk_lead (disk : Disk) (path : Path) :
    (Trail.mk disk.root []).walk (disk.lead path) =
      match disk.start path with
      | .error fault => .error fault
      | .ok start => start.walk path.names.dropLast := by
  rw [lead, Trail.walk_append, start]
  split_ifs <;> rfl

/-- What leads to a directory leads to no name in one. -/
theorem map_folder_ne (walked : Except Fault Trail) :
    walked.map Target.folder ≠ .ok (.named directory name) := by
  cases walked <;> exact nofun

/-- What leads to a name in a directory leads to the directory first. -/
theorem map_named_eq_iff {walked : Except Fault Trail} {last : String} :
    walked.map (Target.named · last) = .ok (.named directory name) ↔
      last = name ∧ walked = .ok directory := by
  cases walked with
  | error fault => exact iff_of_false nofun nofun
  | ok found =>
    simp only [Except.map, Except.ok.injEq, Target.named.injEq]
    exact and_comm

/-- A path leads to its last name. -/
theorem locate_eq_named_iff :
    disk.locate path = .ok (.named directory name) ↔
      path.Names name ∧ (Trail.mk disk.root []).walk (disk.lead path) = .ok directory := by
  rw [walk_lead]
  constructor
  · intro h
    rw [locate] at h
    split_ifs at h with hempty hlong
    cases hstart : disk.start path with
    | error fault => simp only [hstart, reduceCtorEq] at h
    | ok start =>
      simp only [hstart] at h
      split at h
      · exact nomatch Except.ok.inj h
      · exact absurd h (map_folder_ne _)
      · next first hlast hdot =>
        split_ifs at h with hup
        · exact absurd h (map_folder_ne _)
        · obtain ⟨rfl, hwalk⟩ := map_named_eq_iff.mp h
          exact ⟨⟨Bool.eq_false_iff.mpr hempty, Nat.not_le.mp hlong, hlast, hdot, hup⟩, hwalk⟩
  · rintro ⟨hnames, hwalk⟩
    cases hstart : disk.start path with
    | error fault => simp only [hstart, reduceCtorEq] at hwalk
    | ok start =>
      simp only [hstart] at hwalk
      rw [locate, hnames.nonempty, if_neg Bool.false_ne_true,
        if_neg (Nat.not_le.mpr hnames.short), hstart, hnames.last]
      dsimp only
      split
      · next hnone => cases hnone
      · next hdot => exact absurd hdot hnames.not_dot
      · next last hlast _ =>
        obtain rfl := Option.some.inj hlast
        rw [if_neg hnames.not_up]
        exact map_named_eq_iff.mpr ⟨rfl, hwalk⟩

section Requests

variable (hroot : disk.root.HasFolder [])

include hroot

/-- The directory of a path's last name is there, if that can be found. -/
theorem Finds.hasFolder (h : disk.Finds path name found) :
    disk.root.HasFolder (disk.folder path) :=
  h.passable.hasFolder hroot

/-- A name is found where its path leads. -/
theorem finds_of_locate (hlocate : disk.locate path = .ok (.named directory name))
    (hlook : directory.lookUp name = .ok found) :
    disk.Finds path name found ∧ directory.way ++ [name] = disk.place path name := by
  obtain ⟨hnames, hwalk⟩ := locate_eq_named_iff.mp hlocate
  obtain ⟨hsound, hsame, hway, hpass⟩ := (Trail.sound_top hroot).walk_ok hwalk
  have hplace : directory.way ++ [name] = disk.place path name := congrArg (· ++ [name]) hway
  rw [Trail.lookUp] at hlook
  split_ifs at hlook with hlong
  rw [hsound.child?_here, hsame, hplace] at hlook
  exact ⟨⟨hnames, Nat.not_lt.mp hlong, hpass, Except.ok.inj hlook⟩, hplace⟩

/-- What is found is found by looking for it. -/
theorem Finds.exists_locate (h : disk.Finds path name found) :
    ∃ directory, disk.locate path = .ok (.named directory name) ∧
      directory.lookUp name = .ok found := by
  obtain ⟨directory, hwalk⟩ := (Trail.sound_top hroot).exists_walk h.passable
  obtain ⟨hsound, hsame, hway, -⟩ := (Trail.sound_top hroot).walk_ok hwalk
  have hplace : directory.way ++ [name] = disk.place path name := congrArg (· ++ [name]) hway
  refine ⟨directory, locate_eq_named_iff.mpr ⟨h.names, hwalk⟩, ?_⟩
  rw [Trail.lookUp, if_neg (Nat.not_lt.mpr h.fits), hsound.child?_here, hsame, hplace, h.found]

/-- A directory is made where there is nothing. -/
theorem makeDirectory_ok (h : disk.makeDirectory path = .ok changed) :
    ∃ name, disk.Finds path name none ∧
      changed = { disk with root := disk.root.put (disk.place path name) .empty } := by
  rw [makeDirectory] at h
  split at h
  · cases h
  · cases h
  · next directory name hlocate =>
    split at h
    · cases h
    · cases h
    · next hlook =>
      obtain ⟨hfinds, hplace⟩ := finds_of_locate hroot hlocate hlook
      exact ⟨name, hfinds, by rw [← Except.ok.inj h, putIn, hplace]⟩

/-- A file is created where there is no directory. -/
theorem createFile_ok (h : disk.createFile path = .ok changed) :
    ∃ name found, disk.Finds path name found ∧ path.ending ≠ .slash ∧
      ¬ disk.root.HasFolder (disk.place path name) ∧
      changed = { disk with root := disk.root.put (disk.place path name) (.file []) } := by
  rw [createFile] at h
  split at h
  · cases h
  · cases h
  · next directory name hlocate =>
    split_ifs at h with hslash
    split at h
    · cases h
    · cases h
    · next found hdirectory hlook =>
      obtain ⟨hfinds, hplace⟩ := finds_of_locate hroot hlocate hlook
      refine ⟨name, found, hfinds, hslash, ?_, by rw [← Except.ok.inj h, putIn, hplace]⟩
      rintro ⟨entries, hentries⟩
      exact hdirectory entries (hfinds.found.symm.trans hentries)

/-- Bytes can be added to a file that is found. -/
theorem Finds.appendFile (h : disk.Finds path name (some (.file held))) (bytes : List UInt8) :
    disk.appendFile path bytes =
      .ok { disk with root := disk.root.put (disk.place path name) (.file (held ++ bytes)) } := by
  obtain ⟨directory, hlocate, hlook⟩ := h.exists_locate hroot
  obtain ⟨-, hplace⟩ := finds_of_locate hroot hlocate hlook
  rw [Disk.appendFile, hlocate]
  simp only [hlook, putIn, hplace]

/-- A file that is found can be opened. -/
theorem Finds.openFile (h : disk.Finds path name (some (.file bytes)))
    (hslash : path.ending ≠ .slash) : disk.openFile path = .ok (.ofBytes bytes) := by
  obtain ⟨directory, hlocate, hlook⟩ := h.exists_locate hroot
  rw [Disk.openFile, hlocate]
  simp only [hlook, if_neg hslash]
  rfl

/-- Making a directory changes no file. -/
theorem addsFolders_makeDirectory (h : disk.makeDirectory path = .ok changed) :
    disk.AddsFolders changed := by
  obtain ⟨name, hfinds, rfl⟩ := makeDirectory_ok hroot h
  have hplace : ¬ disk.root.HasFolder (disk.place path name) := by
    rintro ⟨entries, hentries⟩
    exact nomatch hfinds.found.symm.trans hentries
  exact ⟨rfl, Tree.file?_put_empty (hfinds.hasFolder hroot) hfinds.found,
    fun way hway => hway.put (hfinds.hasFolder hroot) hplace .empty⟩

end Requests

/-- A path leads to the same place while the working directory is the same. -/
theorem place_congr (h : changed.workingDirectory = disk.workingDirectory) (path : Path)
    (name : String) : changed.place path name = disk.place path name := by
  rw [place, place, folder, folder, lead, lead, h]

namespace AddsFolders

/-- To leave a disk alone is to add nothing. -/
theorem refl (disk : Disk) : disk.AddsFolders disk :=
  ⟨rfl, fun _ => rfl, fun _ h => h⟩

/-- Directories can be added one after another. -/
theorem trans (h : disk.AddsFolders changed) (hlast : changed.AddsFolders last) :
    disk.AddsFolders last where
  workingDirectory := hlast.workingDirectory.trans h.workingDirectory
  file? := fun way => (hlast.file? way).trans (h.file? way)
  hasFolder := fun way hway => hlast.hasFolder way (h.hasFolder way hway)

end AddsFolders

/-- Whether a disk is another one with a file in the place of a path, which holds some bytes, and
possibly with more directories. -/
structure AddsFile (disk changed : Disk) (path : Path) (name : String) (bytes : List UInt8) :
    Prop where
  workingDirectory : changed.workingDirectory = disk.workingDirectory
  hasRoot : changed.root.HasFolder []
  not_slash : path.ending ≠ .slash
  finds : changed.Finds path name (some (.file bytes))
  file? : ∀ way, changed.file? way =
    if way = disk.place path name then some bytes else disk.file? way

/-- A new file holds nothing. -/
theorem addsFile_createFile (hroot : disk.root.HasFolder [])
    (h : disk.createFile path = .ok changed) :
    ∃ name, disk.AddsFile changed path name [] := by
  obtain ⟨name, found, hfinds, hslash, hplace, rfl⟩ := createFile_ok hroot h
  have hput (way : Way) (hway : disk.root.HasFolder way) :=
    hway.put (hfinds.hasFolder hroot) hplace (.file [])
  exact ⟨name, rfl, hput [] hroot, hslash, ⟨hfinds.names, hfinds.fits, hfinds.passable.mono hput,
    Tree.get?_put_self _ _ _⟩, Tree.file?_put_file (hfinds.hasFolder hroot) hplace []⟩

namespace AddsFile

/-- Directories that were made before make no difference to the file. -/
theorem of_addsFolders (hadds : disk.AddsFolders changed)
    (h : changed.AddsFile last path name bytes) : disk.AddsFile last path name bytes where
  workingDirectory := h.workingDirectory.trans hadds.workingDirectory
  hasRoot := h.hasRoot
  not_slash := h.not_slash
  finds := h.finds
  file? := fun way => by
    rw [h.file? way, place_congr hadds.workingDirectory, hadds.file? way]

variable (h : disk.AddsFile changed path name bytes)

include h

/-- The file is read as far as it has been written. -/
theorem openFile : changed.openFile path = .ok (.ofBytes bytes) :=
  h.finds.openFile h.hasRoot h.not_slash

/-- More bytes can be added to the file. -/
theorem exists_appendFile (more : List UInt8) :
    ∃ last, changed.appendFile path more = .ok last ∧
      disk.AddsFile last path name (bytes ++ more) := by
  have hfolder := h.finds.hasFolder h.hasRoot
  have hplace : ¬ changed.root.HasFolder (changed.place path name) := by
    rintro ⟨entries, hentries⟩
    exact nomatch h.finds.found.symm.trans hentries
  have hput (way : Way) (hway : changed.root.HasFolder way) :=
    hway.put hfolder hplace (.file (bytes ++ more))
  refine ⟨_, h.finds.appendFile h.hasRoot more, h.workingDirectory, hput [] h.hasRoot, h.not_slash,
    ⟨h.finds.names, h.finds.fits, h.finds.passable.mono hput, Tree.get?_put_self _ _ _⟩,
    fun way => ?_⟩
  have hsame := place_congr h.workingDirectory path name
  have hfile := Tree.file?_put_file hfolder hplace (bytes ++ more) way
  rw [← hsame]
  by_cases hway : way = changed.place path name
  · rw [if_pos hway]
    exact hfile.trans (if_pos hway)
  · rw [if_neg hway]
    exact (hfile.trans (if_neg hway)).trans ((h.file? way).trans (if_neg (hsame ▸ hway)))

/-- Without two dots on the way, the file is a new one if its path could not be opened. -/
theorem file?_eq_none {fault : Fault} (hroot : disk.root.HasFolder [])
    (hfault : disk.openFile path = .error fault)
    (hdots : ".." ∉ disk.workingDirectory ++ path.names) :
    disk.file? (disk.place path name) = none := by
  refine Option.eq_none_iff_forall_ne_some.mpr fun held hfile => ?_
  have hnone : ".." ∉ disk.lead path := fun hmem => hdots ((disk.lead_sublist path).subset hmem)
  have hlead : changed.lead path = disk.lead path := by rw [lead, lead, h.workingDirectory]
  have hget := Tree.file?_eq_some_iff.mp hfile
  have hfolder : disk.root.HasFolder ([] ++ disk.lead path) := by
    rw [← Tree.foldl_follow hnone]
    exact Tree.hasFolder_of_get?_append (List.cons_ne_nil name []) hget
  have hfinds : disk.Finds path name (some (.file held)) := ⟨h.finds.names, h.finds.fits,
    (hlead ▸ h.finds.passable).of_hasFolder hnone hfolder, hget⟩
  exact nomatch (hfinds.openFile hroot h.not_slash).symm.trans hfault

end AddsFile

end Disk

end GameSetup
