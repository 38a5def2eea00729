import GameSetup.Proofs.Storage.Disk
import GameSetup.Proofs.Storage.FileSystem

/-!
# Requests that go wrong

A request can fail although the disk would allow it: a file may not be opened, there may be no room
for it, the medium may be broken. What is in store for the requests to come is laid down beforehand,
and nothing is assumed of it: any of them can be refused, and whatever moves bytes can be stopped
after some of them.

Whatever goes wrong, directories are all that comes of asking for directories, and a file that has
been created holds what it has taken.
-/

namespace GameSetup

/-- What goes wrong with a request that the disk would have allowed. -/
inductive Mishap where
  /-- The request is refused, and nothing is done. -/
  | refused (fault : Fault)
  /-- No more than some bytes get through. -/
  | stopped (reach : Nat) (fault : Fault)
  deriving DecidableEq, Repr

namespace Mishap

/-- The fault that is reported. -/
def fault : Mishap → Fault
  | .refused fault => fault
  | .stopped _ fault => fault

/-- How many bytes can get through. -/
def reach : Mishap → Nat
  | .refused _ => 0
  | .stopped reach _ => reach

end Mishap

/-- A disk, and what is in store for the requests to come, one after another. Once there is nothing
left, all goes well. -/
structure FaultyDisk where
  disk : Disk
  mishaps : List (Option Mishap)

namespace FaultyDisk

/-- What goes wrong with the next request. -/
def mishap? (faulty : FaultyDisk) : Option Mishap :=
  faulty.mishaps.head?.join

/-- What comes after a request that left a disk behind. -/
def after (faulty : FaultyDisk) (disk : Disk) : FaultyDisk :=
  ⟨disk, faulty.mishaps.tail⟩

/-- A request to change the disk. -/
def change (faulty : FaultyDisk) (request : Disk → Except Fault Disk) :
    Except Fault Unit × FaultyDisk :=
  match faulty.mishap? with
  | some mishap => (.error mishap.fault, faulty.after faulty.disk)
  | none =>
    let (answer, disk) := faulty.disk.answer (request faulty.disk)
    (answer, faulty.after disk)

/-- A request to open a file. It may be opened and then not deliver all that it holds. -/
def openFile (faulty : FaultyDisk) (path : Path) : Except Fault Conf.Stream :=
  match faulty.mishap? with
  | none => faulty.disk.openFile path
  | some (.refused fault) => .error fault
  | some (.stopped reach fault) =>
    (faulty.disk.openFile path).map fun stream => ⟨stream.bytes.take reach, some fault⟩

/-- A request to add bytes to a file, which may not take all of them. -/
def appendFile (faulty : FaultyDisk) (path : Path) (bytes : List UInt8) : Progress × FaultyDisk :=
  match faulty.mishap? with
  | none =>
    let (progress, disk) := faulty.disk.progress bytes (faulty.disk.appendFile path bytes)
    (progress, faulty.after disk)
  | some mishap =>
    let part := bytes.take mishap.reach
    let (progress, disk) := faulty.disk.progress part (faulty.disk.appendFile path part)
    (⟨progress.taken, some mishap.fault⟩, faulty.after disk)

end FaultyDisk

/-- The file system of a disk on which requests go wrong. -/
def FileSystem.faulty : FileSystem FaultyDisk where
  makeDirectory path faulty := faulty.change (·.makeDirectory path)
  isDirectory path faulty :=
    (faulty.mishap?.isNone && faulty.disk.isDirectory path, faulty.after faulty.disk)
  openFile path faulty := (faulty.openFile path, faulty.after faulty.disk)
  createFile path faulty := faulty.change (·.createFile path)
  appendFile path bytes faulty := faulty.appendFile path bytes

namespace FaultyDisk

variable {faulty : FaultyDisk} {disk : Disk} {path : Path} {name : String} {held : List UInt8}

/-- A change is made, or the disk stays as it was. Where nothing is in store, the disk says which.
-/
theorem change_cases (faulty : FaultyDisk) (request : Disk → Except Fault Disk) :
    (∃ fault, faulty.change request = (.error fault, faulty.after faulty.disk) ∧
        (faulty.mishaps = [] → request faulty.disk = .error fault)) ∨
      ∃ changed, request faulty.disk = .ok changed ∧
        faulty.change request = (.ok (), faulty.after changed) := by
  rw [change]
  cases hmishap : faulty.mishap? with
  | some mishap =>
    refine .inl ⟨mishap.fault, rfl, fun hnone => ?_⟩
    rw [mishap?, hnone] at hmishap
    cases hmishap
  | none =>
    cases hrequest : request faulty.disk with
    | error fault => exact .inl ⟨fault, rfl, fun _ => rfl⟩
    | ok changed => exact .inr ⟨changed, rfl, rfl⟩

/-- Opening a file changes nothing. -/
theorem open?_runOn (path : Path) (faulty : FaultyDisk) :
    (Script.open? path).runOn .faulty faulty =
      if path.hasNul then (.error .nulInName, faulty)
      else (faulty.openFile path, faulty.after faulty.disk) := by
  rw [Script.open?, Script.guarded]
  split <;> rfl

/-- Creating a file is a change of the disk, unless its path cannot be passed on. -/
theorem create_runOn (path : Path) (faulty : FaultyDisk) :
    (Script.create path).runOn .faulty faulty =
      if path.hasNul then (.error .nulInName, faulty)
      else faulty.change (·.createFile path) := by
  rw [Script.create, Script.guarded]
  split <;> rfl

/-- A file takes the first of the bytes that are added to it, and all of them if no fault is
reported, as is the case where nothing is in store. -/
theorem addsFile_appendFile (h : disk.AddsFile faulty.disk path name held) (bytes : List UInt8) :
    let progress := (faulty.appendFile path bytes).1
    disk.AddsFile (faulty.appendFile path bytes).2.disk path name
        (held ++ bytes.take progress.taken) ∧
      (progress.outcome = .ok () → progress.taken = bytes.length) ∧
      (faulty.mishaps = [] → progress.outcome = .ok ()) := by
  rw [appendFile]
  cases hmishap : faulty.mishap? with
  | none =>
    obtain ⟨last, happend, hlast⟩ := h.exists_appendFile bytes
    simp only [happend]
    exact ⟨(List.take_length (l := bytes)).symm ▸ hlast, fun _ => rfl, fun _ => rfl⟩
  | some mishap =>
    obtain ⟨last, happend, hlast⟩ := h.exists_appendFile (bytes.take mishap.reach)
    simp only [happend]
    have htake : bytes.take (bytes.take mishap.reach).length = bytes.take mishap.reach := by
      rw [List.length_take, ← List.take_eq_take_min]
    refine ⟨htake.symm ▸ hlast, nofun, fun hnone => ?_⟩
    rw [mishap?, hnone] at hmishap
    cases hmishap

end FaultyDisk

namespace Script

variable {α β : Type}

/-- Whether a script asks for nothing but directories, whatever the answers. -/
def OnlyFolders : Script α → Prop
  | .done _ => True
  | .makeDirectory _ next => ∀ answer, (next answer).OnlyFolders
  | .isDirectory _ next => ∀ answer, (next answer).OnlyFolders
  | .openFile _ _ => False
  | .createFile _ _ => False
  | .appendFile _ _ _ => False

/-- One such script after another is such a script. -/
theorem onlyFolders_bind {script : Script α} {next : α → Script β} (h : script.OnlyFolders)
    (hnext : ∀ result, (next result).OnlyFolders) : (script >>= next).OnlyFolders := by
  change (script.andThen next).OnlyFolders
  induction script with
  | done result => exact hnext result
  | makeDirectory path rest ih => exact fun answer => ih answer (h answer)
  | isDirectory path rest ih => exact fun answer => ih answer (h answer)
  | openFile path rest ih => exact h.elim
  | createFile path rest ih => exact h.elim
  | appendFile path bytes rest ih => exact h.elim

/-- A request that is not made asks for nothing. -/
theorem onlyFolders_guarded {path : Path} {request : Script (Except Fault α)}
    (h : request.OnlyFolders) : (guarded path request).OnlyFolders := by
  rw [guarded]
  split
  · exact trivial
  · exact h

/-- To make a directory asks for a directory. -/
theorem onlyFolders_mkdir (path : Path) : (mkdir path).OnlyFolders :=
  onlyFolders_guarded fun _ => trivial

/-- To forgive a failure asks for a directory. -/
theorem onlyFolders_forgive (path : Path) (fault : Fault) : (forgive path fault).OnlyFolders :=
  onlyFolders_guarded fun _ => trivial

/-- To ensure a directory asks for directories, if that holds of the way to it. -/
theorem onlyFolders_ensureDirectory (path : Path)
    {ensureFolder : Unit → Script (Except Fault Unit)} (h : (ensureFolder ()).OnlyFolders) :
    (ensureDirectory path ensureFolder).OnlyFolders := by
  refine onlyFolders_bind (onlyFolders_mkdir path) fun answer => ?_
  split
  · exact trivial
  · refine onlyFolders_bind h fun answer => ?_
    split
    · exact trivial
    · refine onlyFolders_bind (onlyFolders_mkdir path) fun answer => ?_
      split
      · exact trivial
      · exact onlyFolders_forgive path _
  · exact onlyFolders_forgive path _

/-- The directories along a path are directories. -/
theorem onlyFolders_ensureAlong (parts : List String) : (ensureAlong parts).OnlyFolders := by
  induction parts with
  | nil => exact trivial
  | cons part above ih =>
    rw [ensureAlong]
    split
    · exact ih
    · exact onlyFolders_ensureDirectory _ ih

/-- To make the directory of a path's last name asks for directories. -/
theorem onlyFolders_makeFolder (path : Path) : (makeFolder path).OnlyFolders :=
  onlyFolders_ensureAlong path.reversedFolder

/-- Asking for directories changes no file, whatever goes wrong. -/
theorem OnlyFolders.addsFolders {script : Script α} (h : script.OnlyFolders)
    (faulty : FaultyDisk) (hroot : faulty.disk.root.HasFolder []) :
    faulty.disk.AddsFolders (script.runOn .faulty faulty).2.disk := by
  induction script generalizing faulty with
  | done result => exact Disk.AddsFolders.refl faulty.disk
  | makeDirectory path next ih =>
    have hanswer : FileSystem.faulty.makeDirectory path faulty =
        faulty.change (·.makeDirectory path) := rfl
    rw [runOn, hanswer]
    obtain ⟨fault, hsame, -⟩ | ⟨changed, hmade, hsame⟩ :=
      faulty.change_cases (·.makeDirectory path)
    · rw [hsame]
      exact ih _ (h _) (faulty.after faulty.disk) hroot
    · rw [hsame]
      have hadds := Disk.addsFolders_makeDirectory hroot hmade
      exact hadds.trans (ih _ (h _) (faulty.after changed) (hadds.hasFolder [] hroot))
  | isDirectory path next ih => exact ih _ (h _) (faulty.after faulty.disk) hroot
  | openFile path next ih => exact h.elim
  | createFile path next ih => exact h.elim
  | appendFile path bytes next ih => exact h.elim

/-- Where nothing goes wrong, a run is one on the disk itself. -/
theorem runOn_faulty_nil (script : Script α) (disk : Disk) :
    script.runOn .faulty ⟨disk, []⟩ = (script.run disk).map id (FaultyDisk.mk · []) := by
  have hembeds : FileSystem.ofDisk.Embeds .faulty (FaultyDisk.mk · []) :=
    ⟨fun _ _ => rfl, fun _ _ => rfl, fun _ _ => rfl, fun _ _ => rfl, fun _ _ _ => rfl⟩
  rw [run_eq_runOn]
  exact runOn_embed hembeds script disk

/-- Where nothing is in store, nothing is afterwards. -/
theorem mishaps_runOn (script : Script α) {faulty : FaultyDisk} (h : faulty.mishaps = []) :
    (script.runOn .faulty faulty).2.mishaps = [] := by
  obtain ⟨disk, mishaps⟩ := faulty
  cases h
  rw [runOn_faulty_nil]
  rfl

end Script

end GameSetup
