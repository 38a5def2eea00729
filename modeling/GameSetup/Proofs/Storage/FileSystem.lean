import GameSetup.Storage.ConfigFile

/-!
# File systems of any kind

A script asks its questions of whatever keeps the files. Here that is anything with a state and an
answer to each request: a file may fail at any byte, and the answers need not fit together. A disk
in memory is one such file system. Whatever keeps the configuration file, what is in effect after
loading it depends on two answers: that to opening it and, if it cannot be opened, that to writing a
new one.
-/

namespace GameSetup

/-- A state and an answer to every request. -/
structure FileSystem (σ : Type) where
  makeDirectory : Path → σ → Except Fault Unit × σ
  isDirectory : Path → σ → Bool × σ
  openFile : Path → σ → Except Fault Conf.Stream × σ
  createFile : Path → σ → Except Fault Unit × σ
  appendFile : Path → List UInt8 → σ → Progress × σ

namespace Script

variable {σ α β : Type}

/-- Runs a script on a file system: the result, and the state afterwards. -/
def runOn (files : FileSystem σ) : Script α → σ → α × σ
  | .done result, state => (result, state)
  | .makeDirectory path next, state =>
    let (answer, changed) := files.makeDirectory path state
    (next answer).runOn files changed
  | .isDirectory path next, state =>
    let (answer, changed) := files.isDirectory path state
    (next answer).runOn files changed
  | .openFile path next, state =>
    let (answer, changed) := files.openFile path state
    (next answer).runOn files changed
  | .createFile path next, state =>
    let (answer, changed) := files.createFile path state
    (next answer).runOn files changed
  | .appendFile path bytes next, state =>
    let (answer, changed) := files.appendFile path bytes state
    (next answer).runOn files changed

/-- One script after another starts in the state that the first leaves. -/
theorem runOn_bind (files : FileSystem σ) (script : Script α) (next : α → Script β) (state : σ) :
    (script >>= next).runOn files state =
      (next (script.runOn files state).1).runOn files (script.runOn files state).2 := by
  change (script.andThen next).runOn files state = _
  induction script generalizing state with
  | done result => rfl
  | makeDirectory path rest ih => exact ih _ _
  | isDirectory path rest ih => exact ih _ _
  | openFile path rest ih => exact ih _ _
  | createFile path rest ih => exact ih _ _
  | appendFile path bytes rest ih => exact ih _ _

end Script

/-- Whether a file system answers as another one does, in states that stand for its states. -/
structure FileSystem.Embeds {σ τ : Type} (files : FileSystem σ) (other : FileSystem τ)
    (embed : σ → τ) : Prop where
  makeDirectory : ∀ path state,
    other.makeDirectory path (embed state) = (files.makeDirectory path state).map id embed
  isDirectory : ∀ path state,
    other.isDirectory path (embed state) = (files.isDirectory path state).map id embed
  openFile : ∀ path state,
    other.openFile path (embed state) = (files.openFile path state).map id embed
  createFile : ∀ path state,
    other.createFile path (embed state) = (files.createFile path state).map id embed
  appendFile : ∀ path bytes state,
    other.appendFile path bytes (embed state) = (files.appendFile path bytes state).map id embed

/-- A run is the same on a file system that answers in the same way. -/
theorem Script.runOn_embed {σ τ α : Type} {files : FileSystem σ} {other : FileSystem τ}
    {embed : σ → τ} (h : files.Embeds other embed) (script : Script α) (state : σ) :
    script.runOn other (embed state) = (script.runOn files state).map id embed := by
  induction script generalizing state with
  | done result => rfl
  | makeDirectory path next ih =>
    rw [runOn, runOn, h.makeDirectory]
    exact ih _ _
  | isDirectory path next ih =>
    rw [runOn, runOn, h.isDirectory]
    exact ih _ _
  | openFile path next ih =>
    rw [runOn, runOn, h.openFile]
    exact ih _ _
  | createFile path next ih =>
    rw [runOn, runOn, h.createFile]
    exact ih _ _
  | appendFile path bytes next ih =>
    rw [runOn, runOn, h.appendFile]
    exact ih _ _

/-- What a change of a disk answers, and the disk afterwards. -/
def Disk.answer (disk : Disk) : Except Fault Disk → Except Fault Unit × Disk
  | .ok changed => (.ok (), changed)
  | .error fault => (.error fault, disk)

/-- How far a disk has got with some bytes, and the disk afterwards. -/
def Disk.progress (disk : Disk) (bytes : List UInt8) : Except Fault Disk → Progress × Disk
  | .ok changed => (⟨bytes.length, none⟩, changed)
  | .error fault => (⟨0, some fault⟩, disk)

/-- The file system of a disk in memory. -/
def FileSystem.ofDisk : FileSystem Disk where
  makeDirectory path disk := disk.answer (disk.makeDirectory path)
  isDirectory path disk := (disk.isDirectory path, disk)
  openFile path disk := (disk.openFile path, disk)
  createFile path disk := disk.answer (disk.createFile path)
  appendFile path bytes disk := disk.progress bytes (disk.appendFile path bytes)

/-- A run on a disk is a run on its file system. -/
theorem Script.run_eq_runOn {α : Type} (script : Script α) (disk : Disk) :
    script.run disk = script.runOn .ofDisk disk := by
  induction script generalizing disk with
  | done result => rfl
  | makeDirectory path next ih =>
    have hanswer : FileSystem.ofDisk.makeDirectory path disk =
        disk.answer (disk.makeDirectory path) := rfl
    rw [run, runOn, hanswer]
    cases disk.makeDirectory path with
    | ok changed => exact ih (.ok ()) changed
    | error fault => exact ih (.error fault) disk
  | isDirectory path next ih => exact ih (disk.isDirectory path) disk
  | openFile path next ih => exact ih (disk.openFile path) disk
  | createFile path next ih =>
    have hanswer : FileSystem.ofDisk.createFile path disk =
        disk.answer (disk.createFile path) := rfl
    rw [run, runOn, hanswer]
    cases disk.createFile path with
    | ok changed => exact ih (.ok ()) changed
    | error fault => exact ih (.error fault) disk
  | appendFile path bytes next ih =>
    have hanswer : FileSystem.ofDisk.appendFile path bytes disk =
        disk.progress bytes (disk.appendFile path bytes) := rfl
    rw [run, runOn, hanswer]
    cases disk.appendFile path bytes with
    | ok changed => exact ih ⟨bytes.length, none⟩ changed
    | error fault => exact ih ⟨0, some fault⟩ disk

namespace ConfigFile

/-- What is in effect, by how opening the file and writing the defaults went. -/
def settled (mode : RunMode) :
    Except Fault Conf.Stream → Except FileError Unit → LoadedSettings
  | .ok ⟨bytes, none⟩, _ =>
    load.finish mode (Settings.initial.parse mode (.ofBytes bytes)).1 .loaded
  | .ok ⟨_, some _⟩, _ => load.finish mode .initial .unreadable
  | .error _, .ok () => load.finish mode .initial .created
  | .error _, .error _ => load.finish mode .initial .missing

section Runs

variable {σ : Type} (files : FileSystem σ) (mode : RunMode) (path : Path) (state : σ)

/-- Reading a file asks for nothing but to open it. -/
theorem read_runOn (settings : Settings) :
    (read settings mode path).runOn files state =
      (match ((Script.open? path).runOn files state).1 with
        | .error fault => ⟨settings, .ok false, [.notOpened path fault]⟩
        | .ok stream => readStream settings mode path stream,
        ((Script.open? path).runOn files state).2) := by
  rw [read, Script.runOn_bind]
  cases ((Script.open? path).runOn files state).1 <;> rfl

/-- Loading opens the file, and writes the defaults if that fails. -/
theorem load_runOn :
    let opened := (Script.open? path).runOn files state
    let written := (writeDefaults path).runOn files opened.2
    let outcome := (load mode path).runOn files state
    outcome.1.1 = settled mode opened.1 written.1 ∧
      (∀ stream, opened.1 = .ok stream → outcome.2 = opened.2) ∧
      (∀ fault, opened.1 = .error fault → outcome.2 = written.2) := by
  rw [load, Script.runOn_bind, read_runOn]
  obtain ⟨opened, changed⟩ := (Script.open? path).runOn files state
  cases opened with
  | error fault =>
    dsimp only
    rw [Script.runOn_bind]
    cases ((writeDefaults path).runOn files changed).1 <;> exact ⟨rfl, nofun, fun _ _ => rfl⟩
  | ok stream =>
    obtain ⟨bytes, fault⟩ := stream
    cases fault <;> exact ⟨rfl, fun _ _ => rfl, nofun⟩

end Runs

end ConfigFile

end GameSetup
