import GameSetup.Proofs.Program.Precedence
import GameSetup.Proofs.Registry.Defaults
import GameSetup.Proofs.Storage.Writing

/-!
# What becomes of the configuration file

At start the configuration file is read, or one with every default is written, or neither. Whatever
goes wrong, the settings are those of a file that was read to its end, or else the defaults. On the
way to a new file directories may be made, which changes no other file. Once it is complete, the new
file can be loaded and gives the defaults again; if writing it fails, it may be there in part.

The new file takes the place of an old one in two cases. The old one may be there and yet not be
opened, which is taken for a missing file. And two dots in a path lead to nothing while a directory
in front of them is missing, and to an old file once it is made.
-/

namespace GameSetup

open Text.Utf8 (encode)

/-- What the defaults say is the defaults. -/
theorem Settings.flags_parse_defaultsText (mode : RunMode) :
    (initial.parse mode (.ofBytes (encode initial.defaultsText))).1.flags mode =
      initial.flags mode := by
  have hevents := (plain_registry mode.sectionName).events_defaultsText silent_fileHeader
  have htext : (initial.registry mode.sectionName).defaultsText fileHeader =
      initial.defaultsText := rfl
  rw [flags_parse, ← htext, hevents]
  cases mode <;> decide +kernel

/-- What writing to a path leaves behind: the bytes can be read there, and no other file has
changed. There was no file in their place if the disk could not open one, unless two dots lead
there. -/
structure Disk.WrittenTo (disk changed : Disk) (path : Path) (bytes : List UInt8) : Prop where
  openFile : changed.openFile path = .ok (.ofBytes bytes)
  exists_place : ∃ name ∈ path.names.getLast?,
    (∀ way, changed.file? way =
      if way = disk.place path name then some bytes else disk.file? way) ∧
    ((∃ fault, disk.openFile path = .error fault) →
      ".." ∉ disk.workingDirectory ++ path.names → disk.file? (disk.place path name) = none)

/-- A file that was added has been written to. -/
theorem Disk.AddsFile.writtenTo {disk changed : Disk} {path : Path} {name : String}
    {bytes : List UInt8} (h : disk.AddsFile changed path name bytes)
    (hroot : disk.root.HasFolder []) : disk.WrittenTo changed path bytes where
  openFile := h.openFile
  exists_place := ⟨name, h.finds.names.last, h.file?,
    fun ⟨_, hfault⟩ hdots => h.file?_eq_none hroot hfault hdots⟩

namespace ConfigFile

/-- The status tells how opening and writing went, and only what was read to its end is in
effect. -/
theorem settled_status (mode : RunMode) (opened : Except Fault Conf.Stream)
    (written : Except FileError Unit) :
    let loaded := settled mode opened written
    loaded.flags = loaded.settings.flags mode ∧
      (loaded.status = .loaded ↔ ∃ bytes, opened = .ok (.ofBytes bytes)) ∧
      (∀ bytes, opened = .ok (.ofBytes bytes) →
        loaded.settings = (Settings.initial.parse mode (.ofBytes bytes)).1) ∧
      (loaded.status = .unreadable ↔ ∃ bytes fault, opened = .ok ⟨bytes, some fault⟩) ∧
      (loaded.status = .created ↔ (∃ fault, opened = .error fault) ∧ written = .ok ()) ∧
      (loaded.status = .missing ↔
        (∃ fault, opened = .error fault) ∧ ∃ error, written = .error error) ∧
      (loaded.status ≠ .loaded → loaded.settings = .initial) := by
  rcases opened with fault | ⟨bytes, fault | fault⟩
  · cases written <;> simp [settled, load.finish]
  · simp [settled, load.finish, Conf.Stream.ofBytes]
  · simp [settled, load.finish, Conf.Stream.ofBytes]

/-- Whatever goes wrong, writing the defaults changes no file, or leaves the first of them in the
place of the path, and all of them if no error is reported. Where nothing is in store, they are
written if the directories can be made and then the file. -/
theorem writeDefaults_runOn {faulty : FaultyDisk} (hroot : faulty.disk.root.HasFolder [])
    (path : Path) :
    let run := (writeDefaults path).runOn .faulty faulty
    let folder := (Script.makeFolder path).runOn .faulty faulty
    let defaults := encode Settings.initial.defaultsText
    ((∃ error, run.1 = .error error) ∧ faulty.disk.AddsFolders run.2.disk ∨
      path.hasNul = false ∧ ∃ name part, part <+: defaults ∧
        faulty.disk.AddsFile run.2.disk path name part ∧ (run.1 = .ok () → part = defaults)) ∧
      (faulty.mishaps = [] → folder.1 = .ok () → path.hasNul = false →
        (∃ changed, folder.2.disk.createFile path = .ok changed) → run.1 = .ok ()) := by
  have hdefaults : (Settings.initial.defaultPieces.map encode).flatten =
      encode Settings.initial.defaultsText := by
    rw [← List.flatMap_def, ← encode_join]
    rfl
  have hadds := (Script.onlyFolders_makeFolder path).addsFolders faulty hroot
  have hclear := @Script.mishaps_runOn _ (Script.makeFolder path) faulty
  rw [writeDefaults, Script.runOn_bind]
  generalize (Script.makeFolder path).runOn .faulty faulty = answered at hadds hclear ⊢
  obtain ⟨folder, made⟩ := answered
  cases folder with
  | error fault => exact ⟨.inl ⟨⟨_, rfl⟩, hadds⟩, fun _ hok => nomatch hok⟩
  | ok =>
    dsimp only at hadds hclear ⊢
    obtain ⟨hwrite, hok⟩ := Writer.write_runOn (hadds.hasFolder [] hroot) path
      (Settings.initial.defaultPieces.map encode)
    rw [Script.runOn_bind]
    rw [hdefaults] at hwrite
    generalize (Writer.write path _).runOn .faulty made = answered at hwrite hok ⊢
    obtain ⟨outcome, after⟩ := answered
    constructor
    · obtain ⟨⟨fault, rfl⟩, hsame⟩ | ⟨hnul, name, part, hprefix, hfile, hall⟩ := hwrite
      · refine .inl ⟨⟨_, rfl⟩, ?_⟩
        exact hsame ▸ hadds
      · refine .inr ⟨hnul, name, part, hprefix, hfile.of_addsFolders hadds, fun hdone => hall ?_⟩
        cases outcome with
        | ok => rfl
        | error fault => cases hdone
    · intro hnone _ hnul hcreated
      obtain rfl := hok (hclear hnone) hnul hcreated
      rfl

/-- Whatever comes of writing the defaults, no file is changed but the one in the place of the path.
-/
theorem writtenTo_of_writeDefaults {faulty : FaultyDisk} (hroot : faulty.disk.root.HasFolder [])
    (path : Path) :
    let after := ((writeDefaults path).runOn .faulty faulty).2.disk
    (∀ way, after.file? way = faulty.disk.file? way) ∨
      ∃ part, part <+: encode Settings.initial.defaultsText ∧
        faulty.disk.WrittenTo after path part := by
  obtain ⟨⟨-, hadds⟩ | ⟨-, name, part, hprefix, hfile, -⟩, -⟩ := writeDefaults_runOn hroot path
  · exact .inl hadds.file?
  · exact .inr ⟨part, hprefix, hfile.writtenTo hroot⟩

/-- If no error is reported, that file holds all the defaults. -/
theorem writtenTo_of_writeDefaults_eq_ok {faulty : FaultyDisk}
    (hroot : faulty.disk.root.HasFolder []) {path : Path}
    (h : ((writeDefaults path).runOn .faulty faulty).1 = .ok ()) :
    path.hasNul = false ∧ faulty.disk.WrittenTo ((writeDefaults path).runOn .faulty faulty).2.disk
      path (encode Settings.initial.defaultsText) := by
  obtain ⟨⟨⟨error, herror⟩, -⟩ | ⟨hnul, name, part, -, hfile, hall⟩, -⟩ :=
    writeDefaults_runOn hroot path
  · exact nomatch herror.symm.trans h
  · exact ⟨hnul, hall h ▸ hfile.writtenTo hroot⟩

/-- A file that can be opened is loaded, unless something goes wrong with opening it. -/
theorem load_runOn_of_openFile {faulty : FaultyDisk} {path : Path} {bytes : List UInt8}
    (mode : RunMode) (hnul : path.hasNul = false)
    (hopen : faulty.disk.openFile path = .ok (.ofBytes bytes)) (hnone : faulty.mishap? = none) :
    ((load mode path).runOn .faulty faulty).1.1 =
      load.finish mode (Settings.initial.parse mode (.ofBytes bytes)).1 .loaded := by
  have hopened : ((Script.open? path).runOn .faulty faulty).1 = .ok (.ofBytes bytes) := by
    rw [FaultyDisk.open?_runOn, if_neg (Bool.eq_false_iff.mp hnul), FaultyDisk.openFile, hnone]
    exact hopen
  rw [(load_runOn .faulty mode path faulty).1, hopened]
  rfl

/-- The status of the configuration file tells what was done, whatever goes wrong with the requests.
The settings in effect are those of a file that was opened and delivered to its end, and the
defaults in all other cases, whatever was delivered before. If a file was opened, nothing on the
disk changes. Otherwise the place of the path can hold the defaults afterwards: all of them if the
status is that of a new file, and then it is loaded in either mode when it can be opened; and the
first of them, or what was there before, if it is not. No other file is changed. There was no file
in that place unless it could have been opened or two dots lead there. -/
theorem load_outcome (entries : List (String × Tree)) (workingDirectory : Way)
    (mishaps : List (Option Mishap)) (mode : RunMode) (path : Path) :
    let disk : Disk := ⟨.directory entries, workingDirectory⟩
    let opened := (Script.open? path).runOn .faulty ⟨disk, mishaps⟩
    let written := (writeDefaults path).runOn .faulty opened.2
    let outcome := (load mode path).runOn .faulty ⟨disk, mishaps⟩
    let loaded := outcome.1.1
    let after := outcome.2.disk
    let defaults := encode Settings.initial.defaultsText
    loaded.flags = loaded.settings.flags mode ∧
      (loaded.status = .loaded ↔ ∃ bytes, opened.1 = .ok (.ofBytes bytes)) ∧
      (∀ bytes, opened.1 = .ok (.ofBytes bytes) →
        loaded.settings = (Settings.initial.parse mode (.ofBytes bytes)).1) ∧
      (loaded.status = .unreadable ↔ ∃ bytes fault, opened.1 = .ok ⟨bytes, some fault⟩) ∧
      (loaded.status = .created ↔ (∃ fault, opened.1 = .error fault) ∧ written.1 = .ok ()) ∧
      (loaded.status = .missing ↔
        (∃ fault, opened.1 = .error fault) ∧ ∃ error, written.1 = .error error) ∧
      (loaded.status ≠ .loaded → loaded.settings = .initial) ∧
      (loaded.status = .loaded ∨ loaded.status = .unreadable → after = disk) ∧
      (loaded.status = .missing → (∀ way, after.file? way = disk.file? way) ∨
        ∃ part, part <+: defaults ∧ disk.WrittenTo after path part) ∧
      (loaded.status = .created → disk.WrittenTo after path defaults ∧
        ∀ (later : RunMode) (ahead : FaultyDisk), ahead.disk = after → ahead.mishap? = none →
          let again := ((load later path).runOn .faulty ahead).1.1
          again.status = .loaded ∧ again.flags = Settings.initial.flags later) := by
  intro disk opened written outcome loaded after defaults
  have hroot : disk.root.HasFolder [] := ⟨entries, Tree.get?_nil _⟩
  obtain ⟨hloaded, hkept, hchanged⟩ := load_runOn .faulty mode path ⟨disk, mishaps⟩
  obtain ⟨hflags, hstatus, hsettings, hunreadable, hcreated, hmissing, hinitial⟩ :=
    hloaded ▸ settled_status mode opened.1 written.1
  have hdisk : opened.2.disk = disk := by
    have hopened := FaultyDisk.open?_runOn path ⟨disk, mishaps⟩
    split at hopened <;> exact congrArg (·.2.disk) hopened
  have hroot' : opened.2.disk.root.HasFolder [] := hdisk.symm ▸ hroot
  refine ⟨hflags, hstatus, hsettings, hunreadable, hcreated, hmissing, hinitial, ?_, ?_, ?_⟩
  · intro hopened
    obtain ⟨stream, hstream⟩ : ∃ stream, opened.1 = .ok stream := by
      rcases hopened with hopened | hopened
      · obtain ⟨bytes, hbytes⟩ := hstatus.mp hopened
        exact ⟨_, hbytes⟩
      · obtain ⟨bytes, fault, hbytes⟩ := hunreadable.mp hopened
        exact ⟨_, hbytes⟩
    exact (congrArg FaultyDisk.disk (hkept stream hstream)).trans hdisk
  · intro hstatus
    obtain ⟨⟨fault, hfault⟩, -⟩ := hmissing.mp hstatus
    have hafter : after = written.2.disk := congrArg FaultyDisk.disk (hchanged fault hfault)
    rw [hafter, ← hdisk]
    exact writtenTo_of_writeDefaults hroot' path
  · intro hnew
    obtain ⟨⟨fault, hfault⟩, hwritten⟩ := hcreated.mp hnew
    have hafter : after = written.2.disk := congrArg FaultyDisk.disk (hchanged fault hfault)
    obtain ⟨hnul, hfile⟩ := writtenTo_of_writeDefaults_eq_ok hroot' hwritten
    rw [hafter, ← hdisk]
    refine ⟨hfile, fun later ahead hahead hnone => ?_⟩
    have hopen := hahead ▸ hfile.openFile
    have hagain := load_runOn_of_openFile later hnul hopen hnone
    refine ⟨congrArg LoadedSettings.status hagain, ?_⟩
    rw [hagain, load.finish, Settings.flags_parse_defaultsText]

/-- What cannot be opened is written anew if that is all that goes wrong, whatever is there. -/
theorem load_created {disk : Disk} {mishaps : List (Option Mishap)} {path : Path} {fault : Fault}
    {mode : RunMode} {outcome : (LoadedSettings × List FileNotice) × FaultyDisk}
    (hroot : disk.root.HasFolder []) (hnul : path.hasNul = false)
    (hopened : (Script.open? path).runOn .faulty ⟨disk, mishaps⟩ = (.error fault, ⟨disk, []⟩))
    (hfolder : ((Script.makeFolder path).runOn .faulty ⟨disk, []⟩).1 = .ok ())
    (hcreated : (((Script.makeFolder path).runOn .faulty ⟨disk, []⟩).2.disk.createFile
      path).isOk = true)
    (hrun : (load mode path).runOn .faulty ⟨disk, mishaps⟩ = outcome) :
    outcome.1.1.status = .created ∧ ∃ name ∈ path.names.getLast?,
      outcome.2.disk.file? (disk.place path name) =
        some (encode Settings.initial.defaultsText) := by
  obtain ⟨-, hok⟩ := @writeDefaults_runOn ⟨disk, []⟩ hroot path
  have hwritten : ((writeDefaults path).runOn .faulty ⟨disk, []⟩).1 = .ok () := by
    refine hok rfl hfolder hnul ?_
    cases hcreate : ((Script.makeFolder path).runOn .faulty ⟨disk, []⟩).2.disk.createFile path with
    | error fault =>
      rw [hcreate] at hcreated
      cases hcreated
    | ok changed => exact ⟨changed, rfl⟩
  obtain ⟨hloaded, -, hafter⟩ := load_runOn .faulty mode path ⟨disk, mishaps⟩
  rw [hopened, hwritten, hrun] at hloaded
  have hstate := hafter fault (congrArg Prod.fst hopened)
  rw [hopened, hrun] at hstate
  obtain ⟨-, hfile⟩ := @writtenTo_of_writeDefaults_eq_ok ⟨disk, []⟩ hroot path hwritten
  obtain ⟨name, hname, hfiles, -⟩ := hfile.exists_place
  refine ⟨congrArg LoadedSettings.status hloaded, name, hname, ?_⟩
  rw [hstate, hfiles, if_pos rfl]

/-- A file is overwritten behind a missing directory and two dots, or when it may not be opened. -/
theorem load_overwrites :
    let disk : Disk := ⟨.directory [("b", .file (encode "mine\n"))], []⟩
    let behind := (load .game ⟨"missing/../b"⟩).runOn .faulty ⟨disk, []⟩
    let refused := (load .game ⟨"b"⟩).runOn .faulty
      ⟨disk, [some (.refused (.other "Permission denied (os error 13)"))]⟩
    behind.1.1.status = .created ∧ refused.1.1.status = .created ∧
      disk.file? ["b"] = some (encode "mine\n") ∧
      behind.2.disk.file? ["b"] = some (encode Settings.initial.defaultsText) ∧
      refused.2.disk.file? ["b"] = some (encode Settings.initial.defaultsText) ∧
      encode Settings.initial.defaultsText ≠ encode "mine\n" := by
  intro disk
  -- The runs are not to be evaluated, but to be put together from what their parts come to.
  generalize hbehind : (load .game ⟨"missing/../b"⟩).runOn .faulty ⟨disk, []⟩ = behind
  generalize hrefused : (load .game ⟨"b"⟩).runOn .faulty ⟨disk, _⟩ = refused
  have hroot : disk.root.HasFolder [] := ⟨_, Tree.get?_nil _⟩
  have hplace (path : Path) (name : String)
      (h : path.names.getLast?.map (disk.place path) = some ["b"])
      (hname : name ∈ path.names.getLast?) : disk.place path name = ["b"] := by
    rw [Option.mem_def.mp hname] at h
    exact Option.some.inj h
  have hopened : (Script.open? ⟨"missing/../b"⟩).runOn .faulty ⟨disk, []⟩ =
      (.error .notFound, ⟨disk, []⟩) := by
    rw [FaultyDisk.open?_runOn]
    exact congrArg (·, _) (by decide +kernel)
  obtain ⟨hcreated, name, hname, hfile⟩ := load_created hroot (by decide +kernel) hopened
    (by decide +kernel) (by decide +kernel) hbehind
  obtain ⟨hagain, other, hother, hfound⟩ := load_created hroot (by decide +kernel) rfl
    (by decide +kernel) (by decide +kernel) hrefused
  rw [hplace ⟨"missing/../b"⟩ name (by decide +kernel) hname] at hfile
  rw [hplace ⟨"b"⟩ other (by decide +kernel) hother] at hfound
  refine ⟨hcreated, hagain, rfl, hfile, hfound, ?_⟩
  rw [Settings.defaultsText, Registry.defaultsText, encode_join]
  decide +kernel

end ConfigFile

end GameSetup
