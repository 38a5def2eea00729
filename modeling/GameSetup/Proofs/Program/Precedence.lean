import GameSetup.Program.Basic
import GameSetup.Proofs.Conf.Reading
import GameSetup.Proofs.Settings.FileValues
import GameSetup.Proofs.Storage.FileSystem

/-!
# Command line over file over defaults

The flags of a run are put together from the command line, the configuration file and the defaults,
in this order. A file counts as a whole: if it cannot be opened, or fails before its end, the run
goes on as if it were empty.
-/

namespace GameSetup

/-- What a file has to say. -/
def ConfigFile.events : Except Fault Conf.Stream → List Conf.Event
  | .ok ⟨bytes, none⟩ => Conf.Grammar.events bytes
  | .ok ⟨_, some _⟩ => []
  | .error _ => []

/-- The flags that a file gives in a mode, with the defaults of the mode for what it leaves open. -/
def Settings.fileFlags (mode : RunMode) (events : List Conf.Event) : Flags :=
  let bundle := Settings.initial.bundle mode
  let texts := fun name => Conf.textsUnder [mode.sectionName, rootSection] name events
  { windowMode := bundle.windowMode.valueAfter (texts "window_mode")
    mono := bundle.mono.valueAfter (texts "mono")
    nosound := false
    grabmouse := bundle.grabmouse.valueAfter (texts "grabmouse")
    antialias := bundle.antialias.valueAfter (texts "antialias")
    software := bundle.software.valueAfter (texts "software")
    gameSize := bundle.gameSize.valueAfter (texts "game_size")
    monitor := bundle.monitor.valueAfter (texts "monitor")
    windowSize := bundle.windowSize.valueAfter (texts "window_size")
    datadir := (Conf.textsUnder [rootSection] "datadir" events).getLast?.filter (· ≠ "") }

namespace Settings

/-- An empty data directory counts as none. -/
theorem datadir_flags_parse (mode : RunMode) (stream : Conf.Stream) :
    ((initial.parse mode stream).1.flags mode).datadir =
      (Conf.textsUnder [rootSection] "datadir" (Conf.events stream)).getLast?.filter (· ≠ "") := by
  rw [flags, value_datadir_parse]
  cases (Conf.textsUnder [rootSection] "datadir" (Conf.events stream)).getLast? with
  | none => rfl
  | some text =>
    rw [Option.getD_some, Option.filter_some]
    by_cases hempty : text = ""
    · subst hempty
      rfl
    · simp [hempty]

/-- The flags after a file has been read are those that it gives. -/
theorem flags_parse (mode : RunMode) (stream : Conf.Stream) :
    (initial.parse mode stream).1.flags mode = fileFlags mode (Conf.events stream) := by
  have hvalue := fun field => initial.value_setting_parse mode field stream
  have hwindowMode := AnyValue.windowMode.inj (hvalue .windowMode)
  have hsoftware := AnyValue.flag.inj (hvalue .software)
  have hmono := AnyValue.flag.inj (hvalue .mono)
  have hgrabmouse := AnyValue.flag.inj (hvalue .grabmouse)
  have hantialias := AnyValue.flag.inj (hvalue .antialias)
  have hmonitor := AnyValue.number.inj (hvalue .monitor)
  have hwindowSize := AnyValue.resolution.inj (hvalue .windowSize)
  have hgameSize := AnyValue.resolution.inj (hvalue .gameSize)
  have hdatadir := datadir_flags_parse mode stream
  exact (Flags.mk.injEq ..).mpr ⟨hwindowMode, hmono, rfl, hgrabmouse, hantialias, hsoftware,
    hgameSize, hmonitor, hwindowSize, hdatadir⟩

/-- Where there is no file, the defaults are in effect. -/
theorem flags_initial (mode : RunMode) : initial.flags mode = fileFlags mode [] := by
  cases mode <;> rfl

end Settings

namespace ConfigFile

/-- Whatever becomes of a file, the flags are those of what it has to say. -/
theorem flags_load {σ : Type} (files : FileSystem σ) (mode : RunMode) (path : Path) (state : σ) :
    ((load mode path).runOn files state).1.1.flags =
      Settings.fileFlags mode (events ((Script.open? path).runOn files state).1) := by
  rw [(load_runOn files mode path state).1]
  obtain ⟨opened, changed⟩ := (Script.open? path).runOn files state
  cases opened with
  | error fault =>
    cases ((writeDefaults path).runOn files changed).1 <;> exact Settings.flags_initial mode
  | ok stream =>
    obtain ⟨bytes, fault⟩ := stream
    cases fault with
    | none =>
      change (Settings.initial.parse mode (.ofBytes bytes)).1.flags mode = _
      rw [Settings.flags_parse, Conf.events_ofBytes]
      rfl
    | some fault => exact Settings.flags_initial mode

end ConfigFile

namespace Program

open CommandLine

/-- The flags of a run are those of its file with the overrides in place. If it is not known where
the file would be, there are none. -/
theorem flags_resolve {σ : Type} (files : FileSystem σ) (state : σ) (environment : Environment)
    (startup : Startup) :
    ((resolve environment startup).runOn files state).1.map Prod.fst =
      (configPath environment startup).map fun path =>
        startup.overrides.apply (Settings.fileFlags startup.mode
          (ConfigFile.events ((Script.open? path).runOn files state).1)) := by
  rw [resolve]
  cases configPath environment startup with
  | error error => rfl
  | ok path =>
    dsimp only
    rw [Script.runOn_bind]
    exact congrArg (fun flags => Except.ok (startup.overrides.apply flags))
      (ConfigFile.flags_load files startup.mode path state)

/-- Where the command line says something, that counts; where it is silent the file counts, and then
the default. Switches turn on and never off, sound is a matter of the command line alone, and the
monitor and the size of the window are left to the file. So it is wherever the file is, and there
are no flags only if that is not known. -/
theorem resolve_precedence {σ : Type} (files : FileSystem σ) (state : σ)
    (environment : Environment) (startup : Startup) :
    ((resolve environment startup).runOn files state).1.map Prod.fst =
      (configPath environment startup).map fun path =>
        let opened := ((Script.open? path).runOn files state).1
        let file := Settings.fileFlags startup.mode (ConfigFile.events opened)
        let given := startup.overrides
        { windowMode := given.windowMode.getD file.windowMode
          mono := given.mono || file.mono
          nosound := given.nosound
          grabmouse := given.grabmouse || file.grabmouse
          antialias := given.antialias || file.antialias
          software := given.software || file.software
          gameSize := given.gameSize.getD file.gameSize
          monitor := file.monitor
          windowSize := file.windowSize
          datadir := given.datadir.or file.datadir } := by
  rw [flags_resolve]
  cases configPath environment startup with
  | error error => rfl
  | ok path =>
    refine congrArg Except.ok ?_
    dsimp only
    rw [Overrides.apply, Bool.or_comm _ startup.overrides.software,
      Bool.or_comm _ startup.overrides.nosound, Bool.or_comm _ startup.overrides.antialias,
      Bool.or_comm _ startup.overrides.mono, Bool.or_comm _ startup.overrides.grabmouse]
    exact congrArg (fun nosound => Flags.mk _ _ nosound _ _ _ _ _ _ _)
      (Bool.or_false startup.overrides.nosound)

/-- A run has flags as soon as it is known where its file would be. -/
theorem exists_resolve {σ : Type} (files : FileSystem σ) (state : σ) {environment : Environment}
    {startup : Startup} {path : Path} (h : configPath environment startup = .ok path) :
    ∃ flags notices,
      ((resolve environment startup).runOn files state).1 = .ok (flags, notices) ∧
      flags = startup.overrides.apply (Settings.fileFlags startup.mode
        (ConfigFile.events ((Script.open? path).runOn files state).1)) := by
  have hflags := flags_resolve files state environment startup
  rw [h] at hflags
  obtain ⟨⟨flags, notices⟩, hresolve, hsame⟩ := exists_of_map_eq_ok hflags
  exact ⟨flags, notices, hresolve, hsame⟩

end Program

end GameSetup
