import GameSetup.Proofs.Program.Precedence
import GameSetup.Proofs.Setting.Resolution

/-!
# The size of the game

The size at which the game is drawn comes from the command line, which insists on two positive
numbers, or from the configuration file, which does not. So a run has a size at which there is
something to see unless it takes over another one from its file.
-/

namespace GameSetup

open CommandLine

/-- A size that the command line gives is taken over only if both sides are positive. -/
theorem CommandLine.Given.gameSize_eq_ok {given : Given} {size : Option Resolution}
    (h : given.gameSize = .ok size) :
    size = none ∧ given.size = none ∨
      ∃ found, size = some found ∧ found.Positive ∧
        given.size = some [found.width, found.height] := by
  rw [gameSize] at h
  split at h
  · next hsize =>
    cases h
    exact .inl ⟨rfl, hsize⟩
  · next width height hsize =>
    split at h
    · next hpositive =>
      cases h
      exact .inr ⟨⟨width, height⟩, rfl, hpositive, hsize⟩
    · cases h
  · cases h

namespace Program

/-- The size that a file gives is the last one under the mode's header or none that can be read. -/
theorem gameSize_fileFlags (mode : RunMode) (events : List Conf.Event) :
    (Settings.fileFlags mode events).gameSize =
      ((Conf.textsUnder [mode.sectionName, rootSection] "game_size" events).filterMap
        fun text => (Resolution.read text).toOption).getLast?.getD ⟨320, 200⟩ := by
  cases mode <;> rfl

/-- A run takes its size from the command line, or else the last one that can be read from its file,
or else the usual one. A height is never negative. Both sides are positive exactly if the command
line gives a size, or the size in the file is positive, or there is none. -/
theorem resolve_gameSize {σ : Type} (files : FileSystem σ) (state : σ) {environment : Environment}
    {arguments : Arguments} {startup : Startup} {path : Path} (h : arguments.startup = .ok startup)
    (hpath : configPath environment startup = .ok path) :
    let opened := ((Script.open? path).runOn files state).1
    let texts := Conf.textsUnder [startup.mode.sectionName, rootSection] "game_size"
      (ConfigFile.events opened)
    let last := (texts.filterMap fun text => (Resolution.read text).toOption).getLast?
    ∃ flags notices,
      ((resolve environment startup).runOn files state).1 = .ok (flags, notices) ∧
      flags.gameSize = (startup.overrides.gameSize.or last).getD ⟨320, 200⟩ ∧
      0 ≤ flags.gameSize.height ∧
      (flags.gameSize.Positive ↔
        arguments.given.size ≠ none ∨ ∀ found ∈ last, found.Positive) := by
  intro opened texts last
  obtain ⟨given, hgiven, hrest⟩ := exists_of_bind_eq_ok h
  have hoverride : startup.overrides.gameSize = given := by
    cases hrest
    rfl
  obtain ⟨flags, notices, hresolve, hflags⟩ := exists_resolve files state hpath
  have hsize : flags.gameSize = (startup.overrides.gameSize.or last).getD ⟨320, 200⟩ := by
    rw [hflags, Overrides.apply, gameSize_fileFlags, Option.getD_or]
  refine ⟨flags, notices, hresolve, hsize, ?_⟩
  rw [hsize, hoverride]
  obtain ⟨rfl, hnone⟩ | ⟨found, rfl, hpositive, hsome⟩ := Given.gameSize_eq_ok hgiven
  · rw [Option.none_or, hnone]
    cases hlast : last with
    | none =>
      have hall : ∀ found ∈ (none : Option Resolution), found.Positive := fun found hfound =>
        absurd hfound (Option.not_mem_none found)
      exact ⟨by decide, iff_of_true (by decide) (.inr hall)⟩
    | some found =>
      obtain ⟨text, -, haccepted⟩ := List.mem_filterMap.mp (List.mem_of_getLast? hlast)
      have hread := eq_ok_of_toOption_eq_some haccepted
      refine ⟨Resolution.height_nonneg_of_read hread, fun hpositive => .inr ?_, ?_⟩
      · rintro _ ⟨⟩
        exact hpositive
      · rintro (hgiven | hall)
        · exact absurd rfl hgiven
        · exact hall found rfl
  · rw [Option.some_or, Option.getD_some]
    exact ⟨Int32.le_of_lt hpositive.2, iff_of_true hpositive (.inl (by simp [hsome]))⟩

/-- A size on the command line counts, whatever the file says about it. -/
theorem resolve_gameSize_given :
    let disk : Disk := ⟨.directory [("rc", .file (Text.Utf8.encode "game_size = 0x0\n"))], []⟩
    let arguments : Arguments := ⟨⟨[], some [640, 400], none, some "rc"⟩, none⟩
    ∃ startup flags notices, arguments.startup = .ok startup ∧
      ((resolve ⟨none, none⟩ startup).runOn .ofDisk disk).1 = .ok (flags, notices) ∧
      flags.gameSize.Positive := by
  intro disk arguments
  obtain ⟨startup, hstartup⟩ : ∃ startup, arguments.startup = .ok startup := ⟨_, rfl⟩
  have hpath : configPath ⟨none, none⟩ startup = .ok ⟨"rc"⟩ := by
    cases hstartup
    rfl
  obtain ⟨flags, notices, hresolve, -, -, hpositive⟩ :=
    resolve_gameSize .ofDisk disk hstartup hpath
  exact ⟨startup, flags, notices, hstartup, hresolve,
    hpositive.mpr (.inl (Option.some_ne_none _))⟩

/-- A file can bring the game to a size at which there is nothing to see. -/
theorem resolve_gameSize_zero :
    let disk : Disk := ⟨.directory [("rc", .file (Text.Utf8.encode "game_size = 0x0\n"))], []⟩
    let arguments : Arguments := ⟨⟨[], none, none, some "rc"⟩, none⟩
    ∃ startup flags notices, arguments.startup = .ok startup ∧
      ((resolve ⟨none, none⟩ startup).run disk).1 = .ok (flags, notices) ∧
      flags.gameSize = ⟨0, 0⟩ := by
  intro disk arguments
  obtain ⟨startup, hstartup⟩ : ∃ startup, arguments.startup = .ok startup := ⟨_, rfl⟩
  have hsize : ((resolve ⟨none, none⟩ startup).run disk).1.map (·.1.gameSize) = .ok ⟨0, 0⟩ := by
    cases hstartup
    decide +kernel
  obtain ⟨⟨flags, notices⟩, hresolve, hzero⟩ := exists_of_map_eq_ok hsize
  exact ⟨startup, flags, notices, hstartup, hresolve, hzero⟩

end Program

end GameSetup
