import GameSetup.Proofs.Program.Precedence

/-!
# The data directory

The data directory comes from the command line, which takes any text for it, or from the
configuration file, where a blank one stands for the built-in directory. So a run has a directory
without a name exactly if its command line ends up with one.
-/

namespace GameSetup

open CommandLine

namespace Program

/-- A run takes its data directory from the command line, even if that is empty. Where none is
named, the last one in the root section of its file counts, unless that is empty or there is none:
then the built-in directory is used. -/
theorem resolve_datadir {σ : Type} (files : FileSystem σ) (state : σ) {environment : Environment}
    {arguments : Arguments} {startup : Startup} {path : Path} (h : arguments.startup = .ok startup)
    (hpath : configPath environment startup = .ok path) :
    let opened := ((Script.open? path).runOn files state).1
    let stored := (Conf.textsUnder [rootSection] "datadir" (ConfigFile.events opened)).getLast?
    let named := arguments.given.datadir
    ∃ flags notices,
      ((resolve environment startup).runOn files state).1 = .ok (flags, notices) ∧
      flags.datadir = named.or (stored.filter (· ≠ "")) ∧
      (flags.datadir = none ↔ named = none ∧ ∀ text ∈ stored, text = "") ∧
      (flags.datadir = some "" ↔ named = some "") := by
  intro opened stored named
  obtain ⟨size, -, hrest⟩ := exists_of_bind_eq_ok h
  have hoverride : startup.overrides.datadir = named := by
    cases hrest
    rfl
  obtain ⟨flags, notices, hresolve, hflags⟩ := exists_resolve files state hpath
  have hdatadir : flags.datadir = named.or (stored.filter (· ≠ "")) := by
    rw [← hoverride, hflags]
    rfl
  refine ⟨flags, notices, hresolve, hdatadir, ?_, ?_⟩
  · rw [hdatadir, Option.or_eq_none_iff, Option.filter_eq_none_iff]
    simp
  · rw [hdatadir]
    cases named <;> simp

/-- A file whose last directory is blank leaves the built-in one in place. -/
theorem resolve_datadir_blank :
    let disk : Disk :=
      ⟨.directory [("rc", .file (Text.Utf8.encode "datadir = data\ndatadir = ; none\n"))], []⟩
    let arguments : Arguments := ⟨⟨[], none, none, some "rc"⟩, none⟩
    ∃ startup flags notices, arguments.startup = .ok startup ∧
      ((resolve ⟨none, none⟩ startup).runOn .ofDisk disk).1 = .ok (flags, notices) ∧
      flags.datadir = none := by
  intro disk arguments
  obtain ⟨startup, hstartup⟩ : ∃ startup, arguments.startup = .ok startup := ⟨_, rfl⟩
  have hpath : configPath ⟨none, none⟩ startup = .ok ⟨"rc"⟩ := by
    cases hstartup
    rfl
  obtain ⟨flags, notices, hresolve, -, hnone, -⟩ :=
    resolve_datadir .ofDisk disk hstartup hpath
  exact ⟨startup, flags, notices, hstartup, hresolve, hnone.mpr (by decide +kernel)⟩

/-- A blank directory on the command line reaches the flags, although one in the file does not. -/
theorem resolve_datadir_empty :
    let disk : Disk := ⟨.directory [("rc", .file (Text.Utf8.encode "datadir =\n"))], []⟩
    let arguments : Arguments := ⟨⟨[], none, some "", some "rc"⟩, none⟩
    ∃ startup flags notices, arguments.startup = .ok startup ∧
      ((resolve ⟨none, none⟩ startup).run disk).1 = .ok (flags, notices) ∧
      flags.datadir = some "" := by
  intro disk arguments
  obtain ⟨startup, hstartup⟩ : ∃ startup, arguments.startup = .ok startup := ⟨_, rfl⟩
  have hdatadir : ((resolve ⟨none, none⟩ startup).run disk).1.map (·.1.datadir) =
      .ok (some "") := by
    cases hstartup
    decide +kernel
  obtain ⟨⟨flags, notices⟩, hresolve, hempty⟩ := exists_of_map_eq_ok hdatadir
  exact ⟨startup, flags, notices, hstartup, hresolve, hempty⟩

end Program

end GameSetup
