import GameSetup.Proofs.CommandLine.Sides
import Mathlib.Data.List.Perm.Basic

/-!
# Switches that exclude each other

A command line may give at most one of the switches for the window mode. They are declared not to go
with each other, and whatever reads the command line finds such conflicts on each side of the
command by itself. So an accepted command line can give two of them, one in front of the command and
another behind it. Only then does the window mode depend on which switch is looked for first.

This is shown of every reader that treats the declarations and the two sides as `SideLaws` says, and
of `parse`, which is one.
-/

namespace GameSetup.CommandLine

/-- The switches for the window mode. -/
def Switch.exclusive : List Switch :=
  [.fullscreen, .borderless, .window]

/-- Of the switches that exclude each other, at most one has the property. -/
def Exclusive (given : Switch → Prop) : Prop :=
  ∀ first ∈ Switch.exclusive, ∀ second ∈ Switch.exclusive, given first → given second →
    first = second

instance (given : Switch → Prop) [DecidablePred given] : Decidable (Exclusive given) :=
  inferInstanceAs (Decidable (∀ first ∈ Switch.exclusive, ∀ second ∈ Switch.exclusive,
    given first → given second → first = second))

/-- No two switches with the property are declared not to go with each other. -/
def Compatible (given : Switch → Prop) : Prop :=
  ∀ first second, second ∈ first.conflicts → given first → ¬ given second

/-- The declarations are about any two of the switches for the window mode, and no others. -/
theorem Switch.conflicts_iff (first second : Switch) :
    second ∈ first.conflicts ∨ first ∈ second.conflicts ↔
      first ∈ exclusive ∧ second ∈ exclusive ∧ first ≠ second := by
  cases first <;> cases second <;> decide

/-- So what they leave room for is at most one of these switches. -/
theorem compatible_iff_exclusive {given : Switch → Prop} : Compatible given ↔ Exclusive given := by
  constructor
  · intro hcompatible first hfirst second hsecond hgiven hagain
    by_contra hne
    rcases (Switch.conflicts_iff first second).mpr ⟨hfirst, hsecond, hne⟩ with h | h
    · exact hcompatible first second h hgiven hagain
    · exact hcompatible second first h hagain hgiven
  · intro hexclusive first second hconflict hgiven hagain
    obtain ⟨hfirst, hsecond, hne⟩ := (Switch.conflicts_iff first second).mp (.inl hconflict)
    exact hne (hexclusive first hfirst second hsecond hgiven hagain)

/-- Fewer switches are compatible if more are. -/
theorem Compatible.mono {given fewer : Switch → Prop} (h : Compatible given)
    (hfewer : ∀ switch, fewer switch → given switch) : Compatible fewer :=
  fun first second hconflict hfirst hsecond =>
    h first second hconflict (hfewer first hfirst) (hfewer second hsecond)

/-- The window mode that a switch asks for. -/
def Switch.windowMode? : Switch → Option WindowMode
  | .fullscreen => some .fullscreen
  | .borderless => some .borderlessFullscreen
  | .window => some .windowed
  | _ => none

/-- The switches that exclude each other ask for different modes. -/
theorem Switch.windowMode?_inj : ∀ first ∈ exclusive, ∀ second ∈ exclusive,
    first.windowMode? = second.windowMode? → first = second := by
  decide

/-- Where only one entry can be found, the order of the list does not matter. -/
theorem find?_eq_of_perm {α : Type} {p : α → Bool} {entries other : List α}
    (hperm : other.Perm entries)
    (hunique : ∀ first ∈ entries, ∀ second ∈ entries, p first → p second → first = second) :
    other.find? p = entries.find? p := by
  cases hfound : entries.find? p with
  | none =>
    rw [List.find?_eq_none] at hfound ⊢
    exact fun entry hmem => hfound entry (hperm.mem_iff.mp hmem)
  | some entry =>
    have hentry := List.mem_of_find?_eq_some hfound
    cases hother : other.find? p with
    | none =>
      exact absurd (List.find?_some hfound)
        (List.find?_eq_none.mp hother entry (hperm.mem_iff.mpr hentry))
    | some found =>
      have hmem := hperm.mem_iff.mp (List.mem_of_find?_eq_some hother)
      rw [hunique found hmem entry hentry (List.find?_some hother) (List.find?_some hfound)]

namespace Given

variable (given : Given)

/-- No conflict is found exactly if the given switches are compatible. -/
theorem exclusion?_eq_none_iff : given.exclusion? = none ↔ Compatible (· ∈ given.switches) := by
  simp only [exclusion?, Compatible, List.findSome?_eq_none_iff, List.mem_filter, Switch.mem_all,
    true_and, decide_eq_true_eq, Option.map_eq_none_iff, List.find?_eq_none]
  exact ⟨fun h first second hconflict hgiven => h first hgiven second hconflict,
    fun h first hgiven second hconflict => h first second hconflict hgiven⟩

/-- The switches are looked for in a fixed order. -/
theorem windowMode_eq :
    given.windowMode = (Switch.exclusive.find? (· ∈ given.switches)).bind Switch.windowMode? := by
  by_cases hfullscreen : Switch.fullscreen ∈ given.switches <;>
    by_cases hborderless : Switch.borderless ∈ given.switches <;>
    by_cases hwindow : Switch.window ∈ given.switches <;>
    simp [windowMode, Switch.exclusive, Switch.windowMode?, hfullscreen, hborderless, hwindow]

/-- The order matters exactly if several of the switches are given. -/
theorem exclusive_iff_windowMode : Exclusive (· ∈ given.switches) ↔
    ∀ order : List Switch, order.Perm Switch.exclusive →
      given.windowMode = (order.find? (· ∈ given.switches)).bind Switch.windowMode? := by
  constructor
  · intro hexclusive order hperm
    rw [windowMode_eq, find?_eq_of_perm hperm fun first hfirst second hsecond hgiven hagain =>
      hexclusive first hfirst second hsecond (of_decide_eq_true hgiven) (of_decide_eq_true hagain)]
  · intro horder first hfirst second hsecond hgiven hagain
    have hmode {switch : Switch} (hmem : switch ∈ Switch.exclusive)
        (hswitch : switch ∈ given.switches) : given.windowMode = switch.windowMode? := by
      rw [horder _ (List.perm_cons_erase hmem).symm,
        List.find?_cons_of_pos (by simpa using hswitch)]
      rfl
    exact Switch.windowMode?_inj first hfirst second hsecond
      ((hmode hfirst hgiven).symm.trans (hmode hsecond hagain))

end Given

/-- What a reader of command lines is expected to do about the options that belong to the whole
program, given which sides it divides an accepted command line into. -/
structure ArgumentReader.SideLaws (reader : ArgumentReader)
    (sides : List String → List String × List String) : Prop where
  /-- An accepted command line consists of its two sides. -/
  joined : ∀ words arguments, reader words = .ok arguments →
    (sides words).1 ++ (sides words).2 = words
  /-- The second side begins with the word of the command. Without a command it is empty. -/
  command : ∀ words arguments, reader words = .ok arguments →
    (sides words).2.head? = arguments.command.map Command.word
  /-- A switch that is declared to belong to the whole program may stand on either side: it is given
  if its word stands on one of them. -/
  given : ∀ words arguments, reader words = .ok arguments →
    ∀ switch, (LongOption.switch switch).isGlobal = true →
      (switch ∈ arguments.given.switches ↔
        switch.word ∈ unescaped (sides words).1 ∨ switch.word ∈ unescaped (sides words).2)
  /-- Switches that are declared not to go with each other are refused on the same side. -/
  conflicts : ∀ words arguments, reader words = .ok arguments →
    Compatible (·.word ∈ unescaped (sides words).1) ∧
      Compatible (·.word ∈ unescaped (sides words).2)
  /-- They are refused there only: two sides that are accepted by themselves are accepted together,
  unless two lone dashes hide the command. -/
  apart : ∀ front before back behind, reader front = .ok before → before.command = none →
    "--" ∉ front → reader back = .ok behind → behind.command.isSome → (sides back).1 = [] →
    sides (front ++ back) = (front, back) ∧ ∃ arguments, reader (front ++ back) = .ok arguments

/-- Of the switches that exclude each other, at most one is given exactly if no two of them stand on
different sides of the command, and exactly then the window mode does not depend on the order in
which they are looked for. On one side there is never more than one, but two sides that are accepted
by themselves are accepted together with all their switches. -/
theorem ArgumentReader.SideLaws.exclusive_iff {reader : ArgumentReader}
    {sides : List String → List String × List String} (laws : reader.SideLaws sides)
    {words : List String} {arguments : Arguments} (haccepted : reader words = .ok arguments) :
    Exclusive (·.word ∈ unescaped (sides words).1) ∧
      Exclusive (·.word ∈ unescaped (sides words).2) ∧
      (Exclusive (· ∈ arguments.given.switches) ↔
        ∀ first ∈ Switch.exclusive, ∀ second ∈ Switch.exclusive,
          first.word ∈ unescaped (sides words).1 → second.word ∈ unescaped (sides words).2 →
            first = second) ∧
      (Exclusive (· ∈ arguments.given.switches) ↔
        ∀ order : List Switch, order.Perm Switch.exclusive → arguments.given.windowMode =
          (order.find? (· ∈ arguments.given.switches)).bind Switch.windowMode?) ∧
      (∀ startup, arguments.startup = .ok startup →
        startup.overrides.windowMode = arguments.given.windowMode) ∧
      (arguments.command = none → "--" ∉ words →
        ∀ back behind, reader back = .ok behind → behind.command.isSome → (sides back).1 = [] →
          ∃ both, reader (words ++ back) = .ok both ∧ ∀ switch, switch ∈ both.given.switches ↔
            switch ∈ arguments.given.switches ∨ switch ∈ behind.given.switches) := by
  obtain ⟨hfront, hback⟩ := laws.conflicts words arguments haccepted
  rw [compatible_iff_exclusive] at hfront hback
  have hgiven (words : List String) (arguments : Arguments) (h : reader words = .ok arguments)
      (switch : Switch) := laws.given words arguments h switch rfl
  refine ⟨hfront, hback, ?_, arguments.given.exclusive_iff_windowMode, ?_, ?_⟩
  · simp only [Exclusive, hgiven words arguments haccepted]
    constructor
    · intro hall first hfirst second hsecond hword hother
      exact hall first hfirst second hsecond (.inl hword) (.inr hother)
    · rintro hacross first hfirst second hsecond (hword | hword) (hother | hother)
      · exact hfront first hfirst second hsecond hword hother
      · exact hacross first hfirst second hsecond hword hother
      · exact (hacross second hsecond first hfirst hother hword).symm
      · exact hback first hfirst second hsecond hword hother
  · intro startup hstartup
    obtain ⟨size, -, hrest⟩ := exists_of_bind_eq_ok hstartup
    cases hrest
    rfl
  · intro hnone hescape back behind hbehind hcommand hempty
    obtain ⟨hsides, both, hboth⟩ :=
      laws.apart words arguments back behind haccepted hnone hescape hbehind hcommand hempty
    -- Each of the two has one side, so what is given there is what its words give.
    have hnothing : (sides words).2 = [] := by
      rw [← List.head?_eq_none_iff, laws.command words arguments haccepted, hnone]
      rfl
    have hwords := laws.joined words arguments haccepted
    rw [hnothing, List.append_nil] at hwords
    have hrest := laws.joined back behind hbehind
    rw [hempty, List.nil_append] at hrest
    refine ⟨both, hboth, fun switch => ?_⟩
    rw [hgiven _ both hboth, hgiven words arguments haccepted, hgiven back behind hbehind, hsides,
      hnothing, hwords, hempty, hrest]
    simp [unescaped]

/-- A side that ends well gives the switches whose words stand in it, and they are compatible. -/
theorem Side.exists_of_finish {words : List String} {level : Level} {side next : Side}
    {command : Option (Level × List String)}
    (hread : Side.empty.read level words = .ok (side, command))
    (hfinish : side.finish level = .ok next) :
    ∃ front tail, words = front ++ tail ∧ Follows tail command ∧
      (∀ switch : Switch, switch ∈ next.given.switches ↔ switch.word ∈ unescaped front) ∧
      Compatible (·.word ∈ unescaped front) := by
  obtain ⟨front, tail, hwords, hfollows, hfront⟩ := exists_of_read hread
  obtain ⟨hsettled, hexclusion, -⟩ := finish_eq_ok_iff.mp hfinish
  have hgiven (switch : Switch) :
      switch ∈ next.given.switches ↔ switch.word ∈ unescaped front := by
    rw [switches_settle hsettled, hfront]
    exact or_iff_right List.not_mem_nil
  refine ⟨front, tail, hwords, hfollows, hgiven, ?_⟩
  simpa only [hgiven] using next.given.exclusion?_eq_none_iff.mp hexclusion

/-- An accepted command line is cut in front of its command, its switches are those of both sides,
and those of each side are compatible. -/
theorem commandSides_of_parse {words : List String} {arguments : Arguments}
    (h : parse words = .ok arguments) :
    ∃ front back, words = front ++ back ∧ commandSides words = (front, back) ∧
      back.head? = arguments.command.map Command.word ∧
      (∀ switch, switch ∈ arguments.given.switches ↔
        switch.word ∈ unescaped front ∨ switch.word ∈ unescaped back) ∧
      Compatible (·.word ∈ unescaped front) ∧ Compatible (·.word ∈ unescaped back) := by
  obtain ⟨side, command, program, hread, hprogram, hcommand⟩ := parse_eq_ok_iff.mp h
  obtain ⟨front, tail, rfl, hfollows, hfront, hcompatible⟩ := Side.exists_of_finish hread hprogram
  have hsides := commandSides_of_read hread hfollows
  cases command with
  | none =>
    obtain rfl := hfollows
    subst hcommand
    exact ⟨front, [], rfl, hsides, rfl, by simp [hfront, unescaped], hcompatible,
      by simp [Compatible, unescaped]⟩
  | some found =>
    obtain ⟨level, rest⟩ := found
    obtain ⟨word, hlevel, rfl⟩ := hfollows
    obtain ⟨back, other, own, hback, hown, rfl⟩ := hcommand
    obtain ⟨behind, last, hrest, hlast, hbehind, hagain⟩ := Side.exists_of_finish hback hown
    obtain rfl := Side.read_command_eq_none (Level.ofWord?_ne_program hlevel) hback
    obtain rfl := hlast
    rw [List.append_nil] at hrest
    subst hrest
    refine ⟨front, word :: rest, rfl, hsides, (Level.word_ofSide hlevel own).symm, fun switch => ?_,
      hcompatible, ?_⟩
    · rw [Given.merge, List.mem_append, hfront, hbehind, Level.mem_unescaped_ofWord? hlevel]
    · simpa only [Level.mem_unescaped_ofWord? hlevel] using hagain

/-- Sides that are accepted by themselves are accepted together. -/
theorem parse_append {front back : List String} {before behind : Arguments}
    (hfront : parse front = .ok before) (hnone : before.command = none) (hescape : "--" ∉ front)
    (hback : parse back = .ok behind) (hcommand : behind.command.isSome)
    (hempty : (commandSides back).1 = []) :
    commandSides (front ++ back) = (front, back) ∧
      ∃ arguments, parse (front ++ back) = .ok arguments := by
  obtain ⟨side, found, program, hread, hprogram, hfound⟩ := parse_eq_ok_iff.mp hfront
  obtain ⟨other, command, own, hother, hown, hrest⟩ := parse_eq_ok_iff.mp hback
  obtain ⟨start, tail, rfl, hfollows, -⟩ := Side.exists_of_read hother
  rw [commandSides_of_read hother hfollows] at hempty
  change start = [] at hempty
  subst hempty
  cases command with
  | none =>
    subst hrest
    cases hcommand
  | some command =>
    obtain ⟨level, rest⟩ := command
    obtain ⟨word, hlevel, rfl⟩ := hfollows
    obtain ⟨last, after, behind, hlast, hbehind, rfl⟩ := hrest
    cases found with
    | some found =>
      obtain ⟨first, words⟩ := found
      obtain ⟨-, -, own, -, -, rfl⟩ := hfound
      obtain ⟨-, tail, -, ⟨word, hword, -⟩, -⟩ := Side.exists_of_read hread
      have hsome := Level.word_ofSide hword own
      change Command.ofSide first own = none at hnone
      rw [hnone] at hsome
      cases hsome
    | none =>
      have hawaits := Side.awaitsValue_of_settle (Side.finish_eq_ok_iff.mp hprogram).1
      have hboth := Side.read_append_command hescape hread hawaits hlevel rest
      exact ⟨commandSides_of_read hboth ⟨word, hlevel, rfl⟩, _,
        parse_eq_ok_iff.mpr ⟨side, _, program, hboth, hprogram, last, after, behind, hlast, hbehind,
          rfl⟩⟩

/-- Command lines are read as expected. -/
theorem parse_sideLaws : ArgumentReader.SideLaws parse commandSides := by
  constructor
  case apart =>
    intro front before back behind hfront hnone hescape hback hcommand hempty
    exact parse_append hfront hnone hescape hback hcommand hempty
  all_goals
    intro words arguments haccepted
    obtain ⟨front, back, hwords, hsides, hcommand, hgiven, hcompatible⟩ :=
      commandSides_of_parse haccepted
    rw [hsides]
  case joined => exact hwords.symm
  case command => exact hcommand
  case given => exact fun switch _ => hgiven switch
  case conflicts => exact hcompatible

/-- A switch behind the command counts as one in front of it. -/
theorem parse_exclusive_window :
    ArgumentReader.SideLaws parse commandSides ∧
      parse ["--mono", "show", "--window"] =
        .ok ⟨⟨[.mono, .window], none, none, none⟩, some (.display false)⟩ ∧
      Exclusive (·.word ∈ unescaped (commandSides ["--mono", "show", "--window"]).1) ∧
      Exclusive (·.word ∈ unescaped (commandSides ["--mono", "show", "--window"]).2) := by
  have hparse : parse ["--mono", "show", "--window"] =
      .ok ⟨⟨[.mono, .window], none, none, none⟩, some (.display false)⟩ := by
    decide +kernel
  obtain ⟨hfront, hback, -⟩ := parse_sideLaws.exclusive_iff hparse
  exact ⟨parse_sideLaws, hparse, hfront, hback⟩

/-- Two switches that exclude each other are both given when the command stands between them. -/
theorem parse_both_sides :
    ArgumentReader.SideLaws parse commandSides ∧
      parse ["--fullscreen", "show", "--window"] =
        .ok ⟨⟨[.fullscreen, .window], none, none, none⟩, some (.display false)⟩ ∧
      ¬ Exclusive (· ∈ [Switch.fullscreen, Switch.window]) :=
  ⟨parse_sideLaws, by decide +kernel, by decide⟩

end GameSetup.CommandLine
