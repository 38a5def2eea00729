import GameSetup.Proofs.CommandLine.Facts

/-!
# Where the options of the whole program stand

The options of the whole program can stand in front of a command or behind it. As long as each is
given once, it makes no difference where, nor in which order: what is accepted with all the options
in front of the command is accepted with some of them behind it, and leads to the same run.

This is shown of every reader that takes up one more option as `OptionLaws` says, by induction on
the options of either side, and of `parse`, which is one.
-/

namespace GameSetup.CommandLine

/-- A command line with options in front of its command and behind it. -/
def commandLine (front : List WrittenOption) (command : Command) (back : List WrittenOption) :
    List String :=
  allWords front ++ command.words ++ allWords back

namespace ArgumentReader

/-- How a reader is expected to take up one more option beside others on a side, where it knows a
command line without the option and one with it. -/
structure TakesUp (reader : ArgumentReader) (meaning : WrittenOption → Option Fact)
    (written : WrittenOption) (beside : List WrittenOption) (words more : List String) : Prop where
  /-- The option must be accepted for what it is, and go with the others on its side. -/
  accepted_iff : (∃ arguments, reader more = .ok arguments) ↔
    (meaning written).isSome ∧ Compatible (gives (written :: beside)) ∧
      ∃ arguments, reader words = .ok arguments
  /-- Then what it says is added to what is said without it. -/
  added : ∀ before after, reader words = .ok before → reader more = .ok after →
    after.command = before.command ∧
      ∀ fact, after.given.Holds fact ↔ before.given.Holds fact ∨ meaning written = some fact

/-- What a reader of command lines is expected to do about complete options that are given once,
given what each of them says if it is accepted. -/
structure OptionLaws (reader : ArgumentReader) (meaning : WrittenOption → Option Fact) : Prop where
  /-- By itself a complete command is accepted, and nothing else is said. -/
  command : ∀ command : Command, command.Complete → ∃ arguments,
    reader command.words = .ok arguments ∧ arguments.command = some command ∧
      ∀ fact, ¬ arguments.given.Holds fact
  /-- An option that is declared for the program is taken up in front of a command. -/
  front : ∀ written front command back, GivenOnce (written :: (front ++ back)) →
    Command.Complete command → written.option.isOwn .program = true →
      reader.TakesUp meaning written front (commandLine front command back)
        (commandLine (written :: front) command back)
  /-- If it is declared to belong to the whole program, it is so behind the command too. -/
  back : ∀ written front command back, GivenOnce (written :: (front ++ back)) →
    Command.Complete command → written.option.isGlobal = true →
      reader.TakesUp meaning written back (commandLine front command back)
        (commandLine front command (written :: back))

namespace OptionLaws

variable {reader : ArgumentReader} {meaning : WrittenOption → Option Fact}
  {command : Command} {options front back : List WrittenOption} {arguments : Arguments}

/-- The options are accepted exactly if each is for what it is, and those of each side go with each
other. -/
theorem accepted_iff (laws : reader.OptionLaws meaning) (hcommand : command.Complete)
    (honce : GivenOnce (front ++ back)) :
    (∃ arguments, reader (commandLine front command back) = .ok arguments) ↔
      (∀ written ∈ front ++ back, (meaning written).isSome) ∧
        Compatible (gives front) ∧ Compatible (gives back) := by
  have hnone : Compatible (gives []) := by simp [Compatible, gives]
  induction front with
  | nil =>
    induction back with
    | nil =>
      obtain ⟨arguments, haccepted, -⟩ := laws.command command hcommand
      simpa [commandLine, allWords, hnone] using ⟨arguments, haccepted⟩
    | cons written back ih =>
      have hrest := ih honce.tail
      have htaken := laws.back written [] command back honce hcommand written.isGlobal_option
      simp only [htaken.accepted_iff, hrest, List.nil_append, List.forall_mem_cons]
      have hback := @compatible_gives_of_cons back written
      tauto
  | cons written front ih =>
    have hrest := ih honce.tail
    have htaken := laws.front written front command back honce hcommand written.isOwn_option
    simp only [htaken.accepted_iff, hrest, List.cons_append, List.forall_mem_cons]
    have hfront := @compatible_gives_of_cons front written
    tauto

/-- What they come to is what each of them says. -/
theorem holds_iff (laws : reader.OptionLaws meaning) (hcommand : command.Complete)
    (honce : GivenOnce (front ++ back))
    (haccepted : reader (commandLine front command back) = .ok arguments) :
    arguments.command = some command ∧ ∀ fact, arguments.given.Holds fact ↔
      ∃ written ∈ front ++ back, meaning written = some fact := by
  induction front generalizing arguments with
  | nil =>
    induction back generalizing arguments with
    | nil =>
      obtain ⟨alone, halone, hname, hnothing⟩ := laws.command command hcommand
      have hwords : commandLine [] command [] = command.words := List.append_nil _
      rw [hwords, halone] at haccepted
      cases haccepted
      exact ⟨hname, by simp [hnothing]⟩
    | cons written back ih =>
      have htaken := laws.back written [] command back honce hcommand written.isGlobal_option
      obtain ⟨-, -, before, hbefore⟩ := htaken.accepted_iff.mp ⟨arguments, haccepted⟩
      obtain ⟨hname, hholds⟩ := ih honce.tail hbefore
      obtain ⟨hsame, hadded⟩ := htaken.added before arguments hbefore haccepted
      refine ⟨hsame.trans hname, fun fact => ?_⟩
      rw [hadded, hholds, List.nil_append, List.nil_append, List.exists_mem_cons_iff, or_comm]
  | cons written front ih =>
    have htaken := laws.front written front command back honce hcommand written.isOwn_option
    obtain ⟨-, -, before, hbefore⟩ := htaken.accepted_iff.mp ⟨arguments, haccepted⟩
    obtain ⟨hname, hholds⟩ := ih honce.tail hbefore
    obtain ⟨hsame, hadded⟩ := htaken.added before arguments hbefore haccepted
    refine ⟨hsame.trans hname, fun fact => ?_⟩
    rw [hadded, hholds, List.cons_append, List.exists_mem_cons_iff, or_comm]

/-- What is accepted with all options in front of a command is accepted with some of them behind it,
in any order, and leads to the same run or to the same error. -/
theorem exists_moved (laws : reader.OptionLaws meaning) (hcommand : command.Complete)
    (honce : GivenOnce options) (hsplit : (front ++ back).Perm options)
    (haccepted : reader (commandLine options command []) = .ok arguments) :
    ∃ moved, reader (commandLine front command back) = .ok moved ∧
      moved.startup = arguments.startup := by
  have hmem (written : WrittenOption) : written ∈ front ++ back ↔ written ∈ options :=
    hsplit.mem_iff
  have hall : GivenOnce (options ++ []) := by rwa [List.append_nil]
  obtain ⟨hsome, hcompatible, -⟩ :=
    (laws.accepted_iff hcommand hall).mp ⟨arguments, haccepted⟩
  rw [List.append_nil] at hsome
  -- Switches that go with each other in front of the command still do when some have moved.
  obtain ⟨hfront, hback⟩ := List.append_subset.mp hsplit.subset
  obtain ⟨moved, hmoved⟩ := (laws.accepted_iff hcommand (honce.perm hsplit)).mpr
    ⟨fun written hwritten => hsome written ((hmem written).mp hwritten),
      compatible_gives_of_subset hcompatible hfront, compatible_gives_of_subset hcompatible hback⟩
  refine ⟨moved, hmoved, ?_⟩
  obtain ⟨hname, hholds⟩ := laws.holds_iff hcommand hall haccepted
  obtain ⟨hagain, hmovedHolds⟩ := laws.holds_iff hcommand (honce.perm hsplit) hmoved
  obtain ⟨given, named⟩ := arguments
  obtain ⟨movedGiven, movedNamed⟩ := moved
  cases hname
  cases hagain
  refine Given.startup_congr (fun fact => ?_) (some command)
  rw [hmovedHolds, hholds]
  simp only [hmem, List.append_nil]

end OptionLaws

end ArgumentReader

variable {command : Command} {front back : List WrittenOption} {arguments : Arguments}

/-- The words of options that are given once are accepted exactly if each option is, and those of
each side are compatible. -/
theorem parse_commandLine_iff (hcommand : command.Complete) (honce : GivenOnce (front ++ back)) :
    (∃ arguments, parse (commandLine front command back) = .ok arguments) ↔
      (∀ written ∈ front ++ back, written.fact?.isSome) ∧
        Compatible (gives front) ∧ Compatible (gives back) := by
  obtain ⟨hfront, hback⟩ := honce.of_append
  have hbefore := addAll_compatible_iff hfront
  have hbehind := addAll_compatible_iff hback
  simp only [commandLine, parse_written_iff hcommand hfront.complete hback.complete,
    List.forall_mem_append]
  constructor
  · rintro ⟨arguments, before, behind, hgiven, hnone, hadded, hagain, -⟩
    obtain ⟨hsome, hcompatible⟩ := hbefore.mp ⟨before, hgiven, hnone⟩
    obtain ⟨hrest, hmore⟩ := hbehind.mp ⟨behind, hadded, hagain⟩
    exact ⟨⟨hsome, hrest⟩, hcompatible, hmore⟩
  · rintro ⟨⟨hsome, hrest⟩, hcompatible, hmore⟩
    obtain ⟨before, hgiven, hnone⟩ := hbefore.mpr ⟨hsome, hcompatible⟩
    obtain ⟨behind, hadded, hagain⟩ := hbehind.mpr ⟨hrest, hmore⟩
    exact ⟨_, before, behind, hgiven, hnone, hadded, hagain, rfl⟩

/-- They say what each of them says. -/
theorem holds_of_parse (hcommand : command.Complete) (honce : GivenOnce (front ++ back))
    (h : parse (commandLine front command back) = .ok arguments) :
    arguments.command = some command ∧ ∀ fact, arguments.given.Holds fact ↔
      ∃ written ∈ front ++ back, written.fact? = some fact := by
  obtain ⟨hfront, hback⟩ := honce.of_append
  obtain ⟨before, behind, hgiven, -, hadded, -, rfl⟩ :=
    (parse_written_iff hcommand hfront.complete hback.complete).mp h
  have hholds {options : List WrittenOption} {given : Given} (honce : GivenOnce options)
      (hgiven : addAll options .empty = .ok given) (fact : Fact) :
      given.Holds fact ↔ ∃ written ∈ options, written.fact? = some fact :=
    ((addAll_iff honce fun written _ => Given.lacks_empty written.option).2 given hgiven fact).trans
      (or_iff_right (Given.not_holds_empty fact))
  -- An option that speaks on one side is not given on the other.
  have hlacks (fact : Fact) (hfact : behind.Holds fact) : before.Lacks fact.option := by
    intro other hother hsame
    obtain ⟨written, hwritten, hsays⟩ := (hholds hback hadded fact).mp hfact
    obtain ⟨earlier, hearlier, hsaid⟩ := (hholds hfront hgiven other).mp hother
    have hnodup := honce.nodup
    rw [List.map_append, List.nodup_append] at hnodup
    refine hnodup.2.2 _ (List.mem_map_of_mem hearlier) _ (List.mem_map_of_mem hwritten) ?_
    rw [← WrittenOption.option_of_fact? hsaid, hsame, WrittenOption.option_of_fact? hsays]
  refine ⟨rfl, fun fact => ?_⟩
  rw [Given.holds_merge hlacks, hholds hfront hgiven, hholds hback hadded]
  simp only [List.mem_append, or_and_right, exists_or]

/-- Options are taken up one by one. -/
theorem parse_optionLaws : ArgumentReader.OptionLaws parse WrittenOption.fact? := by
  constructor
  case command =>
    intro command hcommand
    have honce : GivenOnce ([] ++ []) := ⟨by simp, by simp⟩
    obtain ⟨arguments, harguments⟩ := (parse_commandLine_iff hcommand honce).mpr
      (by simp [Compatible, gives])
    obtain ⟨hname, hholds⟩ := holds_of_parse hcommand honce harguments
    refine ⟨arguments, ?_, hname, by simpa using hholds⟩
    rwa [commandLine, allWords, List.flatMap_nil, List.append_nil, List.nil_append] at harguments
  case front =>
    intro written front command back honce hcommand _
    constructor
    · rw [parse_commandLine_iff hcommand honce.tail, parse_commandLine_iff hcommand honce,
        List.cons_append, List.forall_mem_cons]
      have hfront := @compatible_gives_of_cons front written
      tauto
    · intro before after hbefore hafter
      obtain ⟨hname, hholds⟩ := holds_of_parse hcommand honce.tail hbefore
      obtain ⟨hagain, hadded⟩ := holds_of_parse hcommand honce hafter
      refine ⟨hagain.trans hname.symm, fun fact => ?_⟩
      rw [hadded, hholds, List.cons_append, List.exists_mem_cons_iff, or_comm]
  case back =>
    intro written front command back honce hcommand _
    have hmoved : GivenOnce (front ++ written :: back) := honce.perm List.perm_middle
    constructor
    · rw [parse_commandLine_iff hcommand honce.tail, parse_commandLine_iff hcommand hmoved]
      simp only [List.perm_middle.mem_iff, List.forall_mem_cons]
      have hback := @compatible_gives_of_cons back written
      tauto
    · intro before after hbefore hafter
      obtain ⟨hname, hholds⟩ := holds_of_parse hcommand honce.tail hbefore
      obtain ⟨hagain, hadded⟩ := holds_of_parse hcommand hmoved hafter
      refine ⟨hagain.trans hname.symm, fun fact => ?_⟩
      rw [hadded, hholds]
      simp only [List.perm_middle.mem_iff, List.exists_mem_cons_iff]
      exact or_comm

/-- Options, one of them with a size that is refused in the end. -/
def sampleOptions : List WrittenOption :=
  [.spaced .size ["640", "0"], .switch .mono, .attached .datadir "my data=1"]

/-- A size behind the definitions of a command is the same as one in front of it. -/
theorem parse_split_size :
    ArgumentReader.OptionLaws parse WrittenOption.fact? ∧
      Command.Complete (.key ["Left Ctrl", "-"]) ∧ GivenOnce sampleOptions ∧
      parse (commandLine sampleOptions (.key ["Left Ctrl", "-"]) []) =
        .ok ⟨⟨[.mono], some [640, 0], some "my data=1", none⟩, some (.key ["Left Ctrl", "-"])⟩ ∧
      ∃ moved, parse ["--mono", "key", "Left Ctrl", "-", "--datadir=my data=1",
          "--size", "640", "0"] = .ok moved ∧ moved.startup = .error ⟨[640, 0]⟩ := by
  have hcomplete : Command.Complete (.key ["Left Ctrl", "-"]) := by decide +kernel
  have honce : GivenOnce sampleOptions := ⟨by decide +kernel, by decide⟩
  have haccepted : parse (commandLine sampleOptions (.key ["Left Ctrl", "-"]) []) =
      .ok ⟨⟨[.mono], some [640, 0], some "my data=1", none⟩, some (.key ["Left Ctrl", "-"])⟩ := by
    decide +kernel
  refine ⟨parse_optionLaws, hcomplete, honce, haccepted, ?_⟩
  have hmoved := @ArgumentReader.OptionLaws.exists_moved _ _ _ _ [.switch .mono]
    [.attached .datadir "my data=1", .spaced .size ["640", "0"]] _ parse_optionLaws hcomplete honce
    (by decide) haccepted
  exact hmoved

end GameSetup.CommandLine
