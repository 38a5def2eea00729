import GameSetup.CommandLine.Basic
import GameSetup.Proofs.Except
import Mathlib.Data.List.Basic

/-!
# The two sides of an accepted command line

An accepted command line is cut at its command, if it has one, and each side has been read and
checked by itself. The switches that are given on a side are those whose words stand there in front
of two lone dashes.
-/

namespace GameSetup

namespace CommandLine

/-- The word that gives a switch. -/
def Switch.word (switch : Switch) : String :=
  "--" ++ switch.name

/-- The words whose dashes count. -/
def unescaped (words : List String) : List String :=
  words.takeWhile (· ≠ "--")

/-- Behind two lone dashes no dashes count. -/
theorem unescaped_escape (words : List String) : unescaped ("--" :: words) = [] :=
  List.takeWhile_cons_of_neg (by simp)

/-- Any other word is one whose dashes count. -/
theorem unescaped_cons {word : String} (h : word ≠ "--") (words : List String) :
    unescaped (word :: words) = word :: unescaped words :=
  List.takeWhile_cons_of_pos (by simpa using h)

/-- The word that names a command. -/
def Command.word : Command → String
  | .display _ => "show"
  | .defaults => "defaults"
  | .key _ => "key"

/-- What follows the words of a side: nothing, or a command with the words behind it. -/
def Follows (tail : List String) : Option (Level × List String) → Prop
  | none => tail = []
  | some (level, rest) => ∃ word, Level.ofWord? word = some level ∧ tail = word :: rest

/-- An option is found by its name only. -/
theorem LongOption.name_of_ofName? {level : Level} {name : String} {option : LongOption}
    (h : ofName? level name = some option) : option.name = name := by
  have hfound := List.find?_some h
  rw [Bool.and_eq_true, beq_iff_eq] at hfound
  exact hfound.1

/-- Every level knows the switches by their names, since they belong to the whole program. -/
theorem LongOption.ofName?_eq_switch_iff {level : Level} {name : String} {switch : Switch} :
    ofName? level name = some (.switch switch) ↔ switch.name = name := by
  constructor
  · exact name_of_ofName?
  · rintro rfl
    cases switch <;> rfl

/-- So it does the options with values. -/
theorem LongOption.ofName?_eq_value_iff {level : Level} {name : String} {option : ValueOption} :
    ofName? level name = some (.value option) ↔ option.name = name := by
  constructor
  · exact name_of_ofName?
  · rintro rfl
    cases option <;> rfl

namespace Word

/-- Two lone dashes end the words whose dashes count. -/
theorem ofString_escape : ofString "--" = .escape := by
  decide +kernel

/-- A switch is read as a long name without a value. -/
theorem ofString_switch (switch : Switch) : ofString switch.word = .long switch.name none := by
  cases switch <;> decide +kernel

/-- Only two dashes look like two dashes. -/
theorem eq_of_ofString_escape {word : String} (h : ofString word = .escape) : word = "--" := by
  rw [ofString] at h
  split at h
  · next hword => exact String.toList_inj.mp hword
  · cases h
  · cases h
  · cases h

/-- Where nothing is attached, the name is all there is. -/
theorem splitAttached_fst {cs : List Char} (h : (splitAttached cs).2 = none) :
    (splitAttached cs).1 = String.ofList cs := by
  have hnone : cs.dropWhile (· ≠ '=') = [] := by
    simp only [splitAttached] at h
    split at h
    · assumption
    · cases h
  have hall := List.takeWhile_append_dropWhile (p := (· ≠ '=')) (l := cs)
  rw [hnone, List.append_nil] at hall
  simp only [splitAttached, hall]

/-- Without a value, a long option is two dashes and its name. -/
theorem eq_of_ofString_long {word name : String} (h : ofString word = .long name none) :
    word = "--" ++ name := by
  rw [ofString] at h
  split at h
  · cases h
  · next rest _ hword =>
    change Word.long (splitAttached rest).1 (splitAttached rest).2 = _ at h
    obtain ⟨hname, hattached⟩ := Word.long.inj h
    rw [← hname, splitAttached_fst hattached]
    apply String.toList_inj.mp
    simp [hword]
  · cases h
  · cases h

/-- A word without dashes is neither a switch nor two dashes. -/
theorem ne_of_ofString_plain {word : String} (h : ofString word = .plain) :
    word ≠ "--" ∧ ∀ switch : Switch, switch.word ≠ word := by
  constructor
  · rintro rfl
    cases ofString_escape.symm.trans h
  · rintro switch rfl
    cases (ofString_switch switch).symm.trans h

/-- The word of a switch, told from what a word looks like. -/
theorem eq_switch_iff {word name : String} {attached : Option String}
    (h : ofString word = .long name attached) (switch : Switch) :
    switch.word = word ↔ attached = none ∧ switch.name = name := by
  constructor
  · rintro rfl
    obtain ⟨rfl, rfl⟩ := Word.long.inj ((ofString_switch switch).symm.trans h)
    exact ⟨rfl, rfl⟩
  · rintro ⟨rfl, rfl⟩
    exact (eq_of_ofString_long h).symm

end Word

namespace Level

variable {word : String} {level : Level}

/-- The word of a command is that of no option. -/
theorem ofString_of_ofWord? (h : ofWord? word = some level) : Word.ofString word = .plain := by
  rw [ofWord?] at h
  split_ifs at h with hshow hdefaults hkey
  · subst hshow
    decide +kernel
  · subst hdefaults
    decide +kernel
  · subst hkey
    decide +kernel

/-- The word that asks for an explanation names no level. -/
theorem ne_helpWord_of_ofWord? (h : ofWord? word = some level) : word ≠ helpWord := by
  rintro rfl
  cases h

/-- The program itself has no word. -/
theorem ofWord?_ne_program (h : ofWord? word = some level) : level ≠ .program := by
  rw [ofWord?] at h
  split_ifs at h <;> cases h <;> decide

/-- The command itself gives no switch. -/
theorem mem_unescaped_ofWord? (h : ofWord? word = some level) (words : List String)
    (switch : Switch) :
    switch.word ∈ unescaped (word :: words) ↔ switch.word ∈ unescaped words := by
  obtain ⟨hescape, hswitch⟩ := Word.ne_of_ofString_plain (ofString_of_ofWord? h)
  rw [unescaped_cons hescape, List.mem_cons, or_iff_right (hswitch switch)]

/-- The command of a level is named by the word of the level. -/
theorem word_ofSide (h : ofWord? word = some level) (side : Side) :
    (Command.ofSide level side).map Command.word = some word := by
  rw [ofWord?] at h
  split_ifs at h with hshow hdefaults hkey <;> cases h
  · exact congrArg some hshow.symm
  · exact congrArg some hdefaults.symm
  · exact congrArg some hkey.symm

end Level

namespace Given

/-- A switch that is added comes last. -/
theorem switches_addSwitch {given next : Given} {switch : Switch}
    (h : given.addSwitch switch = .ok next) : next.switches = given.switches ++ [switch] := by
  rw [addSwitch] at h
  split at h
  · cases h
  · cases h
    rfl

/-- Values are nothing to the switches. -/
theorem switches_addValues {given next : Given} {option : ValueOption} {values : List String}
    (h : given.addValues option values = .ok next) : next.switches = given.switches := by
  cases option with
  | size =>
    obtain ⟨more, -, hnext⟩ := exists_of_bind_eq_ok h
    cases hnext
    rfl
  | datadir =>
    simp only [addValues] at h
    split at h
    · cases h
    · cases h
      rfl
  | config =>
    simp only [addValues] at h
    split at h
    · cases h
    · split at h
      · cases h
      · cases h
        rfl

end Given

namespace Side

variable {side next : Side} {level : Level}

/-- An option that is taken up has added its values, in the right number. -/
theorem exists_of_accept {option : ValueOption} {values : List String}
    (h : side.accept option values = .ok next) :
    values.length = option.arity ∧ ∃ given, side.given.addValues option values = .ok given ∧
      next = { side with given := given } := by
  simp only [accept] at h
  split at h
  · cases h
  · split at h
    · cases h
    · next hlength =>
      obtain ⟨given, hgiven, rfl⟩ := exists_of_map_eq_ok h
      exact ⟨Decidable.not_not.mp hlength, given, hgiven, rfl⟩

/-- To take up an option with values gives no switch. -/
theorem switches_accept {option : ValueOption} {values : List String}
    (h : side.accept option values = .ok next) : next.given.switches = side.given.switches := by
  obtain ⟨-, given, hgiven, rfl⟩ := exists_of_accept h
  exact Given.switches_addValues hgiven

/-- What has been taken up waits for nothing. -/
theorem pending_settle (h : side.settle = .ok next) : next.pending = none := by
  rw [settle] at h
  split at h
  · next hpending =>
    cases h
    exact hpending
  · obtain ⟨-, given, -, rfl⟩ := exists_of_accept h
    rfl

/-- The same holds of the option that waits for it. -/
theorem switches_settle (h : side.settle = .ok next) :
    next.given.switches = side.given.switches := by
  rw [settle] at h
  split at h
  · cases h
    rfl
  · have haccepted := switches_accept h
    exact haccepted

/-- A word that belongs to the command gives no switch. -/
theorem switches_readWord {word : String} (h : side.readWord level word = .ok next) :
    next.given.switches = side.given.switches := by
  cases level with
  | program => cases h
  | display => cases h
  | defaults => cases h
  | key =>
    obtain ⟨settled, hsettled, hnext⟩ := exists_of_bind_eq_ok h
    obtain rfl := Except.ok.inj hnext
    have hswitches := switches_settle hsettled
    exact hswitches

/-- Words behind two lone dashes give no switch. -/
theorem switches_readEscaped {words : List String} (h : side.readEscaped level words = .ok next) :
    next.given.switches = side.given.switches := by
  induction words generalizing side with
  | nil =>
    cases h
    rfl
  | cons word rest ih =>
    rw [readEscaped] at h
    split at h
    · cases h
    · obtain ⟨read, hread, hnext⟩ := exists_of_bind_eq_ok h
      exact (ih hnext).trans (switches_readWord hread)

/-- With a value attached, a long option gives no switch. -/
theorem switches_readLong_attached {name value : String}
    (h : side.readLong level name (some value) = .ok next) :
    next.given.switches = side.given.switches := by
  simp only [readLong] at h
  cases hfound : LongOption.ofName? level name with
  | none =>
    rw [hfound] at h
    cases h
  | some option =>
    rw [hfound] at h
    cases option with
    | value option =>
      obtain ⟨settled, hsettled, hnext⟩ := exists_of_bind_eq_ok h
      exact (switches_accept hnext).trans (switches_settle hsettled)
    | switch found => cases h
    | json => cases h
    | help => cases h
    | version => cases h

/-- Without one, it gives the switch of its name. -/
theorem mem_switches_readLong_none {name : String}
    (h : side.readLong level name none = .ok next) (switch : Switch) :
    switch ∈ next.given.switches ↔ switch ∈ side.given.switches ∨ switch.name = name := by
  rw [← @LongOption.ofName?_eq_switch_iff level]
  simp only [readLong] at h
  cases hfound : LongOption.ofName? level name with
  | none =>
    rw [hfound] at h
    cases h
  | some option =>
    rw [hfound] at h
    cases option with
    | switch found =>
      obtain ⟨settled, hsettled, hrest⟩ := exists_of_bind_eq_ok h
      obtain ⟨given, hgiven, hnext⟩ := exists_of_bind_eq_ok hrest
      cases hnext
      simp [Given.switches_addSwitch hgiven, switches_settle hsettled, eq_comm]
    | value option =>
      obtain ⟨settled, hsettled, hnext⟩ := exists_of_bind_eq_ok h
      cases hnext
      simp [switches_settle hsettled]
    | json =>
      obtain ⟨settled, hsettled, hnext⟩ := exists_of_bind_eq_ok h
      have hswitches := switches_settle hsettled
      split at hnext
      · cases hnext
      · cases hnext
        simp [hswitches]
    | help =>
      obtain ⟨settled, -, hnext⟩ := exists_of_bind_eq_ok h
      cases hnext
    | version =>
      obtain ⟨settled, -, hnext⟩ := exists_of_bind_eq_ok h
      cases hnext

/-- A long option gives the switch of its name, unless a value is attached. -/
theorem mem_switches_readLong {name : String} {attached : Option String}
    (h : side.readLong level name attached = .ok next) (switch : Switch) :
    switch ∈ next.given.switches ↔
      switch ∈ side.given.switches ∨ attached = none ∧ switch.name = name := by
  cases attached with
  | none => simpa using mem_switches_readLong_none h switch
  | some value => simp [switches_readLong_attached h]

/-- Reading a side takes words up to its end or to a command, and gives the switches among them. -/
theorem exists_of_read {words : List String} {command : Option (Level × List String)}
    (h : side.read level words = .ok (next, command)) :
    ∃ front tail, words = front ++ tail ∧ Follows tail command ∧
      ∀ switch : Switch, switch ∈ next.given.switches ↔
        switch ∈ side.given.switches ∨ switch.word ∈ unescaped front := by
  induction words generalizing side with
  | nil =>
    cases h
    exact ⟨[], [], rfl, rfl, by simp [unescaped]⟩
  | cons word rest ih =>
    rw [read] at h
    split at h
    · next hword =>
      obtain rfl := Word.eq_of_ofString_escape hword
      obtain ⟨escaped, hescaped, hnext⟩ := exists_of_bind_eq_ok h
      cases hnext
      refine ⟨"--" :: rest, [], (List.append_nil _).symm, rfl, fun switch => ?_⟩
      rw [switches_readEscaped hescaped, unescaped_escape]
      simp
    · next name attached hword =>
      obtain ⟨read, hread, hrest⟩ := exists_of_bind_eq_ok h
      obtain ⟨front, tail, rfl, hfollows, hswitches⟩ := ih hrest
      have hescape : word ≠ "--" := by
        rintro rfl
        cases Word.ofString_escape.symm.trans hword
      refine ⟨word :: front, tail, rfl, hfollows, fun switch => ?_⟩
      rw [hswitches, mem_switches_readLong hread, unescaped_cons hescape, List.mem_cons,
        ← Word.eq_switch_iff hword, or_assoc]
    · cases h
    · next hword =>
      obtain ⟨hescape, hswitch⟩ := Word.ne_of_ofString_plain hword
      have hstep {read : Side} (hrest : read.read level rest = .ok (next, command))
          (hgiven : read.given.switches = side.given.switches) :
          ∃ front tail, word :: rest = front ++ tail ∧ Follows tail command ∧
            ∀ switch : Switch, switch ∈ next.given.switches ↔
              switch ∈ side.given.switches ∨ switch.word ∈ unescaped front := by
        obtain ⟨front, tail, rfl, hfollows, hswitches⟩ := ih hrest
        refine ⟨word :: front, tail, rfl, hfollows, fun switch => ?_⟩
        rw [hswitches, hgiven, unescaped_cons hescape, List.mem_cons, or_iff_right (hswitch switch)]
      split at h
      · exact hstep h rfl
      · split at h
        · cases h
        · split at h
          · next found hfound =>
            cases h
            refine ⟨[], word :: rest, rfl, ⟨word, ?_, rfl⟩, by simp [unescaped]⟩
            split at hfound
            · exact hfound
            · cases hfound
          · obtain ⟨read, hread, hrest⟩ := exists_of_bind_eq_ok h
            exact hstep hrest (switches_readWord hread)

/-- After an option is taken up, it awaits no value. -/
theorem awaitsValue_of_settle (h : side.settle = .ok next) : side.awaitsValue = false := by
  rw [settle] at h
  split at h
  · next hpending => simp [awaitsValue, hpending]
  · next pending hpending =>
    obtain ⟨hlength, -⟩ := exists_of_accept h
    simp [awaitsValue, hpending, hlength]

/-- Where no value is awaited, a command ends what stands in front of it. -/
theorem read_command {word : String} {command : Level} (hside : side.awaitsValue = false)
    (h : Level.ofWord? word = some command) (rest : List String) :
    side.read .program (word :: rest) = .ok (side, some (command, rest)) := by
  rw [read, Level.ofString_of_ofWord? h]
  simp only [hside, Bool.false_eq_true, if_false, Level.ne_helpWord_of_ofWord? h, and_false,
    if_true, h]

/-- What is read up to its end is read in the same way in front of a command. -/
theorem read_append_command {words : List String} {word : String} {command : Level}
    (hescape : "--" ∉ words) (h : side.read .program words = .ok (next, none))
    (hnext : next.awaitsValue = false) (hcommand : Level.ofWord? word = some command)
    (rest : List String) :
    side.read .program (words ++ word :: rest) = .ok (next, some (command, rest)) := by
  induction words generalizing side with
  | nil =>
    cases h
    exact read_command hnext hcommand rest
  | cons first words ih =>
    obtain ⟨hfirst, hwords⟩ := List.ne_and_not_mem_of_not_mem_cons hescape
    rw [List.cons_append, read]
    rw [read] at h
    cases hword : Word.ofString first with
    | escape => exact absurd (Word.eq_of_ofString_escape hword).symm hfirst
    | long name attached =>
      rw [hword] at h
      obtain ⟨read, hread, hrest⟩ := exists_of_bind_eq_ok h
      simp only [hread, ok_bind]
      exact ih hwords hrest
    | short letter =>
      rw [hword] at h
      cases h
    | plain =>
      rw [hword] at h
      simp only [if_true] at h ⊢
      split at h
      · next hawaits =>
        rw [if_pos hawaits]
        exact ih hwords h
      · split at h
        · cases h
        -- A word that is no value is a command, which there is none of, or is refused.
        · split at h <;> cases h

/-- Only the program has commands. -/
theorem read_command_eq_none {words : List String} {command : Option (Level × List String)}
    (hlevel : level ≠ .program) (h : side.read level words = .ok (next, command)) :
    command = none := by
  induction words generalizing side with
  | nil =>
    cases h
    rfl
  | cons word rest ih =>
    rw [read] at h
    simp only [hlevel, false_and, if_false] at h
    split at h
    · obtain ⟨escaped, -, hnext⟩ := exists_of_bind_eq_ok h
      cases hnext
      rfl
    · obtain ⟨read, -, hrest⟩ := exists_of_bind_eq_ok h
      exact ih hrest
    · cases h
    · split at h
      · exact ih h
      · obtain ⟨read, -, hrest⟩ := exists_of_bind_eq_ok h
        exact ih hrest

/-- A side ends well if its last option can be taken up, no two of its switches exclude each other
and no definition is missing. -/
theorem finish_eq_ok_iff : side.finish level = .ok next ↔
    side.settle = .ok next ∧ next.given.exclusion? = none ∧
      ¬ (level = .key ∧ next.words.isEmpty) := by
  constructor
  · intro h
    obtain ⟨settled, hsettled, hnext⟩ := exists_of_bind_eq_ok h
    split at hnext
    · cases hnext
    · next hexclusion =>
      split at hnext
      · cases hnext
      · next hwords =>
        cases hnext
        exact ⟨hsettled, hexclusion, hwords⟩
  · rintro ⟨hsettled, hexclusion, hwords⟩
    simp only [finish, hsettled, ok_bind, hexclusion, if_neg hwords]

end Side

/-- An accepted command line without a command has one side, and one with a command has two. -/
theorem parse_eq_ok_iff {words : List String} {arguments : Arguments} :
    parse words = .ok arguments ↔
      ∃ front command program, Side.empty.read .program words = .ok (front, command) ∧
        front.finish .program = .ok program ∧
        match command with
        | none => arguments = ⟨program.given, none⟩
        | some (level, rest) => ∃ back other own, Side.empty.read level rest = .ok (back, other) ∧
            back.finish level = .ok own ∧
            arguments = ⟨program.given.merge own.given, Command.ofSide level own⟩ := by
  constructor
  · intro h
    obtain ⟨⟨front, command⟩, hfront, hrest⟩ := exists_of_bind_eq_ok h
    cases command with
    | none =>
      obtain ⟨program, hprogram, harguments⟩ := exists_of_bind_eq_ok hrest
      cases harguments
      exact ⟨front, none, program, hfront, hprogram, rfl⟩
    | some command =>
      obtain ⟨level, rest⟩ := command
      obtain ⟨⟨back, other⟩, hback, hmore⟩ := exists_of_bind_eq_ok hrest
      obtain ⟨own, hown, hlast⟩ := exists_of_bind_eq_ok hmore
      obtain ⟨program, hprogram, harguments⟩ := exists_of_bind_eq_ok hlast
      cases harguments
      exact ⟨front, _, program, hfront, hprogram, back, other, own, hback, hown, rfl⟩
  · rintro ⟨front, command, program, hfront, hprogram, hcommand⟩
    cases command with
    | none =>
      subst hcommand
      simp [parse, hfront, hprogram, pure, Except.pure]
    | some command =>
      obtain ⟨level, rest⟩ := command
      obtain ⟨back, other, own, hback, hown, rfl⟩ := hcommand
      simp [parse, hfront, hprogram, hback, hown, pure, Except.pure]

/-- The two sides of a command line: what stands in front of its command, and the command with what
stands behind it. -/
def commandSides (words : List String) : List String × List String :=
  match Side.empty.read .program words with
  | .ok (_, some (_, rest)) => words.splitAt (words.length - (rest.length + 1))
  | .ok (_, none) => (words, [])
  | .error _ => (words, [])

/-- The sides are those that reading finds. -/
theorem commandSides_of_read {front tail : List String} {side : Side}
    {command : Option (Level × List String)}
    (h : Side.empty.read .program (front ++ tail) = .ok (side, command))
    (hfollows : Follows tail command) : commandSides (front ++ tail) = (front, tail) := by
  cases command with
  | none =>
    obtain rfl := hfollows
    rw [List.append_nil] at h ⊢
    simp [commandSides, h]
  | some command =>
    obtain ⟨level, rest⟩ := command
    obtain ⟨word, -, rfl⟩ := hfollows
    simp [commandSides, h]

end CommandLine

end GameSetup
