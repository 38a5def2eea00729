import GameSetup.Proofs.CommandLine.Exclusion

/-!
# Written options

An option of the whole program is written with its name and as many values as it takes, and a
command with its own words. The words of complete options are read as the options, one after
another, on either side of a complete command: what a command line comes to is what the options of
both sides say, put together side by side.
-/

namespace GameSetup.CommandLine

/-- An option of the whole program with its values, as it is written. -/
inductive WrittenOption where
  | switch (found : Switch)
  /-- The values are words of their own. -/
  | spaced (option : ValueOption) (values : List String)
  /-- The value follows a sign of equality. -/
  | attached (option : ValueOption) (value : String)
  deriving DecidableEq, Repr

/-- Whether a word can be a value: it does not start with a dash, unless that is all of it. -/
def IsValue (word : String) : Prop :=
  word = "-" ∨ word.toList.head? ≠ some '-'

instance (word : String) : Decidable (IsValue word) :=
  inferInstanceAs (Decidable (word = "-" ∨ word.toList.head? ≠ some '-'))

namespace WrittenOption

/-- The option that is written. -/
def option : WrittenOption → LongOption
  | .switch found => .switch found
  | .spaced option _ => .value option
  | .attached option _ => .value option

/-- Every option that is written is declared for the program. -/
theorem isOwn_option (written : WrittenOption) : written.option.isOwn .program = true := by
  cases written <;> rfl

/-- Every one is declared to belong to the whole program. -/
theorem isGlobal_option (written : WrittenOption) : written.option.isGlobal = true := by
  cases written <;> rfl

/-- The words of an option. -/
def words : WrittenOption → List String
  | .switch found => [found.word]
  | .spaced option values => ("--" ++ option.name) :: values
  | .attached option value => ["--" ++ option.name ++ "=" ++ value]

/-- An option is complete with as many values as it takes. -/
def Complete : WrittenOption → Prop
  | .switch _ => True
  | .spaced option values => values.length = option.arity ∧ ∀ value ∈ values, IsValue value
  | .attached option _ => option.arity = 1

instance : (written : WrittenOption) → Decidable written.Complete
  | .switch _ => inferInstanceAs (Decidable True)
  | .spaced option values => inferInstanceAs
    (Decidable (values.length = option.arity ∧ ∀ value ∈ values, IsValue value))
  | .attached option _ => inferInstanceAs (Decidable (option.arity = 1))

/-- Adds what an option says. -/
def addTo (given : Given) : WrittenOption → Except Refusal Given
  | .switch found => given.addSwitch found
  | .spaced option values => given.addValues option values
  | .attached option value => given.addValues option [value]

end WrittenOption

/-- The words of options, one after another. -/
def allWords (options : List WrittenOption) : List String :=
  options.flatMap WrittenOption.words

/-- Adds what options say, one after another. -/
def addAll (options : List WrittenOption) (given : Given) : Except Refusal Given :=
  options.foldlM WrittenOption.addTo given

namespace Word

/-- A value is not taken for anything else. -/
theorem ofString_of_isValue {word : String} (h : IsValue word) : ofString word = .plain := by
  rcases h with rfl | h
  · decide +kernel
  · rw [ofString]
    split
    · next hword => exact absurd (congrArg List.head? hword) h
    · next hword => exact absurd (congrArg List.head? hword) h
    · next hword => exact absurd (congrArg List.head? hword) h
    · rfl

/-- The name of an option with values is read as such. -/
theorem ofString_option (option : ValueOption) :
    ofString ("--" ++ option.name) = .long option.name none := by
  cases option <;> decide +kernel

/-- A value is attached by the first sign of equality. -/
theorem ofString_attached (option : ValueOption) (value : String) :
    ofString ("--" ++ option.name ++ "=" ++ value) = .long option.name (some value) := by
  cases option <;> simp [ofString, splitAttached, ValueOption.name]

end Word

namespace Side

variable {side next : Side} {level : Level}

/-- Takes up a written option. Values that are words of their own have yet to be looked at. -/
def takeUp (side : Side) : WrittenOption → Except Refusal Side
  | .switch found => do
    let side ← side.settle
    return { side with given := ← side.given.addSwitch found }
  | .spaced option values => do
    return { ← side.settle with pending := some ⟨option, values⟩ }
  | .attached option value => do
    (← side.settle).accept option [value]

/-- The right number of values is looked at. -/
theorem accept_eq {option : ValueOption} {values : List String}
    (h : values.length = option.arity) (side : Side) :
    side.accept option values =
      (side.given.addValues option values).map ({ side with given := · }) := by
  have hvalues : values.isEmpty = false := by
    cases values with
    | nil => cases option <;> cases h
    | cons value values => rfl
  simp [accept, hvalues, h]

/-- The values that were read are looked at in the end. -/
theorem settle_pending {option : ValueOption} {values : List String}
    (h : values.length = option.arity) (hpending : side.pending = none) :
    { side with pending := some ⟨option, values⟩ }.settle =
      (side.given.addValues option values).map ({ side with given := · }) := by
  have hback : { side with pending := none } = side := by
    rw [← hpending]
  change { side with pending := none }.accept option values = _
  rw [hback, accept_eq h]

/-- Values are read as such as long as the option takes more. -/
theorem read_values {option : ValueOption} (values : List String) (rest : List String)
    (hvalues : ∀ value ∈ values, IsValue value) (taken : List String)
    (hroom : taken.length + values.length ≤ option.arity) (side : Side)
    (hpending : side.pending = some ⟨option, taken⟩) :
    side.read level (values ++ rest) =
      { side with pending := some ⟨option, taken ++ values⟩ }.read level rest := by
  induction values generalizing taken side with
  | nil =>
    rw [List.append_nil, ← hpending]
    rfl
  | cons value values ih =>
    obtain ⟨hfirst, hothers⟩ := List.forall_mem_cons.mp hvalues
    rw [List.length_cons] at hroom
    have hawaits : side.awaitsValue = true := by
      simp only [awaitsValue, hpending, decide_eq_true_eq]
      omega
    have hadded : (side.addValue value).pending = some ⟨option, taken ++ [value]⟩ := by
      simp [addValue, hpending]
    rw [List.cons_append, read, Word.ofString_of_isValue hfirst]
    simp only [hawaits, if_true]
    rw [ih hothers (taken ++ [value]) (by simp; omega) (side.addValue value) hadded,
      List.append_assoc]
    rfl

/-- The words of a complete option are read as the option. -/
theorem read_words {written : WrittenOption} (hcomplete : written.Complete) (side : Side)
    (rest : List String) :
    side.read level (written.words ++ rest) = side.takeUp written >>= (·.read level rest) := by
  cases written with
  | switch found =>
    change side.read level (found.word :: rest) = _
    rw [read, Word.ofString_switch]
    simp only [readLong, LongOption.ofName?_eq_switch_iff.mpr rfl, takeUp]
  | spaced option values =>
    obtain ⟨hlength, hvalues⟩ := hcomplete
    change side.read level (("--" ++ option.name) :: (values ++ rest)) = _
    rw [read, Word.ofString_option]
    simp only [readLong, LongOption.ofName?_eq_value_iff.mpr rfl, takeUp]
    cases side.settle with
    | error refusal => rfl
    | ok settled =>
      exact read_values values rest hvalues [] (by simp [hlength])
        { settled with pending := some ⟨option, []⟩ } rfl
  | attached option value =>
    change side.read level (("--" ++ option.name ++ "=" ++ value) :: rest) = _
    rw [read, Word.ofString_attached]
    simp only [readLong, LongOption.ofName?_eq_value_iff.mpr rfl, takeUp]

/-- After a complete option no more values are awaited. -/
theorem awaitsValue_takeUp {written : WrittenOption} (hcomplete : written.Complete)
    (h : side.takeUp written = .ok next) : next.awaitsValue = false := by
  cases written with
  | switch found =>
    obtain ⟨settled, hsettled, hrest⟩ := exists_of_bind_eq_ok h
    obtain ⟨given, -, hnext⟩ := exists_of_bind_eq_ok hrest
    cases hnext
    simp [awaitsValue, pending_settle hsettled]
  | spaced option values =>
    obtain ⟨settled, -, hnext⟩ := exists_of_bind_eq_ok h
    cases hnext
    simp [awaitsValue, hcomplete.1]
  | attached option value =>
    obtain ⟨settled, hsettled, haccepted⟩ := exists_of_bind_eq_ok h
    have hone : [value].length = option.arity := hcomplete.symm
    rw [accept_eq hone] at haccepted
    obtain ⟨given, -, rfl⟩ := exists_of_map_eq_ok haccepted
    simp [awaitsValue, pending_settle hsettled]

/-- Once its values are looked at, an option has added what it says. -/
theorem settle_takeUp {written : WrittenOption} (hcomplete : written.Complete) (side : Side) :
    side.takeUp written >>= settle =
      side.settle >>= fun side => (written.addTo side.given).map ({ side with given := · }) := by
  cases hsettled : side.settle with
  | error refusal => cases written <;> simp [takeUp, hsettled]
  | ok settled =>
    have hpending := pending_settle hsettled
    cases written with
    | switch found =>
      simp only [takeUp, hsettled, WrittenOption.addTo, ok_bind]
      cases settled.given.addSwitch found with
      | error refusal => rfl
      | ok given => exact settle_of_pending_eq_none hpending
    | spaced option values =>
      simp only [takeUp, hsettled, WrittenOption.addTo, ok_bind]
      exact settle_pending hcomplete.1 hpending
    | attached option value =>
      have hone : [value].length = option.arity := hcomplete.symm
      simp only [takeUp, hsettled, WrittenOption.addTo, ok_bind, accept_eq hone]
      cases settled.given.addValues option [value] with
      | error refusal => rfl
      | ok given => exact settle_of_pending_eq_none hpending

/-- The words of complete options are read as the options, one after another. -/
theorem read_allWords {options : List WrittenOption}
    (hcomplete : ∀ written ∈ options, written.Complete) (side : Side) (rest : List String) :
    side.read level (allWords options ++ rest) =
      options.foldlM takeUp side >>= (·.read level rest) := by
  induction options generalizing side with
  | nil => rfl
  | cons written options ih =>
    obtain ⟨hfirst, hothers⟩ := List.forall_mem_cons.mp hcomplete
    rw [allWords, List.flatMap_cons, List.append_assoc, read_words hfirst, List.foldlM_cons,
      bind_assoc]
    exact congrArg (side.takeUp written >>= ·) (funext fun side => ih hothers side)

/-- After complete options no value is awaited, as before them. -/
theorem awaitsValue_foldlM {options : List WrittenOption}
    (hcomplete : ∀ written ∈ options, written.Complete) (hside : side.awaitsValue = false)
    (h : options.foldlM takeUp side = .ok next) : next.awaitsValue = false := by
  induction options generalizing side with
  | nil =>
    cases h
    exact hside
  | cons written options ih =>
    obtain ⟨hfirst, hothers⟩ := List.forall_mem_cons.mp hcomplete
    obtain ⟨taken, htaken, hnext⟩ := exists_of_bind_eq_ok h
    exact ih hothers (awaitsValue_takeUp hfirst htaken) hnext

/-- Once the last values are looked at, the options have added what they say. -/
theorem settle_foldlM {options : List WrittenOption}
    (hcomplete : ∀ written ∈ options, written.Complete) (side : Side) :
    options.foldlM takeUp side >>= settle =
      side.settle >>= fun side => (addAll options side.given).map ({ side with given := · }) := by
  induction options generalizing side with
  | nil => exact (bind_pure side.settle).symm
  | cons written options ih =>
    obtain ⟨hfirst, hothers⟩ := List.forall_mem_cons.mp hcomplete
    rw [List.foldlM_cons, bind_assoc, funext (ih hothers), ← bind_assoc, settle_takeUp hfirst,
      bind_assoc]
    refine congrArg (side.settle >>= ·) (funext fun side => ?_)
    rw [addAll, List.foldlM_cons]
    cases written.addTo side.given <;> rfl

/-- A side of options ends well if what they say can be put together without a conflict. -/
theorem finish_foldlM_iff {options : List WrittenOption}
    (hcomplete : ∀ written ∈ options, written.Complete) (hside : side.pending = none) :
    (∃ read, options.foldlM takeUp side = .ok read ∧ read.finish level = .ok next) ↔
      ∃ given, addAll options side.given = .ok given ∧ given.exclusion? = none ∧
        ¬ (level = .key ∧ side.words.isEmpty) ∧ next = { side with given := given } := by
  have hsettle := settle_foldlM hcomplete side
  rw [settle_of_pending_eq_none hside, ok_bind] at hsettle
  simp only [finish_eq_ok_iff]
  constructor
  · rintro ⟨read, hread, hsettled, hexclusion, hwords⟩
    rw [hread, ok_bind, hsettled] at hsettle
    obtain ⟨given, hgiven, rfl⟩ := exists_of_map_eq_ok hsettle.symm
    exact ⟨given, hgiven, hexclusion, hwords, rfl⟩
  · rintro ⟨given, hgiven, hexclusion, hwords, rfl⟩
    rw [hgiven] at hsettle
    obtain ⟨read, hread, hsettled⟩ := exists_of_bind_eq_ok hsettle
    exact ⟨read, hread, hsettled, hexclusion, hwords⟩

end Side

namespace Command

/-- The words of a command's own that follow its name. -/
def ownWords : Command → List String
  | .display json => if json then ["--json"] else []
  | .defaults => []
  | .key definitions => definitions

/-- The words of a command. -/
def words (command : Command) : List String :=
  command.word :: command.ownWords

/-- A command is complete with the definitions that it needs. -/
def Complete : Command → Prop
  | .display _ => True
  | .defaults => True
  | .key definitions => definitions ≠ [] ∧ ∀ definition ∈ definitions, IsValue definition

instance : (command : Command) → Decidable command.Complete
  | .display _ => inferInstanceAs (Decidable True)
  | .defaults => inferInstanceAs (Decidable True)
  | .key definitions => inferInstanceAs
    (Decidable (definitions ≠ [] ∧ ∀ definition ∈ definitions, IsValue definition))

/-- The level of a command. -/
def level : Command → Level
  | .display _ => .display
  | .defaults => .defaults
  | .key _ => .key

/-- What a command's own words leave behind. -/
def side : Command → Side
  | .display json => { Side.empty with json := json }
  | .defaults => Side.empty
  | .key definitions => { Side.empty with words := definitions }

/-- A command's word names its level. -/
theorem ofWord?_word (command : Command) : Level.ofWord? command.word = some command.level := by
  cases command <;> rfl

/-- A command's own words leave no option to be taken up. -/
theorem pending_side (command : Command) : command.side.pending = none := by
  cases command <;> rfl

/-- They give none of the options of the whole program. -/
theorem given_side (command : Command) : command.side.given = .empty := by
  cases command <;> rfl

/-- A command is found in what its own words leave behind, whatever else is given. -/
theorem ofSide_level (command : Command) (given : Given) :
    ofSide command.level { command.side with given := given } = some command := by
  cases command <;> rfl

/-- A complete command misses no definition. -/
theorem Complete.words_side {command : Command} (h : command.Complete) :
    ¬ (command.level = .key ∧ command.side.words.isEmpty) := by
  cases command with
  | display json => simp [level]
  | defaults => simp [level]
  | key definitions => simpa [level, side] using h.1

/-- Definitions are read as they stand. -/
theorem read_definitions {definitions : List String}
    (hvalues : ∀ definition ∈ definitions, IsValue definition) (rest : List String)
    (side : Side) (hside : side.pending = none) :
    side.read .key (definitions ++ rest) =
      { side with words := side.words ++ definitions }.read .key rest := by
  induction definitions generalizing side with
  | nil => simp
  | cons definition definitions ih =>
    obtain ⟨hfirst, hothers⟩ := List.forall_mem_cons.mp hvalues
    have hawaits : side.awaitsValue = false := by simp [Side.awaitsValue, hside]
    rw [List.cons_append, Side.read, Word.ofString_of_isValue hfirst]
    simp only [hawaits, Bool.false_eq_true, if_false, reduceCtorEq, false_and, Side.readWord,
      Side.settle_of_pending_eq_none hside, ok_bind]
    change ({ side with words := side.words ++ [definition] } : Side).read .key _ = _
    rw [ih hothers { side with words := side.words ++ [definition] } hside, List.append_assoc]
    rfl

/-- A command's own words are read before anything else behind it. -/
theorem Complete.read_ownWords {command : Command} (h : command.Complete) (rest : List String) :
    Side.empty.read command.level (command.ownWords ++ rest) =
      command.side.read command.level rest := by
  cases command with
  | display json =>
    cases json with
    | false => rfl
    | true =>
      have hword : Word.ofString "--json" = .long "json" none := by decide +kernel
      change Side.empty.read .display ("--json" :: rest) = _
      rw [Side.read, hword]
      rfl
  | defaults => rfl
  | key definitions => exact read_definitions h.2 rest Side.empty rfl

end Command

/-- A command line of complete options in front of a command and behind it is accepted if the
options of either side can be put together without a conflict. -/
theorem parse_written_iff {command : Command} {front back : List WrittenOption}
    {arguments : Arguments} (hcommand : command.Complete)
    (hfront : ∀ written ∈ front, written.Complete) (hback : ∀ written ∈ back, written.Complete) :
    parse (allWords front ++ command.words ++ allWords back) = .ok arguments ↔
      ∃ given behind, addAll front .empty = .ok given ∧ given.exclusion? = none ∧
        addAll back .empty = .ok behind ∧ behind.exclusion? = none ∧
        arguments = ⟨given.merge behind, some command⟩ := by
  have hread : Side.empty.read .program (allWords front ++ command.words ++ allWords back) =
      front.foldlM Side.takeUp .empty >>= fun side =>
        .ok (side, some (command.level, command.ownWords ++ allWords back)) := by
    rw [List.append_assoc, Side.read_allWords hfront]
    cases hfold : front.foldlM Side.takeUp Side.empty with
    | error refusal => rfl
    | ok side =>
      have hawaits := Side.awaitsValue_foldlM hfront rfl hfold
      exact Side.read_command hawaits command.ofWord?_word _
  have hown : Side.empty.read command.level (command.ownWords ++ allWords back) =
      back.foldlM Side.takeUp command.side >>= fun side => .ok (side, none) := by
    have hall := @Side.read_allWords command.level back hback command.side []
    rw [List.append_nil] at hall
    rw [hcommand.read_ownWords, hall]
    rfl
  rw [parse_eq_ok_iff]
  constructor
  · rintro ⟨side, found, program, hside, hprogram, hfound⟩
    rw [hread] at hside
    obtain ⟨read, hfold, hcut⟩ := exists_of_bind_eq_ok hside
    cases hcut
    obtain ⟨rest, other, own, hrest, hfinish, rfl⟩ := hfound
    rw [hown] at hrest
    obtain ⟨last, hlast, hend⟩ := exists_of_bind_eq_ok hrest
    cases hend
    obtain ⟨given, hgiven, hexclusion, -, rfl⟩ :=
      (Side.finish_foldlM_iff hfront rfl).mp ⟨_, hfold, hprogram⟩
    obtain ⟨behind, hbehind, hagain, -, rfl⟩ :=
      (Side.finish_foldlM_iff hback command.pending_side).mp ⟨_, hlast, hfinish⟩
    rw [command.given_side] at hbehind
    exact ⟨given, behind, hgiven, hexclusion, hbehind, hagain, by rw [command.ofSide_level]⟩
  · rintro ⟨given, behind, hgiven, hexclusion, hbehind, hagain, rfl⟩
    rw [← command.given_side] at hbehind
    obtain ⟨read, hfold, hprogram⟩ : ∃ read, front.foldlM Side.takeUp .empty = .ok read ∧
        read.finish .program = .ok { Side.empty with given := given } :=
      (Side.finish_foldlM_iff hfront rfl).mpr ⟨given, hgiven, hexclusion, by simp, rfl⟩
    obtain ⟨last, hlast, hfinish⟩ := (Side.finish_foldlM_iff hback command.pending_side).mpr
      ⟨behind, hbehind, hagain, hcommand.words_side, rfl⟩
    refine ⟨read, some (command.level, command.ownWords ++ allWords back), _, ?_, hprogram,
      last, none, _, ?_, hfinish, by rw [command.ofSide_level]⟩
    · rw [hread, hfold, ok_bind]
    · rw [hown, hlast, ok_bind]

end GameSetup.CommandLine
