import GameSetup.Proofs.CommandLine.Options
import Mathlib.Data.List.Nodup

/-!
# What options say

Each complete option says one thing, or is refused for what it is. Options that are given once do
not depend on each other: what they come to is all that they say, and what a run needs to know
depends on nothing else.
-/

namespace GameSetup.CommandLine

/-- What one option says. -/
inductive Fact where
  | switch (found : Switch)
  | size (sides : List Int32)
  | datadir (directory : String)
  | config (path : String)
  deriving DecidableEq, Repr

/-- The option that says a thing. -/
def Fact.option : Fact → LongOption
  | .switch found => .switch found
  | .size _ => .value .size
  | .datadir _ => .value .datadir
  | .config _ => .value .config

namespace Given

/-- What has been said. -/
def Holds (given : Given) : Fact → Prop
  | .switch found => found ∈ given.switches
  | .size sides => given.size = some sides
  | .datadir directory => given.datadir = some directory
  | .config path => given.config = some path

/-- An option that has said nothing. -/
def Lacks (given : Given) (option : LongOption) : Prop :=
  ∀ fact, given.Holds fact → fact.option ≠ option

/-- Puts in what an option says. -/
def put (given : Given) : Fact → Given
  | .switch found => { given with switches := given.switches ++ [found] }
  | .size sides => { given with size := some sides }
  | .datadir directory => { given with datadir := some directory }
  | .config path => { given with config := some path }

variable {given behind : Given}

/-- At first nothing has been said. -/
theorem not_holds_empty (fact : Fact) : ¬ Given.empty.Holds fact := by
  rintro hholds
  cases fact <;> cases hholds

/-- So no option has said anything. -/
theorem lacks_empty (option : LongOption) : Given.empty.Lacks option :=
  fun fact hholds => absurd hholds (not_holds_empty fact)

/-- A switch that has said nothing is not given. -/
theorem Lacks.notMem {found : Switch} (h : given.Lacks (.switch found)) :
    found ∉ given.switches := fun hmem => h (.switch found) hmem rfl

/-- Without a word of it, there is no size. -/
theorem Lacks.size (h : given.Lacks (.value .size)) : given.size = none :=
  Option.eq_none_iff_forall_ne_some.mpr fun sides hsize => h (.size sides) hsize rfl

/-- Without a word of it, there is no data directory. -/
theorem Lacks.datadir (h : given.Lacks (.value .datadir)) : given.datadir = none :=
  Option.eq_none_iff_forall_ne_some.mpr fun directory hsome => h (.datadir directory) hsome rfl

/-- Without a word of it, there is no configuration file. -/
theorem Lacks.config (h : given.Lacks (.value .config)) : given.config = none :=
  Option.eq_none_iff_forall_ne_some.mpr fun path hsome => h (.config path) hsome rfl

/-- An option that has said nothing adds what it says to the rest. -/
theorem holds_put {fact : Fact} (hlacks : given.Lacks fact.option) (other : Fact) :
    (given.put fact).Holds other ↔ given.Holds other ∨ other = fact := by
  cases fact with
  | switch found => cases other <;> simp [put, Holds]
  | size sides =>
    cases other <;> simp [put, Holds, hlacks.size, eq_comm]
  | datadir directory => cases other <;> simp [put, Holds, hlacks.datadir, eq_comm]
  | config path => cases other <;> simp [put, Holds, hlacks.config, eq_comm]

/-- What an option says is about that option, so another one has still said nothing. -/
theorem Lacks.put {fact : Fact} {other : LongOption} (h : given.Lacks other)
    (hlacks : given.Lacks fact.option) (hne : fact.option ≠ other) :
    (given.put fact).Lacks other := by
  intro said hsaid
  rcases (holds_put hlacks said).mp hsaid with hbefore | rfl
  · exact h said hbefore
  · exact hne

/-- Where no option has spoken on both sides, the sides say what each of them says. -/
theorem holds_merge (h : ∀ fact, behind.Holds fact → given.Lacks fact.option) (fact : Fact) :
    (given.merge behind).Holds fact ↔ given.Holds fact ∨ behind.Holds fact := by
  cases fact with
  | switch found => simp [merge, Holds]
  | size sides =>
    cases hsize : behind.size with
    | none => simp [merge, Holds, hsize]
    | some later => simp [merge, Holds, hsize, (h (.size later) hsize).size]
  | datadir directory =>
    cases hdatadir : behind.datadir with
    | none => simp [merge, Holds, hdatadir]
    | some later => simp [merge, Holds, hdatadir, (h (.datadir later) hdatadir).datadir]
  | config path =>
    cases hconfig : behind.config with
    | none => simp [merge, Holds, hconfig]
    | some later => simp [merge, Holds, hconfig, (h (.config later) hconfig).config]

/-- Where the same is said, the run is the same. -/
theorem startup_congr (h : ∀ fact, given.Holds fact ↔ behind.Holds fact)
    (command : Option Command) :
    (Arguments.mk given command).startup = (Arguments.mk behind command).startup := by
  have hswitches (found : Switch) : found ∈ given.switches ↔ found ∈ behind.switches :=
    h (.switch found)
  have hsize : given.size = behind.size := Option.ext fun sides => h (.size sides)
  have hdatadir : given.datadir = behind.datadir :=
    Option.ext fun directory => h (.datadir directory)
  have hconfig : given.config = behind.config := Option.ext fun path => h (.config path)
  simp only [Arguments.startup, Given.gameSize, Given.windowMode, hswitches, hsize, hdatadir,
    hconfig]

end Given

/-- What an option says with some values, if it accepts them. -/
def ValueOption.fact? (values : List String) : ValueOption → Option Fact
  | .size => (Given.sides values).toOption.map .size
  | .datadir => values.head?.map .datadir
  | .config => (values.head?.filter (· ≠ "")).map .config

namespace WrittenOption

/-- What a written option says, if its values are accepted. -/
def fact? : WrittenOption → Option Fact
  | .switch found => some (.switch found)
  | .spaced option values => option.fact? values
  | .attached option value => option.fact? [value]

/-- Each option says something of its own. -/
theorem option_of_fact? {written : WrittenOption} {fact : Fact} (h : written.fact? = some fact) :
    fact.option = written.option := by
  have hvalues (option : ValueOption) (values : List String)
      (hfact : option.fact? values = some fact) : fact.option = .value option := by
    cases option <;> obtain ⟨value, -, rfl⟩ := Option.map_eq_some_iff.mp hfact <;> rfl
  cases written with
  | switch found =>
    cases h
    rfl
  | spaced option values => exact hvalues option values h
  | attached option value => exact hvalues option [value] h

end WrittenOption

/-- With the right number of values, an option that has said nothing adds what it says, or is
refused. -/
theorem Given.addValues_eq_ok_iff {given next : Given} {option : ValueOption} {values : List String}
    (hlength : values.length = option.arity) (hlacks : given.Lacks (.value option)) :
    given.addValues option values = .ok next ↔
      ∃ fact, option.fact? values = some fact ∧ next = given.put fact := by
  cases option with
  | size =>
    simp only [addValues, hlacks.size, ValueOption.fact?]
    cases sides values with
    | error refusal => simp [Except.toOption]
    | ok more => simp [Except.toOption, pure, Except.pure, put, eq_comm]
  | datadir =>
    obtain ⟨value, rfl⟩ := List.length_eq_one_iff.mp hlength
    simp [addValues, hlacks.datadir, ValueOption.fact?, put, eq_comm]
  | config =>
    obtain ⟨value, rfl⟩ := List.length_eq_one_iff.mp hlength
    by_cases hempty : value = ""
    · simp [addValues, hlacks.config, ValueOption.fact?, hempty]
    · simp [addValues, hlacks.config, ValueOption.fact?, Option.filter, hempty, put, eq_comm]

/-- An option that has said nothing adds what it says, or is refused. -/
theorem WrittenOption.addTo_eq_ok_iff {written : WrittenOption} {given next : Given}
    (hcomplete : written.Complete) (hlacks : given.Lacks written.option) :
    written.addTo given = .ok next ↔
      ∃ fact, written.fact? = some fact ∧ next = given.put fact := by
  cases written with
  | switch found =>
    simp [addTo, Given.addSwitch, hlacks.notMem, fact?, Given.put, eq_comm]
  | spaced option values => exact Given.addValues_eq_ok_iff hcomplete.1 hlacks
  | attached option value => exact Given.addValues_eq_ok_iff hcomplete.symm hlacks

/-- Options that are complete and given once each. -/
structure GivenOnce (options : List WrittenOption) : Prop where
  complete : ∀ written ∈ options, written.Complete
  nodup : (options.map WrittenOption.option).Nodup

namespace GivenOnce

variable {options : List WrittenOption}

/-- Without the first option, the others are still given once. -/
theorem tail {written : WrittenOption} (h : GivenOnce (written :: options)) : GivenOnce options :=
  ⟨(List.forall_mem_cons.mp h.complete).2, (List.nodup_cons.mp h.nodup).2⟩

/-- The order of the options does not matter. -/
theorem perm {other : List WrittenOption} (h : GivenOnce options) (hperm : other.Perm options) :
    GivenOnce other :=
  ⟨fun written hmem => h.complete written (hperm.mem_iff.mp hmem),
    (hperm.map WrittenOption.option).nodup_iff.mpr h.nodup⟩

/-- Of two parts, each is given once. -/
theorem of_append {front back : List WrittenOption} (h : GivenOnce (front ++ back)) :
    GivenOnce front ∧ GivenOnce back := by
  have hnodup := h.nodup
  rw [List.map_append, List.nodup_append] at hnodup
  exact ⟨⟨fun written hmem => h.complete written (List.mem_append_left back hmem), hnodup.1⟩,
    ⟨fun written hmem => h.complete written (List.mem_append_right front hmem), hnodup.2.1⟩⟩

end GivenOnce

variable {options : List WrittenOption} {given next : Given}

/-- Options that have said nothing before are put together exactly if each of them is accepted, and
then they say what each of them says. -/
theorem addAll_iff (honce : GivenOnce options)
    (hlacks : ∀ written ∈ options, given.Lacks written.option) :
    ((∃ next, addAll options given = .ok next) ↔ ∀ written ∈ options, written.fact?.isSome) ∧
      ∀ next, addAll options given = .ok next →
        ∀ fact, next.Holds fact ↔
          given.Holds fact ∨ ∃ written ∈ options, written.fact? = some fact := by
  induction options generalizing given with
  | nil =>
    refine ⟨by simp [addAll, pure, Except.pure], ?_⟩
    intro next hnext
    cases hnext
    simp
  | cons written options ih =>
    have hfirst := honce.complete written List.mem_cons_self
    have hnew := (List.nodup_cons.mp honce.nodup).1
    have hadd {next : Given} := @WrittenOption.addTo_eq_ok_iff written given next hfirst
      (hlacks written List.mem_cons_self)
    have hown {fact : Fact} (hfact : written.fact? = some fact) : given.Lacks fact.option :=
      WrittenOption.option_of_fact? hfact ▸ hlacks written List.mem_cons_self
    have hstill {fact : Fact} (hfact : written.fact? = some fact) :
        ∀ other ∈ options, (given.put fact).Lacks other.option := by
      intro other hmem
      refine (hlacks other (List.mem_cons_of_mem _ hmem)).put (hown hfact) ?_
      rw [WrittenOption.option_of_fact? hfact]
      exact fun hsame => hnew (List.mem_map.mpr ⟨other, hmem, hsame.symm⟩)
    refine ⟨⟨?_, ?_⟩, ?_⟩
    · rintro ⟨next, hnext⟩
      obtain ⟨added, hadded, hlast⟩ := exists_of_bind_eq_ok hnext
      obtain ⟨fact, hfact, rfl⟩ := hadd.mp hadded
      exact List.forall_mem_cons.mpr
        ⟨by simp [hfact], (ih honce.tail (hstill hfact)).1.mp ⟨next, hlast⟩⟩
    · intro hall
      obtain ⟨hsome, hmore⟩ := List.forall_mem_cons.mp hall
      obtain ⟨fact, hfact⟩ := Option.isSome_iff_exists.mp hsome
      obtain ⟨next, hnext⟩ := (ih honce.tail (hstill hfact)).1.mpr hmore
      exact ⟨next, bind_eq_ok_iff.mpr ⟨_, hadd.mpr ⟨fact, hfact, rfl⟩, hnext⟩⟩
    · intro next hnext said
      obtain ⟨added, hadded, hlast⟩ := exists_of_bind_eq_ok hnext
      obtain ⟨fact, hfact, rfl⟩ := hadd.mp hadded
      rw [(ih honce.tail (hstill hfact)).2 next hlast, Given.holds_put (hown hfact)]
      simp [hfact, or_assoc, eq_comm]

/-- Whether a switch is one of the options. -/
def gives (options : List WrittenOption) (switch : Switch) : Prop :=
  .switch switch ∈ options.map WrittenOption.option

/-- Fewer options are compatible if more are. -/
theorem compatible_gives_of_subset {fewer : List WrittenOption}
    (h : Compatible (gives options)) (hfewer : fewer ⊆ options) : Compatible (gives fewer) :=
  h.mono fun _ hgives => List.map_subset _ hfewer hgives

/-- So the others are if all are. -/
theorem compatible_gives_of_cons {written : WrittenOption}
    (h : Compatible (gives (written :: options))) : Compatible (gives options) :=
  compatible_gives_of_subset h (List.subset_cons_self written options)

/-- A switch that is one of the options is what one of them says. -/
theorem gives_iff {switch : Switch} :
    gives options switch ↔ ∃ written ∈ options, written.fact? = some (.switch switch) := by
  constructor
  · intro hgives
    obtain ⟨written, hmem, hoption⟩ := List.mem_map.mp hgives
    refine ⟨written, hmem, ?_⟩
    cases written with
    | switch found =>
      cases hoption
      rfl
    | spaced option values => cases hoption
    | attached option value => cases hoption
  · rintro ⟨written, hmem, hfact⟩
    exact List.mem_map.mpr ⟨written, hmem, (WrittenOption.option_of_fact? hfact).symm⟩

/-- Options are put together without a conflict exactly if each of them is accepted and the switches
among them are compatible. -/
theorem addAll_compatible_iff (honce : GivenOnce options) :
    (∃ given, addAll options .empty = .ok given ∧ given.exclusion? = none) ↔
      (∀ written ∈ options, written.fact?.isSome) ∧ Compatible (gives options) := by
  obtain ⟨haccepted, hholds⟩ := addAll_iff honce fun written _ => Given.lacks_empty written.option
  have hgives (given : Given) (hgiven : addAll options .empty = .ok given) :
      given.exclusion? = none ↔ Compatible (gives options) := by
    have hswitches (switch : Switch) : switch ∈ given.switches ↔ gives options switch := by
      rw [gives_iff]
      exact (hholds given hgiven (.switch switch)).trans (or_iff_right (Given.not_holds_empty _))
    simp only [Given.exclusion?_eq_none_iff, hswitches]
  rw [← haccepted]
  constructor
  · rintro ⟨given, hgiven, hexclusion⟩
    exact ⟨⟨given, hgiven⟩, (hgives given hgiven).mp hexclusion⟩
  · rintro ⟨⟨given, hgiven⟩, hcompatible⟩
    exact ⟨given, hgiven, (hgives given hgiven).mpr hcompatible⟩

end GameSetup.CommandLine
