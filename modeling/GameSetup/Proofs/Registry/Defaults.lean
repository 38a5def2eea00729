import GameSetup.Proofs.Conf.Plain
import GameSetup.Proofs.Registry.History
import GameSetup.Proofs.Setting.RoundTrip
import GameSetup.Registry.Defaults

/-!
# Configurations that hold every default are read back

A registry whose names and default texts are plain writes a configuration that says exactly its
defaults, section by section. Reading that configuration gives every setting its own default text,
and nothing else: so every setting is at its default afterwards, and it counts as set by the user if
it accepts that text.
-/

namespace GameSetup

open Conf.Grammar (Says)
open Text.Utf8 (encode)

/-- The default of a text, which is its own default text. -/
def AnySetting.initialText? : AnySetting → Option String
  | .text setting => some setting.initial
  | .flag _ => none
  | .number _ => none
  | .windowMode _ => none
  | .resolution _ => none

/-- A setting whose default can be written. -/
structure AnySetting.Plain (setting : AnySetting) : Prop where
  description : Conf.Lacks ['\r', '\n'] setting.description
  text : ∀ text ∈ setting.initialText?, Conf.PlainValue text

instance (setting : AnySetting) : Decidable setting.Plain :=
  decidable_of_iff (Conf.Lacks ['\r', '\n'] setting.description ∧
      ∀ text ∈ setting.initialText?, Conf.PlainValue text)
    ⟨fun ⟨hdescription, htext⟩ => ⟨hdescription, htext⟩, fun h => ⟨h.description, h.text⟩⟩

/-- The default text of a plain setting is a plain value. -/
theorem AnySetting.Plain.defaultText {setting : AnySetting} (h : setting.Plain) :
    Conf.PlainValue setting.defaultText := by
  by_cases htext : ∃ inner, setting = .text inner
  · obtain ⟨inner, rfl⟩ := htext
    exact h.text inner.initial rfl
  · exact Conf.plainValue_of_not_blank fun c hc =>
      not_blank_of_mem_defaultText (fun inner hinner => htext ⟨inner, hinner⟩) hc

section Lines

/-- The bytes of texts one behind the other. -/
theorem encode_join (texts : List String) : encode (String.join texts) = texts.flatMap encode := by
  rw [encode, String.toList_join, List.flatMap_assoc]
  rfl

/-- An empty line says nothing. -/
theorem says_feed : Says [Conf.lineFeed] [] :=
  Says.line (fun _ hbyte => absurd hbyte List.not_mem_nil) fun _ => rfl

/-- A line may be followed by an empty one. -/
theorem says_feeds {line : String} {found : List Conf.Event}
    (h : Says (encode line ++ [Conf.lineFeed]) found) : Says (encode (line ++ "\n\n")) found := by
  have hfeeds : encode "\n\n" = [Conf.lineFeed] ++ [Conf.lineFeed] := rfl
  rw [Text.Utf8.encode_append, hfeeds, ← List.append_assoc, ← List.append_nil found]
  exact h.append says_feed

/-- A description says nothing. -/
theorem says_remark {remark : String} (h : Conf.Lacks ['\r', '\n'] remark) :
    Says (encode ("; " ++ remark ++ "\n")) [] := by
  have hbytes : encode ("; " ++ remark ++ "\n") =
      ';'.toUInt8 :: ' '.toUInt8 :: encode remark ++ [Conf.lineFeed] := by
    rw [Text.Utf8.encode_append, Text.Utf8.encode_append]
    rfl
  rw [hbytes]
  refine Says.line ?_ fun number => ?_
  · simp only [List.mem_cons]
    rintro byte (rfl | rfl | hbyte)
    · rfl
    · rfl
    · exact Conf.isInLine_of_mem_encode h hbyte
  · rw [Conf.Grammar.lineEvent?_eq, List.dropWhile_cons_of_neg (by decide)]
    rfl

/-- The lines of a setting say its default. -/
theorem AnySetting.Plain.says_lines {setting : AnySetting} (h : setting.Plain) {name : String}
    (hname : Conf.PlainKey name) :
    Says ((setting.defaultLines name).flatMap encode) [.pair name setting.defaultText] := by
  have hpair : (Conf.Event.pair name setting.defaultText).Shaped :=
    ⟨hname.ne_empty, hname.fits, h.defaultText.fits⟩
  have hline := says_feeds hpair.says_bytes
  rw [defaultLines, List.flatMap_append]
  split
  · rw [List.flatMap_singleton]
    exact hline
  · rw [List.flatMap_singleton, List.flatMap_singleton]
    exact (says_remark h.description).append hline

end Lines

namespace Registry

variable {σ ι : Type}

/-- Pairs stand where they are written. -/
theorem placed_map_pair (header : String) (pairs : List (String × String))
    (events : List Conf.Event) :
    Conf.placed header ((pairs.map fun (key, text) => Conf.Event.pair key text) ++ events) =
      pairs.map (fun pair => (header, pair)) ++ Conf.placed header events := by
  induction pairs with
  | nil => rfl
  | cons pair pairs ih =>
    obtain ⟨key, text⟩ := pair
    rw [List.map_cons, List.cons_append, Conf.placed, ih]
    rfl

/-- Pairs at the front say what they say for a setting, if those with its name belong to one
section. -/
theorem textsFor_map_pair (registry : Registry σ ι) (sectionName name : String)
    {header owned : String} {pairs : List (String × String)}
    (howner : ∀ pair ∈ pairs, pair.1 = name → registry.owner header pair.1 = owned)
    (events : List Conf.Event) :
    registry.textsFor sectionName name header
        ((pairs.map fun (key, text) => Conf.Event.pair key text) ++ events) =
      (if owned = sectionName then textsNamed name pairs else []) ++
        registry.textsFor sectionName name header events := by
  rw [textsFor, placed_map_pair, List.filterMap_append,
    registry.textsNamed_under sectionName name howner]
  rfl

variable [SettingStore σ ι]

/-- A registry whose defaults can be written. -/
structure Plain (registry : Registry σ ι) : Prop where
  keys : ∀ entry ∈ registry.catalog.entries, Conf.PlainKey entry.2.1
  names : ∀ entry ∈ registry.catalog.sections, entry.1 ≠ rootSection → Conf.PlainName entry.1
  settings : ∀ slot ∈ registry.catalog.slots, ∀ setting ∈ registry.held? slot, setting.Plain

/-- The names of a section with their default texts. -/
def defaultTexts (registry : Registry σ ι) (names : List (String × ι)) : List (String × String) :=
  names.filterMap fun (name, slot) =>
    (registry.held? slot).map fun setting => (name, setting.defaultText)

/-- What a section says at its defaults. -/
def defaultPairs (registry : Registry σ ι) (names : List (String × ι)) : List Conf.Event :=
  (registry.defaultTexts names).map fun (name, text) => .pair name text

/-- What the configuration says that holds every default. -/
def defaultEvents (registry : Registry σ ι) : List Conf.Event :=
  registry.defaultPairs ((registry.catalog.names? rootSection).getD []) ++
    (registry.catalog.sections.filter (·.1 ≠ rootSection)).flatMap fun (name, names) =>
      .header name :: registry.defaultPairs names

variable {registry : Registry σ ι}

/-- The first name of a section has the text of its setting. -/
theorem defaultTexts_cons (registry : Registry σ ι) (name : String) (slot : ι)
    (names : List (String × ι)) :
    registry.defaultTexts ((name, slot) :: names) =
      ((registry.held? slot).map fun setting => (name, setting.defaultText)).toList ++
        registry.defaultTexts names := by
  rw [defaultTexts, List.filterMap_cons]
  cases hheld : registry.held? slot <;> simp [hheld, defaultTexts]

/-- The lines of a section say its defaults. -/
theorem says_sectionLines {names : List (String × ι)}
    (h : ∀ entry ∈ names, Conf.PlainKey entry.1 ∧
      ∀ setting, registry.held? entry.2 = some setting → setting.Plain) :
    Says ((registry.sectionLines names).flatMap encode) (registry.defaultPairs names) := by
  induction names with
  | nil => exact Says.nil
  | cons entry names ih =>
    obtain ⟨name, slot⟩ := entry
    obtain ⟨⟨hname, hsetting⟩, hnames⟩ := List.forall_mem_cons.mp h
    rw [sectionLines, List.flatMap_cons, List.flatMap_append, ← sectionLines, defaultPairs,
      defaultTexts_cons, List.map_append, ← defaultPairs]
    refine Says.append ?_ (ih hnames)
    cases hheld : registry.held? slot with
    | none =>
      have hnone : SettingStore.setting? registry.store slot = none := hheld
      simp only [hnone]
      exact Says.nil
    | some setting =>
      have hsome : SettingStore.setting? registry.store slot = some setting := hheld
      simp only [hsome]
      exact (hsetting setting hheld).says_lines hname

namespace Plain

/-- What is declared in a section is plain. -/
theorem forall_mem_section (h : registry.Plain) {entry : String × List (String × ι)}
    (hentry : entry ∈ registry.catalog.sections) :
    ∀ named ∈ entry.2, Conf.PlainKey named.1 ∧
      ∀ setting, registry.held? named.2 = some setting → setting.Plain := by
  intro named hnamed
  have hmem : (entry.1, named.1, named.2) ∈ registry.catalog.entries :=
    List.mem_flatMap.mpr ⟨entry, hentry, List.mem_map.mpr ⟨named, hnamed, rfl⟩⟩
  have hslot : named.2 ∈ registry.catalog.slots := by
    rw [Catalog.slots_eq_map_entries]
    exact List.mem_map.mpr ⟨_, hmem, rfl⟩
  exact ⟨h.keys _ hmem, h.settings _ hslot⟩

/-- The configuration that holds every default says the defaults. -/
theorem says_defaultsText (h : registry.Plain) {header : String} (hheader : Conf.Silent header) :
    Says (encode (registry.defaultsText header)) registry.defaultEvents := by
  have htop : Says (encode (header ++ "\n\n")) [] :=
    says_feeds (Says.feed fun _ hline number => hheader.lineEvent?_eq_none hline number)
  have hroot : Says
      ((registry.sectionLines ((registry.catalog.names? rootSection).getD [])).flatMap encode)
      (registry.defaultPairs ((registry.catalog.names? rootSection).getD [])) := by
    cases hnames : registry.catalog.names? rootSection with
    | none => exact Says.nil
    | some names =>
      exact says_sectionLines (h.forall_mem_section (Keyed.mem_of_lookup_eq_some hnames))
  rw [defaultsText, encode_join, defaultPieces, List.flatMap_append, List.flatMap_append,
    List.flatMap_singleton, List.flatMap_assoc, defaultEvents, ← List.nil_append (_ ++ _),
    List.append_assoc]
  refine htop.append (hroot.append (Says.flatMap fun entry hentry => ?_))
  obtain ⟨hmem, hne⟩ := List.mem_filter.mp hentry
  have hheader : (Conf.Event.header entry.1).Shaped :=
    (h.names entry hmem (of_decide_eq_true hne)).fits
  have hline : "[" ++ entry.1 ++ "]\n\n" = "[" ++ entry.1 ++ "]" ++ "\n\n" := by
    rw [String.append_assoc, String.append_assoc, String.append_assoc]
    rfl
  rw [List.flatMap_cons, hline]
  exact (says_feeds hheader.says_bytes).append (says_sectionLines (h.forall_mem_section hmem))

end Plain

section Texts

/-- Sections with headers do not care what stands before them. -/
theorem textsFor_flatMap_header (registry : Registry σ ι) (sectionName name header : String)
    {sections : List (String × List (String × ι))}
    (hsections : ∀ entry ∈ sections, entry.1 ≠ rootSection) :
    (registry.textsFor sectionName name header (sections.flatMap fun (name, names) =>
        .header name :: registry.defaultPairs names)) =
      sections.flatMap fun entry =>
        if entry.1 = sectionName then textsNamed name (registry.defaultTexts entry.2) else [] := by
  induction sections generalizing header with
  | nil => rfl
  | cons entry sections ih =>
    obtain ⟨key, names⟩ := entry
    obtain ⟨hne, hrest⟩ := List.forall_mem_cons.mp hsections
    have howner : ∀ pair ∈ registry.defaultTexts names, pair.1 = name →
        registry.owner key pair.1 = key := fun _ _ _ => if_neg fun howner => hne howner.1
    rw [List.flatMap_cons, List.flatMap_cons, ← ih key hrest,
      ← registry.textsFor_map_pair sectionName name howner]
    rfl

variable {sectionName name : String} {slot : ι} {setting : AnySetting}

/-- A section gives a name the default text of its setting. -/
theorem textsNamed_defaultTexts {names : List (String × ι)}
    (hnodup : (names.map (·.1)).Nodup) (hmem : (name, slot) ∈ names)
    (hheld : registry.held? slot = some setting) :
    textsNamed name (registry.defaultTexts names) = [setting.defaultText] := by
  have hflat (names : List (String × ι)) : textsNamed name (registry.defaultTexts names) =
      names.flatMap fun entry => if entry.1 = name then
        ((registry.held? entry.2).map AnySetting.defaultText).toList else [] := by
    induction names with
    | nil => rfl
    | cons entry names ih =>
      obtain ⟨key, place⟩ := entry
      rw [defaultTexts_cons, textsNamed_append, ih, List.flatMap_cons]
      cases registry.held? place <;> by_cases hkey : key = name <;> simp [textsNamed, hkey]
  rw [hflat, Keyed.flatMap_ite_of_mem hnodup hmem
    (fun place => ((registry.held? place).map AnySetting.defaultText).toList), hheld]
  rfl

/-- A name that has a default text is one of the names. -/
theorem exists_mem_of_mem_defaultTexts {names : List (String × ι)} {pair : String × String}
    (h : pair ∈ registry.defaultTexts names) : ∃ slot, (pair.1, slot) ∈ names := by
  obtain ⟨⟨key, place⟩, hmem, hpair⟩ := List.mem_filterMap.mp h
  obtain ⟨setting, -, rfl⟩ := Option.map_eq_some_iff.mp hpair
  exact ⟨place, hmem⟩

/-- The default texts of a name are found under the header of its section. -/
theorem textsFor_defaultEvents_eq (registry : Registry σ ι) (sectionName name : String) :
    registry.textsFor sectionName name rootSection registry.defaultEvents =
      (if rootSection = sectionName then
        textsNamed name (registry.defaultTexts ((registry.catalog.names? rootSection).getD []))
      else []) ++
      (registry.catalog.sections.filter (·.1 ≠ rootSection)).flatMap fun entry =>
        if entry.1 = sectionName then textsNamed name (registry.defaultTexts entry.2) else [] := by
  -- At the top a name that is registered in the root belongs to the root, whatever the section is
  -- that unknown names are looked up in.
  have howner : ∀ pair ∈ registry.defaultTexts ((registry.catalog.names? rootSection).getD []),
      pair.1 = name → registry.owner rootSection pair.1 = rootSection := fun pair hpair _ =>
    owner_of_mem_root (exists_mem_of_mem_defaultTexts hpair)
  rw [defaultEvents, defaultPairs, registry.textsFor_map_pair sectionName name howner,
    registry.textsFor_flatMap_header sectionName name rootSection fun entry hmem =>
      of_decide_eq_true (List.mem_filter.mp hmem).2]

/-- The defaults give every declared setting its own default text, and no other. -/
theorem textsFor_defaultEvents (hdistinct : registry.catalog.Distinct)
    (hslot : registry.catalog.slot? sectionName name = some slot)
    (hheld : registry.held? slot = some setting) :
    registry.textsFor sectionName name rootSection registry.defaultEvents =
      [setting.defaultText] := by
  obtain ⟨names, hnames, hname⟩ := Option.bind_eq_some_iff.mp hslot
  have hentry : (sectionName, names) ∈ registry.catalog.sections :=
    Keyed.mem_of_lookup_eq_some hnames
  have htexts := textsNamed_defaultTexts (hdistinct.names _ hentry)
    (Keyed.mem_of_lookup_eq_some hname) hheld
  rw [textsFor_defaultEvents_eq]
  by_cases hsection : rootSection = sectionName
  · subst hsection
    have hnone : (registry.catalog.sections.filter (·.1 ≠ rootSection)).flatMap (fun entry =>
        if entry.1 = rootSection then textsNamed name (registry.defaultTexts entry.2) else []) =
          [] :=
      List.flatMap_eq_nil_iff.mpr fun entry hmem =>
        if_neg (of_decide_eq_true (List.mem_filter.mp hmem).2)
    rw [if_pos rfl, hnames, Option.getD_some, htexts, hnone, List.append_nil]
  · have hmem : (sectionName, names) ∈ registry.catalog.sections.filter (·.1 ≠ rootSection) :=
      List.mem_filter.mpr ⟨hentry, decide_eq_true (Ne.symm hsection)⟩
    have hnodup : ((registry.catalog.sections.filter (·.1 ≠ rootSection)).map (·.1)).Nodup :=
      hdistinct.sections.sublist (List.filter_sublist.map _)
    rw [if_neg hsection, List.nil_append, Keyed.flatMap_ite_of_mem hnodup hmem
      fun names => textsNamed name (registry.defaultTexts names), htexts]

end Texts

variable {header : String}

/-- Reading the configuration that holds every default finds the defaults. -/
theorem Plain.events_defaultsText (h : registry.Plain) (hheader : Conf.Silent header) :
    Conf.events (.ofBytes (encode (registry.defaultsText header))) = registry.defaultEvents := by
  rw [Conf.events_ofBytes]
  exact (h.says_defaultsText hheader).events_eq

/-- Reading it leaves a setting at its default, and tells whether the setting accepts that. -/
theorem Plain.held?_parse_defaultsText [LawfulStore σ ι] (h : registry.Plain)
    (hheader : Conf.Silent header) (hwell : registry.WellFormed)
    (hdistinct : registry.catalog.Distinct) {sectionName name : String} {slot : ι}
    (hslot : registry.catalog.slot? sectionName name = some slot) :
    ∃ before now, registry.held? slot = some before ∧
      (registry.parse (.ofBytes (encode (registry.defaultsText header)))).1.held? slot = some now ∧
      now.value = before.initialValue ∧ now.userSet = before.acceptsDefault ∧
      now.userSet = (before.accepted? before.defaultText).isSome ∧ now.reset = before.reset := by
  obtain ⟨before, hheld⟩ := hwell.held slot (Catalog.mem_slots_of_slot? hslot)
  have hnow := registry.held?_parse hwell.nodup_slots hslot hheld
    (.ofBytes (encode (registry.defaultsText header)))
  rw [h.events_defaultsText hheader, textsFor_defaultEvents hdistinct hslot hheld] at hnow
  obtain ⟨hvalue, huser, hreset⟩ := before.foldl_take_reset [before.defaultText]
  have hlast : before.lastAccepted? [before.defaultText] =
      before.accepted? before.defaultText := by
    rw [← List.nil_append [before.defaultText], before.lastAccepted?_concat]
    exact Option.or_none
  rw [hlast] at hvalue huser
  refine ⟨before, _, hheld, hnow, ?_, ?_, huser, hreset⟩
  · rw [hvalue, before.accepted?_defaultText]
    split <;> rfl
  · rw [huser, before.accepted?_defaultText]
    cases before.acceptsDefault <;> rfl

end Registry

/-- The settings of the game are plain. -/
theorem Settings.plain_registry (defaultSection : String) :
    (Settings.initial.registry defaultSection).Plain where
  keys := by
    change ∀ entry ∈ Settings.catalog.entries, Conf.PlainKey entry.2.1
    decide +kernel
  names := by
    change ∀ entry ∈ Settings.catalog.sections, entry.1 ≠ rootSection → Conf.PlainName entry.1
    decide +kernel
  settings := by
    change ∀ slot ∈ Settings.catalog.slots,
      ∀ setting ∈ SettingStore.setting? Settings.initial slot, setting.Plain
    intro slot _
    cases slot with
    | datadir => decide +kernel
    | bundle mode field => cases mode <;> cases field <;> decide +kernel

/-- The line at the top of their file is a comment. -/
theorem Settings.silent_fileHeader : Conf.Silent Settings.fileHeader :=
  Conf.silent_of_lacks (by decide +kernel) (by decide +kernel)

namespace OpenRegistry

open Registry

/-- A registry reads the configuration that holds its defaults. It finds the pairs of the root, then
each section with its pairs, and nothing else. Whatever its settings held, each of them is at its
default afterwards, and counts as set by the user exactly if it accepts its own default text. The
settings of the game can be written in this way. -/
theorem parse_defaultsText (defaultSection : String) (steps : List RegistryStep) (header : String)
    (hplain : (build defaultSection steps).Plain) (hheader : Conf.Silent header) :
    let registry := build defaultSection steps
    let stream := Conf.Stream.ofBytes (encode (registry.defaultsText header))
    let after := (registry.parse stream).1
    Conf.events stream = registry.defaultEvents ∧ stream.outcome = .ok () ∧
      (∀ sectionName name slot, registry.catalog.slot? sectionName name = some slot →
        ∃ before now, registry.held? slot = some before ∧ after.held? slot = some now ∧
          now.value = before.initialValue ∧ now.userSet = before.acceptsDefault ∧
          now.userSet = (before.accepted? before.defaultText).isSome ∧
          now.reset = before.reset) ∧
      (∀ other, SameDeclarations registry other → Agrees after (other.parse stream).1) ∧
      (∀ modeSection, (Settings.initial.registry modeSection).Plain) ∧
      Conf.Silent Settings.fileHeader := by
  intro registry stream after
  have hwell : registry.WellFormed := wellFormed_build defaultSection steps
  have hdistinct : registry.catalog.Distinct := distinct_build defaultSection steps
  refine ⟨hplain.events_defaultsText hheader, rfl, fun sectionName name slot hslot => ?_,
    fun other hsame => (hsame.parse stream).1, Settings.plain_registry, Settings.silent_fileHeader⟩
  exact hplain.held?_parse_defaultsText hheader hwell hdistinct hslot

/-- A registry with a setting that rejects its own default. -/
def sample : List RegistryStep :=
  [.registerHere "name" (.text (.fresh "no one" "")),
    .register "game" "size" (.resolution (.fresh ⟨320, -200⟩ "height below zero")),
    .registerHere "quiet" (.flag (.fresh true "say nothing"))]

/-- The sample is read back from what it writes. -/
theorem parse_defaultsText_sample :
    (build "game" sample).Plain ∧ Conf.Silent "; sample" ∧
      Conf.events (.ofBytes (encode ((build "game" sample).defaultsText "; sample"))) =
        [.pair "name" "no one", .pair "quiet" "true", .header "game", .pair "size" "320x-200"] := by
  have hplain : (build "game" sample).Plain := by
    refine ⟨?_, ?_, ?_⟩ <;> decide +kernel
  have hheader : Conf.Silent "; sample" :=
    Conf.silent_of_lacks (by decide +kernel) (by decide +kernel)
  refine ⟨hplain, hheader, (parse_defaultsText "game" sample "; sample" hplain hheader).1.trans ?_⟩
  decide +kernel

end OpenRegistry

end GameSetup
