import GameSetup.Proofs.Conf.Interruption
import GameSetup.Proofs.Conf.Plain
import GameSetup.Proofs.Settings.History

/-!
# Files without headers

A file without headers is for the mode in which it is read. It says the same for that mode as if the
header of the mode stood in front of it, so the default section takes the part of a header that is
left out. The exception is the data directory, which the root keeps for itself.

A line in front of a file moves the numbers of the lines behind it, and these are told of malformed
lines alone.
-/

namespace GameSetup

namespace Conf

open Grammar
open Text.Utf8 (encode)

/-- The ends that a line can have. -/
def lineEnds : List String := ["\n", "\r\n", "\r"]

/-- Events without a header stand where the first of them does. -/
theorem placed_of_headerless (header : String) {events : List Event}
    (h : ∀ name, Event.header name ∉ events) :
    placed header events = (assignments events).map fun pair => (header, pair) := by
  induction events with
  | nil => rfl
  | cons event events ih =>
    have hrest := ih fun name hmem => h name (List.mem_cons_of_mem event hmem)
    cases event with
    | header name => exact absurd List.mem_cons_self (h name)
    | pair key text => exact congrArg ((header, key, text) :: ·) hrest
    | bare key => exact congrArg ((header, key, "") :: ·) hrest
    | badLine line number => exact hrest

namespace Grammar

/-- Lines in front of others are told, if there are others. -/
theorem told_append (front : List (List UInt8)) {back : List (List UInt8)} (h : back ≠ []) :
    told (front ++ back) = front ++ told back := by
  rw [told, told, List.dropLast_append_of_ne_nil h, List.getLast?_append_of_ne_nil front h,
    List.append_assoc]

/-- So are the lines in front of a stream. -/
theorem toldLines_append {front rest : List UInt8} {shown : List (List UInt8)}
    (h : lines front = shown ++ lines rest) (fault : Option Fault) :
    toldLines ⟨front, fault⟩ = shown ++ toldLines ⟨rest, fault⟩ := by
  cases fault with
  | none => exact h
  | some fault => exact (congrArg told h).trans (told_append shown (lines_ne_nil rest))

/-- A line is cut off at its end, and so is an empty line that seems to follow it. -/
theorem lines_behind {line : String} (hline : Lacks ['\r', '\n'] line) {ending : String}
    (hending : ending ∈ lineEnds) (bytes : List UInt8) :
    lines (encode (line ++ ending) ++ bytes) = encode line :: lines bytes ∨
      lines (encode (line ++ ending) ++ bytes) = encode line :: lines (dropFeed bytes) := by
  have hin : ∀ byte ∈ encode line, isInLine byte = true := fun _ => isInLine_of_mem_encode hline
  have hlast : (encode line).getLast? ≠ some carriageReturn := fun hreturn =>
    absurd (hin _ (List.mem_of_getLast? hreturn)) (by decide)
  rw [Text.Utf8.encode_append, List.append_assoc]
  simp only [lineEnds, List.mem_cons, List.not_mem_nil, or_false] at hending
  rcases hending with rfl | rfl | rfl
  · left
    change lines (encode line ++ lineFeed :: bytes) = _
    rw [lines_append_feed hlast, lines_of_forall_isInLine hin, List.singleton_append]
  · left
    change lines (encode line ++ carriageReturn :: lineFeed :: bytes) = _
    rw [lines_append_return, lines_of_forall_isInLine hin, List.singleton_append, dropFeed,
      if_pos rfl]
  · right
    change lines (encode line ++ carriageReturn :: bytes) = _
    rw [lines_append_return, lines_of_forall_isInLine hin, List.singleton_append]

/-- A line feed in front of a stream ends a line that says nothing. -/
theorem filterMap_toldLines_dropFeed {β : Type} (select : Event → Option β) (bytes : List UInt8)
    (fault : Option Fault) :
    (toldLines ⟨dropFeed bytes, fault⟩).filterMap (fun line => (lineEvent? 1 line).bind select) =
      (toldLines ⟨bytes, fault⟩).filterMap fun line => (lineEvent? 1 line).bind select := by
  cases bytes with
  | nil => rfl
  | cons byte rest =>
    rw [dropFeed]
    split
    · next hfeed =>
      have hlines : lines (byte :: rest) = [[]] ++ lines rest := by rw [hfeed, lines_feed]; rfl
      rw [toldLines_append hlines]
      rfl
    · rfl

end Grammar

/-- A line in front of a stream says what it says by itself, and leaves what the stream says as it
was, up to the numbers of malformed lines. -/
theorem exists_events_behind {line : String} (hline : Lacks ['\r', '\n'] line) {ending : String}
    (hending : ending ∈ lineEnds) (stream : Stream) :
    ∃ more, events ⟨encode (line ++ ending) ++ stream.bytes, stream.fault⟩ =
        (lineEvent? 1 (encode line)).toList ++ more ∧
      ∀ {β : Type} (select : Event → Option β),
        (∀ text number, select (.badLine text number) = none) →
          more.filterMap select = (events stream).filterMap select := by
  have hevents {rest : List UInt8}
      (h : lines (encode (line ++ ending) ++ stream.bytes) = encode line :: lines rest) :
      events ⟨encode (line ++ ending) ++ stream.bytes, stream.fault⟩ =
        (lineEvent? 1 (encode line)).toList ++
          eventsFrom 2 (toldLines ⟨rest, stream.fault⟩) := by
    rw [← List.singleton_append] at h
    rw [events_eq_eventsFrom, toldLines_append h, eventsFrom_append, eventsFrom_cons,
      eventsFrom_nil, List.append_nil, List.length_singleton]
  rcases lines_behind hline hending stream.bytes with h | h
  · refine ⟨_, hevents h, fun select hselect => ?_⟩
    rw [events_eq_eventsFrom, filterMap_eventsFrom select hselect,
      filterMap_eventsFrom select hselect]
  · refine ⟨_, hevents h, fun select hselect => ?_⟩
    rw [events_eq_eventsFrom, filterMap_eventsFrom select hselect,
      filterMap_eventsFrom select hselect, filterMap_toldLines_dropFeed]

end Conf

/-- The texts for a setting, where no header stands and its name belongs to one section. -/
theorem Registry.textsFor_of_headerless {σ ι : Type} (registry : Registry σ ι)
    (sectionName name : String) {header owned : String} {events : List Conf.Event}
    (hheader : ∀ name, Conf.Event.header name ∉ events)
    (howner : ∀ pair ∈ Conf.assignments events, pair.1 = name →
      registry.owner header pair.1 = owned) :
    registry.textsFor sectionName name header events =
      if owned = sectionName then textsNamed name (Conf.assignments events) else [] := by
  rw [textsFor, Conf.placed_of_headerless header hheader,
    registry.textsNamed_under sectionName name howner]

namespace Settings

open Text.Utf8 (encode)

/-- The header of a mode, as a line. -/
def headerLine (mode : RunMode) : String := "[" ++ mode.sectionName ++ "]"

/-- A header is a single line. -/
theorem lacks_headerLine (mode : RunMode) : Conf.Lacks ['\r', '\n'] (headerLine mode) := by
  cases mode <;> decide

/-- It is the header of the mode. -/
theorem lineEvent?_headerLine (mode : RunMode) :
    Conf.Grammar.lineEvent? 1 (encode (headerLine mode)) = some (.header mode.sectionName) := by
  cases mode <;> decide +kernel

/-- The section of a mode is not the root. -/
theorem sectionName_ne_rootSection (mode : RunMode) : mode.sectionName ≠ rootSection := by
  cases mode <;> decide

/-- Either mode has a section of its own. -/
theorem sectionName_inj {mode other : RunMode} (h : mode.sectionName = other.sectionName) :
    mode = other := by
  cases mode <;> cases other <;> first | rfl | exact absurd h (by decide)

/-- A reset leaves the defaults as they are. -/
theorem reset_of_setting?_initial {slot : Slot} {setting : AnySetting}
    (h : SettingStore.setting? initial slot = some setting) : setting.reset = setting := by
  have hreset := setting?_reset initial slot
  rw [reset_initial, h] at hreset
  exact (Option.some.inj hreset).symm

section

variable (settings : Settings) (mode : RunMode) {stream : Conf.Stream}
  (hheader : ∀ name, Conf.Event.header name ∉ Conf.events stream)

include hheader

/-- A file without headers and without a data directory gives its texts to the mode that it is read
for. -/
theorem textsFor_flat
    (hdatadir : ∀ text, ("datadir", text) ∉ Conf.assignments (Conf.events stream))
    (sectionName name : String) :
    (settings.registry mode.sectionName).textsFor sectionName name rootSection
        (Conf.events stream) =
      if mode.sectionName = sectionName then
        Registry.textsNamed name (Conf.assignments (Conf.events stream)) else [] := by
  refine Registry.textsFor_of_headerless _ sectionName name hheader ?_
  rintro ⟨key, text⟩ hpair rfl
  have hne : key ≠ "datadir" := fun hkey => hdatadir text (hkey ▸ hpair)
  rw [Registry.owner_of_not_declared _ (slot?_rootSection_of_ne hne), if_pos rfl]
  rfl

/-- So does the same file behind the header of the mode, whatever the default section is. -/
theorem textsFor_headed (defaultSection : String) {ending : String}
    (hending : ending ∈ Conf.lineEnds) (sectionName name : String) :
    (settings.registry defaultSection).textsFor sectionName name rootSection
        (Conf.events ⟨encode (headerLine mode ++ ending) ++ stream.bytes, stream.fault⟩) =
      if mode.sectionName = sectionName then
        Registry.textsNamed name (Conf.assignments (Conf.events stream)) else [] := by
  obtain ⟨more, hevents, hmore⟩ :=
    Conf.exists_events_behind (lacks_headerLine mode) hending stream
  have hassignments : Conf.assignments more = Conf.assignments (Conf.events stream) :=
    hmore Conf.Event.assignment? fun _ _ => rfl
  have hheaders : more.filterMap Conf.Event.headerName? = [] := by
    rw [hmore Conf.Event.headerName? fun _ _ => rfl, List.filterMap_eq_nil_iff]
    intro event hmem
    cases event with
    | header name => exact absurd hmem (hheader name)
    | pair key text => rfl
    | bare key => rfl
    | badLine line number => rfl
  have hheaderless : ∀ name, Conf.Event.header name ∉ more := fun name hmem =>
    Option.some_ne_none name (List.filterMap_eq_nil_iff.mp hheaders _ hmem)
  rw [hevents, lineEvent?_headerLine, ← hassignments]
  change (settings.registry defaultSection).textsFor sectionName name mode.sectionName more = _
  exact Registry.textsFor_of_headerless _ sectionName name hheaderless fun _ _ _ =>
    if_neg fun howner => sectionName_ne_rootSection mode howner.1

end

/-- A file without headers says what it says behind the header of the mode that it is read for,
however that line ends and whatever the default section is then. The other mode and the data
directory keep their defaults. -/
theorem parse_flat_eq_headed (mode : RunMode) (stream : Conf.Stream)
    (hheader : ∀ name, Conf.Event.header name ∉ Conf.events stream)
    (hdatadir : ∀ text, ("datadir", text) ∉ Conf.assignments (Conf.events stream)) :
    let flat := (initial.parse mode stream).1
    (∀ defaultSection, ∀ ending ∈ Conf.lineEnds,
      ((initial.registry defaultSection).parse
        ⟨encode (headerLine mode ++ ending) ++ stream.bytes, stream.fault⟩).1.store = flat) ∧
      (∀ other ≠ mode, flat.bundle other = initial.bundle other) ∧
      flat.datadir = initial.datadir := by
  intro flat
  have hflat {sectionName name : String} {slot : Slot} {setting : AnySetting}
      (hslot : catalog.slot? sectionName name = some slot)
      (hsetting : SettingStore.setting? initial slot = some setting)
      (hne : mode.sectionName ≠ sectionName) :
      SettingStore.setting? flat slot = SettingStore.setting? initial slot := by
    have hparse := initial.setting?_parse mode stream hslot hsetting
    rw [initial.textsFor_flat mode hheader hdatadir, if_neg hne] at hparse
    rw [hparse, hsetting, List.foldl_nil, reset_of_setting?_initial hsetting]
  refine ⟨fun defaultSection ending hending => ?_, fun other hother => ?_, ?_⟩
  · refine LawfulStore.ext fun slot => ?_
    obtain ⟨sectionName, name, hslot⟩ := exists_slot? slot
    obtain ⟨setting, hsetting⟩ := initial.exists_setting? slot
    have hheaded := (initial.registry defaultSection).held?_parse nodup_slots hslot hsetting
      ⟨encode (headerLine mode ++ ending) ++ stream.bytes, stream.fault⟩
    have hplain := initial.setting?_parse mode stream hslot hsetting
    rw [initial.textsFor_headed mode hheader defaultSection hending] at hheaded
    rw [initial.textsFor_flat mode hheader hdatadir] at hplain
    exact hheaded.trans hplain.symm
  · refine Bundle.ext_setting fun field => ?_
    exact Option.some.inj (hflat (slot?_sectionName other field) rfl
      fun hname => hother (sectionName_inj hname).symm)
  · exact AnySetting.text.inj (Option.some.inj (hflat slot?_rootSection_datadir rfl
      (sectionName_ne_rootSection mode)))

/-- A flat file for the editor, whose second line is malformed. -/
theorem parse_flat_eq_headed_editor :
    let stream := Conf.Stream.ofBytes (encode "mono = 1\n[x\nmonitor = 2")
    (∀ name, Conf.Event.header name ∉ Conf.events stream) ∧
      (∀ text, ("datadir", text) ∉ Conf.assignments (Conf.events stream)) ∧
      ((initial.registry "game").parse
          ⟨encode (headerLine .edit ++ "\r\n") ++ stream.bytes, stream.fault⟩).1.store =
        (initial.parse .edit stream).1 := by
  intro stream
  have hevents : Conf.events stream =
      [.pair "mono" "1", .badLine "[x" 2, .pair "monitor" "2"] := by
    decide +kernel
  have hheader : ∀ name, Conf.Event.header name ∉ Conf.events stream := by
    simp [hevents]
  have hdatadir : ∀ text, ("datadir", text) ∉ Conf.assignments (Conf.events stream) := by
    simp [hevents, Conf.assignments, Conf.Event.assignment?]
  exact ⟨hheader, hdatadir,
    (parse_flat_eq_headed .edit stream hheader hdatadir).1 "game" "\r\n" (by decide)⟩

end Settings

end GameSetup
