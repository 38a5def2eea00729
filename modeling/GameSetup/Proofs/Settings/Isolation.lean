import GameSetup.Proofs.Conf.Lines
import GameSetup.Proofs.Settings.FileValues

/-!
# Lines that do not concern a mode

What a file says for one mode is of no concern to the other. Files that differ only in the lines
under foreign headers, however many there are and whatever they say, give a mode the same bundle and
the same data directory. The headers themselves have to be the same, since each of them ends the
section before it.
-/

namespace GameSetup

namespace Conf

namespace Grammar

/-- The section that a line starts, if it is a header. -/
def header? (line : List UInt8) : Option String :=
  (lineEvent? 1 line).bind Event.headerName?

/-- The lines that concern some sections: all headers, and what stands under the headers of these
sections. The first line stands under the given header. -/
def concerning (sections : List String) (header : String) :
    List (List UInt8) → List (List UInt8)
  | [] => []
  | line :: lines =>
    match header? line with
    | some name => line :: concerning sections name lines
    | none =>
      if header ∈ sections then line :: concerning sections header lines
      else concerning sections header lines

/-- Whatever its number, a line has the same place. -/
theorem placed_lineEvent? (header : String) (number : Nat) (line : List UInt8)
    (events : List Event) :
    placed header ((lineEvent? number line).toList ++ events) =
      (((lineEvent? 1 line).bind Event.assignment?).map fun (key, text) =>
          (header, key, text)).toList ++
        placed ((header? line).getD header) events := by
  rw [header?, bind_lineEvent? Event.headerName? (fun _ _ => rfl) 1 number,
    bind_lineEvent? Event.assignment? (fun _ _ => rfl) 1 number]
  cases lineEvent? number line with
  | none => rfl
  | some event => exact placed_cons header event events

/-- What is placed under the headers of some sections comes from the lines that concern them. -/
theorem filter_placed_eventsFrom (sections : List String) (header : String) (number other : Nat)
    (lines : List (List UInt8)) :
    (placed header (eventsFrom number lines)).filter (·.1 ∈ sections) =
      (placed header (eventsFrom other (concerning sections header lines))).filter
        (·.1 ∈ sections) := by
  induction lines generalizing header number other with
  | nil => rfl
  | cons line lines ih =>
    rw [eventsFrom_cons, placed_lineEvent?, List.filter_append, concerning]
    cases hheader : header? line with
    | some name =>
      rw [eventsFrom_cons, placed_lineEvent?, List.filter_append, hheader, Option.getD_some,
        ih name (number + 1) (other + 1)]
    | none =>
      by_cases hmem : header ∈ sections
      · rw [if_pos hmem, eventsFrom_cons, placed_lineEvent?, List.filter_append, hheader,
          Option.getD_none, ih header (number + 1) (other + 1)]
      · rw [if_neg hmem, Option.getD_none, ih header (number + 1) other]
        have hnone : (((lineEvent? 1 line).bind Event.assignment?).map fun (key, text) =>
            (header, key, text)).toList.filter (·.1 ∈ sections) = [] := by
          cases (lineEvent? 1 line).bind Event.assignment? with
          | none => rfl
          | some pair => exact List.filter_cons_of_neg (by simpa using hmem)
        rw [hnone, List.nil_append]

end Grammar

/-- The texts under some headers are among those that are placed there. -/
theorem textsUnder_congr {sections headers : List String} (hsub : headers ⊆ sections)
    {events more : List Event}
    (h : (placed rootSection events).filter (·.1 ∈ sections) =
      (placed rootSection more).filter (·.1 ∈ sections)) (key : String) :
    textsUnder headers key events = textsUnder headers key more := by
  have hfilter (events : List Event) : textsUnder headers key events =
      ((placed rootSection events).filter (·.1 ∈ sections)).filterMap fun entry =>
        if entry.1 ∈ headers ∧ entry.2.1 = key then some entry.2.2 else none := by
    rw [textsUnder, List.filterMap_filter]
    apply List.filterMap_congr
    rintro ⟨header, name, text⟩ -
    by_cases hmem : header ∈ sections
    · simp only [hmem, decide_true, if_true]
    · have hheader : ¬(header ∈ headers ∧ name = key) := fun hin => hmem (hsub hin.1)
      simp only [hmem, hheader, decide_false, if_false, Bool.false_eq_true]
  rw [hfilter, hfilter, h]

end Conf

namespace Settings

open Conf.Grammar (concerning isInLine lines)
open Text.Utf8 (encode)

/-- Files that agree in the lines that concern a mode give it the same bundle, the same data
directory and the same flags. -/
theorem parse_eq_of_concerning (settings : Settings) (mode : RunMode) (text other : List UInt8)
    (h : concerning [mode.sectionName, rootSection] rootSection (lines text) =
      concerning [mode.sectionName, rootSection] rootSection (lines other)) :
    let once := (settings.parse mode (.ofBytes text)).1
    let again := (settings.parse mode (.ofBytes other)).1
    once.bundle mode = again.bundle mode ∧ once.datadir = again.datadir ∧
      once.flags mode = again.flags mode := by
  intro once again
  have hplaced := Conf.Grammar.filter_placed_eventsFrom [mode.sectionName, rootSection]
  have hevents : (Conf.placed rootSection (Conf.events (.ofBytes text))).filter
        (·.1 ∈ [mode.sectionName, rootSection]) =
      (Conf.placed rootSection (Conf.events (.ofBytes other))).filter
        (·.1 ∈ [mode.sectionName, rootSection]) := by
    rw [Conf.events_ofBytes, Conf.events_ofBytes, Conf.Grammar.events, Conf.Grammar.events,
      hplaced rootSection 1 1 (lines text), hplaced rootSection 1 1 (lines other), h]
  have hbundle : once.bundle mode = again.bundle mode := by
    refine Bundle.ext_setting fun field => ?_
    have honce := settings.setting?_parse mode (.ofBytes text) (slot?_sectionName mode field) rfl
    have hagain := settings.setting?_parse mode (.ofBytes other) (slot?_sectionName mode field) rfl
    rw [textsFor_sectionName, Conf.textsUnder_congr (List.Subset.refl _) hevents,
      ← textsFor_sectionName settings] at honce
    exact Option.some.inj (honce.trans hagain.symm)
  have hdatadir : once.datadir = again.datadir := by
    have honce := settings.setting?_parse mode (.ofBytes text) slot?_rootSection_datadir rfl
    have hagain := settings.setting?_parse mode (.ofBytes other) slot?_rootSection_datadir rfl
    rw [textsFor_datadir, Conf.textsUnder_congr (List.subset_cons_self _ _) hevents,
      ← textsFor_datadir settings] at honce
    exact AnySetting.text.inj (Option.some.inj (honce.trans hagain.symm))
  exact ⟨hbundle, hdatadir, by rw [flags, flags, hbundle, hdatadir]⟩

/-- What stands under the header of the game is of no concern to the editor. -/
theorem parse_eq_of_concerning_editor :
    let text := encode "mono = 1\n[game]\nmono = 0"
    let other := encode "mono = 1\n[game]\n[x"
    concerning [RunMode.edit.sectionName, rootSection] rootSection (lines text) =
        concerning [RunMode.edit.sectionName, rootSection] rootSection (lines other) ∧
      (initial.parse .edit (.ofBytes text)).1.flags .edit =
        (initial.parse .edit (.ofBytes other)).1.flags .edit := by
  intro text other
  have hline {line : List UInt8} (hall : line.all isInLine = true) : lines line = [line] :=
    Conf.Grammar.lines_of_forall_isInLine (List.all_eq_true.mp hall)
  have hlines {last : List UInt8} (hlast : last.all isInLine = true) :
      lines (encode "mono = 1" ++ Conf.lineFeed :: (encode "[game]" ++ Conf.lineFeed :: last)) =
        [encode "mono = 1", encode "[game]", last] := by
    rw [Conf.Grammar.lines_append_feed (by decide), Conf.Grammar.lines_append_feed (by decide),
      hline (by decide), hline (by decide), hline hlast, List.singleton_append,
      List.singleton_append]
  have htext : lines text = [encode "mono = 1", encode "[game]", encode "mono = 0"] :=
    hlines (by decide)
  have hother : lines other = [encode "mono = 1", encode "[game]", encode "[x"] :=
    hlines (by decide)
  have h : concerning [RunMode.edit.sectionName, rootSection] rootSection (lines text) =
      concerning [RunMode.edit.sectionName, rootSection] rootSection (lines other) := by
    rw [htext, hother]
    decide +kernel
  exact ⟨h, (parse_eq_of_concerning initial .edit text other h).2.2⟩

end Settings

end GameSetup
