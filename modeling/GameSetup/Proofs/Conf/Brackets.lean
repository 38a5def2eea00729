import GameSetup.Conf.Journal
import GameSetup.Proofs.Conf.Interruption

/-!
# Semicolons between brackets

A line that starts with a bracket names a section if it has one of two forms, and it is malformed if
it has neither. A semicolon in front of the closing bracket spoils both, with one exception: it may
be the first byte of the name, since nothing is ruled out there but a blank and the closing bracket.

So a line with such a semicolon is reported as malformed unless the name starts with it, and then
the line starts a section of that name.
-/

namespace GameSetup.Conf

open Grammar

namespace Grammar

/-- What may follow the opening bracket of a section, and the name of the section: a closing bracket
alone, or a name in front of it. Behind it there is nothing but blanks, or a comment. -/
inductive Named : List UInt8 → List UInt8 → Prop
  | empty {gap tail : List UInt8} (hgap : ∀ byte ∈ gap, Text.isBlankByte byte = true)
      (htail : closes tail = true) : Named (gap ++ ']'.toUInt8 :: tail) []
  | name {gap inner tail : List UInt8} {first : UInt8}
      (hgap : ∀ byte ∈ gap, Text.isBlankByte byte = true)
      (hfirst : Text.isBlankByte first = false) (hbracket : first ≠ ']'.toUInt8)
      (hinner : ∀ byte ∈ inner, isInName byte = true) (htail : closes tail = true) :
      Named (gap ++ first :: (inner ++ ']'.toUInt8 :: tail)) (trimEnd (first :: inner))

section Names

variable {front text name : List UInt8}

/-- A name goes on up to a closing bracket, behind which nothing counts. -/
theorem nameFrom?_eq_some_iff :
    nameFrom? front text = some name ↔
      ∃ inner tail, inner ++ ']'.toUInt8 :: tail = text ∧
        (∀ byte ∈ inner, isInName byte = true) ∧ closes tail = true ∧
        trimEnd (front ++ inner) = name := by
  constructor
  · intro h
    rw [nameFrom?] at h
    cases hrest : text.dropWhile isInName with
    | nil =>
      rw [hrest] at h
      cases h
    | cons byte tail =>
      rw [hrest] at h
      simp only [Option.ite_none_right_eq_some, Option.some.injEq] at h
      obtain ⟨⟨rfl, htail⟩, hname⟩ := h
      refine ⟨text.takeWhile isInName, tail, ?_, fun _ => List.mem_takeWhile_imp, htail, hname⟩
      rw [← hrest, List.takeWhile_append_dropWhile]
  · rintro ⟨inner, tail, rfl, hinner, htail, rfl⟩
    have hstop : ∀ byte ∈ (']'.toUInt8 :: tail).head?, isInName byte = false :=
      fun byte hbyte => Option.mem_some.mp hbyte ▸ rfl
    rw [nameFrom?, Text.dropWhile_run hinner hstop, Text.takeWhile_run hinner hstop]
    exact if_pos ⟨rfl, htail⟩

/-- The name of a section is found exactly if what follows the opening bracket has one of the two
forms. -/
theorem name?_eq_some_iff : name? text = some name ↔ Named text name := by
  have htext : text.takeWhile Text.isBlankByte ++ text.dropWhile Text.isBlankByte = text :=
    List.takeWhile_append_dropWhile
  have hgap : ∀ byte ∈ text.takeWhile Text.isBlankByte, Text.isBlankByte byte = true :=
    fun _ => List.mem_takeWhile_imp
  constructor
  · intro h
    rw [name?] at h
    cases hrest : text.dropWhile Text.isBlankByte with
    | nil =>
      rw [hrest] at h
      cases h
    | cons first rest =>
      have hfirst := isBlankByte_of_dropWhile_eq_cons (fun _ hblank => hblank) hrest
      rw [hrest] at h htext
      rw [← htext]
      by_cases hbracket : first = ']'.toUInt8
      · simp only [if_pos hbracket, Option.ite_none_right_eq_some, Option.some.injEq] at h
        rw [hbracket, ← h.2]
        exact .empty hgap h.1
      · simp only [if_neg hbracket, nameFrom?_eq_some_iff] at h
        obtain ⟨inner, tail, rfl, hinner, htail, rfl⟩ := h
        exact .name hgap hfirst hbracket hinner htail
  · intro h
    cases h with
    | @empty gap tail hblank htail =>
      have hstop : ∀ byte ∈ (']'.toUInt8 :: tail).head?, Text.isBlankByte byte = false :=
        fun byte hbyte => Option.mem_some.mp hbyte ▸ rfl
      rw [name?, Text.dropWhile_run hblank hstop]
      exact (if_pos rfl).trans (if_pos htail)
    | @name gap inner tail first hblank hfirst hbracket hinner htail =>
      rw [name?, Text.dropWhile_run hblank (by simpa using hfirst)]
      refine (if_neg hbracket).trans ?_
      exact nameFrom?_eq_some_iff.mpr ⟨inner, tail, rfl, hinner, htail, rfl⟩

end Names

/-- What may follow the opening bracket if the name starts with a semicolon, and the name. -/
inductive SemicolonName : List UInt8 → List UInt8 → Prop
  | intro {gap inner tail : List UInt8} (hgap : ∀ byte ∈ gap, Text.isBlankByte byte = true)
      (hinner : ∀ byte ∈ inner, isInName byte = true) (htail : closes tail = true) :
      SemicolonName (gap ++ ';'.toUInt8 :: (inner ++ ']'.toUInt8 :: tail))
        (trimEnd (';'.toUInt8 :: inner))

/-- A semicolon in front of the closing bracket has to be the first byte of the name. -/
theorem named_iff_semicolonName {text name : List UInt8}
    (hmark : ';'.toUInt8 ∈ text.takeWhile (· ≠ ']'.toUInt8)) :
    Named text name ↔ SemicolonName text name := by
  have hfront {front tail : List UInt8} (hne : ∀ byte ∈ front, byte ≠ ']'.toUInt8) :
      (front ++ ']'.toUInt8 :: tail).takeWhile (· ≠ ']'.toUInt8) = front :=
    Text.takeWhile_run (fun byte hbyte => decide_eq_true (hne byte hbyte)) (by simp)
  constructor
  · intro h
    cases h with
    | @empty gap tail hgap htail =>
      rw [hfront fun byte hbyte => ne_of_isBlankByte (hgap byte hbyte) _ rfl] at hmark
      exact absurd (hgap _ hmark) (by decide)
    | @name gap inner tail first hgap hfirst hbracket hinner htail =>
      have hne : ∀ byte ∈ gap ++ first :: inner, byte ≠ ']'.toUInt8 := by
        simp only [List.mem_append, List.mem_cons]
        intro byte hbyte
        rcases hbyte with hbyte | hbyte | hbyte
        · exact ne_of_isBlankByte (hgap byte hbyte) _ rfl
        · exact hbyte ▸ hbracket
        · exact (by simpa [isInName] using hinner byte hbyte : _ ∧ _).1
      rw [← List.cons_append, ← List.append_assoc, hfront hne, List.mem_append, List.mem_cons] at hmark
      rcases hmark with hmem | hmem | hmem
      · exact absurd (hgap _ hmem) (by decide)
      · rw [← hmem]
        exact .intro hgap hinner htail
      · exact absurd (hinner _ hmem) (by decide)
  · intro h
    cases h with
    | intro hgap hinner htail => exact .name hgap rfl (by decide) hinner htail

/-- A line that starts with an opening bracket is a section or malformed. -/
theorem lineEvent?_bracket (number : Nat) {line rest : List UInt8}
    (hline : line.dropWhile Text.isBlankByte = '['.toUInt8 :: rest) :
    lineEvent? number line =
      some (headerEvent (.badLine (Text.Utf8.decode line) number) (name? rest)) := by
  rw [lineEvent?_eq, hline]
  rfl

end Grammar

/-- A line in brackets with a semicolon in front of the first closing one, or anywhere if there is
none. It has one event: a section whose name starts with that semicolon, if the line is one, and
otherwise it is reported as malformed, with all its bytes and its number. -/
theorem Journal.events_semicolon_in_brackets {stream : Stream} {before after : List (List UInt8)}
    {line rest : List UInt8} (htold : toldLines stream = before ++ line :: after)
    (hline : line.dropWhile Text.isBlankByte = '['.toUInt8 :: rest)
    (hmark : ';'.toUInt8 ∈ rest.takeWhile (· ≠ ']'.toUInt8)) :
    ∃ event, (Journal.ofStream stream).events =
        eventsFrom 1 before ++ event :: eventsFrom (before.length + 2) after ∧
      (∀ name, SemicolonName rest name → event = .header (Text.Utf8.decode name)) ∧
      ((∀ name, ¬ SemicolonName rest name) →
        event = .badLine (Text.Utf8.decode line) (before.length + 1)) := by
  refine ⟨headerEvent (.badLine (Text.Utf8.decode line) (before.length + 1)) (name? rest),
    ?_, fun name hname => ?_, fun hnone => ?_⟩
  · rw [Journal.events_ofStream, events_eq_eventsFrom, htold, eventsFrom_append, eventsFrom_cons,
      Nat.add_comm 1, lineEvent?_bracket _ hline]
    rfl
  · rw [name?_eq_some_iff.mpr ((named_iff_semicolonName hmark).mpr hname), headerEvent]
  · have hmissing : name? rest = none := by
      rw [Option.eq_none_iff_forall_ne_some]
      exact fun name hname =>
        hnone name ((named_iff_semicolonName hmark).mp (name?_eq_some_iff.mp hname))
    rw [hmissing, headerEvent]

/-- Behind a key, a section whose name does not start with the semicolon is reported as line two. -/
theorem Journal.events_semicolon_in_brackets_second :
    let line := Text.Utf8.encode " [ a;b] ;c"
    let rest := Text.Utf8.encode " a;b] ;c"
    let stream := Stream.ofBytes (Text.Utf8.encode "k" ++ lineFeed :: line)
    toldLines stream = [Text.Utf8.encode "k"] ++ line :: [] ∧
      line.dropWhile Text.isBlankByte = '['.toUInt8 :: rest ∧
      ';'.toUInt8 ∈ rest.takeWhile (· ≠ ']'.toUInt8) ∧
      ∃ event, (Journal.ofStream stream).events =
          eventsFrom 1 [Text.Utf8.encode "k"] ++ event :: eventsFrom 3 [] ∧
        (∀ name, SemicolonName rest name → event = .header (Text.Utf8.decode name)) ∧
        ((∀ name, ¬ SemicolonName rest name) → event = .badLine (Text.Utf8.decode line) 2) := by
  intro line rest stream
  have htold : toldLines stream = [Text.Utf8.encode "k"] ++ line :: [] := by
    change lines (Text.Utf8.encode "k" ++ lineFeed :: line) = _
    rw [lines_append_feed (by decide),
      lines_of_forall_isInLine (List.all_eq_true.mp (by decide)),
      lines_of_forall_isInLine (List.all_eq_true.mp (by decide))]
  have hline : line.dropWhile Text.isBlankByte = '['.toUInt8 :: rest := by decide
  have hmark : ';'.toUInt8 ∈ rest.takeWhile (· ≠ ']'.toUInt8) := by decide
  exact ⟨htold, hline, hmark, events_semicolon_in_brackets htold hline hmark⟩

/-- A semicolon right behind the opening bracket is not reported: it starts the name of a
section. -/
theorem Journal.semicolon_starts_section :
    let line := Text.Utf8.encode "[;a]"
    let rest := Text.Utf8.encode ";a]"
    let stream := Stream.ofBytes (line ++ [lineFeed])
    toldLines stream = [line, []] ∧
      line.dropWhile Text.isBlankByte = '['.toUInt8 :: rest ∧
      ';'.toUInt8 ∈ rest.takeWhile (· ≠ ']'.toUInt8) ∧
      (Journal.ofStream stream).events = [.header ";a"] ∧
      .badLine "[;a]" 1 ∉ (Journal.ofStream stream).events := by
  intro line rest stream
  have htold : toldLines stream = [line, []] := by
    change lines (line ++ lineFeed :: []) = _
    rw [lines_append_feed (by decide), lines_nil,
      lines_of_forall_isInLine (List.all_eq_true.mp (by decide))]
    rfl
  have hevents : (Journal.ofStream stream).events = [.header ";a"] := by decide +kernel
  refine ⟨htold, by decide, by decide, hevents, ?_⟩
  rw [hevents]
  decide

end GameSetup.Conf
