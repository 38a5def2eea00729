import GameSetup.Proofs.Conf.Lines

/-!
# Readings that are interrupted

When the source fails, the line that is being read is dropped. What has been signalled until then
was signalled for good: no byte that might have followed could have changed it. A line is signalled
at its end, or at its comment if it reaches one, so an interrupted line has been signalled exactly
if its comment has started.
-/

namespace GameSetup.Conf

open Grammar

namespace Grammar

/-- Whether a line has reached its comment. A semicolon starts none where it is the first byte of a
section's name, nor where it spoils a line in brackets. -/
def hasComment (line : List UInt8) : Bool :=
  match line.dropWhile Text.isBlankByte with
  | [] => false
  | first :: rest =>
    if first = ';'.toUInt8 then true
    else if first = '['.toUInt8 then
      (name? rest).isSome && (rest.dropWhile Text.isBlankByte).tail.contains ';'.toUInt8
    else rest.contains ';'.toUInt8

/-- An empty line has no comment. -/
@[simp] theorem hasComment_nil : hasComment [] = false := rfl

/-- The lines that a reading has told when it is interrupted: all but the last, and the last if it
has reached its comment. -/
def told (lines : List (List UInt8)) : List (List UInt8) :=
  lines.dropLast ++ lines.getLast?.toList.filter hasComment

end Grammar

namespace State

/-- What a line is after some more bytes. -/
def after : State → List UInt8 → State
  | state, [] => state
  | state, byte :: rest => (state.advance byte 0 .empty).1.after rest

/-- What a line becomes does not depend on its offsets. -/
theorem advance_fst (state : State) (byte : UInt8) (position : Nat) (span : Span) :
    (state.advance byte position span).1 = (state.advance byte 0 .empty).1 := by
  cases state <;> simp only [advance] <;> split_ifs <;> rfl

/-- A byte that reveals something starts the comment. -/
theorem advance_eq_comment {state : State} {byte : UInt8} {position : Nat} {span : Span}
    (h : (state.advance byte position span).2.2.isSome = true) :
    (state.advance byte position span).1 = .comment := by
  revert h
  cases state <;> simp only [advance] <;> (try split_ifs) <;> simp

variable (rest : List UInt8)

/-- A comment goes on to the end of its line. -/
theorem after_comment : after .comment rest = .comment := by
  induction rest with
  | nil => rfl
  | cons byte rest ih => exact ih

/-- A line stays malformed. -/
theorem after_malformed : after .malformed rest = .malformed := by
  induction rest with
  | nil => rfl
  | cons byte rest ih => exact ih

/-- A value ends at the first semicolon. -/
theorem after_value : after .value rest = .comment ↔ ';'.toUInt8 ∈ rest := by
  induction rest with
  | nil => simp [after]
  | cons byte rest ih =>
    rw [after]
    obtain rfl | hmark := eq_or_ne byte ';'.toUInt8
    · exact iff_of_true (after_comment rest) List.mem_cons_self
    · have hstep : (State.advance .value byte 0 .empty).1 = .value := by
        simp only [advance]
        split_ifs <;> simp_all
      rw [hstep, ih, List.mem_cons, or_iff_right hmark.symm]

/-- So does the place where a value may start. -/
theorem after_equals : after .equals rest = .comment ↔ ';'.toUInt8 ∈ rest := by
  induction rest with
  | nil => simp [after]
  | cons byte rest ih =>
    rw [after]
    obtain rfl | hmark := eq_or_ne byte ';'.toUInt8
    · exact iff_of_true (after_comment rest) List.mem_cons_self
    · rw [List.mem_cons, or_iff_right hmark.symm]
      by_cases hblank : Text.isBlankByte byte = true
      · rw [advance, if_pos hblank, ih]
      · rw [advance, if_neg hblank, if_neg (by simpa using hmark), after_value]

/-- So does a key. -/
theorem after_key : after .key rest = .comment ↔ ';'.toUInt8 ∈ rest := by
  induction rest with
  | nil => simp [after]
  | cons byte rest ih =>
    rw [after]
    obtain rfl | hmark := eq_or_ne byte ';'.toUInt8
    · exact iff_of_true (after_comment rest) List.mem_cons_self
    · rw [List.mem_cons, or_iff_right hmark.symm, advance, if_neg (by simpa using hmark)]
      split_ifs
      · exact after_equals rest
      · exact ih
      · exact ih

/-- Behind closed brackets a comment follows blanks alone. -/
theorem after_closed :
    after .closed rest = .comment ↔ closes rest = true ∧ ';'.toUInt8 ∈ rest := by
  induction rest with
  | nil => simp [after]
  | cons byte rest ih =>
    rw [after]
    obtain rfl | hmark := eq_or_ne byte ';'.toUInt8
    · exact iff_of_true (after_comment rest) ⟨closes_semicolon rest, List.mem_cons_self⟩
    · rw [List.mem_cons, or_iff_right hmark.symm, advance, if_neg (by simpa using hmark)]
      by_cases hblank : Text.isBlankByte byte = true
      · rw [if_pos hblank, ih, closes_cons_of_blank rest hblank]
      · rw [if_neg hblank, after_malformed,
          closes_cons_of_not_blank rest (Bool.eq_false_iff.mpr hblank) hmark]
        simp

/-- The name of a section is closed before a comment starts. -/
theorem after_name (front : List UInt8) :
    after .name rest = .comment ↔
      (nameFrom? front rest).isSome = true ∧ ';'.toUInt8 ∈ rest := by
  induction rest generalizing front with
  | nil => simp [after]
  | cons byte rest ih =>
    rw [after]
    obtain rfl | hbracket := eq_or_ne byte ']'.toUInt8
    · change after .closed rest = .comment ↔ _
      rw [after_closed, nameFrom?_bracket, List.mem_cons, or_iff_right (by decide)]
      cases closes rest <;> simp
    · obtain rfl | hmark := eq_or_ne byte ';'.toUInt8
      · change after .malformed rest = .comment ↔ _
        rw [after_malformed, nameFrom?_semicolon]
        simp
      · have hstep : (State.advance .name byte 0 .empty).1 = .name := by
          simp only [advance]
          split_ifs <;> simp_all
        rw [hstep, List.mem_cons, or_iff_right hmark.symm,
          nameFrom?_cons _ _ (by simp [isInName, hbracket, hmark])]
        exact ih _

/-- The first byte behind an opening bracket starts no comment. -/
theorem after_bracket :
    after .bracket rest = .comment ↔
      (name? rest).isSome = true ∧ ';'.toUInt8 ∈ (rest.dropWhile Text.isBlankByte).tail := by
  induction rest with
  | nil => simp [after]
  | cons byte rest ih =>
    rw [after]
    obtain rfl | hbracket := eq_or_ne byte ']'.toUInt8
    · change after .closed rest = .comment ↔ _
      rw [after_closed, name?_bracket, List.dropWhile_cons_of_neg (by decide), List.tail_cons]
      cases closes rest <;> simp
    · rw [advance, if_neg (by simpa using hbracket)]
      by_cases hblank : Text.isBlankByte byte = true
      · rw [if_pos hblank, ih, name?_cons_of_blank rest hblank, List.dropWhile_cons_of_pos hblank]
      · rw [if_neg hblank, name?_cons_of_not_blank rest (Bool.eq_false_iff.mpr hblank) hbracket,
          List.dropWhile_cons_of_neg hblank, List.tail_cons]
        exact after_name rest [byte]

/-- A whole line ends in its comment exactly if it has one. -/
theorem after_start : after .start rest = .comment ↔ hasComment rest = true := by
  induction rest with
  | nil => simp [after]
  | cons byte rest ih =>
    rw [after, advance]
    by_cases hblank : Text.isBlankByte byte = true
    · rw [if_pos hblank, ih, hasComment, hasComment, List.dropWhile_cons_of_pos hblank]
    · rw [if_neg hblank, hasComment, List.dropWhile_cons_of_neg hblank]
      obtain rfl | hbracket := eq_or_ne byte '['.toUInt8
      · change after .bracket rest = .comment ↔ _
        rw [after_bracket]
        change _ ↔ ((name? rest).isSome && _) = true
        rw [Bool.and_eq_true, List.contains_iff_mem]
      · rw [if_neg (by simpa using hbracket)]
        obtain rfl | hmark := eq_or_ne byte ';'.toUInt8
        · exact iff_of_true (after_comment rest) rfl
        · simpa [hbracket, hmark] using after_key rest

end State

namespace Line

/-- What some more bytes of a line reveal, as long as the line does not end. -/
def shows (number : Nat) : Line → List UInt8 → List Event
  | _, [] => []
  | line, byte :: rest =>
    ((line.found byte).map (·.event (line.push byte) number)).toList ++
      shows number (line.push byte) rest

variable (number : Nat) (line : Line) (rest : List UInt8)

/-- A byte moves the line on to its next state. -/
theorem state_push (byte : UInt8) :
    (line.push byte).state = (line.state.advance byte 0 .empty).1 :=
  State.advance_fst line.state byte line.bytes.size line.span

/-- Unless it ends in its comment, a line shows nothing before its end. -/
theorem shows_eq_nil (h : line.state.after rest ≠ .comment) : line.shows number rest = [] := by
  induction rest generalizing line with
  | nil => rfl
  | cons byte rest ih =>
    rw [State.after, ← state_push] at h
    -- A byte that revealed something would have started the comment, and there the line would stay.
    have hfound : line.found byte = none := by
      rw [← Option.not_isSome_iff_eq_none]
      intro hsome
      have hcomment : (line.push byte).state = .comment := State.advance_eq_comment hsome
      rw [hcomment] at h
      exact h (State.after_comment rest)
    rw [shows, hfound, ih _ h]
    rfl

/-- A line that ends in its comment has shown all that it reveals. -/
theorem shows_eq_reveals (h : line.state.after rest = .comment) :
    line.shows number rest = line.reveals number rest := by
  induction rest generalizing line with
  | nil =>
    have hend : line.state.atEnd = none := congrArg State.atEnd h
    rw [shows, reveals, hend]
    rfl
  | cons byte rest ih =>
    rw [State.after, ← state_push] at h
    rw [shows, reveals, ih _ h]

/-- What an unfinished line shows is what it says if it has reached its comment. -/
theorem shows_empty (line : List UInt8) :
    shows number empty line = eventsFrom number ([line].filter hasComment) := by
  by_cases h : hasComment line = true
  · rw [shows_eq_reveals number empty line ((State.after_start line).mpr h), reveals_empty,
      List.filter_cons_of_pos h, List.filter_nil, eventsFrom_cons, eventsFrom_nil, List.append_nil]
  · rw [shows_eq_nil number empty line (fun hend => h ((State.after_start line).mp hend)),
      List.filter_cons_of_neg h]
    rfl

/-- What an unfinished text shows: whole lines reveal what they say, and the last one shows it if it
has reached its comment. -/
def showsLines (number : Nat) (line : Line) : List (List UInt8) → List Event
  | [] => []
  | [rest] => line.shows number rest
  | rest :: next :: more =>
    line.reveals number rest ++ eventsFrom (number + 1) (told (next :: more))

/-- In front of a line, what is shown are the events of the lines that are told. -/
theorem showsLines_empty {texts : List (List UInt8)} (h : texts ≠ []) :
    showsLines number empty texts = eventsFrom number (told texts) := by
  match texts with
  | [text] => exact shows_empty number text
  | text :: next :: more =>
    have htold : told (text :: next :: more) = text :: told (next :: more) := rfl
    rw [showsLines, reveals_empty, htold, eventsFrom_cons]

/-- Where a line ends, what it reveals is shown. -/
theorem showsLines_nil_cons {texts : List (List UInt8)} (h : texts ≠ []) :
    showsLines number line ([] :: texts) =
      (line.state.atEnd.map (·.event line number)).toList ++
        eventsFrom (number + 1) (told texts) := by
  match texts with
  | next :: more => rfl

/-- A byte at the front of the first line is read first. -/
theorem showsLines_modifyHead (byte : UInt8) {texts : List (List UInt8)} (h : texts ≠ []) :
    showsLines number line (texts.modifyHead (byte :: ·)) =
      ((line.found byte).map (·.event (line.push byte) number)).toList ++
        showsLines number (line.push byte) texts := by
  match texts with
  | [text] => rfl
  | text :: next :: more =>
    rw [List.modifyHead_cons, showsLines, reveals, showsLines, List.append_assoc]

end Line

namespace Reader

/-- What a reader has told of a text that may go on. The induction is on that text; the line read so
far is arbitrary. -/
theorem toList_events_pushAll (line : Line) (number : Nat) (afterReturn : Bool)
    (events : Array Event) (text : List UInt8) :
    (pushAll ⟨line, number, afterReturn, events⟩ text).events.toList =
      events.toList ++ line.showsLines number (lines (uncut afterReturn text)) := by
  induction text generalizing line number afterReturn events with
  | nil =>
    rw [uncut_nil, lines_nil, Line.showsLines, Line.shows, List.append_nil]
    rfl
  | cons byte text ih =>
    change (pushAll (push _ byte) text).events.toList = _
    obtain ⟨returned, hpush, hlines⟩ | ⟨hpush, hlines⟩ | ⟨hpush, hlines⟩ :=
      push_cases line number afterReturn events byte text
    · rw [hpush, endLine, ih, toList_note, hlines, Line.showsLines_nil_cons _ _ (lines_ne_nil _),
        Line.showsLines_empty _ (lines_ne_nil _), List.append_assoc]
    · rw [hpush, ih, hlines]
    · rw [hpush, inLine, ih, toList_note, hlines,
        Line.showsLines_modifyHead number line byte (lines_ne_nil _), List.append_assoc]

/-- What a reader has told stays told, whatever it reads next. -/
theorem events_isPrefix_eventsOf (reader : Reader) (text : List UInt8) :
    reader.events.toList <+: reader.eventsOf text := by
  obtain ⟨line, number, afterReturn, events⟩ := reader
  rw [eventsOf_eq]
  exact List.prefix_append _ _

end Reader

variable (front back : List UInt8) (fault : Fault)

/-- The events of an interrupted text are those of the lines that are told. -/
theorem events_interrupted : events ⟨front, some fault⟩ = eventsFrom 1 (told (lines front)) := by
  change (Reader.start.pushAll front).events.toList = _
  rw [Reader.start, Reader.toList_events_pushAll, Line.showsLines_empty _ (lines_ne_nil _)]
  exact List.nil_append _

/-- The lines of a stream that its reading tells: all of them, or those that are told when a fault
interrupts it. -/
def Grammar.toldLines (stream : Stream) : List (List UInt8) :=
  match stream.fault with
  | none => lines stream.bytes
  | some _ => told (lines stream.bytes)

/-- The events of a stream are those of the lines that are told. -/
theorem events_eq_eventsFrom (stream : Stream) : events stream = eventsFrom 1 (toldLines stream) := by
  obtain ⟨bytes, fault⟩ := stream
  cases fault with
  | none => exact events_ofBytes bytes
  | some fault => exact events_interrupted bytes fault

/-- No byte that might have followed changes what an interrupted text has told. -/
theorem events_interrupted_isPrefix :
    events ⟨front, some fault⟩ <+: events (.ofBytes (front ++ back)) := by
  change _ <+: Reader.start.eventsOf (front ++ back)
  rw [Reader.eventsOf, Reader.pushAll_append]
  exact (Reader.start.pushAll front).events_isPrefix_eventsOf back

/-- A text that is interrupted behind a carriage return has told all its lines. -/
theorem events_interrupted_return :
    events ⟨front ++ [carriageReturn], some fault⟩ = Grammar.events front := by
  have htold : told (lines front ++ [[]]) = lines front := by simp [told]
  rw [events_interrupted, lines_append_return, dropFeed, lines_nil, htold, Grammar.events]

/-- The journal of an interrupted reading. Its outcome is the fault; it has started and has not come
to its end; its events are those of the lines in front of the last, and of the last one too if it
has reached its comment. Whatever might have followed, a complete reading would have begun with the
same events. A carriage return at the end has ended its line, and a line feed behind it ends no
other. -/
theorem Journal.ofStream_interrupted :
    Stream.outcome ⟨front, some fault⟩ = .error fault ∧
      Journal.ofStream ⟨front, some fault⟩ = ⟨true, false, eventsFrom 1 (told (lines front))⟩ ∧
      (∀ back, Stream.outcome (.ofBytes (front ++ back)) = .ok () ∧
        (Journal.ofStream (.ofBytes (front ++ back))).finished = true ∧
        (Journal.ofStream ⟨front, some fault⟩).events <+:
          (Journal.ofStream (.ofBytes (front ++ back))).events) ∧
      (Journal.ofStream ⟨front ++ [carriageReturn], some fault⟩).events = Grammar.events front ∧
      ∀ back, (Journal.ofStream (.ofBytes (front ++ carriageReturn :: back))).events =
        Grammar.events front ++ eventsFrom ((lines front).length + 1) (lines (dropFeed back)) := by
  refine ⟨rfl, ?_, fun back => ⟨rfl, ?_, ?_⟩, ?_, fun back => ?_⟩
  · rw [Journal.ofStream_eq, events_interrupted]
    rfl
  · rw [Journal.finished_ofStream]
    rfl
  · rw [Journal.events_ofStream, Journal.events_ofStream]
    exact events_interrupted_isPrefix front back fault
  · rw [Journal.events_ofStream, events_interrupted_return]
  · rw [Journal.events_ofStream, events_ofBytes, Grammar.events, lines_append_return,
      eventsFrom_append, Nat.add_comm, ← Grammar.events]

end GameSetup.Conf
