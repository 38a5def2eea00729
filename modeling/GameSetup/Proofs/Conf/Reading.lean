import GameSetup.Conf.Journal
import GameSetup.Proofs.Conf.LineReading

/-!
# Reading a configuration agrees with its grammar

The reader ends a line at a carriage return and skips a line feed right behind it, so at any moment
it stands in front of the text that the grammar still has to cut, or in front of a feed that the
grammar has cut already. Between two lines nothing is carried over but the number.

The main statement is about every finite text: the journal of its reading holds exactly the events
of its lines.
-/

namespace GameSetup.Conf

open Grammar

namespace Line

/-- What the rest of a line and the lines behind it reveal. -/
def revealsLines (number : Nat) (line : Line) : List (List UInt8) → List Event
  | [] => []
  | rest :: more => line.reveals number rest ++ eventsFrom (number + 1) more

/-- In front of a line, what is revealed are the events of the lines. -/
theorem revealsLines_empty (number : Nat) (texts : List (List UInt8)) :
    revealsLines number empty texts = eventsFrom number texts := by
  cases texts with
  | nil => rfl
  | cons text more => rw [revealsLines, reveals_empty, eventsFrom_cons]

/-- A byte at the front of the first line is read first. -/
theorem revealsLines_modifyHead (number : Nat) (line : Line) (byte : UInt8)
    {texts : List (List UInt8)} (h : texts ≠ []) :
    revealsLines number line (texts.modifyHead (byte :: ·)) =
      ((line.found byte).map (·.event (line.push byte) number)).toList ++
        revealsLines number (line.push byte) texts := by
  cases texts with
  | nil => exact absurd rfl h
  | cons text more =>
    rw [List.modifyHead_cons, revealsLines, reveals, revealsLines, List.append_assoc]

end Line

namespace Reader

/-- The events that come out of reading a text to its end. -/
def eventsOf (reader : Reader) (text : List UInt8) : List Event :=
  ((reader.pushAll text).endLine false).events.toList

/-- A byte is pushed before those behind it are read. -/
theorem eventsOf_cons (reader : Reader) (byte : UInt8) (text : List UInt8) :
    reader.eventsOf (byte :: text) = (reader.push byte).eventsOf text := rfl

/-- An event is noted at the end, if there is one. -/
theorem toList_note (events : Array Event) (event : Option Event) :
    (note events event).toList = events.toList ++ event.toList := by
  cases event with
  | none => simp [note]
  | some event => simp [note]

/-- The text that the grammar has not cut yet: behind a carriage return, a line feed is cut
already. -/
def uncut (afterReturn : Bool) (text : List UInt8) : List UInt8 :=
  if afterReturn then dropFeed text else text

/-- At the end of a text nothing is left of it. -/
@[simp] theorem uncut_nil (afterReturn : Bool) : uncut afterReturn [] = [] := by
  cases afterReturn <;> rfl

/-- What a byte does to a reader and to the lines that the grammar still has to cut: it ends the
line in both, it is a feed that the grammar has cut already, or it goes into the first line. -/
theorem push_cases (line : Line) (number : Nat) (afterReturn : Bool) (events : Array Event)
    (byte : UInt8) (text : List UInt8) :
    (∃ returned, push ⟨line, number, afterReturn, events⟩ byte =
        endLine returned ⟨line, number, afterReturn, events⟩ ∧
      lines (uncut afterReturn (byte :: text)) = [] :: lines (uncut returned text)) ∨
    (push ⟨line, number, afterReturn, events⟩ byte = ⟨line, number, false, events⟩ ∧
      lines (uncut afterReturn (byte :: text)) = lines (uncut false text)) ∨
    (push ⟨line, number, afterReturn, events⟩ byte =
        inLine ⟨line, number, afterReturn, events⟩ byte ∧
      lines (uncut afterReturn (byte :: text)) =
        (lines (uncut false text)).modifyHead (byte :: ·)) := by
  rw [push]
  obtain rfl | hreturn := eq_or_ne byte carriageReturn
  · have huncut : uncut afterReturn (carriageReturn :: text) = carriageReturn :: text := by
      cases afterReturn <;> rfl
    rw [if_pos (beq_self_eq_true _), huncut, lines_return]
    exact .inl ⟨true, rfl, rfl⟩
  · rw [if_neg (by simpa using hreturn)]
    obtain rfl | hfeed := eq_or_ne byte lineFeed
    · rw [if_pos (beq_self_eq_true _)]
      cases afterReturn with
      | true => exact .inr (.inl ⟨rfl, rfl⟩)
      | false => exact .inl ⟨false, rfl, lines_feed text⟩
    · have huncut : uncut afterReturn (byte :: text) = byte :: text := by
        cases afterReturn with
        | true => exact if_neg hfeed
        | false => rfl
      have hbyte : isInLine byte = true := by simp [isInLine, hreturn, hfeed]
      rw [if_neg (by simpa using hfeed), huncut]
      exact .inr (.inr ⟨rfl, lines_cons_of_isInLine text hbyte⟩)

/-- From any point on, the reader finds what the grammar finds in the text that is not yet cut. The
induction is on that text; the line read so far is arbitrary. -/
theorem eventsOf_eq (line : Line) (number : Nat) (afterReturn : Bool) (events : Array Event)
    (text : List UInt8) :
    eventsOf ⟨line, number, afterReturn, events⟩ text =
      events.toList ++ line.revealsLines number (lines (uncut afterReturn text)) := by
  induction text generalizing line number afterReturn events with
  | nil =>
    rw [uncut_nil, lines_nil, Line.revealsLines, Line.reveals]
    change (note events _).toList = _
    rw [toList_note]
    simp [eventsFrom]
  | cons byte text ih =>
    rw [eventsOf_cons]
    obtain ⟨returned, hpush, hlines⟩ | ⟨hpush, hlines⟩ | ⟨hpush, hlines⟩ :=
      push_cases line number afterReturn events byte text
    · rw [hpush, endLine, ih, toList_note, hlines, Line.revealsLines, Line.reveals,
        Line.revealsLines_empty, List.append_assoc]
    · rw [hpush, ih, hlines]
    · rw [hpush, inLine, ih, toList_note, hlines,
        Line.revealsLines_modifyHead number line byte (lines_ne_nil _), List.append_assoc]

end Reader

/-- The events of a finite text are those of its lines. -/
theorem events_ofBytes (text : List UInt8) : events (.ofBytes text) = Grammar.events text := by
  change Reader.start.eventsOf text = _
  rw [Reader.start, Reader.eventsOf_eq, Line.revealsLines_empty]
  exact List.nil_append _

/-- The journal of a finite text: reading starts and comes to its end, and the events in between are
exactly those of the lines. -/
theorem Journal.ofStream_ofBytes (text : List UInt8) :
    Journal.ofStream (.ofBytes text) = ⟨true, true, Grammar.events text⟩ := by
  have hstarted : (Journal.ofStream (.ofBytes text)).started = true := rfl
  have hfinished := Journal.finished_ofStream (.ofBytes text)
  have hevents := Journal.events_ofStream (.ofBytes text)
  rw [events_ofBytes] at hevents
  calc
    Journal.ofStream (.ofBytes text) =
        ⟨(Journal.ofStream (.ofBytes text)).started, (Journal.ofStream (.ofBytes text)).finished,
          (Journal.ofStream (.ofBytes text)).events⟩ := rfl
    _ = ⟨true, true, Grammar.events text⟩ := by rw [hstarted, hfinished, hevents]; rfl

end GameSetup.Conf
