import GameSetup.Proofs.Conf.Reading

/-!
# Texts that are read one behind the other

A text may be cut behind any end of a line, and what follows is read on its own, up to the numbers
of the lines. The one exception is a cut between a carriage return and a line feed, which end a line
together.

So a text that ends with a whole line says the same whatever follows it, and such texts can be put
together.
-/

namespace GameSetup.Conf.Grammar

/-- The events of lines that are read one behind the other. -/
theorem eventsFrom_append (number : Nat) (front back : List (List UInt8)) :
    eventsFrom number (front ++ back) =
      eventsFrom number front ++ eventsFrom (number + front.length) back := by
  rw [eventsFrom, List.zipIdx_append, List.filterMap_append]
  rfl

/-- No lines, no events. -/
@[simp] theorem eventsFrom_nil (number : Nat) : eventsFrom number [] = [] := rfl

/-- An empty line says nothing. -/
theorem eventsFrom_singleton_nil (number : Nat) : eventsFrom number [[]] = [] := rfl

/-- Only a malformed line says its number. -/
theorem bind_lineEvent? {β : Type} (select : Event → Option β)
    (h : ∀ text number, select (.badLine text number) = none) (number other : Nat)
    (line : List UInt8) :
    (lineEvent? number line).bind select = (lineEvent? other line).bind select := by
  rw [lineEvent?, lineEvent?]
  cases trim line with
  | nil => rfl
  | cons first rest =>
    rw [textEvent?, textEvent?]
    split_ifs
    · rfl
    · cases name? rest with
      | none => exact (h _ _).trans (h _ _).symm
      | some name => rfl
    · rfl

/-- What is selected from events does not depend on the numbers, unless malformed lines are. -/
theorem filterMap_eventsFrom {β : Type} (select : Event → Option β)
    (h : ∀ text number, select (.badLine text number) = none) (number : Nat)
    (lines : List (List UInt8)) :
    (eventsFrom number lines).filterMap select =
      lines.filterMap fun line => (lineEvent? 1 line).bind select := by
  induction lines generalizing number with
  | nil => rfl
  | cons line lines ih =>
    rw [eventsFrom_cons, List.filterMap_append, ih, List.filterMap_cons,
      bind_lineEvent? select h 1 number]
    cases lineEvent? number line with
    | none => rfl
    | some event => cases hselect : select event <;> simp [hselect]

/-- What follows the end of a line is part of the text behind it. -/
theorem afterLineEnd_suffix (text : List UInt8) : afterLineEnd text <:+ text := by
  cases text with
  | nil => exact List.suffix_refl _
  | cons byte rest =>
    refine List.IsSuffix.trans ?_ (List.suffix_cons byte rest)
    rw [afterLineEnd]
    split
    · cases rest with
      | nil => exact List.suffix_refl _
      | cons next rest =>
        rw [dropFeed]
        split
        · exact List.suffix_cons next rest
        · exact List.suffix_refl _
    · exact List.suffix_refl _

section Cut

variable {front back : List UInt8} {mark : UInt8}

/-- A suffix ends as the text does. -/
theorem getLast?_of_suffix {text rest : List UInt8} {last : UInt8} (h : rest <:+ text)
    (hlast : rest.getLast? = some last) : text.getLast? = some last := by
  obtain ⟨front, rfl⟩ := h
  rw [List.getLast?_append, hlast, Option.some_or]

/-- The end of the first line is cut off whatever follows, if it is complete. -/
theorem afterLineEnd_append (hfront : front ≠ [])
    (hpair : front.getLast? = some carriageReturn → mark ≠ lineFeed) :
    afterLineEnd (front ++ mark :: back) = afterLineEnd front ++ mark :: back := by
  match front with
  | [byte] =>
    rw [List.singleton_append, afterLineEnd, afterLineEnd]
    split
    case isTrue hreturn =>
      rw [dropFeed, dropFeed, if_neg (hpair (congrArg some hreturn)), List.nil_append]
    case isFalse => rfl
  | byte :: next :: rest =>
    rw [List.cons_append, List.cons_append, afterLineEnd, afterLineEnd, dropFeed, dropFeed]
    split
    · split <;> rfl
    · rfl

/-- A text may be cut behind the end of a line, unless the end is the second half of a pair. -/
theorem lines_append_end (hmark : isInLine mark = false)
    (hpair : front.getLast? = some carriageReturn → mark ≠ lineFeed) :
    lines (front ++ mark :: back) = lines front ++ lines (afterLineEnd (mark :: back)) := by
  have hstop : (mark :: back).dropWhile isInLine = mark :: back :=
    List.dropWhile_cons_of_neg (by simp [hmark])
  -- The last line of the front ends at the mark. In any other, the rest of the front ends the same
  -- way as the front, so the induction can go on behind it.
  induction front using lines.induct with
  | case1 front hend =>
    have hall : ∀ byte ∈ front, isInLine byte = true := List.dropWhile_eq_nil_iff.mp hend
    have hdrop : (front ++ mark :: back).dropWhile isInLine = mark :: back := by
      rw [List.dropWhile_append_of_pos hall, hstop]
    have htake : (front ++ mark :: back).takeWhile isInLine = front.takeWhile isInLine := by
      rw [List.takeWhile_append_of_pos hall, List.takeWhile_cons_of_neg (by simp [hmark]),
        List.append_nil, List.takeWhile_eq_self_iff.mpr hall]
    rw [lines_of_dropWhile_ne_nil (by rw [hdrop]; exact List.cons_ne_nil _ _), hdrop, htake,
      lines_of_dropWhile_eq_nil hend, List.singleton_append]
  | case2 front hend ih =>
    have hrest : front.dropWhile isInLine <:+ front := List.dropWhile_suffix _
    have hafter := (afterLineEnd_suffix (front.dropWhile isInLine)).trans hrest
    have hdrop : (front ++ mark :: back).dropWhile isInLine =
        front.dropWhile isInLine ++ mark :: back := by
      rw [List.dropWhile_append, if_neg (by simpa using hend)]
    have htake : (front ++ mark :: back).takeWhile isInLine = front.takeWhile isInLine := by
      have hcut : (front.takeWhile isInLine).length ≠ front.length := fun hlength => hend
        (List.dropWhile_eq_nil_iff.mpr fun byte hbyte =>
          List.takeWhile_eq_self_iff.mp ((List.takeWhile_prefix _).eq_of_length hlength) byte hbyte)
      rw [List.takeWhile_append, if_neg hcut]
    rw [lines_of_dropWhile_ne_nil (by rw [hdrop]; exact List.append_ne_nil_of_left_ne_nil hend _),
      hdrop, htake,
      afterLineEnd_append hend (fun hlast => hpair (getLast?_of_suffix hrest hlast)),
      ih (fun hlast => hpair (getLast?_of_suffix hafter hlast)), lines_of_dropWhile_ne_nil hend,
      List.cons_append]

/-- A carriage return ends its line, whether or not a line feed follows. -/
theorem lines_append_return (front back : List UInt8) :
    lines (front ++ carriageReturn :: back) = lines front ++ lines (dropFeed back) :=
  lines_append_end rfl fun _ => by decide

/-- A line feed ends its line, unless it is the second half of a pair. -/
theorem lines_append_feed (h : front.getLast? ≠ some carriageReturn) :
    lines (front ++ lineFeed :: back) = lines front ++ lines back :=
  lines_append_end rfl fun hlast => absurd hlast h

end Cut

/-- A line holds no end of a line. -/
theorem isInLine_of_mem_lines {text line : List UInt8} {byte : UInt8} (hline : line ∈ lines text)
    (hbyte : byte ∈ line) : isInLine byte = true := by
  induction text using lines.induct with
  | case1 text hend =>
    rw [lines_of_dropWhile_eq_nil hend, List.mem_singleton] at hline
    exact List.mem_takeWhile_imp (hline ▸ hbyte)
  | case2 text hend ih =>
    rw [lines_of_dropWhile_ne_nil hend, List.mem_cons] at hline
    rcases hline with rfl | hline
    · exact List.mem_takeWhile_imp hbyte
    · exact ih hline

/-- A text without an end of a line is its only line. -/
theorem lines_of_forall_isInLine {line : List UInt8} (h : ∀ byte ∈ line, isInLine byte = true) :
    lines line = [line] := by
  rw [lines_of_dropWhile_eq_nil (List.dropWhile_eq_nil_iff.mpr h), List.takeWhile_eq_self_iff.mpr h]

/-- Whether a text ends with a whole line and says certain events, whatever follows it and however
its lines are numbered. -/
def Says (text : List UInt8) (events : List Event) : Prop :=
  ∃ shown, (∀ rest, lines (text ++ rest) = shown ++ lines rest) ∧
    ∀ number, eventsFrom number shown = events

namespace Says

variable {text other : List UInt8} {found more : List Event}

/-- An empty text says nothing. -/
theorem nil : Says [] [] :=
  ⟨[], fun _ => rfl, fun _ => rfl⟩

/-- Texts say one behind the other what each of them says. -/
theorem append (htext : Says text found) (hother : Says other more) :
    Says (text ++ other) (found ++ more) := by
  obtain ⟨shown, hlines, hfound⟩ := htext
  obtain ⟨next, hnext, hmore⟩ := hother
  refine ⟨shown ++ next, fun rest => ?_, fun number => ?_⟩
  · rw [List.append_assoc, hlines, hnext, List.append_assoc]
  · rw [eventsFrom_append, hfound, hmore]

/-- So do any number of texts. -/
theorem flatMap {α : Type*} {texts : List α} {write : α → List UInt8} {events : α → List Event}
    (h : ∀ text ∈ texts, Says (write text) (events text)) :
    Says (texts.flatMap write) (texts.flatMap events) := by
  induction texts with
  | nil => exact nil
  | cons text texts ih =>
    rw [List.flatMap_cons, List.flatMap_cons]
    exact append (h text List.mem_cons_self)
      (ih fun text hmem => h text (List.mem_cons_of_mem _ hmem))

/-- A text in front of a line feed says what its lines say. If it ends with a carriage return, the
feed belongs to that. -/
theorem feed (h : ∀ line ∈ lines text, ∀ number, lineEvent? number line = none) :
    Says (text ++ [lineFeed]) [] := by
  have hsilent {shown : List (List UInt8)} (hshown : shown ⊆ lines text) (number : Nat) :
      eventsFrom number shown = [] := by
    rw [eventsFrom, List.filterMap_eq_nil_iff]
    rintro ⟨line, number⟩ hmem
    exact h line (hshown (List.fst_mem_of_mem_zipIdx hmem)) number
  by_cases hlast : text.getLast? = some carriageReturn
  · obtain ⟨front, rfl⟩ := List.getLast?_eq_some_iff.mp hlast
    refine ⟨lines front, fun rest => ?_, hsilent ?_⟩
    · rw [List.append_assoc, List.append_assoc, List.singleton_append, List.singleton_append,
        lines_append_return, dropFeed, if_pos rfl]
    · rw [lines_append_return]
      exact List.subset_append_left _ _
  · refine ⟨lines text, fun rest => ?_, hsilent (List.Subset.refl _)⟩
    rw [List.append_assoc, List.singleton_append, lines_append_feed hlast]

/-- A whole line says what it says. -/
theorem line (hline : ∀ byte ∈ text, isInLine byte = true)
    (h : ∀ number, (lineEvent? number text).toList = found) : Says (text ++ [lineFeed]) found := by
  refine ⟨[text], fun rest => ?_, fun number => ?_⟩
  · have hlast : text.getLast? ≠ some carriageReturn := fun hreturn =>
      absurd (hline _ (List.mem_of_getLast? hreturn)) (by decide)
    rw [List.append_assoc, List.singleton_append, lines_append_feed hlast,
      lines_of_forall_isInLine hline]
  · rw [eventsFrom_cons, h, eventsFrom_nil, List.append_nil]

/-- What a text says are its events. -/
theorem events_eq (h : Says text found) : events text = found := by
  obtain ⟨shown, hlines, hfound⟩ := h
  have htext : lines text = shown ++ [[]] := by
    rw [← lines_nil, ← hlines, List.append_nil]
  rw [events, htext, eventsFrom_append, hfound, eventsFrom_singleton_nil, List.append_nil]

end Says

end GameSetup.Conf.Grammar
