import GameSetup.Proofs.Conf.Grammar

/-!
# Reading one line agrees with its grammar

The reader keeps offsets into the bytes that it has seen, and its state says which of them count. A
part that may still grow starts where its first byte stood, and its end is marked behind its last
byte that is not blank: so the marked slice is the trimmed part. A part that has been left behind
keeps its slice, whatever follows.

There is one lemma for each state. It says what the rest of a line reveals, given what the offsets
mean in that state, and it is an induction on the rest of the line.
-/

namespace GameSetup.Conf

open Grammar

/-- A part of a line that may still grow, and the text that it covers so far. -/
structure Growing (bytes : Array UInt8) (start stop : Nat) (text : List UInt8) : Prop where
  split : ∃ front, bytes.toList = front ++ text ∧ front.length = start
  stop_eq : stop = start + (trimEnd text).length

/-- A part of a line that no longer changes. -/
structure Kept (bytes : Array UInt8) (start stop : Nat) (part : List UInt8) : Prop where
  stop_le : stop ≤ bytes.size
  slice_eq : (bytes.extract start stop).toList = part

namespace Growing

variable {bytes : Array UInt8} {start stop : Nat} {text : List UInt8} {byte : UInt8}

/-- A part begins with a byte that is not blank. -/
theorem begin (bytes : Array UInt8) (h : Text.isBlankByte byte = false) :
    Growing (bytes.push byte) bytes.size (bytes.size + 1) [byte] where
  split := ⟨bytes.toList, by simp, by simp⟩
  stop_eq := by rw [trimEnd_cons_of_not_blank [] h, trimEnd_nil, List.length_singleton]

/-- A blank does not move the end of a part. -/
theorem push_of_blank (h : Growing bytes start stop text) (hbyte : Text.isBlankByte byte = true) :
    Growing (bytes.push byte) start stop (text ++ [byte]) where
  split := by
    obtain ⟨front, hbytes, hfront⟩ := h.split
    exact ⟨front, by simp [hbytes], hfront⟩
  stop_eq := by rw [trimEnd_concat_of_blank text hbyte, h.stop_eq]

/-- Any other byte moves the end of a part behind itself. -/
theorem push_of_not_blank (h : Growing bytes start stop text)
    (hbyte : Text.isBlankByte byte = false) :
    Growing (bytes.push byte) start (bytes.size + 1) (text ++ [byte]) where
  split := by
    obtain ⟨front, hbytes, hfront⟩ := h.split
    exact ⟨front, by simp [hbytes], hfront⟩
  stop_eq := by
    obtain ⟨front, hbytes, hfront⟩ := h.split
    have hsize := congrArg List.length hbytes
    rw [Array.length_toList, List.length_append] at hsize
    rw [trimEnd_concat_of_not_blank text hbyte, List.length_append, List.length_singleton]
    omega

/-- The marked slice is the trimmed part. -/
theorem kept (h : Growing bytes start stop text) : Kept bytes start stop (trimEnd text) where
  stop_le := by
    obtain ⟨front, hbytes, hfront⟩ := h.split
    have hsize := congrArg List.length hbytes
    have hshort := (trimEnd_isPrefix text).length_le
    rw [Array.length_toList, List.length_append] at hsize
    rw [h.stop_eq]
    omega
  slice_eq := by
    obtain ⟨front, hbytes, hfront⟩ := h.split
    have hstop : stop - start = (trimEnd text).length := by
      rw [h.stop_eq, Nat.add_sub_cancel_left]
    rw [Array.toList_extract, List.extract_eq_take_drop, hbytes, ← hfront, List.drop_left, hfront,
      hstop]
    exact (List.prefix_iff_eq_take.mp (trimEnd_isPrefix text)).symm

end Growing

namespace Kept

variable {bytes : Array UInt8} {start stop : Nat} {part : List UInt8}

/-- What is kept stays when another byte is read. -/
theorem push (h : Kept bytes start stop part) (byte : UInt8) :
    Kept (bytes.push byte) start stop part where
  stop_le := by
    rw [Array.size_push]
    exact Nat.le_succ_of_le h.stop_le
  slice_eq := by
    have hstop := h.stop_le
    rw [← h.slice_eq, Array.extract_push, if_pos (by omega)]

/-- An empty slice at the start of a line holds nothing. -/
theorem empty (bytes : Array UInt8) : Kept bytes 0 0 [] where
  stop_le := Nat.zero_le _
  slice_eq := by simp

end Kept

namespace Line

/-- The key of a line whose key no longer changes. -/
theorem key_of_kept {bytes : Array UInt8} {span : Span} {key : List UInt8} (state : State)
    (h : Kept bytes span.keyStart span.keyStop key) : Line.key ⟨bytes, state, span⟩ = key :=
  h.slice_eq

/-- The value of a line whose value no longer changes. -/
theorem value_of_kept {bytes : Array UInt8} {span : Span} {value : List UInt8} (state : State)
    (h : Kept bytes span.valueStart span.valueStop value) :
    Line.value ⟨bytes, state, span⟩ = value :=
  h.slice_eq

/-- What the rest of a line reveals. -/
def reveals (number : Nat) : Line → List UInt8 → List Event
  | line, [] => (line.state.atEnd.map (·.event line number)).toList
  | line, byte :: rest =>
    ((line.found byte).map (·.event (line.push byte) number)).toList ++
      reveals number (line.push byte) rest

variable {number : Nat} {bytes : Array UInt8} {state next : State} {span marked : Span}
  {find : Option Find} {byte : UInt8}

/-- A byte reveals what its transition finds, and the rest goes on from there. -/
theorem reveals_cons (rest : List UInt8)
    (h : state.advance byte bytes.size span = (next, marked, find)) :
    reveals number ⟨bytes, state, span⟩ (byte :: rest) =
      (find.map (·.event ⟨bytes.push byte, next, marked⟩ number)).toList ++
        reveals number ⟨bytes.push byte, next, marked⟩ rest := by
  simp only [reveals, found, push, h]

/-- A byte that reveals nothing is passed over. -/
theorem reveals_cons_of_none (rest : List UInt8)
    (h : state.advance byte bytes.size span = (next, marked, none)) :
    reveals number ⟨bytes, state, span⟩ (byte :: rest) =
      reveals number ⟨bytes.push byte, next, marked⟩ rest :=
  reveals_cons rest h

/-- Nothing is revealed behind the mark of a comment. -/
theorem reveals_comment (rest : List UInt8) :
    reveals number ⟨bytes, .comment, span⟩ rest = [] := by
  induction rest generalizing bytes with
  | nil => rfl
  | cons byte rest ih =>
    rw [reveals_cons_of_none rest rfl]
    exact ih

/-- The mark of a comment is the last byte that can reveal anything. -/
theorem reveals_cons_of_comment {find : Find} (rest : List UInt8)
    (h : state.advance byte bytes.size span = (.comment, marked, some find)) :
    reveals number ⟨bytes, state, span⟩ (byte :: rest) =
      [find.event ⟨bytes.push byte, .comment, marked⟩ number] := by
  rw [reveals_cons rest h, reveals_comment, List.append_nil]
  rfl

/-- A malformed line is reported with all its bytes. -/
theorem reveals_malformed (rest : List UInt8) :
    reveals number ⟨bytes, .malformed, span⟩ rest =
      [.badLine (Text.Utf8.decode (bytes.toList ++ rest)) number] := by
  induction rest generalizing bytes with
  | nil => simp [reveals, State.atEnd, Find.event]
  | cons byte rest ih =>
    rw [reveals_cons_of_none rest rfl, ih, Array.toList_push, List.append_assoc,
      List.singleton_append]

/-- A value goes on up to the comment. -/
theorem reveals_value {key text : List UInt8} (rest : List UInt8)
    (hkey : Kept bytes span.keyStart span.keyStop key)
    (hvalue : Growing bytes span.valueStart span.valueStop text) :
    reveals number ⟨bytes, .value, span⟩ rest =
      [.pair (Text.Utf8.decode key)
        (Text.Utf8.decode (trimEnd (text ++ beforeComment rest)))] := by
  induction rest generalizing bytes span text with
  | nil =>
    change [Find.pair.event _ number] = _
    rw [Find.event, key_of_kept _ hkey, value_of_kept _ hvalue.kept, beforeComment_nil,
      List.append_nil]
  | cons byte rest ih =>
    obtain rfl | hmark := eq_or_ne byte ';'.toUInt8
    · rw [reveals_cons_of_comment rest rfl, Find.event, key_of_kept _ (hkey.push _),
        value_of_kept _ (hvalue.kept.push _), beforeComment_semicolon, List.append_nil]
    · rw [beforeComment_cons_of_ne rest hmark, List.append_cons]
      by_cases hblank : Text.isBlankByte byte = true
      · have hstep : State.advance .value byte bytes.size span = (.value, span, none) := by
          simp [State.advance, hblank]
        rw [reveals_cons_of_none rest hstep]
        exact ih (hkey.push byte) (hvalue.push_of_blank hblank)
      · rw [Bool.not_eq_true] at hblank
        have hstep : State.advance .value byte bytes.size span =
            (.value, { span with valueStop := bytes.size + 1 }, none) := by
          simp [State.advance, hblank, hmark]
        rw [reveals_cons_of_none rest hstep]
        exact @ih _ { span with valueStop := bytes.size + 1 } _ (hkey.push byte)
          (hvalue.push_of_not_blank hblank)

/-- Behind the sign of equality there is a value, which may be empty. -/
theorem reveals_equals {key : List UInt8} (rest : List UInt8)
    (hkey : Kept bytes span.keyStart span.keyStop key) :
    reveals number ⟨bytes, .equals, span⟩ rest =
      [.pair (Text.Utf8.decode key) (Text.Utf8.decode (trim (beforeComment rest)))] := by
  induction rest generalizing bytes with
  | nil =>
    change [Find.emptyPair.event _ number] = _
    rw [Find.event, key_of_kept _ hkey]
    rfl
  | cons byte rest ih =>
    obtain rfl | hmark := eq_or_ne byte ';'.toUInt8
    · rw [reveals_cons_of_comment rest rfl, Find.event, key_of_kept _ (hkey.push _),
        beforeComment_semicolon]
      rfl
    · rw [beforeComment_cons_of_ne rest hmark]
      by_cases hblank : Text.isBlankByte byte = true
      · have hstep : State.advance .equals byte bytes.size span = (.equals, span, none) := by
          simp [State.advance, hblank]
        rw [reveals_cons_of_none rest hstep, trim_cons_of_blank _ hblank]
        exact ih (hkey.push byte)
      · rw [Bool.not_eq_true] at hblank
        have hstep : State.advance .equals byte bytes.size span =
            (.value, { span with valueStart := bytes.size, valueStop := bytes.size + 1 },
              none) := by
          simp [State.advance, hblank, hmark]
        rw [reveals_cons_of_none rest hstep, trim_cons_of_not_blank _ hblank]
        exact @reveals_value _ _
          { span with valueStart := bytes.size, valueStop := bytes.size + 1 } _ _ rest
          (hkey.push byte) (Growing.begin bytes hblank)

/-- A key goes on up to the comment or the sign of equality, whichever comes first. -/
theorem reveals_key {first : UInt8} {text : List UInt8} (rest : List UInt8)
    (hfirst : Text.isBlankByte first = false)
    (hkey : Growing bytes span.keyStart span.keyStop (first :: text)) :
    reveals number ⟨bytes, .key, span⟩ rest =
      [assignment (first :: text) (beforeComment rest)] := by
  induction rest generalizing bytes span text with
  | nil =>
    change [Find.bareKey.event _ number] = _
    rw [Find.event, key_of_kept _ hkey.kept, beforeComment_nil, assignment_nil,
      trim_cons_of_not_blank _ hfirst]
  | cons byte rest ih =>
    obtain rfl | hmark := eq_or_ne byte ';'.toUInt8
    · rw [reveals_cons_of_comment rest rfl, Find.event, key_of_kept _ (hkey.kept.push _),
        beforeComment_semicolon, assignment_nil, trim_cons_of_not_blank _ hfirst]
    · rw [beforeComment_cons_of_ne rest hmark]
      obtain rfl | hequals := eq_or_ne byte '='.toUInt8
      · rw [reveals_cons_of_none rest rfl, assignment_equals, trim_cons_of_not_blank _ hfirst]
        exact reveals_equals rest (hkey.kept.push _)
      · rw [assignment_cons_of_ne _ _ hequals]
        by_cases hblank : Text.isBlankByte byte = true
        · have hstep : State.advance .key byte bytes.size span = (.key, span, none) := by
            simp [State.advance, hblank, hmark, hequals]
          rw [reveals_cons_of_none rest hstep]
          exact ih (hkey.push_of_blank hblank)
        · rw [Bool.not_eq_true] at hblank
          have hstep : State.advance .key byte bytes.size span =
              (.key, { span with keyStop := bytes.size + 1 }, none) := by
            simp [State.advance, hblank, hmark, hequals]
          rw [reveals_cons_of_none rest hstep]
          exact @ih _ { span with keyStop := bytes.size + 1 } _ (hkey.push_of_not_blank hblank)

/-- A section in closed brackets is well-formed if nothing that counts follows. -/
theorem reveals_closed {name : List UInt8} (rest : List UInt8)
    (hname : Kept bytes span.keyStart span.keyStop name) :
    reveals number ⟨bytes, .closed, span⟩ rest =
      [headerEvent (.badLine (Text.Utf8.decode (bytes.toList ++ rest)) number)
        (if closes rest then some name else none)] := by
  induction rest generalizing bytes with
  | nil =>
    change [Find.header.event _ number] = _
    rw [Find.event, key_of_kept _ hname]
    rfl
  | cons byte rest ih =>
    obtain rfl | hmark := eq_or_ne byte ';'.toUInt8
    · rw [reveals_cons_of_comment rest rfl, Find.event, key_of_kept _ (hname.push _),
        closes_semicolon]
      rfl
    · rw [List.append_cons, ← Array.toList_push]
      by_cases hblank : Text.isBlankByte byte = true
      · have hstep : State.advance .closed byte bytes.size span = (.closed, span, none) := by
          simp [State.advance, hblank, hmark]
        rw [reveals_cons_of_none rest hstep, closes_cons_of_blank _ hblank]
        exact ih (hname.push byte)
      · rw [Bool.not_eq_true] at hblank
        have hstep : State.advance .closed byte bytes.size span = (.malformed, span, none) := by
          simp [State.advance, hblank, hmark]
        rw [reveals_cons_of_none rest hstep, closes_cons_of_not_blank _ hblank hmark,
          reveals_malformed]
        rfl

/-- A name goes on up to the closing bracket. -/
theorem reveals_name {text : List UInt8} (rest : List UInt8)
    (hname : Growing bytes span.keyStart span.keyStop text) :
    reveals number ⟨bytes, .name, span⟩ rest =
      [headerEvent (.badLine (Text.Utf8.decode (bytes.toList ++ rest)) number)
        (nameFrom? text rest)] := by
  induction rest generalizing bytes span text with
  | nil => simp [reveals, State.atEnd, Find.event, headerEvent]
  | cons byte rest ih =>
    rw [List.append_cons, ← Array.toList_push]
    obtain rfl | hbracket := eq_or_ne byte ']'.toUInt8
    · rw [reveals_cons_of_none rest rfl, nameFrom?_bracket]
      exact reveals_closed rest (hname.kept.push _)
    · obtain rfl | hmark := eq_or_ne byte ';'.toUInt8
      · rw [reveals_cons_of_none rest rfl, nameFrom?_semicolon, reveals_malformed]
        rfl
      · rw [nameFrom?_cons _ _ (by simp [isInName, hbracket, hmark])]
        by_cases hblank : Text.isBlankByte byte = true
        · have hstep : State.advance .name byte bytes.size span = (.name, span, none) := by
            simp [State.advance, hblank, hmark, hbracket]
          rw [reveals_cons_of_none rest hstep]
          exact ih (hname.push_of_blank hblank)
        · rw [Bool.not_eq_true] at hblank
          have hstep : State.advance .name byte bytes.size span =
              (.name, { span with keyStop := bytes.size + 1 }, none) := by
            simp [State.advance, hblank, hmark, hbracket]
          rw [reveals_cons_of_none rest hstep]
          exact @ih _ { span with keyStop := bytes.size + 1 } _ (hname.push_of_not_blank hblank)

/-- Behind an opening bracket there is the name of a section, which may be empty. -/
theorem reveals_bracket (rest : List UInt8) :
    reveals number ⟨bytes, .bracket, span⟩ rest =
      [headerEvent (.badLine (Text.Utf8.decode (bytes.toList ++ rest)) number) (name? rest)] := by
  induction rest generalizing bytes with
  | nil => simp [reveals, State.atEnd, Find.event, headerEvent]
  | cons byte rest ih =>
    rw [List.append_cons, ← Array.toList_push]
    obtain rfl | hbracket := eq_or_ne byte ']'.toUInt8
    · rw [reveals_cons_of_none rest rfl, name?_bracket]
      exact @reveals_closed _ _ { span with keyStart := 0, keyStop := 0 } _ rest (Kept.empty _)
    · by_cases hblank : Text.isBlankByte byte = true
      · have hstep : State.advance .bracket byte bytes.size span = (.bracket, span, none) := by
          simp [State.advance, hblank, hbracket]
        rw [reveals_cons_of_none rest hstep, name?_cons_of_blank _ hblank]
        exact ih
      · rw [Bool.not_eq_true] at hblank
        have hstep : State.advance .bracket byte bytes.size span =
            (.name, { span with keyStart := bytes.size, keyStop := bytes.size + 1 }, none) := by
          simp [State.advance, hblank, hbracket]
        rw [reveals_cons_of_none rest hstep, name?_cons_of_not_blank _ hblank hbracket]
        exact @reveals_name _ _ { span with keyStart := bytes.size, keyStop := bytes.size + 1 } _
          rest (Growing.begin bytes hblank)

/-- A line of which only blanks have been read is told by its first byte that is not blank. -/
theorem reveals_start (rest : List UInt8) :
    reveals number ⟨bytes, .start, span⟩ rest =
      (textEvent? (.badLine (Text.Utf8.decode (bytes.toList ++ rest)) number)
        (rest.dropWhile Text.isBlankByte)).toList := by
  induction rest generalizing bytes with
  | nil => rfl
  | cons byte rest ih =>
    rw [List.append_cons, ← Array.toList_push]
    by_cases hblank : Text.isBlankByte byte = true
    · have hstep : State.advance .start byte bytes.size span = (.start, span, none) := by
        simp [State.advance, hblank]
      rw [reveals_cons_of_none rest hstep, List.dropWhile_cons_of_pos hblank]
      exact ih
    · rw [List.dropWhile_cons_of_neg hblank]
      rw [Bool.not_eq_true] at hblank
      obtain rfl | hmark := eq_or_ne byte ';'.toUInt8
      · rw [reveals_cons_of_none rest rfl, reveals_comment]
        rfl
      · obtain rfl | hbracket := eq_or_ne byte '['.toUInt8
        · rw [reveals_cons_of_none rest rfl, reveals_bracket]
          rfl
        · have hstep : State.advance .start byte bytes.size span =
              (.key, { span with keyStart := bytes.size, keyStop := bytes.size + 1 }, none) := by
            simp [State.advance, hblank, hmark, hbracket]
          rw [reveals_cons_of_none rest hstep, textEvent?, if_neg hmark, if_neg hbracket]
          exact @reveals_key _ _ { span with keyStart := bytes.size, keyStop := bytes.size + 1 } _ _
            rest hblank (Growing.begin bytes hblank)

/-- A whole line reveals what the grammar says. -/
theorem reveals_empty (number : Nat) (line : List UInt8) :
    reveals number empty line = (lineEvent? number line).toList := by
  rw [lineEvent?_eq]
  exact reveals_start line

end Line

end GameSetup.Conf
