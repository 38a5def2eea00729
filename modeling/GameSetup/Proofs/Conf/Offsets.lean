import GameSetup.Proofs.Conf.Reading

/-!
# The offsets of a line

The parts of a line are cut out of its bytes at the four offsets of its span. Which of the offsets
count depends on the state, and the others have the value that they happened to get. All of them
lie within the line at any moment. Those that count enclose a part whose first and last byte are no
blanks, and a value lies behind its key.

The offsets of a line are a function of the bytes of that line. So the run of the reader adds
nothing to the invariant of a line: whatever has been read before, the line in front of the reader
is the one that its own bytes make.
-/

namespace GameSetup.Conf

open Grammar

/-- Whether the offsets of both parts are in order and within a line of some length. -/
structure Span.Within (span : Span) (size : Nat) : Prop where
  keyStart_le : span.keyStart ≤ span.keyStop
  keyStop_le : span.keyStop ≤ size
  valueStart_le : span.valueStart ≤ span.valueStop
  valueStop_le : span.valueStop ≤ size

/-- Whether a part has a byte, and no blank at either end. -/
structure Solid (part : List UInt8) : Prop where
  ne_nil : part ≠ []
  not_blank_first : ∀ byte ∈ part.head?, Text.isBlankByte byte = false
  not_blank_last : ∀ byte ∈ part.getLast?, Text.isBlankByte byte = false

/-- How the slices are that the event of a find is made of. Only the name of a section can be empty,
and a malformed line is told as a whole. -/
def Find.IsCutFrom (line : Line) : Find → Prop
  | .bareKey => Solid line.key
  | .header => line.key = [] ∨ Solid line.key
  | .pair => Solid line.key ∧ Solid line.value ∧ line.span.keyStop < line.span.valueStart
  | .emptyPair => Solid line.key
  | .badLine => True

namespace Span.Within

variable {span : Span} {size start stop : Nat}

/-- What is within a line is within a longer one. -/
theorem push (h : span.Within size) : span.Within (size + 1) where
  keyStart_le := h.keyStart_le
  keyStop_le := Nat.le_succ_of_le h.keyStop_le
  valueStart_le := h.valueStart_le
  valueStop_le := Nat.le_succ_of_le h.valueStop_le

/-- The key can be marked anew within the line. -/
theorem withKey (h : span.Within size) (hstart : start ≤ stop) (hstop : stop ≤ size) :
    Within { span with keyStart := start, keyStop := stop } size where
  keyStart_le := hstart
  keyStop_le := hstop
  valueStart_le := h.valueStart_le
  valueStop_le := h.valueStop_le

/-- So can the value. -/
theorem withValue (h : span.Within size) (hstart : start ≤ stop) (hstop : stop ≤ size) :
    Within { span with valueStart := start, valueStop := stop } size where
  keyStart_le := h.keyStart_le
  keyStop_le := h.keyStop_le
  valueStart_le := hstart
  valueStop_le := hstop

end Span.Within

/-- Whether two offsets enclose a part of some bytes: neither the first byte nor the last one
between them is a blank. -/
structure Encloses (bytes : Array UInt8) (start stop : Nat) : Prop where
  lt : start < stop
  first : ∃ byte ∈ bytes[start]?, Text.isBlankByte byte = false
  last : ∃ byte ∈ bytes[stop - 1]?, Text.isBlankByte byte = false

namespace Encloses

variable {bytes : Array UInt8} {start stop : Nat} {byte : UInt8}

/-- There is a last byte, so the part ends within the bytes. -/
theorem le_size (h : Encloses bytes start stop) : stop ≤ bytes.size := by
  obtain ⟨last, hlast, -⟩ := h.last
  have hlt : stop - 1 < bytes.size := (Array.getElem?_eq_some_iff.mp hlast).1
  omega

/-- A byte that is no blank is a part. -/
theorem single (bytes : Array UInt8) (h : Text.isBlankByte byte = false) :
    Encloses (bytes.push byte) bytes.size (bytes.size + 1) where
  lt := Nat.lt_succ_self _
  first := ⟨byte, Array.getElem?_push_size, h⟩
  last := ⟨byte, Array.getElem?_push_size, h⟩

/-- A byte keeps its place when another one is read. -/
theorem mem_getElem?_push {found : UInt8} {i : Nat} (h : found ∈ bytes[i]?) (byte : UInt8) :
    found ∈ (bytes.push byte)[i]? := by
  have hlt : i < bytes.size := (Array.getElem?_eq_some_iff.mp h).1
  rwa [Array.getElem?_push, if_neg (Nat.ne_of_lt hlt)]

/-- A part stays when another byte is read. -/
theorem push (h : Encloses bytes start stop) (byte : UInt8) :
    Encloses (bytes.push byte) start stop where
  lt := h.lt
  first := h.first.imp fun _ hfirst => ⟨mem_getElem?_push hfirst.1 byte, hfirst.2⟩
  last := h.last.imp fun _ hlast => ⟨mem_getElem?_push hlast.1 byte, hlast.2⟩

/-- It grows when the byte is no blank and belongs to it. -/
theorem grow (h : Encloses bytes start stop) (hbyte : Text.isBlankByte byte = false) :
    Encloses (bytes.push byte) start (bytes.size + 1) where
  lt := Nat.lt_succ_of_lt (Nat.lt_of_lt_of_le h.lt h.le_size)
  first := (h.push byte).first
  last := ⟨byte, Array.getElem?_push_size, hbyte⟩

/-- The slice between the offsets has a byte, and no blank at either end. -/
theorem solid (h : Encloses bytes start stop) : Solid (bytes.extract start stop).toList := by
  have hlt := h.lt
  have hle := h.le_size
  have hlength : (bytes.extract start stop).toList.length = stop - start := by
    rw [Array.length_toList, Array.size_extract, Nat.min_eq_left hle]
  obtain ⟨first, hfirst, hfirstblank⟩ := h.first
  obtain ⟨last, hlast, hlastblank⟩ := h.last
  refine ⟨List.ne_nil_of_length_pos (by omega), fun byte hbyte => ?_, fun byte hbyte => ?_⟩
  · rw [List.head?_eq_getElem?, Array.getElem?_toList, Array.getElem?_extract, if_pos (by omega),
      Nat.add_zero] at hbyte
    exact Option.mem_unique hbyte hfirst ▸ hfirstblank
  · have hplace : start + (stop - start - 1) = stop - 1 := by omega
    rw [List.getLast?_eq_getElem?, hlength, Array.getElem?_toList, Array.getElem?_extract,
      if_pos (by omega), hplace] at hbyte
    exact Option.mem_unique hbyte hlast ▸ hlastblank

end Encloses

/-- What the offsets enclose in each state. In the states that enclose nothing, no offset counts. -/
def State.Marks (bytes : Array UInt8) (span : Span) : State → Prop
  | .key => Encloses bytes span.keyStart span.keyStop
  | .name => Encloses bytes span.keyStart span.keyStop
  | .closed => span.keyStart = span.keyStop ∨ Encloses bytes span.keyStart span.keyStop
  | .equals => Encloses bytes span.keyStart span.keyStop ∧ span.keyStop < bytes.size
  | .value => Encloses bytes span.keyStart span.keyStop ∧
      Encloses bytes span.valueStart span.valueStop ∧ span.keyStop < span.valueStart
  | .start | .bracket | .comment | .malformed => True

/-- What is marked stays when another byte is read that leaves the state and the offsets alone. -/
theorem State.Marks.push {bytes : Array UInt8} {span : Span} {state : State}
    (h : state.Marks bytes span) (byte : UInt8) : state.Marks (bytes.push byte) span := by
  cases state with
  | key => exact Encloses.push h byte
  | name => exact Encloses.push h byte
  | closed => exact h.imp_right fun hname => hname.push byte
  | equals => exact ⟨h.1.push byte, by rw [Array.size_push]; exact Nat.lt_succ_of_lt h.2⟩
  | value => exact ⟨h.1.push byte, h.2.1.push byte, h.2.2⟩
  | start => trivial
  | bracket => trivial
  | comment => trivial
  | malformed => trivial

namespace Line

/-- Whether all offsets of a line lie within it, and those that count enclose their parts. -/
structure Sound (line : Line) : Prop where
  within : line.span.Within line.bytes.size
  marks : line.state.Marks line.bytes line.span

/-- A line of which nothing has been read is sound. -/
theorem sound_empty : Sound empty where
  within := ⟨Nat.le_refl 0, Nat.le_refl 0, Nat.le_refl 0, Nat.le_refl 0⟩
  marks := trivial

/-- Every byte leaves a sound line. The cases are the transitions of the states. -/
theorem Sound.push {line : Line} (h : line.Sound) (byte : UInt8) : (line.push byte).Sound := by
  obtain ⟨bytes, state, span⟩ := line
  obtain ⟨hwithin, hmarks⟩ := h
  change span.Within bytes.size at hwithin
  change state.Marks bytes span at hmarks
  have hsize : (bytes.push byte).size = bytes.size + 1 := Array.size_push byte
  have hgrown : span.Within (bytes.push byte).size := hsize ▸ hwithin.push
  have hstays := hmarks.push byte
  cases state with
  | start =>
    simp only [Line.push, State.advance]
    split_ifs with hblank
    · exact ⟨hgrown, trivial⟩
    · exact ⟨hgrown.withKey (Nat.le_refl _) hsize.ge, trivial⟩
    · exact ⟨hgrown, trivial⟩
    · exact ⟨hgrown.withKey (Nat.le_succ _) hsize.ge, .single bytes (by simpa using hblank)⟩
  | key =>
    simp only [Line.push, State.advance]
    split_ifs with _ _ hblank
    · exact ⟨hgrown, trivial⟩
    · exact ⟨hgrown, hstays, by rw [hsize]; exact Nat.lt_succ_of_le hwithin.keyStop_le⟩
    · exact ⟨hgrown, hstays⟩
    · have hkey : Encloses (bytes.push byte) span.keyStart (bytes.size + 1) :=
        Encloses.grow hmarks (by simpa using hblank)
      exact ⟨hgrown.withKey hkey.lt.le hsize.ge, hkey⟩
  | bracket =>
    simp only [Line.push, State.advance]
    split_ifs with _ hblank
    · exact ⟨hgrown.withKey (Nat.le_refl 0) (Nat.zero_le _), .inl rfl⟩
    · exact ⟨hgrown, trivial⟩
    · exact ⟨hgrown.withKey (Nat.le_succ _) hsize.ge, .single bytes (by simpa using hblank)⟩
  | name =>
    simp only [Line.push, State.advance]
    split_ifs with _ _ hblank
    · exact ⟨hgrown, .inr hstays⟩
    · exact ⟨hgrown, trivial⟩
    · exact ⟨hgrown, hstays⟩
    · have hname : Encloses (bytes.push byte) span.keyStart (bytes.size + 1) :=
        Encloses.grow hmarks (by simpa using hblank)
      exact ⟨hgrown.withKey hname.lt.le hsize.ge, hname⟩
  | closed =>
    simp only [Line.push, State.advance]
    split_ifs
    · exact ⟨hgrown, trivial⟩
    · exact ⟨hgrown, hstays⟩
    · exact ⟨hgrown, trivial⟩
  | equals =>
    simp only [Line.push, State.advance]
    split_ifs with hblank
    · exact ⟨hgrown, hstays⟩
    · exact ⟨hgrown, trivial⟩
    · exact ⟨hgrown.withValue (Nat.le_succ _) hsize.ge, hstays.1,
        .single bytes (by simpa using hblank), hmarks.2⟩
  | value =>
    simp only [Line.push, State.advance]
    split_ifs with hblank
    · exact ⟨hgrown, hstays⟩
    · exact ⟨hgrown, trivial⟩
    · have hvalue : Encloses (bytes.push byte) span.valueStart (bytes.size + 1) :=
        hmarks.2.1.grow (by simpa using hblank)
      exact ⟨hgrown.withValue hvalue.lt.le hsize.ge, hstays.1, hvalue, hmarks.2.2⟩
  | comment => exact ⟨hgrown, trivial⟩
  | malformed => exact ⟨hgrown, trivial⟩

/-- What the end of a sound line reveals is cut from it. -/
theorem Sound.isCutFrom_of_atEnd {line : Line} (h : line.Sound) {find : Find}
    (hfind : line.state.atEnd = some find) : find.IsCutFrom line := by
  obtain ⟨bytes, state, span⟩ := line
  have hmarks := h.marks
  cases state with
  | key =>
    cases hfind
    exact Encloses.solid hmarks
  | closed =>
    cases hfind
    refine hmarks.imp (fun hempty => ?_) Encloses.solid
    change span.keyStart = span.keyStop at hempty
    change (bytes.extract span.keyStart span.keyStop).toList = []
    simp [hempty]
  | equals =>
    cases hfind
    exact hmarks.1.solid
  | value =>
    cases hfind
    exact ⟨hmarks.1.solid, hmarks.2.1.solid, hmarks.2.2⟩
  | bracket => cases hfind; trivial
  | name => cases hfind; trivial
  | malformed => cases hfind; trivial
  | start => cases hfind
  | comment => cases hfind

/-- What a byte reveals is what the end of the line would have revealed in its place, and the byte
moves no offset. -/
theorem atEnd_of_found {line : Line} {byte : UInt8} {find : Find}
    (h : line.found byte = some find) :
    line.state.atEnd = some find ∧ (line.push byte).span = line.span := by
  obtain ⟨bytes, state, span⟩ := line
  cases state with
  | comment => cases h
  | malformed => cases h
  | _ =>
    simp only [found, State.advance] at h
    split_ifs at h <;> simp_all [State.atEnd, Line.push, State.advance]

/-- So what a byte reveals is cut from the line as well, with the byte. -/
theorem Sound.isCutFrom_of_found {line : Line} (h : line.Sound) {byte : UInt8} {find : Find}
    (hfind : line.found byte = some find) : find.IsCutFrom (line.push byte) := by
  obtain ⟨hend, hspan⟩ := atEnd_of_found hfind
  have hsame : Sound ⟨line.bytes.push byte, line.state, line.span⟩ :=
    ⟨by rw [Array.size_push]; exact h.within.push, h.marks.push byte⟩
  have hcut := hsame.isCutFrom_of_atEnd hend
  have hpush : line.push byte = ⟨line.bytes.push byte, (line.push byte).state, line.span⟩ := by
    rw [← hspan]
    rfl
  rw [hpush]
  cases find <;> exact hcut

/-- A line of some bytes. -/
def ofBytes (bytes : List UInt8) : Line :=
  bytes.foldl push empty

/-- It is sound. -/
theorem sound_ofBytes (bytes : List UInt8) : Sound (ofBytes bytes) := by
  induction bytes using List.reverseRecOn with
  | nil => exact sound_empty
  | append_singleton bytes byte ih =>
    rw [ofBytes, List.foldl_concat]
    exact ih.push byte

/-- It holds the bytes. -/
theorem toList_bytes_ofBytes (bytes : List UInt8) : (ofBytes bytes).bytes.toList = bytes := by
  induction bytes using List.reverseRecOn with
  | nil => rfl
  | append_singleton bytes byte ih =>
    have hpush (line : Line) : (line.push byte).bytes = line.bytes.push byte := rfl
    rw [ofBytes, List.foldl_concat, hpush, Array.toList_push]
    exact congrArg (· ++ [byte]) ih

/-- The line that is being read at the end of some lines, given the line in front of them: only if
the first of them is the last, something of that line is left. -/
def through (line : Line) : List (List UInt8) → Line
  | [] => line
  | [rest] => rest.foldl push line
  | _ :: next :: more => ofBytes ((next :: more).getLast (List.cons_ne_nil next more))

/-- In front of a line, it is the last of the lines. -/
theorem through_empty {texts : List (List UInt8)} (h : texts ≠ []) :
    empty.through texts = ofBytes (texts.getLast h) := by
  match texts with
  | [rest] => rfl
  | first :: next :: more => rw [through, List.getLast_cons_cons]

/-- So it is where a line ends. -/
theorem through_nil_cons (line : Line) {texts : List (List UInt8)} (h : texts ≠ []) :
    line.through ([] :: texts) = ofBytes (texts.getLast h) := by
  match texts with
  | next :: more => rfl

/-- A byte at the front of the first line is read first. -/
theorem through_modifyHead (line : Line) (byte : UInt8) {texts : List (List UInt8)}
    (h : texts ≠ []) :
    line.through (texts.modifyHead (byte :: ·)) = (line.push byte).through texts := by
  match texts with
  | [rest] => rfl
  | first :: next :: more => rfl

end Line

namespace Reader

/-- The line in front of a reader consists of the bytes behind the last end of a line. The induction
is on the text; the line read so far is arbitrary. -/
theorem line_pushAll (line : Line) (number : Nat) (afterReturn : Bool) (events : Array Event)
    (text : List UInt8) :
    (pushAll ⟨line, number, afterReturn, events⟩ text).line =
      line.through (lines (uncut afterReturn text)) := by
  induction text generalizing line number afterReturn events with
  | nil =>
    rw [uncut_nil, lines_nil]
    rfl
  | cons byte text ih =>
    change (pushAll (push _ byte) text).line = _
    obtain ⟨returned, hpush, hlines⟩ | ⟨hpush, hlines⟩ | ⟨hpush, hlines⟩ :=
      push_cases line number afterReturn events byte text
    · rw [hpush, endLine, ih, hlines, Line.through_nil_cons _ (lines_ne_nil _),
        Line.through_empty (lines_ne_nil _)]
    · rw [hpush, ih, hlines]
    · rw [hpush, inLine, ih, hlines, Line.through_modifyHead line byte (lines_ne_nil _)]

/-- From the start on, nothing of an earlier line is left. -/
theorem line_pushAll_start (text : List UInt8) :
    (start.pushAll text).line = .ofBytes ((lines text).getLast (lines_ne_nil text)) := by
  rw [start, line_pushAll, ← Line.through_empty (lines_ne_nil text)]
  rfl

/-- A reader behind the next byte, or behind the end of the bytes if there is none. -/
def take (reader : Reader) : Option UInt8 → Reader
  | some byte => reader.push byte
  | none => reader.endLine false

/-- What the next byte makes a reader send, or the end of the bytes if there is none: a find, and
the line that its event is cut from. -/
def sends (reader : Reader) : Option UInt8 → Option (Find × Line)
  | some byte =>
    if byte == carriageReturn then reader.line.state.atEnd.map (·, reader.line)
    else if byte == lineFeed then
      if reader.afterReturn then none else reader.line.state.atEnd.map (·, reader.line)
    else (reader.line.found byte).map (·, reader.line.push byte)
  | none => reader.line.state.atEnd.map (·, reader.line)

variable (reader : Reader) (next : Option UInt8)

/-- What is sent is all that is told. -/
theorem events_take :
    (reader.take next).events =
      note reader.events ((reader.sends next).map fun sent => sent.1.event sent.2 reader.number) := by
  obtain ⟨line, number, afterReturn, events⟩ := reader
  cases next with
  | none => simp [take, sends, endLine, Function.comp_def]
  | some byte =>
    simp only [take, sends, push]
    split_ifs <;> simp [endLine, inLine, note, Function.comp_def]

variable {reader next} {sent : Find × Line}

/-- An event is cut from the line in front of the reader, with the next byte if that belongs to the
line. -/
theorem line_of_mem_sends (h : sent ∈ reader.sends next) :
    sent.2 = (next.toList.filter isInLine).foldl Line.push reader.line := by
  cases next with
  | none =>
    obtain ⟨find, -, rfl⟩ := Option.map_eq_some_iff.mp h
    rfl
  | some byte =>
    rw [Option.toList_some]
    simp only [sends] at h
    split_ifs at h with hreturn hfeed
    · obtain ⟨find, -, rfl⟩ := Option.map_eq_some_iff.mp h
      rw [eq_of_beq hreturn]
      rfl
    · cases h
    · obtain ⟨find, -, rfl⟩ := Option.map_eq_some_iff.mp h
      rw [eq_of_beq hfeed]
      rfl
    · obtain ⟨find, -, rfl⟩ := Option.map_eq_some_iff.mp h
      have hbyte : isInLine byte = true := by simp_all [isInLine]
      rw [List.filter_cons_of_pos hbyte]
      rfl

/-- If that line is sound, the parts of the event are cut from it as they should. -/
theorem isCutFrom_of_mem_sends (hsound : reader.line.Sound) (h : sent ∈ reader.sends next) :
    sent.1.IsCutFrom sent.2 := by
  cases next with
  | none =>
    obtain ⟨find, hfind, rfl⟩ := Option.map_eq_some_iff.mp h
    exact hsound.isCutFrom_of_atEnd hfind
  | some byte =>
    simp only [sends] at h
    split_ifs at h
    · obtain ⟨find, hfind, rfl⟩ := Option.map_eq_some_iff.mp h
      exact hsound.isCutFrom_of_atEnd hfind
    · cases h
    · obtain ⟨find, hfind, rfl⟩ := Option.map_eq_some_iff.mp h
      exact hsound.isCutFrom_of_atEnd hfind
    · obtain ⟨find, hfind, rfl⟩ := Option.map_eq_some_iff.mp h
      exact hsound.isCutFrom_of_found hfind

/-- The offsets of a reader, after any bytes. They are those of the line that the bytes behind the
last end of a line make, and lie within it. Whatever comes next, a byte or the end, all that is told
is cut from that line, with the next byte if it belongs to the line: the offsets lie within it, and
the parts of the event are solid slices, of which the value starts behind the end of the key. Only
the name of a section can be empty. -/
theorem offsets_enclose_parts (text : List UInt8) :
    let reader := start.pushAll text
    let current := (lines text).getLast (lines_ne_nil text)
    reader.line = .ofBytes current ∧ reader.line.bytes.toList = current ∧
      reader.line.span.Within reader.line.bytes.size ∧
      ∀ next,
        (reader.take next).events = note reader.events
          ((reader.sends next).map fun sent => sent.1.event sent.2 reader.number) ∧
        ∀ sent ∈ reader.sends next,
          sent.2 = .ofBytes (current ++ next.toList.filter isInLine) ∧
            sent.2.span.Within sent.2.bytes.size ∧ sent.1.IsCutFrom sent.2 := by
  intro reader current
  have hline : reader.line = .ofBytes current := line_pushAll_start text
  have hsound : reader.line.Sound := hline ▸ Line.sound_ofBytes current
  refine ⟨hline, ?_, hsound.within, fun next => ⟨events_take reader next, fun sent hsent => ?_⟩⟩
  · rw [hline, Line.toList_bytes_ofBytes]
  · have hcurrent : sent.2 = .ofBytes (current ++ next.toList.filter isInLine) := by
      rw [line_of_mem_sends hsent, hline, Line.ofBytes, Line.ofBytes, List.foldl_append]
    exact ⟨hcurrent, hcurrent ▸ (Line.sound_ofBytes _).within, isCutFrom_of_mem_sends hsound hsent⟩

end Reader

end GameSetup.Conf
