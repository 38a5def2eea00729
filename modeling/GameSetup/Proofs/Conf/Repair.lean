import GameSetup.Proofs.Conf.Interruption
import GameSetup.Proofs.Text.Repair

/-!
# Configurations that are no text

Every part of a line is decoded on its own. That comes to the same as decoding the configuration
first, whatever bytes it is made of: lines are cut at their marks and at blanks, all of which are
below 128, so no cut goes through what decoding replaces as a whole.
-/

namespace GameSetup.Conf

open Text.Utf8 (Coarse decode decode_repair encode exists_repair_cons mem_tail_repair_iff repair
  repair_append_of_forall repair_cons repair_eq_nil_iff repair_nil)

namespace Grammar

section Kinds

/-- A byte from 128 on is none of the marks. -/
theorem ne_of_le {byte mark : UInt8} (hbyte : 0x80 ≤ byte.toNat) (hmark : mark.toNat < 0x80) :
    byte ≠ mark := by
  rintro rfl
  omega

/-- Bytes beyond the basic range are not blank. -/
theorem coarse_isBlankByte : Coarse Text.isBlankByte :=
  .of_forall false fun _ hbyte => by simp [Text.isBlankByte, ne_of_le hbyte]

/-- They end no line. -/
theorem coarse_isInLine : Coarse isInLine :=
  .of_forall true fun _ hbyte => by simp [isInLine, carriageReturn, lineFeed, ne_of_le hbyte]

/-- They end no name. -/
theorem coarse_isInName : Coarse isInName :=
  .of_forall true fun byte hbyte => by
    have hbracket : byte ≠ ']'.toUInt8 := ne_of_le hbyte (by decide)
    have hmark : byte ≠ ';'.toUInt8 := ne_of_le hbyte (by decide)
    simp [isInName, hbracket, hmark]

/-- They are no mark of the basic range. -/
theorem coarse_ne {mark : UInt8} (hmark : mark.toNat < 0x80) :
    Coarse fun byte => decide (byte ≠ mark) :=
  .of_forall true fun _ hbyte => decide_eq_true (ne_of_le hbyte hmark)

end Kinds

section Parts

variable (text : List UInt8)

/-- Blanks are cut off the end of a repaired text where they are cut off the text itself. -/
theorem trimEnd_repair : trimEnd (repair text) = repair (trimEnd text) :=
  coarse_isBlankByte.rdropWhile_repair text rfl

/-- So they are at both ends. -/
theorem trim_repair : trim (repair text) = repair (trim text) := by
  rw [trim, trim, coarse_isBlankByte.dropWhile_repair, trimEnd_repair]

/-- A comment begins in the same place. -/
theorem beforeComment_repair : beforeComment (repair text) = repair (beforeComment text) :=
  (coarse_ne (by decide)).takeWhile_repair text

/-- A header ends in the same way. -/
theorem closes_repair : closes (repair text) = closes text := by
  rw [closes, closes, coarse_isBlankByte.dropWhile_repair]
  cases text.dropWhile Text.isBlankByte with
  | nil => rfl
  | cons byte rest =>
    obtain ⟨first, more, hrepair, ⟨rfl, -⟩ | ⟨hbyte, hfirst⟩⟩ := exists_repair_cons byte rest
    · rw [hrepair]
    · rw [hrepair]
      exact (decide_eq_false (ne_of_le hfirst (by decide))).trans
        (decide_eq_false (ne_of_le hbyte (by decide))).symm

section Front

variable {front : List UInt8} (hfront : ∀ byte ∈ front, byte.toNat < 0x80)

include hfront

/-- A name that has begun is the repaired name. -/
theorem nameFrom?_repair : nameFrom? front (repair text) = (nameFrom? front text).map repair := by
  rw [nameFrom?, nameFrom?, coarse_isInName.dropWhile_repair, coarse_isInName.takeWhile_repair,
    ← repair_append_of_forall hfront, trimEnd_repair]
  cases hrest : text.dropWhile isInName with
  | nil => rfl
  | cons byte rest =>
    have hbyte : byte.toNat < 0x80 :=
      coarse_isInName.lt_of_mem_head?_dropWhile text rfl (hrest ▸ rfl)
    rw [repair_cons hbyte]
    simp only [closes_repair]
    split <;> rfl

/-- What an assignment says is decoded, part by part. -/
theorem assignment_repair : assignment front (repair text) = assignment front text := by
  have hequals : Coarse fun byte => decide (byte ≠ '='.toUInt8) := coarse_ne (by decide)
  rw [assignment, assignment, hequals.dropWhile_repair, hequals.takeWhile_repair,
    ← repair_append_of_forall hfront, ← repair_append_of_forall hfront, trim_repair, trim_repair,
    decode_repair, decode_repair]
  cases hrest : text.dropWhile (· ≠ '='.toUInt8) with
  | nil => rfl
  | cons byte value =>
    have hbyte : byte.toNat < 0x80 := hequals.lt_of_mem_head?_dropWhile text rfl (hrest ▸ rfl)
    rw [repair_cons hbyte]
    simp only [trim_repair, decode_repair]

end Front

/-- The name of a header is the repaired name. -/
theorem name?_repair : name? (repair text) = (name? text).map repair := by
  rw [name?, name?, coarse_isBlankByte.dropWhile_repair]
  cases text.dropWhile Text.isBlankByte with
  | nil => rfl
  | cons byte rest =>
    obtain ⟨first, more, hrepair, ⟨rfl, hlow, rfl⟩ | ⟨hbyte, hfirst⟩⟩ :=
      exists_repair_cons byte rest
    · rw [hrepair]
      simp only [closes_repair, nameFrom?_repair rest (List.forall_mem_singleton.mpr hlow)]
      split_ifs <;> rfl
    · -- From 128 on, the first byte is part of the name like any other.
      have hname {byte : UInt8} (hbyte : 0x80 ≤ byte.toNat) (rest : List UInt8) :
          nameFrom? [byte] rest = nameFrom? [] (byte :: rest) :=
        (nameFrom?_cons [] rest (coarse_isInName byte hbyte)).symm
      have hbracket : first ≠ ']'.toUInt8 ∧ byte ≠ ']'.toUInt8 :=
        ⟨ne_of_le hfirst (by decide), ne_of_le hbyte (by decide)⟩
      rw [hrepair]
      simp only [if_neg hbracket.1, if_neg hbracket.2]
      rw [hname hfirst, hname hbyte, ← hrepair]
      exact nameFrom?_repair (byte :: rest) fun _ hmem => absurd hmem List.not_mem_nil

/-- A line says the same when it is repaired. -/
theorem textEvent?_repair (malformed : Event) :
    textEvent? malformed (repair text) = textEvent? malformed text := by
  cases text with
  | nil => rfl
  | cons byte rest =>
    obtain ⟨first, more, hrepair, ⟨rfl, hlow, rfl⟩ | ⟨hbyte, hfirst⟩⟩ :=
      exists_repair_cons byte rest
    · have hheader : headerEvent malformed (name? (repair rest)) =
          headerEvent malformed (name? rest) := by
        rw [name?_repair]
        cases name? rest with
        | none => rfl
        | some name => exact congrArg Event.header (decode_repair name)
      rw [hrepair, textEvent?, textEvent?, hheader, beforeComment_repair,
        assignment_repair _ (List.forall_mem_singleton.mpr hlow)]
    · -- From 128 on, the first byte is part of the key like any other.
      have hassignment {byte : UInt8} (hbyte : 0x80 ≤ byte.toNat) (rest : List UInt8) :
          textEvent? malformed (byte :: rest) =
            some (assignment [] (beforeComment (byte :: rest))) := by
        rw [textEvent?, if_neg (ne_of_le hbyte (by decide)), if_neg (ne_of_le hbyte (by decide)),
          beforeComment_cons_of_ne rest (ne_of_le hbyte (by decide)),
          assignment_cons_of_ne [] _ (ne_of_le hbyte (by decide)), List.nil_append]
      rw [hrepair, hassignment hfirst, hassignment hbyte, ← hrepair, beforeComment_repair,
        assignment_repair _ fun _ hmem => absurd hmem List.not_mem_nil]

/-- A line says what its repaired bytes say. -/
theorem lineEvent?_repair (number : Nat) (line : List UInt8) :
    lineEvent? number (repair line) = lineEvent? number line := by
  rw [lineEvent?_eq, lineEvent?_eq, decode_repair, coarse_isBlankByte.dropWhile_repair,
    textEvent?_repair]

/-- It reaches its comment when its repaired bytes do. -/
theorem hasComment_repair (line : List UInt8) : hasComment (repair line) = hasComment line := by
  have htail (text : List UInt8) :
      (repair text).tail.contains ';'.toUInt8 = text.tail.contains ';'.toUInt8 := by
    rw [Bool.eq_iff_iff, List.contains_iff_mem, List.contains_iff_mem]
    exact mem_tail_repair_iff (by decide)
  rw [hasComment, hasComment, coarse_isBlankByte.dropWhile_repair]
  cases line.dropWhile Text.isBlankByte with
  | nil => rfl
  | cons byte rest =>
    have hrest := htail (byte :: rest)
    obtain ⟨first, more, hrepair, ⟨rfl, -, rfl⟩ | ⟨hbyte, hfirst⟩⟩ := exists_repair_cons byte rest
    · rw [hrepair, List.tail_cons, List.tail_cons] at hrest
      rw [hrepair]
      simp only [name?_repair, Option.isSome_map, coarse_isBlankByte.dropWhile_repair, htail, hrest]
    · have hmark : first ≠ ';'.toUInt8 ∧ byte ≠ ';'.toUInt8 :=
        ⟨ne_of_le hfirst (by decide), ne_of_le hbyte (by decide)⟩
      have hbracket : first ≠ '['.toUInt8 ∧ byte ≠ '['.toUInt8 :=
        ⟨ne_of_le hfirst (by decide), ne_of_le hbyte (by decide)⟩
      rw [hrepair, List.tail_cons, List.tail_cons] at hrest
      rw [hrepair]
      simp only [if_neg hmark.1, if_neg hmark.2, if_neg hbracket.1, if_neg hbracket.2, hrest]

end Parts

section Lines

/-- A line feed in front is dropped all the same. -/
theorem dropFeed_repair (text : List UInt8) : dropFeed (repair text) = repair (dropFeed text) := by
  cases text with
  | nil => rfl
  | cons byte rest =>
    obtain ⟨first, more, hrepair, ⟨rfl, hlow, rfl⟩ | ⟨hbyte, hfirst⟩⟩ :=
      exists_repair_cons byte rest
    · rw [hrepair, dropFeed, dropFeed]
      split
      · rfl
      · exact hrepair.symm
    · rw [hrepair, dropFeed, dropFeed, if_neg (ne_of_le hfirst (by decide)),
        if_neg (ne_of_le hbyte (by decide)), hrepair]

/-- At the end of a line, what is behind it is repaired by itself. -/
theorem afterLineEnd_repair {text : List UInt8} (h : ∀ byte ∈ text.head?, byte.toNat < 0x80) :
    afterLineEnd (repair text) = repair (afterLineEnd text) := by
  cases text with
  | nil => rfl
  | cons byte rest =>
    rw [repair_cons (h byte rfl), afterLineEnd, afterLineEnd]
    split
    · exact dropFeed_repair rest
    · rfl

/-- The lines of repaired bytes are the repaired lines. -/
theorem lines_repair (text : List UInt8) : lines (repair text) = (lines text).map repair := by
  induction text using lines.induct with
  | case1 text hend =>
    have hrepair : (repair text).dropWhile isInLine = [] := by
      rw [coarse_isInLine.dropWhile_repair, hend, repair_nil]
    rw [lines_of_dropWhile_eq_nil hrepair, lines_of_dropWhile_eq_nil hend,
      coarse_isInLine.takeWhile_repair]
    rfl
  | case2 text hend ih =>
    have hrepair : (repair text).dropWhile isInLine ≠ [] := by
      rw [coarse_isInLine.dropWhile_repair]
      exact mt repair_eq_nil_iff.mp hend
    have hlow : ∀ byte ∈ (text.dropWhile isInLine).head?, byte.toNat < 0x80 := fun _ =>
      coarse_isInLine.lt_of_mem_head?_dropWhile text rfl
    rw [lines_of_dropWhile_ne_nil hrepair, lines_of_dropWhile_ne_nil hend,
      coarse_isInLine.takeWhile_repair, coarse_isInLine.dropWhile_repair, afterLineEnd_repair hlow,
      ih, List.map_cons]

/-- The lines that are told are the repaired ones. -/
theorem told_map_repair (lines : List (List UInt8)) :
    told (lines.map repair) = (told lines).map repair := by
  have hfilter : hasComment ∘ repair = hasComment := funext hasComment_repair
  rw [told, told, List.map_append, List.map_dropLast, List.getLast?_map, Option.toList_map,
    List.filter_map, hfilter]

/-- Repaired lines give the events of the lines. -/
theorem eventsFrom_map_repair (number : Nat) (lines : List (List UInt8)) :
    eventsFrom number (lines.map repair) = eventsFrom number lines := by
  induction lines generalizing number with
  | nil => rfl
  | cons line lines ih =>
    rw [List.map_cons, eventsFrom_cons, eventsFrom_cons, lineEvent?_repair, ih]

/-- The lines that a stream delivers are the repaired ones. -/
theorem toldLines_repair (stream : Stream) :
    toldLines ⟨repair stream.bytes, stream.fault⟩ = (toldLines stream).map repair := by
  obtain ⟨bytes, fault⟩ := stream
  cases fault with
  | none => exact lines_repair bytes
  | some fault => exact (congrArg told (lines_repair bytes)).trans (told_map_repair (lines bytes))

end Lines

end Grammar

/-- Bytes that are decoded alike say the same. -/
theorem events_congr {stream other : Stream} (hbytes : decode stream.bytes = decode other.bytes)
    (hfault : stream.fault = other.fault) : events stream = events other := by
  have hrepair (stream : Stream) :
      events ⟨repair stream.bytes, stream.fault⟩ = events stream := by
    rw [events_eq_eventsFrom, events_eq_eventsFrom, Grammar.toldLines_repair,
      Grammar.eventsFrom_map_repair]
  rw [← hrepair stream, ← hrepair other, repair, repair, hbytes, hfault]

/-- It makes no difference to what is signalled whether the bytes of a configuration are decoded
first, or each part on its own: keys, values, names, malformed lines and their numbers are the same,
whatever the bytes are and whether or not a fault interrupts them. -/
theorem signals_repaired (bytes : List UInt8) (fault : Option Fault) :
    signals ⟨encode (decode bytes), fault⟩ = signals ⟨bytes, fault⟩ := by
  have hevents : events ⟨encode (decode bytes), fault⟩ = events ⟨bytes, fault⟩ :=
    events_congr (Text.Utf8.decode_encode (decode bytes)) rfl
  rw [signals, signals, hevents]

end GameSetup.Conf
