import GameSetup.Proofs.Conf.Lines
import GameSetup.Proofs.Text.Utf8

/-!
# Shapes of the parts of a line

Keys, values and names of sections each have a shape: which bytes may start such a part, and which
may follow the first. No part ends with a blank. A shape never rules out a byte from 128 on, so a
part keeps its shape when it is decoded and encoded again, whatever is replaced.

An event whose parts have their shapes can be written as one line, and that line says the event.
-/

namespace GameSetup.Conf

open Grammar

/-- A byte that is no blank ends no line. -/
theorem isInLine_of_not_blank {byte : UInt8} (h : Text.isBlankByte byte = false) :
    isInLine byte = true := by
  have hreturn : byte ≠ carriageReturn := by rintro rfl; exact Bool.noConfusion h
  have hfeed : byte ≠ lineFeed := by rintro rfl; exact Bool.noConfusion h
  simp [isInLine, hreturn, hfeed]

/-- What the parts of one kind are made of. -/
structure Shape where
  /-- Whether a byte may be the first of a part. -/
  mayStart : UInt8 → Bool
  /-- Whether a byte may stand behind the first. -/
  mayFollow : UInt8 → Bool
  high_mayStart (byte : Fin 256) : 0x80 ≤ byte.val → mayStart (.ofFin byte) = true
  high_mayFollow (byte : Fin 256) : 0x80 ≤ byte.val → mayFollow (.ofFin byte) = true
  not_blank {byte : UInt8} : mayStart byte = true → Text.isBlankByte byte = false
  isInLine {byte : UInt8} : mayFollow byte = true → isInLine byte = true

namespace Shape

/-- A key starts neither a comment nor a section, and it ends in front of a sign of equality. It may
start with one. -/
def key : Shape where
  mayStart byte := !Text.isBlankByte byte && byte != ';'.toUInt8 && byte != '['.toUInt8
  mayFollow byte := Grammar.isInLine byte && byte != ';'.toUInt8 && byte != '='.toUInt8
  high_mayStart := by decide +kernel
  high_mayFollow := by decide +kernel
  not_blank h := by simp_all
  isInLine h := by simp_all

/-- A value ends in front of a comment. -/
def value : Shape where
  mayStart byte := !Text.isBlankByte byte && byte != ';'.toUInt8
  mayFollow byte := Grammar.isInLine byte && byte != ';'.toUInt8
  high_mayStart := by decide +kernel
  high_mayFollow := by decide +kernel
  not_blank h := by simp_all
  isInLine h := by simp_all

/-- The name of a section ends in front of a closing bracket. It may start with a semicolon. -/
def name : Shape where
  mayStart byte := !Text.isBlankByte byte && byte != ']'.toUInt8
  mayFollow byte := Grammar.isInLine byte && isInName byte
  high_mayStart := by decide +kernel
  high_mayFollow := by decide +kernel
  not_blank h := by simp_all
  isInLine h := by simp_all

/-- Whether a part has a shape. -/
structure Fits (shape : Shape) (part : List UInt8) : Prop where
  start : ∀ byte ∈ part.head?, shape.mayStart byte = true
  follow : ∀ byte ∈ part.tail, shape.mayFollow byte = true
  stop : ∀ byte ∈ part.getLast?, Text.isBlankByte byte = false

variable {shape : Shape}

/-- An empty part has any shape. -/
theorem fits_nil : shape.Fits [] where
  start _ h := nomatch h
  follow _ h := nomatch h
  stop _ h := nomatch h

/-- A text that is trimmed has a shape if its bytes belong to it. -/
theorem fits_trimEnd_cons {first : UInt8} {rest : List UInt8} (hfirst : shape.mayStart first = true)
    (hrest : ∀ byte ∈ rest, shape.mayFollow byte = true) :
    shape.Fits (trimEnd (first :: rest)) where
  start byte hbyte := by
    rw [trimEnd_cons_of_not_blank rest (shape.not_blank hfirst)] at hbyte
    exact Option.mem_some.mp hbyte ▸ hfirst
  follow byte hbyte := by
    rw [trimEnd_cons_of_not_blank rest (shape.not_blank hfirst)] at hbyte
    exact hrest byte ((trimEnd_isPrefix rest).subset hbyte)
  stop byte hbyte := by
    rw [Bool.eq_false_iff]
    obtain ⟨hne, rfl⟩ := List.mem_getLast?_eq_getLast hbyte
    exact List.rdropWhile_last_not _ _ hne

/-- So does a text that is trimmed at both ends. -/
theorem fits_trim {text : List UInt8}
    (hstart : ∀ byte ∈ text, Text.isBlankByte byte = false → shape.mayStart byte = true)
    (hfollow : ∀ byte ∈ text, shape.mayFollow byte = true) : shape.Fits (trim text) := by
  rw [trim]
  have hsuffix : text.dropWhile Text.isBlankByte <:+ text := List.dropWhile_suffix _
  cases htext : text.dropWhile Text.isBlankByte with
  | nil => exact fits_nil
  | cons first rest =>
    rw [htext] at hsuffix
    have hblank := isBlankByte_of_dropWhile_eq_cons (fun _ hblank => hblank) htext
    exact fits_trimEnd_cons (hstart first (hsuffix.subset List.mem_cons_self) hblank)
      fun byte hbyte => hfollow byte (hsuffix.subset (List.mem_cons_of_mem _ hbyte))

section Encoded

variable {text : String}

/-- Only the first 128 characters matter for the shape of an encoded text. -/
theorem fits_encode
    (hstart : ∀ c ∈ text.toList.head?, c.toNat < 0x80 → shape.mayStart (.ofNat c.toNat) = true)
    (hfollow : ∀ c ∈ text.toList.tail, c.toNat < 0x80 → shape.mayFollow (.ofNat c.toNat) = true)
    (hstop : ∀ c ∈ text.toList.getLast?, c.toNat < 0x80 →
      Text.isBlankByte (.ofNat c.toNat) = false) :
    shape.Fits (Text.Utf8.encode text) where
  start byte hbyte := by
    by_cases hlow : byte.toNat < 0x80
    · obtain ⟨c, hc, heq⟩ := Text.Utf8.exists_head?_of_head?_encode hbyte hlow
      rw [← UInt8.ofNat_toNat (x := byte), ← heq]
      exact hstart c hc (heq ▸ hlow)
    · exact shape.high_mayStart byte.toFin (Nat.le_of_not_lt hlow)
  follow byte hbyte := by
    by_cases hlow : byte.toNat < 0x80
    · obtain ⟨c, hc, heq⟩ := Text.Utf8.exists_mem_tail_of_mem_tail_encode hbyte hlow
      rw [← UInt8.ofNat_toNat (x := byte), ← heq]
      exact hfollow c hc (heq ▸ hlow)
    · exact shape.high_mayFollow byte.toFin (Nat.le_of_not_lt hlow)
  stop byte hbyte := by
    by_cases hlow : byte.toNat < 0x80
    · obtain ⟨c, hc, heq⟩ := Text.Utf8.exists_getLast?_of_getLast?_encode hbyte hlow
      rw [← UInt8.ofNat_toNat (x := byte), ← heq]
      exact hstop c hc (heq ▸ hlow)
    · exact shape.not_blank (shape.high_mayStart byte.toFin (Nat.le_of_not_lt hlow))

end Encoded

namespace Fits

variable {part : List UInt8}

/-- A part has no byte that ends a line. -/
theorem isInLine (h : shape.Fits part) : ∀ byte ∈ part, Grammar.isInLine byte = true := by
  cases part with
  | nil => exact fun _ hbyte => nomatch hbyte
  | cons first rest =>
    intro byte hbyte
    rcases List.mem_cons.mp hbyte with rfl | hrest
    · exact isInLine_of_not_blank (shape.not_blank (h.start byte rfl))
    · exact shape.isInLine (h.follow byte hrest)

/-- A part is trimmed. -/
theorem trimEnd_eq (h : shape.Fits part) : trimEnd part = part :=
  List.rdropWhile_eq_self_iff.mpr fun hne =>
    Bool.eq_false_iff.mp (h.stop _ (List.getLast_mem_getLast? hne))

/-- A part is trimmed at both ends. -/
theorem trim_eq (h : shape.Fits part) : trim part = part := by
  cases part with
  | nil => rfl
  | cons first rest =>
    rw [trim_cons_of_not_blank rest (shape.not_blank (h.start first rfl)), h.trimEnd_eq]

/-- A part keeps its shape when it is decoded and encoded again. -/
theorem encode_decode (h : shape.Fits part) :
    shape.Fits (Text.Utf8.encode (Text.Utf8.decode part)) := by
  have hbyte {byte : UInt8} {c : Char} (heq : byte.toNat = c.toNat) : .ofNat c.toNat = byte := by
    rw [← heq, UInt8.ofNat_toNat]
  have htext : (Text.Utf8.decode part).toList = Text.Utf8.decodeFrom none part :=
    String.toList_ofList
  apply fits_encode <;> intro c hc hlow <;> rw [htext] at hc
  · obtain ⟨byte, hmem, heq⟩ := Text.Utf8.exists_head?_of_head?_decodeFrom hc hlow
    exact hbyte heq ▸ h.start byte hmem
  · obtain ⟨byte, hmem, heq⟩ := Text.Utf8.exists_mem_tail_of_mem_tail_decodeFrom hc hlow
    exact hbyte heq ▸ h.follow byte hmem
  · obtain ⟨byte, hmem, heq⟩ := Text.Utf8.exists_getLast?_of_getLast?_decodeFrom
      Text.Utf8.sound_of_mem_none hc hlow
    exact hbyte heq ▸ h.stop byte hmem

end Fits

/-- A part that has a byte to start with, and what follows it. -/
theorem Fits.eq_cons {part : List UInt8} (h : shape.Fits part) (hpart : part ≠ []) :
    ∃ first rest, part = first :: rest ∧ shape.mayStart first = true ∧
      ∀ byte ∈ rest, shape.mayFollow byte = true := by
  obtain ⟨first, rest, rfl⟩ := List.exists_cons_of_ne_nil hpart
  exact ⟨first, rest, rfl, h.start first rfl, h.follow⟩

/-- A byte that a shape rules out everywhere is in no part. -/
theorem Fits.notMem {part : List UInt8} (h : shape.Fits part) {byte : UInt8}
    (hstart : shape.mayStart byte = false) (hfollow : shape.mayFollow byte = false) :
    byte ∉ part := by
  cases part with
  | nil => exact List.not_mem_nil
  | cons first rest =>
    intro hmem
    rcases List.mem_cons.mp hmem with rfl | hrest
    · exact Bool.noConfusion (hstart.symm.trans (h.start byte rfl))
    · exact Bool.noConfusion (hfollow.symm.trans (h.follow byte hrest))

end Shape

section Written

variable {key value name : List UInt8} (number : Nat)

/-- A line that starts like a key is an assignment, if it has no comment. -/
theorem lineEvent?_of_mayStart {first : UInt8} {rest : List UInt8}
    (hfirst : Shape.key.mayStart first = true) (hrest : ';'.toUInt8 ∉ rest) :
    lineEvent? number (first :: rest) = some (assignment [first] rest) := by
  have hblank := Shape.key.not_blank hfirst
  have hbefore : beforeComment rest = rest :=
    List.takeWhile_eq_self_iff.mpr fun byte hbyte =>
      decide_eq_true fun hmark => hrest (hmark ▸ hbyte)
  simp only [Shape.key, Bool.and_eq_true, bne_iff_ne] at hfirst
  rw [lineEvent?_eq, List.dropWhile_cons_of_neg (by simp [hblank]), textEvent?,
    if_neg hfirst.1.2, if_neg hfirst.2, hbefore]

/-- Behind its first byte, a key has no semicolon and no sign of equality. -/
theorem ne_of_key_mayFollow {byte : UInt8} (h : Shape.key.mayFollow byte = true) :
    byte ≠ ';'.toUInt8 ∧ byte ≠ '='.toUInt8 := by
  simp only [Shape.key, Bool.and_eq_true, bne_iff_ne] at h
  exact ⟨h.1.2, h.2⟩

/-- A key that stands alone is read as it is. -/
theorem lineEvent?_key (hkey : Shape.key.Fits key) (hne : key ≠ []) :
    lineEvent? number key = some (.bare (Text.Utf8.decode key)) := by
  obtain ⟨first, rest, rfl, hfirst, hrest⟩ := hkey.eq_cons hne
  have hcomment : ';'.toUInt8 ∉ rest := fun hmem => (ne_of_key_mayFollow (hrest _ hmem)).1 rfl
  have hequals : rest.dropWhile (· ≠ '='.toUInt8) = [] :=
    List.dropWhile_eq_nil_iff.mpr fun byte hbyte =>
      decide_eq_true (ne_of_key_mayFollow (hrest byte hbyte)).2
  rw [lineEvent?_of_mayStart number hfirst hcomment, assignment, hequals]
  simp only [List.singleton_append, hkey.trim_eq]

/-- A key and a value are read as they are, without the blanks around the sign of equality. -/
theorem lineEvent?_pair (hkey : Shape.key.Fits key) (hne : key ≠ [])
    (hvalue : Shape.value.Fits value) :
    lineEvent? number (key ++ ' '.toUInt8 :: '='.toUInt8 :: ' '.toUInt8 :: value) =
      some (.pair (Text.Utf8.decode key) (Text.Utf8.decode value)) := by
  obtain ⟨first, rest, rfl, hfirst, hrest⟩ := hkey.eq_cons hne
  have hfront : ∀ byte ∈ rest ++ [' '.toUInt8], decide (byte ≠ '='.toUInt8) = true := by
    intro byte hbyte
    rcases List.mem_append.mp hbyte with hmem | hmem
    · exact decide_eq_true (ne_of_key_mayFollow (hrest byte hmem)).2
    · rw [List.mem_singleton.mp hmem]
      rfl
  have hcomment : ';'.toUInt8 ∉ rest ++ ' '.toUInt8 :: '='.toUInt8 :: ' '.toUInt8 :: value := by
    have hinner : ';'.toUInt8 ∉ rest := fun hmem => (ne_of_key_mayFollow (hrest _ hmem)).1 rfl
    have hlast : ';'.toUInt8 ∉ value := hvalue.notMem (by decide) (by decide)
    simp only [List.mem_append, List.mem_cons, not_or]
    exact ⟨hinner, by decide, by decide, by decide, hlast⟩
  -- The sign is the first one, since the key may only start with another.
  have htrim : trim (first :: (rest ++ [' '.toUInt8])) = first :: rest := by
    rw [trim_cons_of_not_blank _ (Shape.key.not_blank hfirst), ← List.cons_append,
      trimEnd_concat_of_blank _ (by decide), hkey.trimEnd_eq]
  have hvaluetrim : trim (' '.toUInt8 :: value) = value := by
    rw [trim_cons_of_blank value (by decide), hvalue.trim_eq]
  rw [List.cons_append, lineEvent?_of_mayStart number hfirst hcomment, List.append_cons, assignment,
    List.dropWhile_append_of_pos hfront, List.takeWhile_append_of_pos hfront,
    List.dropWhile_cons_of_neg (by simp), List.takeWhile_cons_of_neg (by simp), List.append_nil]
  simp only [List.singleton_append, htrim, hvaluetrim]

/-- The name of a section is read as it stands in its brackets. -/
theorem lineEvent?_name (hname : Shape.name.Fits name) :
    lineEvent? number ('['.toUInt8 :: (name ++ [']'.toUInt8])) =
      some (.header (Text.Utf8.decode name)) := by
  have hfound : name? (name ++ [']'.toUInt8]) = some name := by
    cases name with
    | nil => rfl
    | cons first rest =>
      have hfirst := hname.start first rfl
      have hblank := Shape.name.not_blank hfirst
      have hinner : ∀ byte ∈ rest, isInName byte = true := fun byte hbyte =>
        (Bool.and_eq_true_iff.mp (hname.follow byte hbyte)).2
      simp only [Shape.name, Bool.and_eq_true, bne_iff_ne] at hfirst
      rw [List.cons_append, name?_cons_of_not_blank _ hblank hfirst.2, nameFrom?,
        List.dropWhile_append_of_pos hinner, List.takeWhile_append_of_pos hinner,
        List.dropWhile_cons_of_neg (by decide), List.takeWhile_cons_of_neg (by decide),
        List.append_nil, List.singleton_append, hname.trimEnd_eq]
      rfl
  rw [lineEvent?_eq, List.dropWhile_cons_of_neg (by decide), textEvent?, if_neg (by decide),
    if_pos rfl, hfound, headerEvent]

/-- A line with a key alone says the key. -/
theorem says_key (hkey : Shape.key.Fits key) (hne : key ≠ []) :
    Says (key ++ [lineFeed]) [.bare (Text.Utf8.decode key)] :=
  Says.line hkey.isInLine fun number => by rw [lineEvent?_key number hkey hne, Option.toList_some]

/-- A line with a key and a value says both. -/
theorem says_pair (hkey : Shape.key.Fits key) (hne : key ≠ []) (hvalue : Shape.value.Fits value) :
    Says (key ++ ' '.toUInt8 :: '='.toUInt8 :: ' '.toUInt8 :: value ++ [lineFeed])
      [.pair (Text.Utf8.decode key) (Text.Utf8.decode value)] := by
  refine Says.line ?_ fun number => ?_
  · have hkeyin := hkey.isInLine
    have hvaluein := hvalue.isInLine
    simp only [List.mem_cons, List.mem_append]
    rintro byte (hmem | rfl | rfl | rfl | hmem)
    · exact hkeyin byte hmem
    · rfl
    · rfl
    · rfl
    · exact hvaluein byte hmem
  · rw [lineEvent?_pair number hkey hne hvalue, Option.toList_some]

/-- A line with a name in brackets says the section. -/
theorem says_name (hname : Shape.name.Fits name) :
    Says ('['.toUInt8 :: (name ++ [']'.toUInt8]) ++ [lineFeed])
      [.header (Text.Utf8.decode name)] := by
  refine Says.line ?_ fun number => ?_
  · have hin := hname.isInLine
    simp only [List.mem_cons, List.mem_append, List.not_mem_nil, or_false]
    rintro byte (rfl | hmem | rfl)
    · rfl
    · exact hin byte hmem
    · rfl
  · rw [lineEvent?_name number hname, Option.toList_some]

end Written

/-- An event as a line. A line that could not be understood is not written. -/
def Event.written? : Event → Option String
  | .header name => some ("[" ++ name ++ "]")
  | .pair key value => some (key ++ " = " ++ value)
  | .bare key => some key
  | .badLine _ _ => none

/-- The bytes of an event as a line, with the line feed that ends it. -/
def Event.bytes (event : Event) : List UInt8 :=
  match event.written? with
  | some line => Text.Utf8.encode line ++ [lineFeed]
  | none => []

/-- Whether the parts of an event have their shapes. -/
def Event.Shaped : Event → Prop
  | .header name => Shape.name.Fits (Text.Utf8.encode name)
  | .pair key value => key ≠ "" ∧ Shape.key.Fits (Text.Utf8.encode key) ∧
      Shape.value.Fits (Text.Utf8.encode value)
  | .bare key => key ≠ "" ∧ Shape.key.Fits (Text.Utf8.encode key)
  | .badLine _ _ => False

/-- A text that is not empty has bytes. -/
theorem encode_ne_nil {text : String} (h : text ≠ "") : Text.Utf8.encode text ≠ [] := by
  intro hempty
  rw [← Text.Utf8.decode_encode text, hempty] at h
  exact h rfl

/-- An event whose parts have their shapes is read back from its line. -/
theorem Event.Shaped.says_bytes {event : Event} (h : event.Shaped) : Says event.bytes [event] := by
  cases event with
  | header name =>
    have hsays := says_name h
    have hbytes : Text.Utf8.encode ("[" ++ name ++ "]") =
        '['.toUInt8 :: (Text.Utf8.encode name ++ [']'.toUInt8]) := by
      rw [Text.Utf8.encode_append, Text.Utf8.encode_append]
      rfl
    rwa [Text.Utf8.decode_encode, ← hbytes] at hsays
  | pair key value =>
    obtain ⟨hne, hkey, hvalue⟩ := h
    have hsays := says_pair hkey (encode_ne_nil hne) hvalue
    have hbytes : Text.Utf8.encode (key ++ " = " ++ value) = Text.Utf8.encode key ++
        ' '.toUInt8 :: '='.toUInt8 :: ' '.toUInt8 :: Text.Utf8.encode value := by
      rw [Text.Utf8.encode_append, Text.Utf8.encode_append, List.append_assoc]
      rfl
    rwa [Text.Utf8.decode_encode, Text.Utf8.decode_encode, ← hbytes] at hsays
  | bare key =>
    obtain ⟨hne, hkey⟩ := h
    have hsays := says_key hkey (encode_ne_nil hne)
    rwa [Text.Utf8.decode_encode] at hsays
  | badLine line number => exact h.elim

end GameSetup.Conf
