import GameSetup.Proofs.Conf.Shapes

/-!
# Plain texts

A text is plain if it survives being written into a configuration: it is trimmed, and it lacks the
characters that end a part of its kind. Plain texts have the shapes of their parts.
-/

namespace GameSetup.Conf

open Grammar

/-- Whether a text has no blank at either end. -/
def Trimmed (text : String) : Prop :=
  Text.trimStart text.toList = text.toList ∧ Text.trimEnd text.toList = text.toList

/-- Whether a text has none of some characters. -/
def Lacks (chars : List Char) (text : String) : Prop :=
  ∀ c ∈ chars, c ∉ text.toList

instance (text : String) : Decidable (Trimmed text) :=
  inferInstanceAs (Decidable (_ ∧ _))

instance (chars : List Char) (text : String) : Decidable (Lacks chars text) :=
  List.decidableBAll (· ∉ text.toList) chars

/-- A text that can be a key. -/
structure PlainKey (text : String) : Prop where
  ne_empty : text ≠ ""
  trimmed : Trimmed text
  lacks : Lacks ['\r', '\n', ';', '='] text
  head_ne : text.toList.head? ≠ some '['

/-- A text that can be the name of a section. -/
structure PlainName (text : String) : Prop where
  ne_empty : text ≠ ""
  trimmed : Trimmed text
  lacks : Lacks ['\r', '\n', ';', ']'] text

/-- A text that can be a value. It may be empty. -/
structure PlainValue (text : String) : Prop where
  trimmed : Trimmed text
  lacks : Lacks ['\r', '\n', ';'] text

instance (text : String) : Decidable (PlainKey text) :=
  decidable_of_iff
    (text ≠ "" ∧ Trimmed text ∧ Lacks ['\r', '\n', ';', '='] text ∧ text.toList.head? ≠ some '[')
    ⟨fun ⟨hne, htrim, hlacks, hhead⟩ => ⟨hne, htrim, hlacks, hhead⟩,
      fun h => ⟨h.ne_empty, h.trimmed, h.lacks, h.head_ne⟩⟩

instance (text : String) : Decidable (PlainName text) :=
  decidable_of_iff (text ≠ "" ∧ Trimmed text ∧ Lacks ['\r', '\n', ';', ']'] text)
    ⟨fun ⟨hne, htrim, hlacks⟩ => ⟨hne, htrim, hlacks⟩, fun h => ⟨h.ne_empty, h.trimmed, h.lacks⟩⟩

instance (text : String) : Decidable (PlainValue text) :=
  decidable_of_iff (Trimmed text ∧ Lacks ['\r', '\n', ';'] text)
    ⟨fun ⟨htrim, hlacks⟩ => ⟨htrim, hlacks⟩, fun h => ⟨h.trimmed, h.lacks⟩⟩

/-- Whether all lines of a text are blank, or comments. -/
def Silent (text : String) : Prop :=
  ∀ line ∈ lines (Text.Utf8.encode text),
    trim line = [] ∨ (trim line).head? = some ';'.toUInt8

/-- A line of such a text says nothing. -/
theorem Silent.lineEvent?_eq_none {text : String} (h : Silent text) {line : List UInt8}
    (hline : line ∈ lines (Text.Utf8.encode text)) (number : Nat) :
    lineEvent? number line = none := by
  rw [lineEvent?]
  rcases h line hline with hnil | hhead
  · rw [hnil]
    rfl
  · obtain ⟨rest, hrest⟩ := List.head?_eq_some_iff.mp hhead
    rw [hrest]
    rfl

section Bytes

variable {c : Char} {text : String}

/-- A character is trimmed away as its byte is. -/
theorem isBlankByte_ofNat (h : c.toNat < 0x80) :
    Text.isBlankByte (.ofNat c.toNat) = Text.isBlank c := by
  have hall : ∀ n : Fin 128, Text.isBlankByte (.ofNat n) = Text.isBlank (.ofNat n) := by decide
  have hchar := hall ⟨c.toNat, h⟩
  rwa [Char.ofNat_toNat] at hchar

/-- Different characters have different bytes. -/
theorem ofNat_toNat_ne {mark : Char} (h : c.toNat < 0x80) (hmark : mark.toNat < 0x80)
    (hne : c ≠ mark) : UInt8.ofNat c.toNat ≠ mark.toUInt8 := by
  intro heq
  have hnat := congrArg UInt8.toNat heq
  rw [UInt8.toNat_ofNat_of_lt' (Nat.lt_trans h (by decide)), Char.toUInt8, UInt32.toNat_toUInt8,
    Nat.mod_eq_of_lt (Nat.lt_trans hmark (by decide) : mark.val.toNat < 2 ^ 8)] at hnat
  exact hne (Char.toNat_inj.mp hnat)

/-- A character that a text lacks is not its byte. -/
theorem Lacks.ofNat_ne {chars : List Char} (h : Lacks chars text) (hc : c ∈ text.toList)
    (hlow : c.toNat < 0x80) {mark : Char} (hmem : mark ∈ chars) (hmark : mark.toNat < 0x80) :
    UInt8.ofNat c.toNat ≠ mark.toUInt8 := by
  refine ofNat_toNat_ne hlow hmark ?_
  rintro rfl
  exact h c hmem hc

/-- The first character of a trimmed text is no blank. -/
theorem Trimmed.not_blank_head (h : Trimmed text) :
    ∀ c ∈ text.toList.head?, Text.isBlank c = false := by
  intro c hc
  have hstop := List.head?_dropWhile_not Text.isBlank text.toList
  rwa [← Text.trimStart, h.1, Option.mem_def.mp hc] at hstop

/-- The last character of a trimmed text is no blank. -/
theorem Trimmed.not_blank_last (h : Trimmed text) :
    ∀ c ∈ text.toList.getLast?, Text.isBlank c = false := by
  intro c hc
  have hstop := List.head?_dropWhile_not Text.isBlank text.toList.reverse
  have hreverse : text.toList.reverse.dropWhile Text.isBlank = text.toList.reverse := by
    rw [← List.reverse_inj, List.reverse_reverse]
    exact h.2
  rwa [hreverse, List.head?_reverse, Option.mem_def.mp hc] at hstop

/-- The shape of a trimmed text is a matter of the characters that it lacks. -/
theorem Trimmed.fits {shape : Shape} (h : Trimmed text)
    (hstart : ∀ c ∈ text.toList.head?, c.toNat < 0x80 → Text.isBlankByte (.ofNat c.toNat) = false →
      shape.mayStart (.ofNat c.toNat) = true)
    (hfollow : ∀ c ∈ text.toList, c.toNat < 0x80 → shape.mayFollow (.ofNat c.toNat) = true) :
    shape.Fits (Text.Utf8.encode text) := by
  refine Shape.fits_encode (fun c hc hlow => ?_)
    (fun c hc hlow => hfollow c (List.mem_of_mem_tail hc) hlow) fun c hc hlow => ?_
  · exact hstart c hc hlow ((isBlankByte_ofNat hlow).trans (h.not_blank_head c hc))
  · exact (isBlankByte_ofNat hlow).trans (h.not_blank_last c hc)

/-- A text without an end of a line is one line. -/
theorem isInLine_ofNat {chars : List Char} (h : Lacks chars text) (hc : c ∈ text.toList)
    (hlow : c.toNat < 0x80) (hreturn : '\r' ∈ chars) (hfeed : '\n' ∈ chars) :
    isInLine (.ofNat c.toNat) = true := by
  have hnot : UInt8.ofNat c.toNat ≠ carriageReturn := h.ofNat_ne hc hlow hreturn (by decide)
  have hnotFeed : UInt8.ofNat c.toNat ≠ lineFeed := h.ofNat_ne hc hlow hfeed (by decide)
  simp [isInLine, hnot, hnotFeed]

/-- Nor do its bytes end one. -/
theorem isInLine_of_mem_encode (h : Lacks ['\r', '\n'] text) {byte : UInt8}
    (hbyte : byte ∈ Text.Utf8.encode text) : isInLine byte = true := by
  by_cases hlow : byte.toNat < 0x80
  · obtain ⟨c, hc, heq⟩ := Text.Utf8.exists_mem_of_mem_flatMap_utf8EncodeChar hbyte hlow
    have hin := isInLine_ofNat h hc (heq ▸ hlow) (by decide) (by decide)
    rwa [heq, UInt8.ofNat_toNat] at hin
  · exact isInLine_of_not_blank
      (Shape.value.not_blank (Shape.value.high_mayStart byte.toFin (Nat.le_of_not_lt hlow)))

/-- A text on one line that starts a comment says nothing. -/
theorem silent_of_lacks (h : Lacks ['\r', '\n'] text)
    (hmark : (trim (Text.Utf8.encode text)).head? = some ';'.toUInt8) : Silent text := by
  intro line hline
  rw [lines_of_forall_isInLine fun _ hbyte => isInLine_of_mem_encode h hbyte,
    List.mem_singleton] at hline
  exact .inr (hline ▸ hmark)

/-- A plain key has the shape of a key. -/
theorem PlainKey.fits (h : PlainKey text) : Shape.key.Fits (Text.Utf8.encode text) := by
  refine h.trimmed.fits (fun c hc hlow hblank => ?_) fun c hc hlow => ?_
  · have hmark : UInt8.ofNat c.toNat ≠ ';'.toUInt8 :=
      h.lacks.ofNat_ne (List.mem_of_head? hc) hlow (by decide) (by decide)
    have hbracket : UInt8.ofNat c.toNat ≠ '['.toUInt8 := by
      refine ofNat_toNat_ne hlow (by decide) ?_
      rintro rfl
      exact h.head_ne hc
    simp [Shape.key, hblank, hmark, hbracket]
  · have hin := isInLine_ofNat h.lacks hc hlow (by decide) (by decide)
    have hmark : UInt8.ofNat c.toNat ≠ ';'.toUInt8 :=
      h.lacks.ofNat_ne hc hlow (by decide) (by decide)
    have hequals : UInt8.ofNat c.toNat ≠ '='.toUInt8 :=
      h.lacks.ofNat_ne hc hlow (by decide) (by decide)
    simp [Shape.key, hin, hmark, hequals]

/-- A plain name has the shape of a name. -/
theorem PlainName.fits (h : PlainName text) : Shape.name.Fits (Text.Utf8.encode text) := by
  have hbracket {c : Char} (hc : c ∈ text.toList) (hlow : c.toNat < 0x80) :
      UInt8.ofNat c.toNat ≠ ']'.toUInt8 := h.lacks.ofNat_ne hc hlow (by decide) (by decide)
  refine h.trimmed.fits (fun c hc hlow hblank => ?_) fun c hc hlow => ?_
  · simp [Shape.name, hblank, hbracket (List.mem_of_head? hc) hlow]
  · have hin := isInLine_ofNat h.lacks hc hlow (by decide) (by decide)
    have hmark : UInt8.ofNat c.toNat ≠ ';'.toUInt8 :=
      h.lacks.ofNat_ne hc hlow (by decide) (by decide)
    simp [Shape.name, isInName, hin, hmark, hbracket hc hlow]

/-- A plain value has the shape of a value. -/
theorem PlainValue.fits (h : PlainValue text) : Shape.value.Fits (Text.Utf8.encode text) := by
  have hmark {c : Char} (hc : c ∈ text.toList) (hlow : c.toNat < 0x80) :
      UInt8.ofNat c.toNat ≠ ';'.toUInt8 := h.lacks.ofNat_ne hc hlow (by decide) (by decide)
  refine h.trimmed.fits (fun c hc hlow hblank => ?_) fun c hc hlow => ?_
  · simp [Shape.value, hblank, hmark (List.mem_of_head? hc) hlow]
  · have hin := isInLine_ofNat h.lacks hc hlow (by decide) (by decide)
    simp [Shape.value, hin, hmark hc hlow]

/-- A text without blanks and semicolons is a plain value. -/
theorem plainValue_of_not_blank (h : ∀ c ∈ text.toList, Text.isBlank c = false ∧ c ≠ ';') :
    PlainValue text := by
  have hkept (cs : List Char) (hcs : ∀ c ∈ cs, Text.isBlank c = false) :
      cs.dropWhile Text.isBlank = cs := by
    cases cs with
    | nil => rfl
    | cons c cs => exact List.dropWhile_cons_of_neg (by simp [hcs c List.mem_cons_self])
  refine ⟨⟨hkept _ fun c hc => (h c hc).1, ?_⟩, fun mark hmark hmem => ?_⟩
  · rw [Text.trimEnd, hkept _ fun c hc => (h c (List.mem_reverse.mp hc)).1, List.reverse_reverse]
  · have hblank := (h mark hmem).1
    simp only [List.mem_cons, List.not_mem_nil, or_false] at hmark
    rcases hmark with rfl | rfl | rfl
    · exact absurd hblank (by decide)
    · exact absurd hblank (by decide)
    · exact (h ';' hmem).2 rfl

end Bytes

end GameSetup.Conf
