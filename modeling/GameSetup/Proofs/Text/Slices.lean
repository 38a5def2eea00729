import GameSetup.Proofs.Text.Letters
import GameSetup.Proofs.Text.Utf8

/-!
# Slices of a text at byte offsets

A text is cut at offsets that count its bytes. A slice exists only between two offsets that lie
within the text, on the border of a character, and in order; what asks for any other slice fails.

Readers that go through a text by offsets are compared with readers that go through its characters
by saying which characters are left behind an offset. A step over some characters adds their bytes
to the offset, and a character among the first 128 is a single byte.
-/

namespace GameSetup.Text

/-- A slice that a text does not have. -/
structure BadSlice where
  text : String
  start : Nat
  stop : Nat
  deriving DecidableEq, Repr

/-- The slice of a text between two byte offsets, if it has one. -/
def slice? (text : String) (start stop : Nat) : Option String :=
  if h : (String.Pos.Raw.mk start).IsValid text ∧ (String.Pos.Raw.mk stop).IsValid text ∧
      start ≤ stop then
    some (text.slice ⟨⟨start⟩, h.1⟩ ⟨⟨stop⟩, h.2.1⟩ h.2.2).copy
  else none

/-- The slice of a text between two byte offsets. It fails if there is none. -/
def slice (text : String) (start stop : Nat) : Except BadSlice String :=
  match slice? text start stop with
  | some part => .ok part
  | none => .error ⟨text, start, stop⟩

/-- The slice of a text from a byte offset on. -/
def sliceFrom (text : String) (start : Nat) : Except BadSlice String :=
  slice text start text.utf8ByteSize

/-- Whether there is a byte at an offset of a text and, read as a character, it is of some kind. -/
def byteIs (p : Char → Bool) (text : String) (offset : Nat) : Bool :=
  (Utf8.encode text)[offset]?.any fun b => p (Char.ofNat b.toNat)

/-- How many bytes some characters take. -/
def byteCount (cs : List Char) : Nat :=
  (String.ofList cs).utf8ByteSize

section Bytes

variable {cs : List Char}

/-- Two parts have the bytes of both. -/
@[simp] theorem byteCount_append (front back : List Char) :
    byteCount (front ++ back) = byteCount front + byteCount back := by
  rw [byteCount, String.ofList_append, String.utf8ByteSize_append, ← byteCount, ← byteCount]

/-- The bytes of a text are those of its characters. -/
@[simp] theorem byteCount_toList (text : String) : byteCount text.toList = text.utf8ByteSize := by
  rw [byteCount, String.ofList_toList]

/-- A single character has its own bytes. -/
theorem byteCount_singleton (c : Char) : byteCount [c] = c.utf8Size := by
  rw [byteCount, ← String.singleton_eq_ofList, String.utf8ByteSize_singleton]

/-- The bytes of the first character come first. -/
theorem byteCount_cons (c : Char) (cs : List Char) :
    byteCount (c :: cs) = c.utf8Size + byteCount cs := by
  rw [← List.singleton_append, byteCount_append, byteCount_singleton]

/-- Only no characters take no bytes. -/
theorem byteCount_eq_zero_iff : byteCount cs = 0 ↔ cs = [] := by
  rw [byteCount, String.utf8ByteSize_eq_zero_iff, String.ofList_eq_empty_iff]

/-- The first 128 characters take a byte each. -/
theorem byteCount_of_lt (h : ∀ c ∈ cs, c.toNat < 0x80) : byteCount cs = cs.length := by
  induction cs with
  | nil => rfl
  | cons c cs ih =>
    rw [List.forall_mem_cons] at h
    have hone : c.utf8Size = 1 :=
      Char.utf8Size_eq_one_iff.mpr (UInt32.le_iff_toNat_le.mpr (Nat.le_of_lt_succ h.1))
    rw [byteCount_cons, hone, ih h.2, List.length_cons, Nat.add_comm]

/-- The case of letters does not matter. -/
theorem byteCount_lower (cs : List Char) : byteCount (lower cs) = byteCount cs := by
  induction cs with
  | nil => rfl
  | cons c cs ih =>
    have hone : c.toLower.utf8Size = c.utf8Size := apply_toLower (by decide) c
    rw [lower_cons, byteCount_cons, byteCount_cons, hone, ih]

/-- An encoded text has as many bytes as are counted. -/
theorem length_encode (text : String) : (Utf8.encode text).length = text.utf8ByteSize := by
  have hchars (cs : List Char) : (cs.flatMap String.utf8EncodeChar).length = byteCount cs := by
    induction cs with
    | nil => rfl
    | cons c cs ih =>
      rw [List.flatMap_cons, List.length_append, ih, byteCount_cons,
        String.length_utf8EncodeChar]
  rw [Utf8.encode, hchars, byteCount_toList]

/-- A byte of some kind lies within the text. -/
theorem lt_of_byteIs {p : Char → Bool} {text : String} {offset : Nat}
    (h : byteIs p text offset = true) : offset < text.utf8ByteSize := by
  obtain ⟨b, hb, -⟩ := (Option.any_eq_true _ _).mp h
  rw [← length_encode]
  exact (List.getElem?_eq_some_iff.mp hb).1

end Bytes

/-- A slice is what stands in the text between the bytes in front and those behind. -/
theorem slice?_eq_some_iff {text part : String} {start stop : Nat} :
    slice? text start stop = some part ↔
      ∃ front back, front ++ part ++ back = text ∧ front.utf8ByteSize = start ∧
        start + part.utf8ByteSize = stop := by
  constructor
  · intro h
    rw [slice?] at h
    split at h
    · next hvalid =>
      obtain ⟨front, back, hstart, hstop⟩ :=
        String.copy_slice_eq_iff_splits.mp ⟨hvalid.2.2, Option.some.inj h⟩
      have hstartsize : start = front.utf8ByteSize :=
        congrArg String.Pos.Raw.byteIdx hstart.offset_eq_rawEndPos
      have hstopsize : stop = (front ++ part).utf8ByteSize :=
        congrArg String.Pos.Raw.byteIdx hstop.offset_eq_rawEndPos
      rw [String.utf8ByteSize_append] at hstopsize
      exact ⟨front, back, hstop.eq_append.symm, hstartsize.symm, by omega⟩
    · cases h
  · rintro ⟨front, back, rfl, rfl, rfl⟩
    have hstart : (String.Pos.Raw.mk front.utf8ByteSize).IsValid (front ++ part ++ back) :=
      String.Pos.Raw.isValid_iff_exists_append.mpr
        ⟨front, part ++ back, String.append_assoc, rfl⟩
    have hstop : (String.Pos.Raw.mk (front.utf8ByteSize + part.utf8ByteSize)).IsValid
        (front ++ part ++ back) :=
      String.Pos.Raw.isValid_iff_exists_append.mpr
        ⟨front ++ part, back, rfl, String.Pos.Raw.ext String.utf8ByteSize_append.symm⟩
    have hsplits : (⟨⟨front.utf8ByteSize⟩, hstart⟩ : (front ++ part ++ back).Pos).Splits front
          (part ++ back) ∧
        (⟨⟨front.utf8ByteSize + part.utf8ByteSize⟩, hstop⟩ : (front ++ part ++ back).Pos).Splits
          (front ++ part) back :=
      ⟨⟨String.append_assoc, rfl⟩, ⟨rfl, String.Pos.Raw.ext String.utf8ByteSize_append.symm⟩⟩
    obtain ⟨_, hcopy⟩ := String.copy_slice_eq_iff_splits.mpr ⟨front, back, hsplits⟩
    rw [slice?, dif_pos ⟨hstart, hstop, Nat.le_add_right _ _⟩]
    exact congrArg some hcopy

example : slice? "aéb" 1 3 = some "é" ∧ slice? "aéb" 0 2 = none ∧ slice? "aéb" 3 5 = none := by
  decide +kernel

/-- Whether some characters are what is left of a text behind a byte offset. -/
def RestAt (text : String) (offset : Nat) (rest : List Char) : Prop :=
  ∃ front, front ++ rest = text.toList ∧ byteCount front = offset

namespace RestAt

variable {text : String} {offset : Nat} {part rest : List Char} {c : Char}

/-- All of a text is left behind its start. -/
theorem zero (text : String) : RestAt text 0 text.toList :=
  ⟨[], rfl, rfl⟩

/-- What is left takes the remaining bytes. -/
theorem add_byteCount (h : RestAt text offset rest) :
    offset + byteCount rest = text.utf8ByteSize := by
  obtain ⟨front, hfront, rfl⟩ := h
  rw [← byteCount_append, hfront, byteCount_toList]

/-- Behind some characters, what follows them is left. -/
theorem skip (h : RestAt text offset (part ++ rest)) :
    RestAt text (offset + byteCount part) rest := by
  obtain ⟨front, hfront, rfl⟩ := h
  exact ⟨front ++ part, by rw [List.append_assoc, hfront], byteCount_append front part⟩

/-- Among the first 128 characters, bytes and characters are the same. -/
theorem skip_of_lt (h : RestAt text offset (part ++ rest)) (hpart : ∀ c ∈ part, c.toNat < 0x80) :
    RestAt text (offset + part.length) rest :=
  byteCount_of_lt hpart ▸ h.skip

/-- One of the first 128 characters is passed over in one step. -/
theorem next (h : RestAt text offset (c :: rest)) (hc : c.toNat < 0x80) :
    RestAt text (offset + 1) rest := by
  have hfirst : RestAt text offset ([c] ++ rest) := h
  exact hfirst.skip_of_lt (List.forall_mem_singleton.mpr hc)

/-- There is a slice over some characters, and it is made of them. -/
theorem slice?_eq (h : RestAt text offset (part ++ rest)) :
    slice? text offset (offset + byteCount part) = some (String.ofList part) := by
  obtain ⟨front, hfront, rfl⟩ := h
  refine slice?_eq_some_iff.mpr ⟨String.ofList front, String.ofList rest, ?_, rfl, rfl⟩
  rw [← String.ofList_append, ← String.ofList_append, List.append_assoc, hfront,
    String.ofList_toList]

/-- The slice from an offset to the end of a part is the part. -/
theorem slice_eq (h : RestAt text offset (part ++ rest)) :
    slice text offset (offset + byteCount part) = .ok (String.ofList part) := by
  rw [slice, h.slice?_eq]

/-- Among the first 128 characters, a slice is as long as the characters are many. -/
theorem slice_of_lt (h : RestAt text offset (part ++ rest)) (hpart : ∀ c ∈ part, c.toNat < 0x80) :
    slice text offset (offset + part.length) = .ok (String.ofList part) :=
  byteCount_of_lt hpart ▸ h.slice_eq

/-- The slice from an offset on is made of what is left. -/
theorem sliceFrom_eq (h : RestAt text offset rest) :
    sliceFrom text offset = .ok (String.ofList rest) := by
  have hall : RestAt text offset (rest ++ []) := (List.append_nil rest).symm ▸ h
  rw [sliceFrom, ← h.add_byteCount, hall.slice_eq]

/-- The byte at an offset is the first one of what is left. -/
theorem getElem?_encode (h : RestAt text offset rest) :
    (Utf8.encode text)[offset]? = (Utf8.encode (String.ofList rest)).head? := by
  obtain ⟨front, hfront, rfl⟩ := h
  have htext : text = String.ofList front ++ String.ofList rest := by
    rw [← String.ofList_append, hfront, String.ofList_toList]
  have hlength : (Utf8.encode (String.ofList front)).length = byteCount front :=
    length_encode _
  rw [htext, Utf8.encode_append, List.getElem?_append_right hlength.le, hlength, Nat.sub_self,
    List.head?_eq_getElem?]

/-- A kind of characters among the first 128 is told by the byte at an offset: no byte of another
character is taken for one of them. -/
theorem byteIs_eq {p : Char → Bool} (h : RestAt text offset rest)
    (hp : ∀ c, p c = true → c.toNat < 0x80) : byteIs p text offset = rest.head?.any p := by
  rw [byteIs, h.getElem?_encode, Utf8.encode, String.toList_ofList]
  cases rest with
  | nil => rfl
  | cons c rest =>
    rw [List.flatMap_cons, List.head?_append_of_ne_nil _ String.utf8EncodeChar_ne_nil,
      List.head?_cons, Option.any_some]
    by_cases hc : c.toNat < 0x80
    · rw [Utf8.utf8EncodeChar_of_lt hc, List.head?_cons, Option.any_some,
        UInt8.toNat_ofNat_of_lt' (Nat.lt_trans hc (by decide)), Char.ofNat_toNat]
    · rw [Bool.eq_false_iff.mpr fun hpc => hc (hp c hpc), Option.any_eq_false]
      intro b hb
      refine Bool.eq_false_iff.mpr fun hpb => ?_
      have hle := Utf8.le_of_mem_utf8EncodeChar (Nat.le_of_not_lt hc) (List.mem_of_head? hb)
      have hbyte : b.toNat.isValidChar := .inl (Nat.lt_trans b.toNat_lt (by decide))
      have hlt := hp _ hpb
      rw [Char.ofNat, dif_pos hbyte] at hlt
      exact absurd hle (Nat.not_le.mpr hlt)

end RestAt

end GameSetup.Text
