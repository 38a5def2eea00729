import GameSetup.Proofs.Numeral.Sliced
import GameSetup.Proofs.Setting.Resolution

/-!
# Resolutions read at byte offsets

Three slices are cut for a resolution: what stands behind the width, then what stands behind the
gap, and inside the latter the digits of the height. The gap may hold any text, since its characters
are looked at before they are refused. The offset grows by all bytes of a character at once, so it
never stops inside one.
-/

namespace GameSetup.Sliced

open Text

/-- The offset behind the gap between two numbers, from an offset and the characters that stand
there. -/
def gapStop : Bool → Nat → List Char → Except Rejection Nat
  | _, offset, [] => .ok offset
  | separated, offset, c :: rest =>
    if isBlank c then gapStop separated (offset + c.utf8Size) rest
    else if c == ',' || c == 'x' then
      if separated then .error .notResolution else gapStop true (offset + c.utf8Size) rest
    else if Numeral.isDigitOf 10 c then .ok offset
    else .error .notResolution

/-- A number inside a resolution, and the offset behind it. -/
def readSide (text : String) : Except BadSlice (Except Rejection (Int32 × Nat)) := do
  return match ← leadingDecimal text with
    | .ok side => .ok side
    | .error .noDigits => .error .notResolution
    | .error .overflow => .error .outsideInt32

/-- The resolution that a text writes. -/
def resolution (text : String) : Except BadSlice (Except Rejection Resolution) := do
  match ← readSide text with
  | .error cause => return .error cause
  | .ok (width, stop) =>
    let gap ← sliceFrom text stop
    match gapStop false stop gap.toList with
    | .error cause => return .error cause
    | .ok second =>
      let rest ← sliceFrom text second
      match ← readSide rest with
      | .error cause => return .error cause
      | .ok (height, used) =>
        return if second + used < text.utf8ByteSize then .error .notResolution
          else .ok ⟨width, height⟩

section Steps

variable {text : String} {offset : Nat} {cs : List Char}

/-- The gap is passed over by whole characters, or refused. -/
theorem gapStop_cases (separated : Bool) (h : RestAt text offset cs) :
    (∃ left second, Resolution.skipGap separated cs = .ok left ∧
        gapStop separated offset cs = .ok second ∧ RestAt text second left) ∨
      ∃ cause, Resolution.skipGap separated cs = .error cause ∧
        gapStop separated offset cs = .error cause := by
  induction cs generalizing separated offset with
  | nil => exact .inl ⟨[], offset, rfl, rfl, h⟩
  | cons c cs ih =>
    have hnext : RestAt text (offset + c.utf8Size) cs := by
      have hfirst : RestAt text offset ([c] ++ cs) := h
      exact byteCount_singleton c ▸ hfirst.skip
    rw [Resolution.skipGap, gapStop]
    by_cases hblank : isBlank c = true
    · rw [if_pos hblank, if_pos hblank]
      exact ih separated hnext
    rw [if_neg hblank, if_neg hblank]
    by_cases hmark : (c == ',' || c == 'x') = true
    · rw [if_pos hmark, if_pos hmark]
      cases separated with
      | true => exact .inr ⟨_, rfl, rfl⟩
      | false => exact ih true hnext
    rw [if_neg hmark, if_neg hmark]
    by_cases hdigit : Numeral.isDigitOf 10 c = true
    · rw [if_pos hdigit, if_pos hdigit]
      exact .inl ⟨_, offset, rfl, rfl, h⟩
    · rw [if_neg hdigit, if_neg hdigit]
      exact .inr ⟨_, rfl, rfl⟩

/-- So the gap ends between two characters. -/
theorem exists_restAt_of_gapStop {separated : Bool} {second : Nat} (h : RestAt text offset cs)
    (hstop : gapStop separated offset cs = .ok second) : ∃ left, RestAt text second left := by
  obtain ⟨left, found, -, hfound, hleft⟩ | ⟨cause, -, hrefused⟩ := gapStop_cases separated h
  · cases hfound.symm.trans hstop
    exact ⟨left, hleft⟩
  · cases hrefused.symm.trans hstop

/-- A side is read, and the offset is the one behind its last digit. -/
theorem readSide_eq (text : String) :
    readSide text =
      .ok ((Resolution.readSide text.toList).map fun side => (side.1, side.2.used)) := by
  rw [readSide, leadingDecimal_eq, Resolution.readSide]
  cases Numeral.leadingDecimal text.toList with
  | ok side => rfl
  | error cause => cases cause <;> rfl

/-- Bytes are left behind a number that follows an offset exactly if characters are. -/
theorem add_used_lt_iff {left : List Char} {cut : Numeral.Cut} (h : RestAt text offset left)
    (hcut : Numeral.IsDecimalCut left cut) :
    offset + cut.used < text.utf8ByteSize ↔ cut.rest ≠ [] := by
  have hsize := h.add_byteCount
  rw [← hcut.taken_append_rest, byteCount_append, byteCount_of_lt hcut.toNat_lt, ← Numeral.Cut.used]
    at hsize
  have hempty : byteCount cut.rest = 0 ↔ cut.rest = [] := byteCount_eq_zero_iff
  rw [ne_eq, ← hempty]
  omega

/-- The resolution is read. -/
theorem resolution_eq (text : String) : resolution text = .ok (Resolution.read text) := by
  rw [resolution, readSide_eq, Resolution.read]
  cases hwidth : Resolution.readSide text.toList with
  | error cause => rfl
  | ok side =>
    obtain ⟨width, cut⟩ := side
    have hcut := (Resolution.readSide_eq_ok_iff.mp hwidth).1
    have hgap : RestAt text cut.used cut.rest := restAt_used hcut.taken_append_rest hcut.toNat_lt
    simp only [Except.map, ok_bind, hgap.sliceFrom_eq, String.toList_ofList]
    obtain ⟨left, second, hskip, hstop, hleft⟩ | ⟨cause, hskip, hstop⟩ :=
      gapStop_cases false hgap
    · simp only [hskip, hstop, hleft.sliceFrom_eq, readSide_eq, String.toList_ofList, ok_bind]
      cases hheight : Resolution.readSide left with
      | error cause => rfl
      | ok side =>
        obtain ⟨height, cut⟩ := side
        have hcut := (Resolution.readSide_eq_ok_iff.mp hheight).1
        simp only [Except.map, ok_bind, add_used_lt_iff hleft hcut]
        by_cases hrest : cut.rest = []
        · rw [if_neg (not_not_intro hrest), if_pos (List.isEmpty_iff.mpr hrest)]
          rfl
        · rw [if_pos hrest, if_neg (mt List.isEmpty_iff.mp hrest)]
          rfl
    · rw [hskip, hstop]
      rfl

end Steps

end GameSetup.Sliced
