import GameSetup.Proofs.Conf.Brackets
import GameSetup.Proofs.Conf.Shapes

/-!
# Writing down what was read

Whatever bytes a configuration is made of, the parts of the lines that were understood have their
shapes. So these events can be written down, each as a line of its own, and reading that text gives
the same events again.
-/

namespace GameSetup.Conf

open Grammar

section Parts

variable {text name : List UInt8} {first : UInt8}

/-- What is found between brackets has the shape of a name. -/
theorem fits_of_name? (hline : ∀ byte ∈ text, isInLine byte = true) (h : name? text = some name) :
    Shape.name.Fits name := by
  cases name?_eq_some_iff.mp h with
  | empty hgap htail => exact Shape.fits_nil
  | @name gap inner tail first hgap hfirst hbracket hinner htail =>
    refine Shape.fits_trimEnd_cons ?_ fun byte hbyte => ?_
    · simp [Shape.name, hfirst, hbracket]
    · have hmem : byte ∈ gap ++ first :: (inner ++ ']'.toUInt8 :: tail) := by simp [hbyte]
      simp only [Shape.name, hline byte hmem, hinner byte hbyte, Bool.and_self]

/-- What starts like a key and has no sign of equality behind that is a key. -/
theorem shaped_key (hfirst : Shape.key.mayStart first = true)
    (htext : ∀ byte ∈ text, Shape.key.mayFollow byte = true) :
    (Event.bare (Text.Utf8.decode (trim (first :: text)))).Shaped := by
  rw [trim_cons_of_not_blank text (Shape.key.not_blank hfirst)]
  refine ⟨?_, (Shape.fits_trimEnd_cons hfirst htext).encode_decode⟩
  rw [trimEnd_cons_of_not_blank text (Shape.key.not_blank hfirst), Text.Utf8.decode, Ne,
    String.ofList_eq_empty_iff]
  exact Text.Utf8.decodeFrom_ne_nil Text.Utf8.sound_of_mem_none first _

/-- An assignment without a comment has the shapes of a key and a value. -/
theorem shaped_assignment (hfirst : Shape.key.mayStart first = true)
    (htext : ∀ byte ∈ text, Shape.value.mayFollow byte = true) :
    (assignment [first] text).Shaped := by
  have hkey {byte : UInt8} (hmem : byte ∈ text) (hne : byte ≠ '='.toUInt8) :
      Shape.key.mayFollow byte = true := by
    have hfollow := htext byte hmem
    simp only [Shape.value, Shape.key, Bool.and_eq_true, bne_iff_ne] at hfollow ⊢
    exact ⟨hfollow, hne⟩
  have hsuffix : text.dropWhile (· ≠ '='.toUInt8) <:+ text := List.dropWhile_suffix _
  rw [assignment]
  cases hrest : text.dropWhile (· ≠ '='.toUInt8) with
  | nil =>
    refine shaped_key hfirst fun byte hmem => hkey hmem ?_
    exact of_decide_eq_true (List.dropWhile_eq_nil_iff.mp hrest byte hmem)
  | cons mark value =>
    rw [hrest] at hsuffix
    have hvalue : ∀ byte ∈ value, byte ∈ text := fun byte hmem =>
      hsuffix.subset (List.mem_cons_of_mem _ hmem)
    have hfront : ∀ byte ∈ text.takeWhile (· ≠ '='.toUInt8), Shape.key.mayFollow byte = true := by
      intro byte hmem
      have hne := List.mem_takeWhile_imp hmem
      exact hkey ((List.takeWhile_prefix _).subset hmem) (of_decide_eq_true hne)
    have hshaped := shaped_key hfirst hfront
    refine ⟨hshaped.1, hshaped.2, (Shape.fits_trim (fun byte hmem hblank => ?_) fun byte hmem =>
      htext byte (hvalue byte hmem)).encode_decode⟩
    have hfollow := htext byte (hvalue byte hmem)
    simp only [Shape.value, Bool.and_eq_true] at hfollow ⊢
    exact ⟨by simp [hblank], hfollow.2⟩

end Parts

/-- A line that was understood has shaped parts. -/
theorem shaped_of_lineEvent? {number : Nat} {line : List UInt8} {event : Event}
    (hline : ∀ byte ∈ line, isInLine byte = true) (h : lineEvent? number line = some event)
    (hgood : event.badLine?.isNone = true) : event.Shaped := by
  have hsuffix : line.dropWhile Text.isBlankByte <:+ line := List.dropWhile_suffix _
  rw [lineEvent?_eq] at h
  cases htext : line.dropWhile Text.isBlankByte with
  | nil =>
    rw [htext] at h
    cases h
  | cons first rest =>
    have hblank := isBlankByte_of_dropWhile_eq_cons (fun _ hblank => hblank) htext
    rw [htext] at h hsuffix
    have hrest : ∀ byte ∈ rest, isInLine byte = true := fun byte hmem =>
      hline byte (hsuffix.subset (List.mem_cons_of_mem _ hmem))
    rw [textEvent?] at h
    split_ifs at h with hmark hbracket
    · obtain rfl := Option.some.inj h
      cases hname : name? rest with
      | none =>
        rw [hname] at hgood
        cases hgood
      | some name => exact (fits_of_name? hrest hname).encode_decode
    · obtain rfl := Option.some.inj h
      refine shaped_assignment ?_ fun byte hmem => ?_
      · simp [Shape.key, hblank, hmark, hbracket]
      · have hbefore := List.mem_takeWhile_imp hmem
        have hin := hrest byte ((List.takeWhile_prefix _).subset hmem)
        simp only [Shape.value, hin, Bool.true_and, bne_iff_ne]
        exact of_decide_eq_true hbefore

/-- The events without the lines that could not be understood. -/
def understood (events : List Event) : List Event :=
  events.filter (·.badLine?.isNone)

/-- Events written down, each as a line. -/
def written (events : List Event) : List UInt8 :=
  events.flatMap Event.bytes

/-- Whatever the text, the events that were understood have shaped parts. -/
theorem shaped_of_mem_understood {text : List UInt8} {event : Event}
    (h : event ∈ understood (events (.ofBytes text))) : event.Shaped := by
  rw [understood, List.mem_filter, events_ofBytes, Grammar.events, eventsFrom,
    List.mem_filterMap] at h
  obtain ⟨⟨⟨line, number⟩, hmem, hevent⟩, hgood⟩ := h
  refine shaped_of_lineEvent? (fun byte hbyte => ?_) hevent hgood
  exact isInLine_of_mem_lines (List.fst_mem_of_mem_zipIdx hmem) hbyte

/-- Events with shaped parts are read back from the text that is written for them. -/
theorem events_written {found : List Event} (h : ∀ event ∈ found, event.Shaped) :
    events (.ofBytes (written found)) = found := by
  have hsays : Says (written found) (found.flatMap fun event => [event]) :=
    Says.flatMap fun event hmem => (h event hmem).says_bytes
  rw [events_ofBytes, hsays.events_eq, List.flatMap_singleton']

/-- Writing undoes reading: what was understood of any text is written down as a text, and reading
that gives the same events and no line that cannot be understood. -/
theorem Journal.ofStream_written (text : List UInt8) :
    Journal.ofStream (.ofBytes (written (understood (Conf.events (.ofBytes text))))) =
        ⟨true, true, understood (Conf.events (.ofBytes text))⟩ ∧
      badLines (understood (Conf.events (.ofBytes text))) = [] := by
  constructor
  · rw [Journal.ofStream_eq, events_written fun event hmem => shaped_of_mem_understood hmem]
    rfl
  · rw [badLines, understood, List.filterMap_eq_nil_iff]
    intro event hmem
    exact Option.isNone_iff_eq_none.mp (List.mem_filter.mp hmem).2

end GameSetup.Conf
