import GameSetup.Proofs.Input.Keyword
import GameSetup.Proofs.Numeral.Written
import Mathlib.Data.List.Nodup

/-!
# What can be written for a key

The names of the keys and the other ways to write them, all in small letters, are different from
each other. So a text stands for a key exactly if the two are listed together. What is listed
cannot be taken for something else: it starts with no keyword, has no blank at either end, and is
one character or starts with a letter.
-/

namespace GameSetup.Scancode

open Text (lower)

/-- All that can be written for a key, in small letters. -/
def spellings : List (List Char × Scancode) :=
  (names.map fun entry => (lower entry.2.toList, ⟨entry.1⟩)) ++
    aliases.map fun entry => (lower entry.1.toList, ⟨entry.2⟩)

/-- Whether a text cannot be taken for anything but a name. Only `keypad -` has a mark of its own
among the names of several characters. -/
def isOrdinary (text : List Char) : Bool :=
  (Definition.keywords.all fun word => (Definition.dropKeyword word text).isNone) &&
    Text.trim text == text && (text.length == 1 || text.head?.any Char.isLower &&
      (text == "keypad -".toList || text.all fun c => c != '-' && c != '_'))

/-- A number that tells the spellings apart. -/
def weight (text : List Char) : Nat :=
  text.foldl (fun weight c => (weight * 11 + c.toNat) % 4093) 0

/-- Whether numbers come up once each, and none that is marked. A number that has come up is
marked, as a bit. -/
def freshFrom (marked : Nat) : List Nat → Bool
  | [] => true
  | number :: rest => !marked.testBit number && freshFrom (marked ||| 1 <<< number) rest

/-- Numbers that are fresh one after another are distinct, and none is marked. -/
theorem nodup_of_freshFrom {marked : Nat} {numbers : List Nat}
    (h : freshFrom marked numbers = true) :
    (∀ number ∈ numbers, marked.testBit number = false) ∧ numbers.Nodup := by
  induction numbers generalizing marked with
  | nil => exact ⟨fun _ hmem => absurd hmem List.not_mem_nil, List.nodup_nil⟩
  | cons number rest ih =>
    rw [freshFrom, Bool.and_eq_true, Bool.not_eq_true'] at h
    obtain ⟨hrest, hnodup⟩ := ih h.2
    simp only [Nat.testBit_or, Nat.one_shiftLeft, Nat.testBit_two_pow, Bool.or_eq_false_iff,
      decide_eq_false_iff_not] at hrest
    refine ⟨List.forall_mem_cons.mpr ⟨h.1, fun later hlater => (hrest later hlater).1⟩, ?_⟩
    exact List.nodup_cons.mpr ⟨fun hagain => (hrest number hagain).2 rfl, hnodup⟩

variable {name text : List Char} {scancode : Scancode}

/-- A number stands for the key with that index, if there is room for it. -/
theorem ofIndex?_eq_some_iff {value : Int} :
    ofIndex? value = some scancode ↔ value = scancode.index ∧ scancode.index < count := by
  constructor
  · intro h
    have hindex := index_of_ofIndex? h
    rw [ofIndex?] at h
    split at h
    · next hrange => exact ⟨hindex.symm, by omega⟩
    · cases h
  · rintro ⟨rfl, hlt⟩
    rw [ofIndex?, if_pos ⟨Int.natCast_nonneg _, by exact_mod_cast hlt⟩, Int.toNat_natCast, index,
      UInt16.ofNat_toNat]

/-- So a text without a blank at its end is read as the scancode with that index, if it is an
integer behind blanks or nothing. -/
theorem bind_ofIndex?_eq_some_iff (htext : Text.trimEnd text = text) :
    (Numeral.wholeInteger text).bind ofIndex? = some scancode ↔
      scancode.index < count ∧ Numeral.Behind text scancode.index := by
  rw [Option.bind_eq_some_iff]
  constructor
  · rintro ⟨value, hvalue, hindex⟩
    obtain ⟨rfl, hroom⟩ := ofIndex?_eq_some_iff.mp hindex
    exact ⟨hroom, ((Numeral.wholeInteger_iff_behind htext).mp hvalue).1⟩
  · rintro ⟨hroom, hbehind⟩
    refine ⟨scancode.index, (Numeral.wholeInteger_iff_behind htext).mpr ⟨hbehind, ?_⟩,
      ofIndex?_eq_some_iff.mpr ⟨rfl, hroom⟩⟩
    rw [Int.natAbs_natCast]
    exact hroom.trans (by decide)

/-- Names are found in any case of letters. -/
@[simp] theorem ofName?_lower (name : List Char) : ofName? (lower name) = ofName? name := by
  have hsame (known : List Char) : sameLetters known (lower name) = sameLetters known name := by
    rw [sameLetters, ← lower, ← lower, Text.lower_lower, sameLetters, ← lower, ← lower]
  simp only [ofName?, hsame]

/-- A key is found under a name as it is found in the list of spellings. -/
theorem ofName?_eq (name : List Char) :
    ofName? name = (spellings.find? (·.1 == lower name)).map (·.2) := by
  have hsame (known : List Char) : (lower known == lower name) = sameLetters known name := rfl
  rw [ofName?, spellings, List.find?_append, List.find?_map, List.find?_map]
  simp only [Function.comp_def, hsame]
  cases names.find? fun entry => sameLetters entry.2.toList name with
  | some entry => rfl
  | none =>
    rw [Option.map_none, Option.none_or, Option.map_map]
    rfl

/-- What the list of spellings is checked for, at once: their weights tell them apart, they are
ordinary, there is room for their keys, and the keys with a digit on them are not among the first
ten. -/
theorem spellings_checked :
    freshFrom 0 (spellings.map fun entry => weight entry.1) = true ∧
      ∀ entry ∈ spellings, isOrdinary entry.1 = true ∧ entry.2.index < count ∧
        (entry.1.all (Numeral.isDigitOf 10) = true → 10 ≤ entry.2.index) := by
  decide +kernel

/-- No two spellings are the same. -/
theorem nodup_map_spellings : (spellings.map (·.1)).Nodup := by
  refine List.Nodup.of_map weight ?_
  rw [List.map_map]
  exact (nodup_of_freshFrom spellings_checked.1).2

/-- Spellings are in small letters. -/
theorem lower_of_mem_spellings (h : (text, scancode) ∈ spellings) : lower text = text := by
  rcases List.mem_append.mp h with hname | halias
  · obtain ⟨entry, -, heq⟩ := List.mem_map.mp hname
    obtain ⟨rfl, rfl⟩ := Prod.ext_iff.mp heq
    exact Text.lower_lower _
  · obtain ⟨entry, -, heq⟩ := List.mem_map.mp halias
    obtain ⟨rfl, rfl⟩ := Prod.ext_iff.mp heq
    exact Text.lower_lower _

/-- So a name stands for a key exactly if the two are listed together. -/
theorem ofName?_eq_some_iff :
    ofName? name = some scancode ↔ (lower name, scancode) ∈ spellings := by
  rw [ofName?_eq, Option.map_eq_some_iff]
  constructor
  · rintro ⟨⟨text, found⟩, hfind, rfl⟩
    obtain rfl : text = lower name := beq_iff_eq.mp (List.find?_some hfind :)
    exact List.mem_of_find?_eq_some hfind
  · intro h
    have hfound : (spellings.find? (·.1 == lower name)).isSome = true :=
      List.find?_isSome.mpr ⟨_, h, beq_self_eq_true (lower name)⟩
    obtain ⟨entry, hfind⟩ := Option.isSome_iff_exists.mp hfound
    have hsame : entry.1 = lower name := beq_iff_eq.mp (List.find?_some hfind :)
    have hentry := List.inj_on_of_nodup_map nodup_map_spellings
      (List.mem_of_find?_eq_some hfind) h hsame
    exact ⟨entry, hfind, congrArg Prod.snd hentry⟩

/-- A spelling is read as its scancode. -/
theorem ofName?_of_mem_spellings (h : (text, scancode) ∈ spellings) :
    ofName? text = some scancode := by
  rw [ofName?_eq_some_iff, lower_of_mem_spellings h]
  exact h

section Spellings

variable (h : (text, scancode) ∈ spellings)

include h

/-- The keyboard table has room for every key that has a name. -/
theorem index_lt_of_mem_spellings : scancode.index < count :=
  (spellings_checked.2 _ h).2.1

/-- Every spelling is ordinary. -/
theorem isOrdinary_of_mem_spellings : isOrdinary text = true :=
  (spellings_checked.2 _ h).1

/-- No spelling starts with a keyword. -/
theorem not_startsWithKeyword_of_mem_spellings : ¬ Definition.StartsWithKeyword text := by
  rintro ⟨word, hword, rest, hstarts⟩
  have hordinary := isOrdinary_of_mem_spellings h
  simp only [isOrdinary, Bool.and_eq_true, List.all_eq_true] at hordinary
  have hdrop := (Definition.dropKeyword_iff_startsWith (Definition.isWord_of_mem_keywords hword)
    (lower_of_mem_spellings h)).mpr hstarts
  have hnone := hordinary.1.1 word hword
  rw [hdrop] at hnone
  cases hnone

/-- No spelling has blanks around it. -/
theorem trim_of_mem_spellings : Text.trim text = text := by
  have hordinary := isOrdinary_of_mem_spellings h
  simp only [isOrdinary, Bool.and_eq_true, beq_iff_eq] at hordinary
  exact hordinary.1.2

/-- A spelling is one character, or starts with a letter and has no mark for a blank in it, apart
from one. -/
theorem cases_of_mem_spellings :
    (∃ c, text = [c]) ∨
      (∃ first more, text = first :: more ∧ first.isLower = true) ∧
        (text = "keypad -".toList ∨ ∀ c ∈ text, c ≠ '-' ∧ c ≠ '_') := by
  have hordinary := isOrdinary_of_mem_spellings h
  simp only [isOrdinary, Bool.and_eq_true, Bool.or_eq_true, beq_iff_eq] at hordinary
  rcases hordinary.2 with hone | ⟨hfirst, hmarks⟩
  · exact .inl (List.length_eq_one_iff.mp hone)
  · cases text with
    | nil => cases hfirst
    | cons first more =>
      exact .inr ⟨⟨first, more, rfl, hfirst⟩, hmarks.imp_right fun hall c hc => by
        simpa using List.all_eq_true.mp hall c hc⟩

/-- Only a single digit is both a spelling and an integer. -/
theorem wholeInteger_of_mem_spellings {value : Int}
    (hvalue : Numeral.wholeInteger text = some value) :
    ∃ digit, text = [digit] ∧ Numeral.isDigitOf 10 digit = true ∧
      value = Numeral.digitValue digit := by
  rcases cases_of_mem_spellings h with ⟨c, rfl⟩ | ⟨⟨first, more, rfl, hlower⟩, -⟩
  · obtain ⟨hdigit, rfl⟩ := Numeral.wholeInteger_singleton_iff.mp hvalue
    exact ⟨c, rfl, hdigit, rfl⟩
  · rw [Numeral.wholeInteger_eq_none_of_alphabetic (trim_of_mem_spellings h)
      (Text.of_isLower hlower).2.1] at hvalue
    cases hvalue

/-- The keys with a digit on them are not among the first ten. -/
theorem ten_le_index_of_mem_spellings (hdigits : ∀ c ∈ text, Numeral.isDigitOf 10 c = true) :
    10 ≤ scancode.index :=
  (spellings_checked.2 _ h).2.2 (List.all_eq_true.mpr hdigits)

end Spellings

/-- What a name stands for is in the table. -/
theorem index_lt_of_ofName? (h : ofName? name = some scancode) : scancode.index < count :=
  index_lt_of_mem_spellings (ofName?_eq_some_iff.mp h)

/-- What a number stands for is in the table. -/
theorem index_lt_of_ofIndex? {value : Int} (h : ofIndex? value = some scancode) :
    scancode.index < count :=
  (ofIndex?_eq_some_iff.mp h).2

end GameSetup.Scancode
