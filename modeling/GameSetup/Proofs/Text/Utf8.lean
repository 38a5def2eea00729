import GameSetup.Text.Utf8
import Mathlib.Algebra.Group.Nat.Defs
import Mathlib.Data.List.Basic

/-!
# Decoding, encoding and the first 128 characters

Decoding gives back what was encoded. In the other direction nothing is given back, since bytes that
are no text are replaced; but neither decoding nor encoding makes up one of the first 128
characters. Such a character stands first in a decoded text, behind the first or last only where its
byte did, and likewise for an encoded text and its bytes.
-/

namespace GameSetup.Text.Utf8

namespace Begun

/-- The least number that a begun character can still become. -/
def least (begun : Begun) : Nat :=
  (begun.value * 64 + (begun.low.toNat - 0x80)) * 64 ^ begun.missing

/-- The number behind the greatest one that a begun character can still become. -/
def bound (begun : Begun) : Nat :=
  (begun.value * 64 + (begun.high.toNat - 0x80) + 1) * 64 ^ begun.missing

/-- A begun character that goes on with no byte below 128, and that becomes none of the first 128
characters and no surrogate. -/
structure Sound (begun : Begun) : Prop where
  le_low : 0x80 ≤ begun.low.toNat
  le_least : 0x80 ≤ begun.least
  valid : begun.bound ≤ 0xd800 ∨ 0xe000 ≤ begun.least ∧ begun.bound ≤ 0x110000

instance (begun : Begun) : Decidable begun.Sound :=
  decidable_of_iff (0x80 ≤ begun.low.toNat ∧ 0x80 ≤ begun.least ∧
      (begun.bound ≤ 0xd800 ∨ 0xe000 ≤ begun.least ∧ begun.bound ≤ 0x110000))
    ⟨fun ⟨hlow, hleast, hvalid⟩ => ⟨hlow, hleast, hvalid⟩, fun h => ⟨h.le_low, h.le_least, h.valid⟩⟩

variable {value missing : Nat} {low high b : UInt8}

/-- A byte in range narrows what the character can become, from below. -/
theorem least_le_least (hlow : low ≤ b) :
    least ⟨value, missing + 1, low, high⟩ ≤
      least ⟨value * 64 + (b.toNat - 0x80), missing, 0x80, 0xbf⟩ := by
  rw [UInt8.le_iff_toNat_le] at hlow
  simp only [least, UInt8.reduceToNat, Nat.sub_self, Nat.add_zero]
  rw [Nat.mul_assoc _ 64, ← Nat.pow_succ']
  exact Nat.mul_le_mul_right _ (by omega)

/-- A byte in range narrows what the character can become, from above. -/
theorem bound_le_bound (hhigh : b ≤ high) :
    bound ⟨value * 64 + (b.toNat - 0x80), missing, 0x80, 0xbf⟩ ≤
      bound ⟨value, missing + 1, low, high⟩ := by
  rw [UInt8.le_iff_toNat_le] at hhigh
  have hwhole : (value * 64 + (b.toNat - 0x80)) * 64 + 63 + 1 =
      (value * 64 + (b.toNat - 0x80) + 1) * 64 := by omega
  simp only [bound, UInt8.reduceToNat, Nat.reduceSub]
  rw [hwhole, Nat.mul_assoc _ 64, ← Nat.pow_succ']
  exact Nat.mul_le_mul_right _ (by omega)

namespace Sound

/-- A byte in range that is not the last one leaves a sound character. -/
theorem next (h : Sound ⟨value, missing + 1, low, high⟩) (hlow : low ≤ b) (hhigh : b ≤ high) :
    Sound ⟨value * 64 + (b.toNat - 0x80), missing, 0x80, 0xbf⟩ where
  le_low := Nat.le_refl _
  le_least := Nat.le_trans h.le_least (least_le_least hlow)
  valid := h.valid.imp (Nat.le_trans (bound_le_bound hhigh)) fun hvalid =>
    ⟨Nat.le_trans hvalid.1 (least_le_least hlow), Nat.le_trans (bound_le_bound hhigh) hvalid.2⟩

/-- The last byte completes a character behind the first 128. -/
theorem last (h : Sound ⟨value, 0, low, high⟩) (hlow : low ≤ b) (hhigh : b ≤ high) :
    0x80 ≤ (Char.ofNat (value * 64 + (b.toNat - 0x80))).toNat := by
  have hleast := h.le_least
  have hvalid := h.valid
  simp only [least, bound, Nat.pow_zero] at hleast hvalid
  rw [UInt8.le_iff_toNat_le] at hlow hhigh
  -- Without this the number would be replaced by 0, which is one of the first 128.
  have hchar : (value * 64 + (b.toNat - 0x80)).isValidChar := by
    unfold Nat.isValidChar
    omega
  rw [Char.ofNat, dif_pos hchar]
  change _ ≤ value * 64 + (b.toNat - 0x80)
  omega

end Sound

end Begun

/-- Where no character has begun, what has begun is sound. -/
theorem sound_of_mem_none : ∀ begun ∈ (none : Option Begun), begun.Sound :=
  fun _ hmem => nomatch hmem

/-- What one byte begins is sound. The classes of bytes are a table, which is gone through. -/
theorem sound_first {b : UInt8} {begun : Begun} (h : (first b).2 = some begun) : begun.Sound := by
  have hall : ∀ b : Fin 256, ∀ begun ∈ (first (.ofFin b)).2, begun.Sound := by decide +kernel
  exact hall b.toFin begun h

/-- Only a byte below 128 gives one of the first 128 characters at once. -/
theorem toNat_of_mem_first {b : UInt8} {c : Char} (h : c ∈ (first b).1) (hc : c.toNat < 0x80) :
    c.toNat = b.toNat := by
  have hall : ∀ b : Fin 256,
      (first (.ofFin b)).1.all (fun c => decide (c.toNat < 0x80 → c.toNat = b)) = true := by
    decide +kernel
  exact of_decide_eq_true (List.all_eq_true.mp (hall b.toFin) c h) hc

/-- A byte that begins no character gives one. -/
theorem first_fst_ne_nil {b : UInt8} (h : (first b).2 = none) : (first b).1 ≠ [] := by
  have hall : ∀ b : Fin 256, (first (.ofFin b)).2 = none → (first (.ofFin b)).1 ≠ [] := by
    decide +kernel
  exact hall b.toFin h

/-- A byte from 128 on either begins a character or is replaced. -/
theorem first_of_le {b : UInt8} (h : 0x80 ≤ b.toNat) :
    first b = ([replacement], none) ∨ ∃ begun, first b = ([], some begun) := by
  have hall : ∀ b : Fin 256, 0x80 ≤ b.val →
      first (.ofFin b) = ([replacement], none) ∨
        (first (.ofFin b)).1 = [] ∧ (first (.ofFin b)).2.isSome := by
    decide +kernel
  refine (hall b.toFin h).imp_right fun ⟨hnil, hsome⟩ => ?_
  obtain ⟨begun, hbegun⟩ := Option.isSome_iff_exists.mp hsome
  exact ⟨begun, Prod.ext hnil hbegun⟩

section Steps

variable {begun : Option Begun} {b : UInt8}

/-- A character that has begun is sound as long as it goes on. -/
theorem sound_step (hsound : ∀ p ∈ begun, p.Sound) {next : Begun}
    (h : (step begun b).2 = some next) : next.Sound := by
  cases begun with
  | none => exact sound_first h
  | some p =>
    obtain ⟨value, missing, low, high⟩ := p
    have hp := hsound _ rfl
    rw [step] at h
    split at h
    · next hrange =>
      cases missing with
      | zero => cases h
      | succ missing =>
        obtain rfl := Option.some.inj h
        exact hp.next hrange.1 hrange.2
    · exact sound_first h

/-- A byte gives one of the first 128 characters only if it is that character. -/
theorem toNat_of_mem_step (hsound : ∀ p ∈ begun, p.Sound) {c : Char} (h : c ∈ (step begun b).1)
    (hc : c.toNat < 0x80) : c.toNat = b.toNat := by
  cases begun with
  | none => exact toNat_of_mem_first h hc
  | some p =>
    obtain ⟨value, missing, low, high⟩ := p
    have hp := hsound _ rfl
    rw [step] at h
    split at h
    · next hrange =>
      cases missing with
      | zero =>
        rw [List.mem_singleton.mp h] at hc
        exact absurd hc (Nat.not_lt.mpr (hp.last hrange.1 hrange.2))
      | succ missing => cases h
    · rcases List.mem_cons.mp h with rfl | hmem
      · exact absurd hc (by decide)
      · exact toNat_of_mem_first hmem hc

/-- A byte behind which no character is begun gives one. -/
theorem step_fst_ne_nil (h : (step begun b).2 = none) : (step begun b).1 ≠ [] := by
  cases begun with
  | none => exact first_fst_ne_nil h
  | some p =>
    obtain ⟨value, missing, low, high⟩ := p
    rw [step] at h ⊢
    split at h
    · next hrange =>
      cases missing with
      | zero =>
        rw [if_pos hrange]
        exact List.cons_ne_nil _ _
      | succ missing => cases h
    · next hrange =>
      rw [if_neg hrange]
      exact List.cons_ne_nil _ _

end Steps

/-- None of the first 128 characters is made up. -/
theorem exists_mem_of_mem_decodeFrom {begun : Option Begun} (hsound : ∀ p ∈ begun, p.Sound)
    {bytes : List UInt8} {c : Char} (h : c ∈ decodeFrom begun bytes) (hc : c.toNat < 0x80) :
    ∃ b ∈ bytes, b.toNat = c.toNat := by
  induction bytes generalizing begun with
  | nil =>
    cases begun with
    | none => cases h
    | some p =>
      obtain rfl := List.mem_singleton.mp h
      exact absurd hc (by decide)
  | cons b bs ih =>
    rw [decodeFrom_cons, List.mem_append] at h
    rcases h with hnow | hlater
    · exact ⟨b, List.mem_cons_self, (toNat_of_mem_step hsound hnow hc).symm⟩
    · obtain ⟨byte, hmem, hbyte⟩ := ih (fun p hp => sound_step hsound hp) hlater
      exact ⟨byte, List.mem_cons_of_mem b hmem, hbyte⟩

/-- A character that has begun is told apart from the first 128, whatever follows. -/
theorem exists_decodeFrom_some {p : Begun} (hsound : p.Sound) (bytes : List UInt8) :
    ∃ c cs, decodeFrom (some p) bytes = c :: cs ∧ 0x80 ≤ c.toNat := by
  induction bytes generalizing p with
  | nil => exact ⟨replacement, [], rfl, by decide⟩
  | cons b bs ih =>
    obtain ⟨value, missing, low, high⟩ := p
    rw [decodeFrom_cons, step]
    split
    · next hrange =>
      cases missing with
      | zero => exact ⟨_, _, rfl, hsound.last hrange.1 hrange.2⟩
      | succ missing => exact ih (hsound.next hrange.1 hrange.2)
    · exact ⟨replacement, _, rfl, by decide⟩

/-- Bytes give at least one character. -/
theorem decodeFrom_ne_nil {begun : Option Begun} (hsound : ∀ p ∈ begun, p.Sound) (b : UInt8)
    (bs : List UInt8) : decodeFrom begun (b :: bs) ≠ [] := by
  rw [decodeFrom_cons]
  cases hnext : (step begun b).2 with
  | none => exact List.append_ne_nil_of_left_ne_nil (step_fst_ne_nil hnext) _
  | some p =>
    obtain ⟨c, cs, hcons, -⟩ := exists_decodeFrom_some (sound_step hsound hnext) bs
    rw [hcons]
    exact List.append_ne_nil_of_right_ne_nil _ (List.cons_ne_nil c cs)

section Places

variable {bytes : List UInt8} {c : Char}

/-- One of the first 128 characters stands first only where its byte does. -/
theorem exists_head?_of_head?_decodeFrom (h : c ∈ (decodeFrom none bytes).head?)
    (hc : c.toNat < 0x80) : ∃ b ∈ bytes.head?, b.toNat = c.toNat := by
  cases bytes with
  | nil => cases h
  | cons b bs =>
    refine ⟨b, rfl, ?_⟩
    rw [decodeFrom_cons] at h
    change c ∈ ((first b).1 ++ decodeFrom (first b).2 bs).head? at h
    by_cases hb : 0x80 ≤ b.toNat
    · rcases first_of_le hb with hfirst | ⟨p, hfirst⟩
      · rw [hfirst] at h
        cases h
        exact absurd hc (by decide)
      · obtain ⟨first, rest, hcons, hle⟩ :=
          exists_decodeFrom_some (sound_first (congrArg Prod.snd hfirst)) bs
        rw [hfirst, List.nil_append, hcons] at h
        cases h
        exact absurd hc (Nat.not_lt.mpr hle)
    · have hfirst := first_of_lt (UInt8.lt_iff_toNat_lt.mpr (Nat.lt_of_not_le hb))
      rw [hfirst] at h
      cases h
      exact (toNat_of_mem_first (by rw [hfirst]; exact List.mem_cons_self) hc).symm

/-- One of the first 128 characters stands behind the first only where its byte does. -/
theorem exists_mem_tail_of_mem_tail_decodeFrom (h : c ∈ (decodeFrom none bytes).tail)
    (hc : c.toNat < 0x80) : ∃ b ∈ bytes.tail, b.toNat = c.toNat := by
  cases bytes with
  | nil => cases h
  | cons b bs =>
    by_cases hb : b.toNat < 0x80
    · rw [decodeFrom_cons, step, first_of_lt (UInt8.lt_iff_toNat_lt.mpr hb)] at h
      exact exists_mem_of_mem_decodeFrom sound_of_mem_none h hc
    · -- Some byte is the character, and the first one lies outside of the first 128.
      obtain ⟨byte, hmem, hbyte⟩ :=
        exists_mem_of_mem_decodeFrom sound_of_mem_none (List.mem_of_mem_tail h) hc
      refine ⟨byte, (List.mem_cons.mp hmem).resolve_left ?_, hbyte⟩
      rintro rfl
      omega

/-- One of the first 128 characters stands last only where its byte does. -/
theorem exists_getLast?_of_getLast?_decodeFrom {begun : Option Begun}
    (hsound : ∀ p ∈ begun, p.Sound) (h : c ∈ (decodeFrom begun bytes).getLast?)
    (hc : c.toNat < 0x80) : ∃ b ∈ bytes.getLast?, b.toNat = c.toNat := by
  induction bytes generalizing begun with
  | nil =>
    cases begun with
    | none => cases h
    | some p =>
      cases h
      exact absurd hc (by decide)
  | cons b bs ih =>
    have hnext : ∀ p ∈ (step begun b).2, p.Sound := fun p hp => sound_step hsound hp
    rw [decodeFrom_cons, List.getLast?_append] at h
    cases bs with
    | nil =>
      cases hstep : (step begun b).2 with
      | none =>
        rw [hstep] at h
        exact ⟨b, rfl, (toNat_of_mem_step hsound (List.mem_of_getLast? h) hc).symm⟩
      | some p =>
        -- What is left unfinished at the end is replaced.
        rw [hstep] at h
        cases h
        exact absurd hc (by decide)
    | cons b' bs =>
      have hlast := List.getLast?_eq_some_getLast (decodeFrom_ne_nil hnext b' bs)
      rw [hlast, Option.some_or] at h
      rw [List.getLast?_cons_cons]
      exact ih hnext (hlast.trans h)

end Places

section Encoding

variable {b : UInt8} {c : Char}

/-- One of the first 128 characters is one byte. -/
theorem utf8EncodeChar_of_lt (h : c.toNat < 0x80) :
    String.utf8EncodeChar c = [UInt8.ofNat c.toNat] :=
  if_pos (Nat.le_of_lt_succ h)

/-- Any other character has no byte below 128. -/
theorem le_of_mem_utf8EncodeChar (h : 0x80 ≤ c.toNat) (hb : b ∈ String.utf8EncodeChar c) :
    0x80 ≤ b.toNat := by
  have hmarked (n mark : Nat) (hlt : n + mark < 256) (hmark : 0x80 ≤ mark) :
      0x80 ≤ (UInt8.ofNat (n + mark)).toNat := by
    rw [UInt8.toNat_ofNat_of_lt' hlt]
    omega
  have hsize : ¬c.val.toNat ≤ 127 := Nat.not_le.mpr h
  rw [String.utf8EncodeChar, if_neg hsize] at hb
  split at hb
  · simp only [List.mem_cons, List.not_mem_nil, or_false] at hb
    rcases hb with rfl | rfl <;> exact hmarked _ _ (by omega) (by decide)
  split at hb
  · simp only [List.mem_cons, List.not_mem_nil, or_false] at hb
    rcases hb with rfl | rfl | rfl <;> exact hmarked _ _ (by omega) (by decide)
  · simp only [List.mem_cons, List.not_mem_nil, or_false] at hb
    rcases hb with rfl | rfl | rfl | rfl <;> exact hmarked _ _ (by omega) (by decide)

/-- A byte below 128 is a character by itself. -/
theorem toNat_of_mem_utf8EncodeChar (h : b ∈ String.utf8EncodeChar c) (hb : b.toNat < 0x80) :
    c.toNat = b.toNat := by
  by_cases hc : c.toNat < 0x80
  · rw [utf8EncodeChar_of_lt hc] at h
    rw [List.mem_singleton.mp h, UInt8.toNat_ofNat_of_lt' (Nat.lt_trans hc (by decide))]
  · have hle := le_of_mem_utf8EncodeChar (Nat.le_of_not_lt hc) h
    omega

/-- A byte of the basic range is a character of its own. -/
theorem exists_mem_of_mem_flatMap_utf8EncodeChar {cs : List Char}
    (h : b ∈ cs.flatMap String.utf8EncodeChar) (hb : b.toNat < 0x80) :
    ∃ c ∈ cs, c.toNat = b.toNat := by
  obtain ⟨c, hmem, hbyte⟩ := List.mem_flatMap.mp h
  exact ⟨c, hmem, toNat_of_mem_utf8EncodeChar hbyte hb⟩

variable {text : String}

/-- A byte below 128 stands first only where its character does. -/
theorem exists_head?_of_head?_encode (h : b ∈ (encode text).head?) (hb : b.toNat < 0x80) :
    ∃ c ∈ text.toList.head?, c.toNat = b.toNat := by
  rw [encode] at h
  cases htext : text.toList with
  | nil =>
    rw [htext] at h
    cases h
  | cons c cs =>
    rw [htext, List.flatMap_cons, List.head?_append_of_ne_nil _ (String.utf8EncodeChar_ne_nil)] at h
    exact ⟨c, rfl, toNat_of_mem_utf8EncodeChar (List.mem_of_head? h) hb⟩

/-- A byte below 128 stands behind the first only where its character does. -/
theorem exists_mem_tail_of_mem_tail_encode (h : b ∈ (encode text).tail) (hb : b.toNat < 0x80) :
    ∃ c ∈ text.toList.tail, c.toNat = b.toNat := by
  rw [encode] at h
  cases htext : text.toList with
  | nil =>
    rw [htext] at h
    cases h
  | cons c cs =>
    rw [htext, List.flatMap_cons] at h
    by_cases hc : c.toNat < 0x80
    · rw [utf8EncodeChar_of_lt hc] at h
      exact exists_mem_of_mem_flatMap_utf8EncodeChar h hb
    · rcases List.mem_append.mp (List.mem_of_mem_tail h) with hnow | hlater
      · have hle := le_of_mem_utf8EncodeChar (Nat.le_of_not_lt hc) hnow
        omega
      · exact exists_mem_of_mem_flatMap_utf8EncodeChar hlater hb

/-- A byte below 128 stands last only where its character does. -/
theorem exists_getLast?_of_getLast?_encode (h : b ∈ (encode text).getLast?)
    (hb : b.toNat < 0x80) : ∃ c ∈ text.toList.getLast?, c.toNat = b.toNat := by
  rw [encode] at h
  obtain hnil | ⟨cs, c, htext⟩ := text.toList.eq_nil_or_concat
  · rw [hnil] at h
    cases h
  · rw [List.concat_eq_append] at htext
    rw [htext, List.flatMap_append, List.flatMap_singleton, List.getLast?_append_of_ne_nil _
      String.utf8EncodeChar_ne_nil] at h
    refine ⟨c, by rw [htext]; exact List.getLast?_concat, ?_⟩
    exact toNat_of_mem_utf8EncodeChar (List.mem_of_getLast? h) hb

/-- Two texts are encoded by themselves. -/
theorem encode_append (text other : String) :
    encode (text ++ other) = encode text ++ encode other := by
  rw [encode, String.toList_append, List.flatMap_append, ← encode, ← encode]

end Encoding

section RoundTrip

/-- The lead byte of a character of two bytes. -/
theorem first_lead_two : ∀ n < 32, 2 ≤ n →
    first (.ofNat (n + 192)) = ([], some ⟨n, 0, 0x80, 0xbf⟩) := by
  decide

/-- The lead byte of a character of three bytes. Surrogates, and characters that need fewer bytes,
are kept out by the range of the next byte. -/
theorem first_lead_three : ∀ n < 16,
    first (.ofNat (n + 224)) =
      ([], some ⟨n, 1, if n = 0 then 0xa0 else 0x80, if n = 13 then 0x9f else 0xbf⟩) := by
  decide

/-- The lead byte of a character of four bytes. -/
theorem first_lead_four : ∀ n < 5,
    first (.ofNat (n + 240)) =
      ([], some ⟨n, 2, if n = 0 then 0x90 else 0x80, if n = 4 then 0x8f else 0xbf⟩) := by
  decide

/-- Decoding goes on from where a byte leads. -/
theorem decodeFrom_of_step {begun next : Option Begun} {b : UInt8} {chars : List Char}
    (h : step begun b = (chars, next)) (bs : List UInt8) :
    decodeFrom begun (b :: bs) = chars ++ decodeFrom next bs := by
  rw [decodeFrom_cons, h]

/-- A byte in range goes on with a character: it completes it, or adds six bits. -/
theorem step_of_range {value missing n : Nat} {low high : UInt8} (hn : n < 64)
    (hlow : low.toNat ≤ n + 128) (hhigh : n + 128 ≤ high.toNat) :
    step (some ⟨value, missing, low, high⟩) (.ofNat (n + 128)) =
      if missing = 0 then ([Char.ofNat (value * 64 + n)], none)
      else ([], some ⟨value * 64 + n, missing - 1, 0x80, 0xbf⟩) := by
  have hbyte : (UInt8.ofNat (n + 128)).toNat = n + 128 :=
    UInt8.toNat_ofNat_of_lt' (Nat.lt_trans (Nat.add_lt_add_right hn 128) (by decide))
  have hrange : low ≤ UInt8.ofNat (n + 128) ∧ UInt8.ofNat (n + 128) ≤ high := by
    rw [UInt8.le_iff_toNat_le, UInt8.le_iff_toNat_le, hbyte]
    exact ⟨hlow, hhigh⟩
  have hbits : n + 128 - 0x80 = n := by omega
  rw [step, if_pos hrange, hbyte, hbits]
  cases missing <;> rfl

/-- Where any byte may go on with a character, the last one completes it. -/
theorem decodeFrom_last (value : Nat) {n : Nat} (hn : n < 64) (rest : List UInt8) :
    decodeFrom (some ⟨value, 0, 0x80, 0xbf⟩) (.ofNat (n + 128) :: rest) =
      Char.ofNat (value * 64 + n) :: decodeFrom none rest := by
  have hlow : (0x80 : UInt8).toNat ≤ n + 128 := Nat.le_add_left 128 n
  have hhigh : n + 128 ≤ (0xbf : UInt8).toNat :=
    Nat.le_of_lt_succ (Nat.add_lt_add_right hn 128)
  exact decodeFrom_of_step (step_of_range hn hlow hhigh) rest

/-- Any other adds six bits. -/
theorem decodeFrom_more {value missing n : Nat} {low high : UInt8} (hn : n < 64)
    (hlow : low.toNat ≤ n + 128) (hhigh : n + 128 ≤ high.toNat) (rest : List UInt8) :
    decodeFrom (some ⟨value, missing + 1, low, high⟩) (.ofNat (n + 128) :: rest) =
      decodeFrom (some ⟨value * 64 + n, missing, 0x80, 0xbf⟩) rest :=
  decodeFrom_of_step (step_of_range hn hlow hhigh) rest

variable {v : Nat} (rest : List UInt8)

/-- A byte of the basic range is decoded as its character. -/
theorem decodeFrom_one (h : v ≤ 127) :
    decodeFrom none (.ofNat v :: rest) = Char.ofNat v :: decodeFrom none rest := by
  have hbyte : (UInt8.ofNat v).toNat = v :=
    UInt8.toNat_ofNat_of_lt' (Nat.lt_of_le_of_lt h (by decide))
  have hlt : UInt8.ofNat v < 0x80 := by
    rw [UInt8.lt_iff_toNat_lt, hbyte]
    exact Nat.lt_succ_of_le h
  have hstep : step none (.ofNat v) = ([Char.ofNat v], none) := by
    rw [step, first_of_lt hlt, hbyte]
  exact decodeFrom_of_step hstep rest

/-- Two bytes are decoded as the character they encode. -/
theorem decodeFrom_two (h : 127 < v) (hle : v ≤ 2047) :
    decodeFrom none (.ofNat (v / 64 % 32 + 192) :: .ofNat (v % 64 + 128) :: rest) =
      Char.ofNat v :: decodeFrom none rest := by
  have hlead : step none _ = _ := first_lead_two (v / 64 % 32) (by omega) (by omega)
  have hvalue : v / 64 % 32 * 64 + v % 64 = v := by omega
  rw [decodeFrom_of_step hlead, List.nil_append, decodeFrom_last _ (by omega), hvalue]

/-- So are three. -/
theorem decodeFrom_three (h : 2047 < v) (hle : v ≤ 65535) (hvalid : v.isValidChar) :
    decodeFrom none (.ofNat (v / 4096 % 16 + 224) :: .ofNat (v / 64 % 64 + 128) ::
        .ofNat (v % 64 + 128) :: rest) =
      Char.ofNat v :: decodeFrom none rest := by
  unfold Nat.isValidChar at hvalid
  have hlead : step none _ = _ := first_lead_three (v / 4096 % 16) (by omega)
  -- The range of the second byte leaves out numbers up to 2047 and surrogates, and this is neither.
  have hlow : (if v / 4096 % 16 = 0 then 0xa0 else 0x80 : UInt8).toNat ≤ v / 64 % 64 + 128 := by
    split <;> simp only [UInt8.reduceToNat] <;> omega
  have hhigh : v / 64 % 64 + 128 ≤ (if v / 4096 % 16 = 13 then 0x9f else 0xbf : UInt8).toNat := by
    split <;> simp only [UInt8.reduceToNat] <;> omega
  have hvalue : (v / 4096 % 16 * 64 + v / 64 % 64) * 64 + v % 64 = v := by omega
  rw [decodeFrom_of_step hlead, List.nil_append, decodeFrom_more (by omega) hlow hhigh,
    decodeFrom_last _ (by omega), hvalue]

/-- So are four. -/
theorem decodeFrom_four (h : 65535 < v) (hvalid : v.isValidChar) :
    decodeFrom none (.ofNat (v / 262144 % 8 + 240) :: .ofNat (v / 4096 % 64 + 128) ::
        .ofNat (v / 64 % 64 + 128) :: .ofNat (v % 64 + 128) :: rest) =
      Char.ofNat v :: decodeFrom none rest := by
  unfold Nat.isValidChar at hvalid
  have hlead : step none _ = _ := first_lead_four (v / 262144 % 8) (by omega)
  have hlow : (if v / 262144 % 8 = 0 then 0x90 else 0x80 : UInt8).toNat ≤
      v / 4096 % 64 + 128 := by
    split <;> simp only [UInt8.reduceToNat] <;> omega
  have hhigh : v / 4096 % 64 + 128 ≤
      (if v / 262144 % 8 = 4 then 0x8f else 0xbf : UInt8).toNat := by
    split <;> simp only [UInt8.reduceToNat] <;> omega
  have hvalue : ((v / 262144 % 8 * 64 + v / 4096 % 64) * 64 + v / 64 % 64) * 64 + v % 64 = v := by
    omega
  rw [decodeFrom_of_step hlead, List.nil_append, decodeFrom_more (by omega) hlow hhigh,
    decodeFrom_more (by omega) (by simp) (by simp; omega), decodeFrom_last _ (by omega), hvalue]

/-- The bytes of a character are decoded to the character. -/
theorem decodeFrom_utf8EncodeChar (c : Char) :
    decodeFrom none (String.utf8EncodeChar c ++ rest) = c :: decodeFrom none rest := by
  have hchar : Char.ofNat c.val.toNat = c := Char.ofNat_toNat c
  have hvalid : c.val.toNat.isValidChar := c.valid
  rw [String.utf8EncodeChar]
  generalize c.val.toNat = v at *
  subst hchar
  split
  · next hone => exact decodeFrom_one rest hone
  split
  · next hone htwo => exact decodeFrom_two rest (Nat.lt_of_not_le hone) htwo
  split
  · next hone htwo hthree =>
    exact decodeFrom_three rest (Nat.lt_of_not_le htwo) hthree hvalid
  · next hone htwo hthree => exact decodeFrom_four rest (Nat.lt_of_not_le hthree) hvalid

/-- Decoding gives back what was encoded. -/
theorem decode_encode (text : String) : decode (encode text) = text := by
  have hchars (cs : List Char) : decodeFrom none (cs.flatMap String.utf8EncodeChar) = cs := by
    induction cs with
    | nil => rfl
    | cons c cs ih => rw [List.flatMap_cons, decodeFrom_utf8EncodeChar, ih]
  rw [decode, encode, hchars, String.ofList_toList]

end RoundTrip

end GameSetup.Text.Utf8
