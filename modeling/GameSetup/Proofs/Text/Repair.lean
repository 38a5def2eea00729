import GameSetup.Proofs.Text.Runs
import GameSetup.Proofs.Text.Utf8

/-!
# Repaired bytes

Bytes that are no text can be repaired: they are decoded, with replacements, and encoded again. Each
byte below 128 ends whatever character has begun and stands for itself, so repairing can be done on
both sides of it apart. That makes it commute with every way of cutting bytes that does not tell the
bytes from 128 on apart: such a cut lies beside a byte below 128, or at an end.
-/

namespace GameSetup.Text.Utf8

/-- The bytes of the text that some bytes are decoded to. -/
def repair (bytes : List UInt8) : List UInt8 :=
  encode (decode bytes)

/-- A repaired text is what was decoded, encoded again. -/
theorem repair_eq (bytes : List UInt8) :
    repair bytes = (decodeFrom none bytes).flatMap String.utf8EncodeChar := by
  rw [repair, decode, encode, String.toList_ofList]

/-- There is nothing to repair in an empty text. -/
@[simp] theorem repair_nil : repair [] = [] := rfl

/-- Repaired bytes are decoded as they were before. -/
@[simp] theorem decode_repair (bytes : List UInt8) : decode (repair bytes) = decode bytes :=
  decode_encode (decode bytes)

example : repair [0x61, 0xe2, 0x82, 0x3d, 0x82] =
    [0x61, 0xef, 0xbf, 0xbd, 0x3d, 0xef, 0xbf, 0xbd] := by
  decide

section Cut

variable {b : UInt8} {front back bytes : List UInt8}

/-- A byte below 128 does not go on with a character, so decoding starts afresh behind it. -/
theorem decodeFrom_append_cons {begun : Option Begun} (hsound : ∀ p ∈ begun, p.Sound)
    (h : b.toNat < 0x80) (front back : List UInt8) :
    decodeFrom begun (front ++ b :: back) =
      decodeFrom begun front ++ Char.ofNat b.toNat :: decodeFrom none back := by
  have hfirst := first_of_lt (UInt8.lt_iff_toNat_lt.mpr h)
  induction front generalizing begun with
  | nil =>
    rw [List.nil_append, decodeFrom_cons]
    cases begun with
    | none => rw [step, hfirst]; rfl
    | some p =>
      have hrange : ¬(p.low ≤ b ∧ b ≤ p.high) := fun hin => by
        have hlow := (hsound p rfl).le_low
        have hle := UInt8.le_iff_toNat_le.mp hin.1
        omega
      rw [step, if_neg hrange, hfirst]
      rfl
  | cons a front ih =>
    rw [List.cons_append, decodeFrom_cons, decodeFrom_cons,
      ih fun p hp => sound_step hsound hp, List.append_assoc]

/-- Bytes are repaired on both sides of a byte below 128 apart. -/
theorem repair_append_cons (h : b.toNat < 0x80) (front back : List UInt8) :
    repair (front ++ b :: back) = repair front ++ b :: repair back := by
  have hall : ∀ n : Fin 128, String.utf8EncodeChar (.ofNat n) = [.ofNat n] := by decide
  have hbyte : String.utf8EncodeChar (Char.ofNat b.toNat) = [b] :=
    (hall ⟨b.toNat, h⟩).trans (congrArg (fun byte => [byte]) UInt8.ofNat_toNat)
  simp only [repair_eq]
  rw [decodeFrom_append_cons sound_of_mem_none h, List.flatMap_append, List.flatMap_cons, hbyte,
    List.singleton_append]

/-- A byte of the basic range is kept, and what is behind it is repaired by itself. -/
theorem repair_cons (h : b.toNat < 0x80) (bytes : List UInt8) :
    repair (b :: bytes) = b :: repair bytes :=
  repair_append_cons h [] bytes

/-- So they are in front of a byte below 128. -/
theorem repair_append_of_head? (h : ∀ b ∈ back.head?, b.toNat < 0x80) (front : List UInt8) :
    repair (front ++ back) = repair front ++ repair back := by
  cases back with
  | nil => rw [repair_nil, List.append_nil, List.append_nil]
  | cons b back => rw [repair_append_cons (h b rfl), repair_cons (h b rfl)]

/-- Bytes below 128 in front are kept. -/
theorem repair_append_of_forall (h : ∀ b ∈ front, b.toNat < 0x80) (back : List UInt8) :
    repair (front ++ back) = front ++ repair back := by
  induction front with
  | nil => rfl
  | cons b front ih =>
    obtain ⟨hb, hfront⟩ := List.forall_mem_cons.mp h
    rw [List.cons_append, repair_cons hb, ih hfront, List.cons_append]

/-- A text of the basic range is in order. -/
theorem repair_of_forall (h : ∀ b ∈ bytes, b.toNat < 0x80) : repair bytes = bytes := by
  rw [← List.append_nil bytes, repair_append_of_forall h, repair_nil]

end Cut

/-- Whether two bytes are the same for all that counts: equal, or both from 128 on. -/
def Alike (b other : UInt8) : Prop :=
  b = other ∨ 0x80 ≤ b.toNat ∧ 0x80 ≤ other.toNat

section Places

variable {b : UInt8} {bytes : List UInt8}

/-- Repairing makes up no byte below 128. -/
theorem mem_of_mem_repair (h : b ∈ repair bytes) (hb : b.toNat < 0x80) : b ∈ bytes := by
  obtain ⟨c, hc, hchar⟩ := exists_mem_of_mem_flatMap_utf8EncodeChar h hb
  rw [decode, String.toList_ofList] at hc
  obtain ⟨byte, hmem, hbyte⟩ := exists_mem_of_mem_decodeFrom sound_of_mem_none hc (hchar ▸ hb)
  exact UInt8.toNat_inj.mp (hbyte.trans hchar) ▸ hmem

/-- Nor does it lose one. -/
theorem mem_repair_iff (hb : b.toNat < 0x80) : b ∈ repair bytes ↔ b ∈ bytes := by
  refine ⟨fun h => mem_of_mem_repair h hb, fun h => ?_⟩
  obtain ⟨front, back, rfl⟩ := List.append_of_mem h
  rw [repair_append_cons hb]
  exact List.mem_append_right _ List.mem_cons_self

/-- Every byte of the repaired text is alike to one of the text. -/
theorem exists_alike_of_mem_repair (h : b ∈ repair bytes) : ∃ other ∈ bytes, Alike b other := by
  by_cases hb : b.toNat < 0x80
  · exact ⟨b, mem_of_mem_repair h hb, .inl rfl⟩
  · -- Bytes that are all below 128 are not changed.
    by_contra hall
    have hlow : ∀ other ∈ bytes, other.toNat < 0x80 := fun other hmem =>
      Nat.lt_of_not_le fun hother => hall ⟨other, hmem, .inr ⟨Nat.le_of_not_lt hb, hother⟩⟩
    rw [repair_of_forall hlow] at h
    exact hb (hlow b h)

/-- The first byte is the same for all that counts. -/
theorem exists_alike_of_head?_repair (h : b ∈ (repair bytes).head?) :
    ∃ other ∈ bytes.head?, Alike b other := by
  cases bytes with
  | nil => cases h
  | cons other rest =>
    refine ⟨other, rfl, ?_⟩
    by_cases hother : other.toNat < 0x80
    · rw [repair_cons hother] at h
      exact .inl (Option.some.inj h).symm
    · refine .inr ⟨Nat.le_of_not_lt fun hb => ?_, Nat.le_of_not_lt hother⟩
      obtain ⟨c, hc, hchar⟩ := exists_head?_of_head?_encode h hb
      rw [decode, String.toList_ofList] at hc
      obtain ⟨byte, hhead, hbyte⟩ := exists_head?_of_head?_decodeFrom hc (hchar ▸ hb)
      cases hhead
      exact hother (hbyte.trans hchar ▸ hb)

/-- So is the last one. -/
theorem exists_alike_of_getLast?_repair (h : b ∈ (repair bytes).getLast?) :
    ∃ other ∈ bytes.getLast?, Alike b other := by
  obtain rfl | ⟨front, other, hbytes⟩ := bytes.eq_nil_or_concat
  · cases h
  · rw [List.concat_eq_append] at hbytes
    subst hbytes
    refine ⟨other, List.getLast?_concat, ?_⟩
    by_cases hother : other.toNat < 0x80
    · rw [repair_append_cons hother, repair_nil, List.getLast?_concat] at h
      exact .inl (Option.some.inj h).symm
    · refine .inr ⟨Nat.le_of_not_lt fun hb => ?_, Nat.le_of_not_lt hother⟩
      obtain ⟨c, hc, hchar⟩ := exists_getLast?_of_getLast?_encode h hb
      rw [decode, String.toList_ofList] at hc
      obtain ⟨byte, hlast, hbyte⟩ :=
        exists_getLast?_of_getLast?_decodeFrom sound_of_mem_none hc (hchar ▸ hb)
      rw [List.getLast?_concat] at hlast
      cases hlast
      exact hother (hbyte.trans hchar ▸ hb)

/-- A first byte stays what it is for all that counts, and if it is below 128 the rest is repaired
apart. -/
theorem exists_repair_cons (b : UInt8) (rest : List UInt8) :
    ∃ first more, repair (b :: rest) = first :: more ∧
      (first = b ∧ b.toNat < 0x80 ∧ more = repair rest ∨ 0x80 ≤ b.toNat ∧ 0x80 ≤ first.toNat) := by
  by_cases hb : b.toNat < 0x80
  · exact ⟨b, repair rest, repair_cons hb rest, .inl ⟨rfl, hb, rfl⟩⟩
  · cases hrepair : repair (b :: rest) with
    | nil =>
      have hdecode := decode_repair (b :: rest)
      rw [hrepair] at hdecode
      exact absurd (String.ofList_inj.mp hdecode).symm (decodeFrom_ne_nil sound_of_mem_none b rest)
    | cons first more =>
      obtain ⟨other, hhead, halike⟩ := exists_alike_of_head?_repair
        (by rw [hrepair]; rfl : first ∈ (repair (b :: rest)).head?)
      cases hhead
      rcases halike with rfl | hhigh
      · exact ⟨first, more, rfl, .inr ⟨Nat.le_of_not_lt hb, Nat.le_of_not_lt hb⟩⟩
      · exact ⟨first, more, rfl, .inr hhigh.symm⟩

/-- Nothing becomes of an empty text only. -/
theorem repair_eq_nil_iff : repair bytes = [] ↔ bytes = [] := by
  cases bytes with
  | nil => exact iff_of_true rfl rfl
  | cons b rest =>
    obtain ⟨first, more, hrepair, -⟩ := exists_repair_cons b rest
    exact iff_of_false (hrepair ▸ List.cons_ne_nil first more) (List.cons_ne_nil b rest)

/-- A byte below 128 stands behind the first only where it did. -/
theorem mem_tail_repair_iff (hb : b.toNat < 0x80) : b ∈ (repair bytes).tail ↔ b ∈ bytes.tail := by
  cases bytes with
  | nil => exact Iff.rfl
  | cons other rest =>
    obtain ⟨first, more, hrepair, ⟨rfl, -, rfl⟩ | ⟨hother, hfirst⟩⟩ := exists_repair_cons other rest
    · rw [hrepair]
      exact mem_repair_iff hb
    · -- The first byte is from 128 on, so it is not the one that is looked for.
      have hmem : b ∈ repair (other :: rest) ↔ b ∈ other :: rest := mem_repair_iff hb
      rw [hrepair, List.mem_cons, List.mem_cons, or_iff_right, or_iff_right] at hmem
      · rwa [hrepair]
      · rintro rfl
        omega
      · rintro rfl
        omega

end Places

/-- Whether a kind of bytes has all bytes from 128 on, or none of them. -/
def Coarse (p : UInt8 → Bool) : Prop :=
  ∀ b : UInt8, 0x80 ≤ b.toNat → p b = p 0x80

namespace Coarse

variable {p : UInt8 → Bool}

/-- What is said alike of all bytes beyond the basic range is coarse. -/
theorem of_forall (value : Bool) (h : ∀ b : UInt8, 0x80 ≤ b.toNat → p b = value) : Coarse p :=
  fun b hb => (h b hb).trans (h 0x80 (Nat.le_refl _)).symm

/-- It does not tell bytes apart that are the same for all that counts. -/
theorem eq_of_alike (hp : Coarse p) {b other : UInt8} (h : Alike b other) : p b = p other := by
  rcases h with rfl | ⟨hb, hother⟩
  · rfl
  · rw [hp b hb, hp other hother]

variable (hp : Coarse p) (bytes : List UInt8)

include hp

/-- A run that has all bytes from 128 on ends at a byte below 128. -/
theorem lt_of_mem_head?_dropWhile (hhigh : p 0x80 = true) {b : UInt8}
    (h : b ∈ (bytes.dropWhile p).head?) : b.toNat < 0x80 := by
  refine Nat.lt_of_not_le fun hle => ?_
  have hstop := not_of_mem_head?_dropWhile h
  rw [hp b hle, hhigh] at hstop
  cases hstop

/-- A run that has none of them is below 128. -/
theorem lt_of_pos (hhigh : p 0x80 = false) {b : UInt8} (h : p b = true) : b.toNat < 0x80 := by
  refine Nat.lt_of_not_le fun hle => ?_
  rw [hp b hle, hhigh] at h
  cases h

/-- Bytes are repaired on both sides of the end of a run apart. Either the run ends at a byte below
128, or all of it is below 128. -/
theorem repair_eq_append :
    repair bytes = repair (bytes.takeWhile p) ++ repair (bytes.dropWhile p) := by
  have hcut : bytes.takeWhile p ++ bytes.dropWhile p = bytes := List.takeWhile_append_dropWhile
  cases hhigh : p 0x80 with
  | true =>
    have hlow : ∀ b ∈ (bytes.dropWhile p).head?, b.toNat < 0x80 := fun _ =>
      hp.lt_of_mem_head?_dropWhile bytes hhigh
    rw [← repair_append_of_head? hlow, hcut]
  | false =>
    have hlow : ∀ b ∈ bytes.takeWhile p, b.toNat < 0x80 := fun _ hb =>
      hp.lt_of_pos hhigh (List.mem_takeWhile_imp hb)
    rw [repair_of_forall hlow, ← repair_append_of_forall hlow, hcut]

/-- What was taken is what is taken of the repaired text. -/
theorem forall_mem_repair_takeWhile : ∀ b ∈ repair (bytes.takeWhile p), p b = true := by
  intro b hb
  obtain ⟨other, hmem, halike⟩ := exists_alike_of_mem_repair hb
  exact (hp.eq_of_alike halike).trans (List.mem_takeWhile_imp hmem)

/-- What was dropped ends where it ends in the repaired text. -/
theorem forall_head?_repair_dropWhile :
    ∀ b ∈ (repair (bytes.dropWhile p)).head?, p b = false := by
  intro b hb
  obtain ⟨other, hhead, halike⟩ := exists_alike_of_head?_repair hb
  exact (hp.eq_of_alike halike).trans (not_of_mem_head?_dropWhile hhead)

/-- Repairing commutes with taking a run. -/
theorem takeWhile_repair : (repair bytes).takeWhile p = repair (bytes.takeWhile p) := by
  rw [hp.repair_eq_append]
  exact takeWhile_run (hp.forall_mem_repair_takeWhile bytes)
    (hp.forall_head?_repair_dropWhile bytes)

/-- Repairing commutes with dropping a run. -/
theorem dropWhile_repair : (repair bytes).dropWhile p = repair (bytes.dropWhile p) := by
  rw [hp.repair_eq_append]
  exact dropWhile_run (hp.forall_mem_repair_takeWhile bytes)
    (hp.forall_head?_repair_dropWhile bytes)

/-- Repairing commutes with dropping a run of bytes below 128 at the end. -/
theorem rdropWhile_repair (hhigh : p 0x80 = false) :
    (repair bytes).rdropWhile p = repair (bytes.rdropWhile p) := by
  induction bytes using List.reverseRecOn with
  | nil => rfl
  | append_singleton bytes b ih =>
    by_cases hb : p b = true
    · have hlow := hp.lt_of_pos hhigh hb
      rw [repair_append_cons hlow, repair_nil, List.rdropWhile_concat_pos _ _ _ hb, ih,
        List.rdropWhile_concat_pos _ _ _ hb]
    · rw [List.rdropWhile_concat_neg _ _ _ hb, List.rdropWhile_eq_self_iff]
      intro hne
      obtain ⟨other, hlast, halike⟩ :=
        exists_alike_of_getLast?_repair (List.getLast?_eq_some_getLast hne)
      rw [List.getLast?_concat] at hlast
      cases hlast
      rwa [hp.eq_of_alike halike]

end Coarse

end GameSetup.Text.Utf8
