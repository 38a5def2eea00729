import GameSetup.Proofs.Numeral.Leading
import GameSetup.Setting.Value

/-!
# Which texts are numbers

A number is a whole text, so an integer of 32 bits at its start is accepted exactly if nothing
follows it. An integer that is too large is told from other texts before what follows it is looked
at. All other texts are no integers.
-/

namespace GameSetup

open Numeral

section Outcomes

variable {text : String}

/-- A text is accepted exactly if it ends behind the integer that it starts with. -/
theorem read_number_eq_ok_iff {number : Int32} :
    SettingValue.read text = .ok number ↔
      ∃ cut, IsDecimalCut text.toList cut ∧ cut.value 10 = number.toInt ∧ cut.rest = [] := by
  simp only [SettingValue.read, ← and_assoc, ← leadingDecimal_eq_ok_iff]
  cases leadingDecimal text.toList with
  | error cause => cases cause <;> simp
  | ok found => by_cases hrest : found.2.rest = [] <;> simp [hrest, Prod.ext_iff]

/-- It starts with an integer that is too large exactly if this is said. -/
theorem read_number_eq_outsideInt32_iff :
    (SettingValue.read text : Except Rejection Int32) = .error .outsideInt32 ↔
      leadingDecimal text.toList = .error .overflow := by
  simp only [SettingValue.read]
  cases leadingDecimal text.toList with
  | error cause => cases cause <;> simp
  | ok found => by_cases hrest : found.2.rest = [] <;> simp [hrest]

/-- Of all other texts it is said that they are no integers. -/
theorem read_number_eq_notInteger_iff :
    (SettingValue.read text : Except Rejection Int32) = .error .notInteger ↔
      (∀ number : Int32, SettingValue.read text ≠ .ok number) ∧
        (SettingValue.read text : Except Rejection Int32) ≠ .error .outsideInt32 := by
  simp only [SettingValue.read]
  cases leadingDecimal text.toList with
  | error cause => cases cause <;> simp
  | ok found => by_cases hrest : found.2.rest = [] <;> simp [hrest]

end Outcomes

/-- Which integers are read at the start of a text, and which texts are numbers. The integer's
value has to be one of 32 bits, and its length in bytes is that of the blanks, the sign and the
digits. If the value is another one, both say that it is too large, whatever follows; a text with
more behind an integer is refused as a number like one that does not start with any. -/
theorem read_number_exact (text : String) :
    (∀ value : Int, ∀ used : Nat,
      (∃ number cut, leadingDecimal text.toList = .ok (number, cut) ∧ number.toInt = value ∧
          cut.used = used) ↔
        ∃ cut, IsDecimalCut text.toList cut ∧ cut.value 10 = value ∧
          -2 ^ 31 ≤ value ∧ value ≤ 2 ^ 31 - 1 ∧
          (Text.Utf8.encode (String.ofList cut.taken)).length = used) ∧
    (leadingDecimal text.toList = .error .overflow ↔
      ∃ cut, IsDecimalCut text.toList cut ∧
        ¬ (-2 ^ 31 ≤ cut.value 10 ∧ cut.value 10 ≤ 2 ^ 31 - 1)) ∧
    (leadingDecimal text.toList = .error .noDigits ↔ ∀ cut, ¬ IsDecimalCut text.toList cut) ∧
    (∀ number : Int32, SettingValue.read text = .ok number ↔
      ∃ cut, IsDecimalCut text.toList cut ∧ cut.value 10 = number.toInt ∧ cut.rest = []) ∧
    ((SettingValue.read text : Except Rejection Int32) = .error .outsideInt32 ↔
      ∃ cut, IsDecimalCut text.toList cut ∧
        ¬ (-2 ^ 31 ≤ cut.value 10 ∧ cut.value 10 ≤ 2 ^ 31 - 1)) ∧
    ((SettingValue.read text : Except Rejection Int32) = .error .notInteger ↔
      (∀ number : Int32, SettingValue.read text ≠ .ok number) ∧
        (SettingValue.read text : Except Rejection Int32) ≠ .error .outsideInt32) := by
  refine ⟨fun value used => ⟨?_, ?_⟩, leadingDecimal_eq_overflow_iff,
    leadingDecimal_eq_noDigits_iff, fun number => read_number_eq_ok_iff,
    read_number_eq_outsideInt32_iff.trans leadingDecimal_eq_overflow_iff,
    read_number_eq_notInteger_iff⟩
  · intro h
    obtain ⟨number, cut, hread, rfl, rfl⟩ := h
    obtain ⟨hcut, hvalue⟩ := leadingDecimal_eq_ok_iff.mp hread
    have hleast := number.le_toInt
    have hgreatest := number.toInt_lt
    exact ⟨cut, hcut, hvalue, by omega, by omega, hcut.used_eq.symm⟩
  · intro h
    obtain ⟨cut, hcut, rfl, hleast, hgreatest, rfl⟩ := h
    have hnumber : (Int32.ofInt (cut.value 10)).toInt = cut.value 10 :=
      Int32.toInt_ofInt_of_le (by omega) (by omega)
    exact ⟨_, cut, leadingDecimal_eq_ok_iff.mpr ⟨hcut, hnumber.symm⟩, hnumber, hcut.used_eq⟩

end GameSetup
