/-!
# Results that may be errors

What the result of several steps says about the steps: a success means that each of them succeeded,
and an error that survives a change of the result was there before it.
-/

namespace GameSetup

/-- What succeeds after a change of the result succeeds before it. -/
theorem exists_of_map_eq_ok {ε α β : Type} {result : Except ε α} {wrap : α → β} {next : β}
    (h : result.map wrap = .ok next) : ∃ inner, result = .ok inner ∧ wrap inner = next := by
  cases result with
  | error cause => cases h
  | ok inner => exact ⟨inner, rfl, Except.ok.inj h⟩

/-- What fails after a change of the result fails before it, for the same reason. -/
theorem eq_error_of_map_eq_error {ε α β : Type} {result : Except ε α} {wrap : α → β} {cause : ε}
    (h : result.map wrap = .error cause) : result = .error cause := by
  cases result with
  | error cause => exact congrArg Except.error (Except.error.inj h)
  | ok inner => cases h

/-- A result that there is was a success. -/
theorem eq_ok_of_toOption_eq_some {ε α : Type} {result : Except ε α} {inner : α}
    (h : result.toOption = some inner) : result = .ok inner := by
  cases result with
  | error cause => cases h
  | ok value => exact congrArg Except.ok (Option.some.inj h)

/-- A change of a success changes what there is of it. -/
theorem toOption_map {ε α β : Type} (result : Except ε α) (change : α → β) :
    (result.map change).toOption = result.toOption.map change := by
  cases result <;> rfl

/-- After a success the next step is taken. -/
@[simp] theorem ok_bind {ε α β : Type} (inner : α) (next : α → Except ε β) :
    (Except.ok inner >>= next) = next inner := rfl

/-- After an error no further step is taken. -/
@[simp] theorem error_bind {ε α β : Type} (cause : ε) (next : α → Except ε β) :
    (Except.error cause >>= next) = .error cause := rfl

/-- What succeeds in two steps succeeds in the first and then in the second. -/
theorem exists_of_bind_eq_ok {ε α β : Type} {result : Except ε α} {next : α → Except ε β}
    {value : β} (h : (result >>= next) = .ok value) :
    ∃ inner, result = .ok inner ∧ next inner = .ok value := by
  cases result with
  | error cause => cases h
  | ok inner => exact ⟨inner, rfl, h⟩

/-- Two steps succeed together exactly if one does after the other. -/
theorem bind_eq_ok_iff {ε α β : Type} {result : Except ε α} {next : α → Except ε β} {value : β} :
    (result >>= next) = .ok value ↔ ∃ inner, result = .ok inner ∧ next inner = .ok value := by
  constructor
  · exact exists_of_bind_eq_ok
  · rintro ⟨inner, rfl, h⟩
    exact h

end GameSetup
