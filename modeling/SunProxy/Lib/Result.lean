/-
Computations that return a value or an error: how a computation in two parts returns, and rules for
computations that return whatever the input.
-/

namespace SunProxy.Result

variable {ε α β : Type}

/-- Two computations in a row return when both do. -/
theorem bind_eq_ok {r : Except ε α} {k : α → Except ε β} {b : β} (h : (r >>= k) = .ok b) :
    ∃ a, r = .ok a ∧ k a = .ok b := by
  cases r with
  | error x => cases h
  | ok a => exact ⟨a, rfl, h⟩

/-- A result that is mapped returns the image of a value. -/
theorem map_eq_ok {r : Except ε α} {f : α → β} {b : β} (h : (f <$> r) = .ok b) : ∃ a, r = .ok a ∧ f a = b := by
  cases r with
  | error x => cases h
  | ok a => exact ⟨a, rfl, Except.ok.inj h⟩

/-- The computation returns, and its value has the property. -/
def Returns (P : α → Prop) (r : Except ε α) : Prop := ∃ a, r = .ok a ∧ P a

namespace Returns

variable {P Q : α → Prop} {R : β → Prop} {r : Except ε α} {k : α → Except ε β}

theorem ok {a : α} (h : P a) : Returns P (.ok a : Except ε α) := ⟨a, rfl, h⟩

/-- One computation after another. -/
theorem bind (h : Returns P r) (hk : ∀ a, P a → Returns R (k a)) : Returns R (r >>= k) := by
  obtain ⟨a, rfl, hp⟩ := h
  exact hk a hp

end Returns

end SunProxy.Result
