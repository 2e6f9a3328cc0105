/-!
# One computation that can fail

What a successful or failed computation says about the one that it continues. The laws stand below
the model because its own termination proofs invert such computations.

Main statements: `map_eq_ok_iff` and `map_eq_error_iff`.
-/

set_option autoImplicit false

namespace VectorStyle

variable {ε α β : Type}

theorem ok_bind (a : α) (f : α → Except ε β) : (Except.ok a >>= f) = f a := rfl

theorem map_eq_ok_iff {f : α → β} {x : Except ε α} {b : β} :
    x.map f = .ok b ↔ ∃ a, x = .ok a ∧ f a = b := by
  cases x <;> simp [Except.map]

theorem map_eq_error_iff {f : α → β} {x : Except ε α} {e : ε} :
    x.map f = .error e ↔ x = .error e := by
  cases x <;> simp [Except.map]

theorem mapError_eq_error_iff {ε' : Type} {f : ε → ε'} {x : Except ε α} {e' : ε'} :
    x.mapError f = .error e' ↔ ∃ e, x = .error e ∧ f e = e' := by
  cases x with
  | ok a => exact ⟨nofun, nofun⟩
  | error e =>
    show Except.error (f e) = Except.error e' ↔ _
    simp

theorem eq_ok_of_toOption_eq_some {x : Except ε α} {a : α} (h : x.toOption = some a) :
    x = .ok a := by
  cases x with
  | ok b => rw [Option.some.inj h]
  | error e => cases h

end VectorStyle
