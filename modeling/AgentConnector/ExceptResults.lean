import Mathlib.Tactic

/-!
# Successful results

When a sequence of fallible steps succeeds, each of its steps has.
-/

namespace AgentConnector

variable {ε ε' α β : Type}

theorem mapError_eq_ok_iff {x : Except ε α} {g : ε → ε'} :
    x.mapError g = .ok a ↔ x = .ok a := by
  cases x <;> simp [Except.mapError]

theorem except_bind_eq_ok_iff {f : α → Except ε β} :
    (x >>= f) = .ok b ↔ ∃ a, x = .ok a ∧ f a = .ok b := by
  cases x with
  | error e | ok a => simp [bind, Except.bind]

theorem unit_bind_eq_ok_iff {f : Unit → Except ε α} :
    (x >>= f) = .ok a ↔ x = .ok () ∧ f () = .ok a := by
  rw [except_bind_eq_ok_iff]
  exact ⟨fun ⟨_, h⟩ => h, fun h => ⟨(), h⟩⟩

end AgentConnector
