import Mathlib.Tactic

/-!
# Runs of a step function

A component that reacts to inputs is a function from a state and an input to the next state, if the
input is possible there. A run feeds it a list of inputs. `Along` states that every step of a run
meets a condition on its input and on the state before it; an invariant then only has to be kept by
the steps that meet the condition.
-/

namespace Steps

variable {S I : Type} (step : S → I → Option S)

def run : S → List I → Option S
  | s, [] => some s
  | s, i :: is => (step s i).bind (fun s' => run s' is)

/-- Every step of the run meets the condition. -/
def Along (C : S → I → Prop) : S → List I → Prop
  | _, [] => True
  | s, i :: is => C s i ∧ ∀ s' ∈ step s i, Along C s' is

instance decidableAlong (C : S → I → Prop) [∀ s i, Decidable (C s i)] (s : S) :
    (is : List I) → Decidable (Along step C s is)
  | [] => isTrue trivial
  | i :: is =>
    have : ∀ s', Decidable (Along step C s' is) := fun s' => decidableAlong C s' is
    inferInstanceAs (Decidable (C s i ∧ ∀ s' ∈ step s i, Along step C s' is))

variable {step} {s s' : S} {is : List I} {C : S → I → Prop}

theorem run_cons (h : run step s (i :: is) = some s') :
    ∃ s₁, step s i = some s₁ ∧ run step s₁ is = some s' :=
  Option.bind_eq_some_iff.mp h

theorem run_append (h : run step s is = some s₁) (h' : run step s₁ js = some s') :
    run step s (is ++ js) = some s' := by
  induction is generalizing s with
  | nil =>
    cases h
    exact h'
  | cons i is ih =>
    obtain ⟨s₂, hs₂, hrest⟩ := run_cons h
    rw [List.cons_append, run, hs₂]
    exact ih hrest

theorem run_invariant {K : S → Prop} (hstep : ∀ {s i s'}, K s → C s i → step s i = some s' → K s')
    (hrun : run step s is = some s') (hC : Along step C s is) (hs : K s) : K s' := by
  induction is generalizing s with
  | nil =>
    cases hrun
    exact hs
  | cons i is ih =>
    obtain ⟨s₁, hs₁, hrest⟩ := run_cons hrun
    exact ih hrest (hC.2 s₁ hs₁) (hstep hs hC.1 hs₁)

theorem run_keeps {K : S → Prop} (hstep : ∀ {s i s'}, K s → step s i = some s' → K s')
    (hrun : run step s is = some s') (hs : K s) : K s' := by
  induction is generalizing s with
  | nil =>
    cases hrun
    exact hs
  | cons i is ih =>
    obtain ⟨s₁, hs₁, hrest⟩ := run_cons hrun
    exact ih hrest (hstep hs hs₁)

/-- A component of a list of components, after one of them has changed. -/
theorem getElem?_set_cases {α : Type} {l : List α} {x y : α} (h : (l.set k x)[j]? = some y) :
    (j = k ∧ y = x) ∨ l[j]? = some y := by
  rw [List.getElem?_set] at h
  split at h
  · split at h
    · cases h
      exact .inl ⟨(‹k = j›).symm, rfl⟩
    · cases h
  · exact .inr h

theorem exists_of_modify {α : Type} {l : List α} {f : α → α} {y : α}
    (h : (l.modify j f)[k]? = some y) : ∃ x, l[k]? = some x ∧ y = if j = k then f x else x := by
  rw [List.getElem?_modify] at h
  obtain ⟨x, hx, rfl⟩ := Option.map_eq_some_iff.mp h
  refine ⟨x, hx, ?_⟩
  split <;> rfl

end Steps
