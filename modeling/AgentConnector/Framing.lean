import Mathlib.Tactic

/-!
# Cutting a stream into frames as it arrives

A `Cutter` finds the first frame of a buffer and what is left after it. If what it finds does not
change when more of the stream arrives, then the frames of a stream do not depend on the pieces in
which it arrives.
-/

namespace Framing

variable {α : Type}

structure Cutter (α : Type) where
  cut : List α → Option (List α × List α)
  shorter : ∀ {b f rest}, cut b = some (f, rest) → rest.length < b.length
  stable : ∀ {b f rest} (more : List α), cut b = some (f, rest) →
    cut (b ++ more) = some (f, rest ++ more)

namespace Cutter

variable (c : Cutter α)

/-- All frames of a buffer, and the rest of it. -/
def split (b : List α) : List (List α) × List α :=
  match _h : c.cut b with
  | none => ([], b)
  | some (f, rest) => (f :: (split rest).1, (split rest).2)
termination_by b.length
decreasing_by all_goals exact c.shorter (by assumption)

variable {c} {b f rest : List α}

theorem split_of_none (h : c.cut b = none) : c.split b = ([], b) := by
  rw [split]
  split
  · rfl
  · rename_i heq
    rw [h] at heq
    cases heq

theorem split_of_some (h : c.cut b = some (f, rest)) :
    c.split b = (f :: (c.split rest).1, (c.split rest).2) := by
  rw [split]
  split
  · rename_i heq
    rw [h] at heq
    cases heq
  · rename_i heq
    rw [h] at heq
    cases heq
    rfl

theorem split_induction {P : List α → Prop} (hnone : ∀ b, c.cut b = none → P b)
    (hsome : ∀ b f rest, c.cut b = some (f, rest) → P rest → P b) (b : List α) : P b := by
  cases h : c.cut b with
  | none => exact hnone b h
  | some r =>
    have hlt : r.2.length < b.length := c.shorter h
    exact hsome b r.1 r.2 h (split_induction hnone hsome r.2)
termination_by b.length

theorem split_append (a b : List α) :
    c.split (a ++ b) = ((c.split a).1 ++ (c.split ((c.split a).2 ++ b)).1,
      (c.split ((c.split a).2 ++ b)).2) := by
  induction a using split_induction with
  | hnone a h => rw [split_of_none h, List.nil_append]
  | hsome a f rest h ih => rw [split_of_some (c.stable b h), split_of_some h, ih, List.cons_append]

theorem cut_rest (b : List α) : c.cut (c.split b).2 = none := by
  induction b using split_induction with
  | hnone b h =>
    rw [split_of_none h]
    exact h
  | hsome b f rest h ih =>
    rw [split_of_some h]
    exact ih

end Cutter

end Framing
