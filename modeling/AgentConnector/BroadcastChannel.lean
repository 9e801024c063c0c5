import Mathlib.Tactic

/-!
# Bounded broadcast channels

A channel keeps the values sent so far; a receiver is a position in that sequence. A receiver that
has fallen more than `capacity` values behind is told so once and moved to the oldest value still
kept. A receiver that has seen everything waits, or is told that the last sender is gone.
-/

namespace Broadcast

open List

variable {α : Type}

structure Channel (α : Type) where
  capacity : ℕ
  sent : List α
  closed : Bool

inductive Recv (α : Type) where
  | value (a : α)
  | lagged (missed : ℕ)
  | closed

namespace Channel

def open_ (capacity : ℕ) : Channel α := ⟨capacity, [], false⟩

variable (ch : Channel α)

def send (a : α) : Channel α := { ch with sent := ch.sent ++ [a] }

/-- The last sender is dropped. -/
def close : Channel α := { ch with closed := true }

/-- What a receiver at position `next` gets, with its new position; `none` while it has to wait. -/
def recv (next : ℕ) : Option (Recv α × ℕ) :=
  if next + ch.capacity < ch.sent.length then
    some (.lagged (ch.sent.length - ch.capacity - next), ch.sent.length - ch.capacity)
  else match ch.sent[next]? with
    | some a => some (.value a, next + 1)
    | none => if ch.closed then some (.closed, next) else none

/-- What a channel becomes as it is used: more is sent, and it may close for good. -/
structure Extends (ch ch' : Channel α) : Prop where
  capacity : ch'.capacity = ch.capacity
  sent : ch.sent <+: ch'.sent
  closed : ch.closed = true → ch'.closed = true

theorem Extends.refl : ch.Extends ch := ⟨rfl, prefix_rfl, fun h => h⟩

variable {ch : Channel α}

theorem Extends.trans (h : ch.Extends ch') (h' : ch'.Extends ch'') :
    ch.Extends ch'' :=
  ⟨h'.capacity.trans h.capacity, h.sent.trans h'.sent, fun hc => h'.closed (h.closed hc)⟩

theorem extends_send (ch : Channel α) (a : α) : ch.Extends (ch.send a) :=
  ⟨rfl, prefix_append _ _, fun h => h⟩

theorem extends_close (ch : Channel α) : ch.Extends ch.close :=
  ⟨rfl, prefix_rfl, fun _ => rfl⟩

variable {next next' : ℕ}

theorem value_of_recv (h : ch.recv next = some (.value a, next')) :
    ch.sent[next]? = some a ∧ next' = next + 1 := by
  unfold recv at h
  split at h
  · cases h
  · split at h
    · rename_i b hb
      cases h
      exact ⟨hb, rfl⟩
    · split at h <;> cases h

theorem mem_sent_of_recv (h : ch.recv next = some (.value a, next')) : a ∈ ch.sent :=
  mem_of_getElem? (value_of_recv h).1

theorem drained_of_recv (h : ch.recv next = some (.closed, next')) : ch.sent.length ≤ next := by
  unfold recv at h
  split at h
  · cases h
  · split at h
    · cases h
    · rename_i hnone
      exact getElem?_eq_none_iff.mp hnone

theorem closed_of_recv (h : ch.recv next = some (.closed, next')) : ch.closed = true := by
  unfold recv at h
  split at h
  · cases h
  · split at h
    · cases h
    · split at h
      · assumption
      · cases h

end Channel

end Broadcast
