import AgentConnector.AgentRegistry

/-!
# Event streams of drivers

A stream of driver events is open as long as none of them ends the task; `cut` keeps a stream up to
the first event that does.
-/

namespace AgentConnector

open List

def Unended (events : List DriverEvent) : Prop := ∀ e ∈ events, e.ends = false

variable {events : List DriverEvent} {e : DriverEvent}

theorem unended_nil : Unended [] := fun _ h => by cases h

theorem Unended.append (h : Unended events) (he : e.ends = false) : Unended (events ++ [e]) := by
  intro x hx
  rcases mem_append.mp hx with hx | hx
  · exact h x hx
  · rw [mem_singleton.mp hx]
    exact he

def cut : List DriverEvent → List DriverEvent
  | [] => []
  | e :: events => if e.ends then [e] else e :: cut events

theorem cut_append (h : Unended events) (rest : List DriverEvent) :
    cut (events ++ rest) = events ++ cut rest := by
  induction events with
  | nil => rfl
  | cons x events ih =>
    have hx : ¬ x.ends = true := by rw [h x (mem_cons_self ..)]; decide
    rw [cons_append, cut, if_neg hx, ih (fun y hy => h y (mem_cons_of_mem _ hy)),
      cons_append]

theorem cut_of_unended (h : Unended events) : cut events = events := by
  have hcut := cut_append h []
  rwa [append_nil, cut, append_nil] at hcut

theorem cut_append_of_ended (h : ∃ e ∈ events, e.ends = true) (rest : List DriverEvent) :
    cut (events ++ rest) = cut events := by
  induction events with
  | nil =>
    obtain ⟨e, he, -⟩ := h
    cases he
  | cons x events ih =>
    rw [cons_append, cut, cut]
    by_cases hx : x.ends = true
    · rw [if_pos hx, if_pos hx]
    · obtain ⟨e, he, hends⟩ := h
      rcases mem_cons.mp he with rfl | he
      · exact absurd hends hx
      · rw [if_neg hx, if_neg hx, ih ⟨e, he, hends⟩]

end AgentConnector
