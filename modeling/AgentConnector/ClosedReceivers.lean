import AgentConnector.TaskLifecycle
import AgentConnector.ThreadReplay

/-!
# Receivers that are closed from the start

A subscription that finds no entry in `active` gets a receiver of a channel of its own, which is
closed and on which nothing was ever sent. Events are sent on the channels of entries only, and
those are open, so such a receiver is found closed whenever it is polled.
-/

namespace AgentConnector

open Concurrent Broadcast

variable {setup : CoreSetup} {s s' : CoreState LogStore} {i : ℕ}

namespace CoreState

def Dead (s : CoreState LogStore) (i : ℕ) : Prop :=
  ∃ id, s.channels[i]? = some ⟨id, ⟨1, [], true⟩⟩

theorem Dead.ne_active (h : s.Dead i) (hwf : s.WF) {id : TaskId} (ha : s.active id = some a) :
    a.channel ≠ i := by
  rintro rfl
  obtain ⟨id', hch⟩ := h
  obtain ⟨ch, hch', -, hopen⟩ := hwf.active ha
  rw [hch] at hch'
  cases hch'
  cases hopen

theorem Dead.onChannel (h : s.Dead i) (hij : j ≠ i) (f : Channel CoreEvent → Channel CoreEvent) :
    (s.onChannel j f).Dead i := by
  obtain ⟨id, hch⟩ := h
  refine ⟨id, ?_⟩
  rw [onChannel_getElem? f hch, if_neg hij]

theorem Dead.append (h : s.Dead i) (ch : TaskChannel) :
    Dead { s with channels := s.channels ++ [ch] } i := by
  obtain ⟨id, hch⟩ := h
  refine ⟨id, ?_⟩
  rw [List.getElem?_append_left (List.getElem?_eq_some_iff.mp hch).1]
  exact hch

theorem Dead.dropActive (h : s.Dead i) (hwf : s.WF) (id : TaskId) : (s.dropActive id).Dead i := by
  unfold CoreState.dropActive
  split
  · rename_i a ha
    exact h.onChannel (h.ne_active hwf ha) Channel.close
  · exact h

theorem Dead.send (h : s.Dead i) (hwf : s.WF) (id : TaskId) (e : CoreEvent) :
    (s.send id e).Dead i := by
  unfold CoreState.send
  split
  · rename_i a ha
    exact h.onChannel (h.ne_active hwf ha) _
  · exact h

theorem Dead.coreExec (h : s.Dead i) (hwf : s.WF)
    (hex : coreExec contractMachine tid s o c = some (s', r)) : s'.Dead i := by
  have hmove := coreMove_of_exec hex
  clear hex
  change CoreOp contractMachine.sig at o
  cases hmove with
  | inserted id => exact (h.dropActive hwf id).append _
  | sent id e => exact h.send hwf id e
  | opened id => exact h.append _
  | cancelled id =>
    unfold CoreState.cancelToken
    split <;> exact h
  | removed id => exact h.dropActive hwf id
  | _ => exact h

end CoreState

theorem dead_of_mem_trace {p : Pool (contractCore setup)} (hp : p.Reachable) (hst : st ∈ p.trace)
    {id : TaskId} (hdid : st.Did (.closedReceiver id) r) : p.state.Dead r.channel ∧ r.next = 0 := by
  induction hp with
  | start => cases hst
  | @act p q a hp ha ih =>
    rcases Pool.act_cases ha with ⟨e, _, rfl⟩ | ⟨tid, c, th, o, k, s, r', _, _, hex, rfl⟩
    · exact ih hst
    · rcases List.mem_cons.mp hst with rfl | hst
      · cases hdid
        cases hex
        exact ⟨⟨id, by simp⟩, rfl⟩
      · exact ⟨(ih hst).1.coreExec (wf_of_reachable hp) hex, (ih hst).2⟩

end AgentConnector
