import AgentConnector.ReliableDelivery

/-!
# The end of a stream

A stream ends when its receiver is closed and nothing is left to read. This is the end of the task
as long as receivers are closed late: a subscription that finds no sender finds a terminal task, and
a sender is dropped only when its task is terminal. The core does not ensure the first: `invoke`
creates the task in the store before it inserts its sender, and a stream that subscribes in between
ends at once.
-/

namespace AgentConnector

open Concurrent Protocol

/-- The stream whose end an operation hands to its consumer. -/
def CoreOp.ends? {τ : Signature} : CoreOp τ → Option (TaskId × ℕ)
  | .emit id afterSeq (.ok none) => some (id, afterSeq)
  | _ => none

theorem CoreOp.eq_emit_of_ends? {o : CoreOp τ} {id : TaskId} (h : o.ends? = some (id, afterSeq)) :
    o = .emit id afterSeq (.ok none) := by
  unfold CoreOp.ends? at h
  split at h
  · cases h
    rfl
  · cases h

instance (s : CoreState LogStore) (o : CoreOp contractSig) (r : o.Reply) :
    Decidable (CoreOp.AttachesLate s o r) :=
  decidable_of_bool (match o, r with
    | .activeSubscribe id, none => s.Ended id
    | _, _ => true) (by unfold CoreOp.AttachesLate; split <;> simp)

instance (s : CoreState LogStore) (o : CoreOp contractSig) :
    Decidable (CoreOp.DetachesLate s o) :=
  decidable_of_bool (match o with
    | .activeRemove id | .activeInsert id => (s.active id).isSome = true → s.Ended id
    | _ => true) (by unfold CoreOp.DetachesLate; split <;> simp only [decide_eq_true_eq])

theorem CoreState.EndedBy.mem_delivered {s : CoreState LogStore} (hwf : s.WF) {id : TaskId}
    (h : s.EndedBy id (afterSeq + events.length))
    (hnumbered : Numbered CoreEvent.seq (afterSeq + 1) events)
    (hlogged : ∀ e ∈ events, e ∈ s.db.events id) :
    ∀ e ∈ s.db.events id, afterSeq < e.seq → e ∈ events := by
  intro e he hlt
  obtain ⟨snap, hs, _, hlast⟩ := h
  have hlog := hwf.db.log hs
  have hbound := (hwf.db.numbered id).mem_bounds he
  have hseq : e.seq < afterSeq + 1 + events.length := by
    rw [hlog.lastSeq] at hlast
    omega
  obtain ⟨e', he', hsame⟩ := hnumbered.exists_mem hlt hseq
  have heq : e' = e := (hwf.db.numbered id).inj (hlogged e' he') he hsame
  rwa [← heq]

/-- In every run in which gaps are short and receivers are closed late, a stream that has ended has
delivered the whole log after its start, and its task is terminal. -/
theorem stream_ends_with_its_task (setup : CoreSetup) {p : Pool (contractCore setup)}
    (hp : p.Reachable) (hgap : ∀ st ∈ p.trace, CoreOp.GapWithin 501 st.op st.reply)
    (hattach : ∀ st ∈ p.trace, CoreOp.AttachesLate st.pre st.op st.reply)
    (hdetach : ∀ st ∈ p.trace, CoreOp.DetachesLate st.pre st.op)
    {st : Step (contractCore setup)} (hst : st ∈ p.trace) {id : TaskId} {afterSeq : ℕ}
    (hends : st.op.ends? = some (id, afterSeq)) :
    p.state.Ended id ∧
      ∀ e ∈ p.state.db.events id, afterSeq < e.seq → e ∈ delivered p.toWorld st.tid := by
  have hinv := (stream_sound True setup).inv hp
    (fun st' hst' => ⟨hgap st' hst', fun _ => hattach st' hst', fun _ => hdetach st' hst'⟩)
  have hdelivers := hinv.delivers st hst _ _ _ (CoreOp.eq_emit_of_ends? hends)
  have hended := hdelivers.ended trivial rfl
  constructor
  · obtain ⟨snap, hs, hterminal, _⟩ := hended
    exact ⟨snap, hs, hterminal⟩
  · exact hended.mem_delivered hinv.state hdelivers.numbered hdelivers.logged

theorem stream_ends_with_its_task_completed :
    ∃ p : Pool (contractCore singleAgentSetup), p.Reachable ∧
      (delivered p.toWorld 2).length = 2 ∧ p.state.Ended 1 ∧
      ∀ e ∈ p.state.db.events 1, 0 < e.seq → e ∈ delivered p.toWorld 2 := by
  obtain ⟨p, hp, hgap, hattach, hdetach, ⟨st, hst, hends, htid⟩, hlength⟩ := Pool.exists_reachable
    (acceptedTask ++ .call (.stream 1 0 [1, 1, 1]) :: turns 2 3 ++ turns 1 1 ++
      .step 1 { calm with stream := .ok [.completed []] } :: turns 1 13 ++ turns 2 3)
    (fun p => (∀ st ∈ p.trace, CoreOp.GapWithin 501 st.op st.reply) ∧
      (∀ st ∈ p.trace, CoreOp.AttachesLate st.pre st.op st.reply) ∧
      (∀ st ∈ p.trace, CoreOp.DetachesLate st.pre st.op) ∧
      (∃ st ∈ p.trace, st.op.ends? = some (1, 0) ∧ st.tid = 2) ∧
      (delivered p.toWorld 2).length = 2) (by decide +kernel)
  have hended := stream_ends_with_its_task singleAgentSetup hp hgap hattach hdetach hst hends
  rw [htid] at hended
  exact ⟨p, hp, hlength, hended⟩

/-- A stream that subscribes between the creation of its task and the insertion of the sender ends
while the task has not even been accepted. -/
theorem stream_ends_before_its_task : ∃ p : Pool (contractCore singleAgentSetup), p.Reachable ∧
      (∃ st ∈ p.trace, st.op.ends? = some (1, 0)) ∧
      (p.state.db.tasks 1).map TaskSnapshot.state = some .created := by
  apply Pool.exists_reachable (.call (invokeTask 1) :: turns 0 2 ++
    .call (.stream 1 0 [1]) :: turns 1 6)
  decide +kernel

end AgentConnector
