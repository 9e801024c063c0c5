import AgentConnector.ProvidedInput

/-!
# Inputs are delivered at most once

Two calls of `provideInput` that read the task before either has recorded its transition both hand
their input to the driver. If no two calls find the task waiting at the same revision, there is an
`InputRequired` event of its own for every input that reaches the driver: the event that the task
was waiting on when the call read it.
-/

namespace AgentConnector

open Concurrent AdapterCore List

variable {setup : CoreSetup} {p : Pool (contractCore setup)} {id : TaskId}

def CoreEventKind.isInputRequired : CoreEventKind → Bool
  | .inputRequired _ => true
  | _ => false

theorem CoreEventKind.isInputRequired_of_state {k : CoreEventKind}
    (h : k.state = .waitingForInput) : k.isInputRequired = true := by
  cases k <;> first | rfl | cases h

/-- The task that an operation reads. -/
def CoreOp.gets? : CoreOp contractSig → Option TaskId
  | .store (.get id) => some id
  | _ => none

/-- The thread runs a `provideInput` for the task. -/
abbrev providesInput (p : Pool (contractCore setup)) (id : TaskId) (tid : ℕ) : Prop :=
  p.threads[tid]?.bind (fun th => th.entry.input?) = some id

/-- The revision at which a step of a `provideInput` for the task has found it waiting for input. -/
def foundWaiting (p : Pool (contractCore setup)) (id : TaskId) (st : Step (contractCore setup)) :
    Option ℕ :=
  if providesInput p id st.tid ∧ st.op.gets? = some id then
    (st.pre.db.tasks id).bind (fun s =>
      if s.state = .waitingForInput then some s.revision else none)
  else none

/-- Before a thread hands an input to the driver it has taken one step: it has found the task
waiting for input. -/
theorem input_call_steps (hp : p.Reachable) (hown : p.own tid = l ++ st :: l')
    (hst : st.op.inputFor? = some id) :
    ∃ got s, l' = [got] ∧ got ∈ p.trace ∧ got.tid = tid ∧
      got.pre.db.tasks id = some s ∧ s.state = .waitingForInput ∧
      foundWaiting p id got = some s.revision := by
  obtain ⟨hmem, rfl⟩ := World.mem_own.mp (show st ∈ p.own tid by simp [hown])
  obtain ⟨th, hth⟩ := hp.exists_thread hmem
  have hentry : th.entry.input? = some id := by
    have hop := performs_of_own hp hth (World.mem_own.mpr ⟨hmem, rfl⟩)
    cases ho : st.op with
    | driverProvideInput agent id' input =>
      rw [ho] at hop hst
      cases Option.some.inj hst
      exact hop
    | _ =>
      rw [ho] at hst
      cases hst
  obtain ⟨caller, input, hdispatch⟩ := CoreEntry.exists_input hentry
  have hreplays := hp.replays hth
  rw [hown, hdispatch] at hreplays
  obtain ⟨k, hbefore, _⟩ := hreplays.split
  obtain ⟨got, s, rfl, hgot, hwaiting⟩ := replays_input_call hst hbefore
  obtain ⟨hgotmem, hgottid⟩ := World.mem_own.mp (show got ∈ p.own st.tid by simp [hown])
  have hread := tasks_of_read hp hgotmem hgot
  refine ⟨got, s, rfl, hgotmem, hgottid, hread, hwaiting, ?_⟩
  have hgets : got.op.gets? = some id := by
    rw [hgot.op_eq]
    rfl
  simp [foundWaiting, providesInput, hgottid, hth, hentry, hgets, hread, hwaiting]

theorem countP_input_own (hp : p.Reachable) (id : TaskId) (tid : ℕ) :
    (p.own tid).countP (fun st => st.op.inputFor? = some id) ≤ 1 := by
  by_cases h : ∃ st ∈ p.own tid, st.op.inputFor? = some id
  · obtain ⟨st, hmem, hst⟩ := h
    obtain ⟨l, l', hown⟩ := append_of_mem hmem
    obtain ⟨got, s, rfl, _⟩ := input_call_steps hp hown hst
    have hnewer : ∀ st' ∈ l, ¬ st'.op.inputFor? = some id := by
      intro st' hst' hinput
      obtain ⟨a, c, rfl⟩ := append_of_mem hst'
      have hsplit : p.own tid = a ++ st' :: (c ++ [st, got]) := by simp [hown]
      obtain ⟨got', _, hlast, _⟩ := input_call_steps hp hsplit hinput
      have hlen := congrArg List.length hlast
      simp at hlen
    have holder : ¬ got.op.inputFor? = some id := by
      intro hinput
      have hsplit : p.own tid = (l ++ [st]) ++ got :: [] := by simp [hown]
      obtain ⟨_, _, hlast, _⟩ := input_call_steps hp hsplit hinput
      cases hlast
    rw [hown, countP_append, countP_eq_zero.mpr (by simpa using hnewer)]
    simp [hst, holder]
  · rw [countP_eq_zero.mpr (fun st hst => by simpa using fun hi => h ⟨st, hst, hi⟩)]
    exact Nat.zero_le 1

/-- If no two calls of `provideInput` find the task waiting for input at the same revision, the
driver is handed at most one input for each `InputRequired` event of the task. -/
theorem input_delivered_at_most_once (setup : CoreSetup) {p : Pool (contractCore setup)}
    (hp : p.Reachable) (id : TaskId)
    (hfound : ∀ st ∈ p.trace, ∀ st' ∈ p.trace, (foundWaiting p id st).isSome = true →
      foundWaiting p id st = foundWaiting p id st' → st.tid = st'.tid) :
    (p.trace.filter (fun st => st.op.inputFor? = some id)).length ≤
      ((p.state.db.events id).filter (fun e => e.kind.isInputRequired)).length := by
  let calls := p.trace.filter (fun st => st.op.inputFor? = some id)
  have hread : ∀ tid ∈ calls.map Step.tid, ∃ revision,
      (∃ got ∈ p.trace, got.tid = tid ∧ foundWaiting p id got = some revision) ∧
        revision ∈ ((p.state.db.events id).filter (fun e => e.kind.isInputRequired)).map
          CoreEvent.seq := by
    intro tid htid
    obtain ⟨st, hst, rfl⟩ := mem_map.mp htid
    obtain ⟨hmem, hinput⟩ := mem_filter.mp hst
    obtain ⟨l, l', hown⟩ := append_of_mem (World.mem_own.mpr ⟨hmem, rfl⟩)
    obtain ⟨got, s, _, hgot, hgottid, hs, hwaiting, hfw⟩ :=
      input_call_steps hp hown (by simpa using hinput)
    refine ⟨s.revision, ⟨got, hgot, hgottid, hfw⟩, ?_⟩
    obtain ⟨hwf, hstep, hlater⟩ := extends_of_mem_trace hp hgot
    obtain ⟨e, he, hkind, hseq⟩ := (hwf.db.log hs).exists_last (by rw [hwaiting]; decide)
    have hlog : e ∈ p.state.db.events id :=
      ((hstep.db.events id).trans (hlater.db.events id)).subset he
    rw [mem_map]
    refine ⟨e, mem_filter.mpr ⟨hlog, ?_⟩, hseq⟩
    exact CoreEventKind.isInputRequired_of_state (hkind.trans hwaiting)
  choose! revision hrevision using hread
  have hnodup : ((calls.map Step.tid).map revision).Nodup := by
    refine List.Nodup.map_on ?_ (World.nodup_tid (countP_input_own hp id))
    intro tid htid tid' htid' heq
    obtain ⟨⟨got, hgot, rfl, hfw⟩, _⟩ := hrevision tid htid
    obtain ⟨⟨got', hgot', rfl, hfw'⟩, _⟩ := hrevision tid' htid'
    exact hfound got hgot got' hgot' (by simp [hfw]) (by rw [hfw, hfw', heq])
  have hsubset : (calls.map Step.tid).map revision ⊆
      ((p.state.db.events id).filter (fun e => e.kind.isInputRequired)).map CoreEvent.seq := by
    intro r hr
    obtain ⟨tid, htid, rfl⟩ := mem_map.mp hr
    exact (hrevision tid htid).2
  have hle := hnodup.length_le_of_subset hsubset
  simpa only [length_map] using hle

def askingDriver (tid : ℕ) : Action (contractCore singleAgentSetup) :=
  .step tid { calm with stream := .ok [.inputRequired ⟨"which one?", none⟩, .completed []] }

/-- A call of `provideInput` for task 1. -/
def answerTask : CoreEntry := .dispatch localCaller (.provideInput 1 [])

/-- Task 1 is invoked and its worker has applied the question of the driver. -/
def waitingTask : List (Action (contractCore singleAgentSetup)) :=
  .call (invokeTask 1) :: steps singleAgentSetup 0 12 ++ steps singleAgentSetup 1 1 ++
    askingDriver 1 :: steps singleAgentSetup 1 12

theorem input_delivered_at_most_once_answered :
    ∃ p : Pool (contractCore singleAgentSetup), p.Reachable ∧
      (p.trace.filter (fun st => st.op.inputFor? = some 1)).length = 1 ∧
      (p.trace.filter (fun st => st.op.inputFor? = some 1)).length ≤
        ((p.state.db.events 1).filter (fun e => e.kind.isInputRequired)).length := by
  obtain ⟨p, hp, hcount, hfound⟩ := Pool.exists_reachable
    (waitingTask ++ .call answerTask :: turns 2 5)
    (fun p => (p.trace.filter (fun st => st.op.inputFor? = some 1)).length = 1 ∧
      ∀ st ∈ p.trace, ∀ st' ∈ p.trace, (foundWaiting p 1 st).isSome = true →
        foundWaiting p 1 st = foundWaiting p 1 st' → st.tid = st'.tid) (by decide +kernel)
  exact ⟨p, hp, hcount, input_delivered_at_most_once singleAgentSetup hp 1 hfound⟩

/-- Two calls read the task while it waits for one input, and both hand theirs to the driver. -/
theorem input_delivered_twice : ∃ p : Pool (contractCore singleAgentSetup), p.Reachable ∧
      (∀ st ∈ p.trace, ¬ CoreOp.Fault st.op st.reply) ∧
      (p.trace.filter (fun st => st.op.inputFor? = some 1)).length = 2 ∧
      ((p.state.db.events 1).filter (fun e => e.kind.isInputRequired)).length = 1 := by
  apply Pool.exists_reachable (waitingTask ++ .call answerTask :: .call answerTask ::
    turns 2 1 ++ turns 3 1 ++ turns 2 4 ++ turns 3 3)
  decide +kernel

end AgentConnector
