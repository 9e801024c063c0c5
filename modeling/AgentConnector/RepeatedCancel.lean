import AgentConnector.CallSteps
import AgentConnector.TaskLifecycle

/-!
# Cancelling a task again

A second `cancel` of a task that has already been asked to stop finds it in `CancelRequested`, from
which a cancellation is not an allowed transition, and fails. Repeating a `cancel` that has
succeeded gives the same answer exactly if it found the task in a terminal state.
-/

namespace AgentConnector

open Concurrent AdapterCore Replays Option

variable {setup : CoreSetup}

def cancellable : List TaskState := [.created, .accepted, .running, .waitingForInput]

/-- What `cancel` may do to the store. -/
def CoreOp.OnlyCancels : CoreOp contractSig → Prop
  | .store (.append t) => t.allowedStates = cancellable
  | .store (.claim _) => False
  | _ => True

theorem everywhere_cancel (setup : CoreSetup) (caller : Caller) (id : TaskId)
    (reason : Option String) :
    ((contractCore setup).program (.dispatch caller (.cancel id reason))).Everywhere
      CoreOp.OnlyCancels := by
  have hwalk : Walk setup.contract CoreOp.OnlyCancels (fun t => t.allowedStates = cancellable)
      (fun p => p.Everywhere CoreOp.OnlyCancels) :=
    walk_everywhere (fun _ => ⟨trivial, fun _ => trivial⟩) (fun t ht => ⟨ht, fun _ => trivial⟩)
      (fun _ _ _ => trivial)
  refine Prog.everywhere_bind (hwalk.dispatch (fun o ho => ?_) (fun t ht _ => ht.1)
    (fun _ _ h => by cases h)) (fun _ => trivial)
  cases o <;> trivial

/-- The append of a cancellation that was decided on a snapshot. -/
def cancellation (s : TaskSnapshot) (reason : Option String) : TaskTransition :=
  ⟨s.taskId, s.revision, cancellable, .cancelRequested, .cancelRequested reason⟩

/-- What a `cancel` that has returned has done: it has read the task, and it has appended if the
task it read was not terminal and its agent is registered. -/
theorem replays_cancel {id : TaskId}
    (h : Replays (S := contractCore setup) (cancel setup.contract id reason).run l (.pure x)) :
    ∃ (got : Step (contractCore setup)) (r : Except StoreError (Option TaskSnapshot)),
      got ∈ l ∧ got.Did (.store (.get id)) r ∧
      ((l = [got] ∧ (∀ s, r = .ok (some s) → s.state.terminal = false) ∧ ∃ e, x = .error e) ∨
        ∃ s, r = .ok (some s) ∧
          ((s.state.terminal = true ∧ l = [got] ∧ x = .ok (.cancelRequested s)) ∨
            (s.state.terminal = false ∧ ∃ appended ∈ l,
              (∃ e, appended.Did (.store (.append (cancellation s reason))) (.error e) ∧
                x = .error (.store e)) ∨
              ∃ a, appended.Did (.store (.append (cancellation s reason))) (.ok a) ∧
                x = .ok (.cancelRequested a.snapshot)))) := by
  obtain ⟨l', got, r, rfl, hgot, ⟨rfl, hnone, hx⟩ | ⟨s, rfl, h⟩⟩ := replays_read h
  · exact ⟨got, r, by simp, hgot, .inl ⟨rfl, fun s hs => (hnone s hs).elim, hx⟩⟩
  refine ⟨got, .ok (some s), by simp, hgot, ?_⟩
  split at h
  · rename_i hterminal
    obtain ⟨rfl, hx⟩ := replays_done h
    exact .inr ⟨s, rfl, .inl ⟨hterminal, rfl, hx⟩⟩
  rename_i hterminal
  rw [Bool.not_eq_true] at hterminal
  split at h
  · obtain ⟨rfl, hx⟩ := replays_done h
    refine .inl ⟨rfl, ?_, _, hx⟩
    intro s' hs'
    cases hs'
    exact hterminal
  rename_i agent _
  refine .inr ⟨s, rfl, .inr ⟨hterminal, ?_⟩⟩
  obtain ⟨_, entered, appended, r, rfl, _, happended, h⟩ := replays_transition h
  refine ⟨appended, by simp, ?_⟩
  cases r with
  | error e => exact .inl ⟨e, happended, h.2⟩
  | ok a =>
    refine .inr ⟨a, happended, ?_⟩
    -- Whatever the driver answers, the changed snapshot is returned.
    obtain ⟨_, _, _, _, h⟩ := h
    obtain ⟨_, _, _, _, _, h⟩ := op_pure (S := contractCore setup) h
    split at h
    · obtain ⟨_, _, _, _, _, h⟩ := op_pure (S := contractCore setup) h
      exact (replays_done h).2
    · exact (replays_done h).2

theorem cancel_succeeds {p : Pool (contractCore setup)} (hp : p.Reachable) {tid : ℕ} {id : TaskId}
    (hth : p.threads[tid]? = some th) (hcancel : th.entry.cancel? = some id)
    (hsnap : th.prog.result?.bind CoreOutcome.snapshot? = some snap) :
    snap.state.terminal = true ∨ snap.state = .cancelRequested := by
  obtain ⟨r, hr, hsnap⟩ := bind_eq_some_iff.mp hsnap
  obtain ⟨caller, reason, hentry⟩ := CoreEntry.exists_cancel hcancel
  obtain ⟨x, rfl, hx⟩ := replays_dispatched hp hth hentry hr
  rcases replays_dispatch hx with ⟨e, _, _, rfl⟩ | ⟨_, hrun⟩
  · cases hsnap
  obtain ⟨got, _, _, _, ⟨_, _, e, rfl⟩ | ⟨s, _, ⟨ht, _, rfl⟩ | ⟨_, appended, hmem, happended⟩⟩⟩ :=
    replays_cancel hrun
  · cases hsnap
  · cases hsnap
    exact .inl ht
  · rcases happended with ⟨e, _, rfl⟩ | ⟨a, hdid, rfl⟩
    · cases hsnap
    · cases hsnap
      obtain ⟨c, hex⟩ := hdid.executed hp (World.mem_own.mp hmem).1
      obtain ⟨db, hdb, _⟩ := coreExec_store hex
      rcases LogStore.exec_append hdb with ⟨cur, _, ha, _⟩ | ⟨e, _, ha, _⟩ | ⟨e, ha, _⟩
      · cases ha
        exact .inr rfl
      · cases ha
      · cases ha

def CoreState.Unchanged (snap : TaskSnapshot) (log : List CoreEvent) (id : TaskId)
    (s : CoreState LogStore) : Prop :=
  s.db.tasks id = some snap ∧ s.db.events id = log

theorem CoreOp.OnlyCancels.unchanged (ho : o.OnlyCancels)
    (hex : coreExec contractMachine tid s o c = some (s', r)) {id : TaskId}
    (hstate : snap.state ∉ cancellable) (h : s.Unchanged snap log id) :
    s'.Unchanged snap log id := by
  rcases coreExec_db hex with hdb | ⟨n, rfl, _, _⟩ | ⟨t, cur, rfl, hcheck, hdb⟩
  · unfold CoreState.Unchanged
    rw [hdb]
    exact h
  · exact ho.elim
  · obtain ⟨hcur, _, hallowed⟩ := (LogStore.check_eq_ok_iff _ _ _).mp hcheck
    have hid : id ≠ t.taskId := by
      rintro rfl
      rw [h.1] at hcur
      cases hcur
      rw [show t.allowedStates = cancellable from ho] at hallowed
      exact hstate hallowed
    unfold CoreState.Unchanged
    rw [hdb]
    simp only [LogStore.record, LogStore.applied, Function.update_of_ne hid]
    exact h

variable {p₁ p₂ : Pool (contractCore setup)} {as : List (Action (contractCore setup))}
  {t₁ t₂ : ℕ} {th₁ th₂ : Thread (contractCore setup)}
  {id : TaskId} {snap : TaskSnapshot} {caller : Caller} {reason : Option String} {r : CoreOutcome}

/-- While nothing else changes a task that was cancelled with success, a further `cancel` does not
change it either. -/
theorem unchanged_by_cancel (hp : p₁.Reachable) (hrun : p₁.run as = some p₂)
    (hstate : snap.state ∉ cancellable)
    (hstored : p₁.state.db.tasks id = some snap) (hth₂ : p₂.threads[t₂]? = some th₂)
    (hentry : th₂.entry = .dispatch caller (.cancel id reason))
    (hothers : ∀ st ∈ p₁.since p₂, st.tid ≠ t₂ → st.post.db.tasks id = st.pre.db.tasks id ∧
      st.post.db.events id = st.pre.db.events id) :
    p₂.state.Unchanged snap (p₁.state.db.events id) id ∧
      ∀ st ∈ p₁.since p₂, st.pre.Unchanged snap (p₁.state.db.events id) id := by
  have hp₂ : p₂.Reachable := hp.run hrun
  have honly : ∀ st ∈ p₂.own t₂, st.op.OnlyCancels := by
    have hreplays := hp₂.replays hth₂
    rw [hentry] at hreplays
    exact (hreplays.everywhere (everywhere_cancel setup caller id reason)).2
  refine Pool.run_keeps hrun (Pool.run_since hrun) (fun st hst hpre => ?_) ⟨hstored, rfl⟩
  have hmem : st ∈ p₂.trace := by
    rw [Pool.run_since hrun]
    exact List.mem_append_left _ hst
  by_cases htid : st.tid = t₂
  · obtain ⟨c, hex⟩ := hp₂.executed st hmem
    exact (honly st (World.mem_own.mpr ⟨hmem, htid⟩)).unchanged hex hstate hpre
  · obtain ⟨htasks, hevents⟩ := hothers st hst htid
    exact ⟨htasks.trans hpre.1, hevents.trans hpre.2⟩

/-- Repeating a `cancel` that has succeeded, while nothing else changes the task, succeeds again
with the same state and changes nothing exactly if the task has ended, the caller may cancel it and
the storage does not fail: a task that was only asked to stop is refused. -/
theorem repeated_cancel_iff (hp : p₁.Reachable) (hrun : p₁.run as = some p₂)
    (hth₁ : p₁.threads[t₁]? = some th₁) (hcancel : th₁.entry.cancel? = some id)
    (hsnap : th₁.prog.result?.bind CoreOutcome.snapshot? = some snap)
    (hstored : p₁.state.db.tasks id = some snap) (hnew : p₁.threads.length ≤ t₂)
    (hth₂ : p₂.threads[t₂]? = some th₂) (hentry : th₂.entry = .dispatch caller (.cancel id reason))
    (hres : th₂.prog.result? = some r)
    (hothers : ∀ st ∈ p₁.since p₂, st.tid ≠ t₂ → st.post.db.tasks id = st.pre.db.tasks id ∧
      st.post.db.events id = st.pre.db.events id) :
    ((∃ again, r.snapshot? = some again ∧ again.state = snap.state) ∧
        p₂.state.db.tasks id = some snap ∧ p₂.state.db.events id = p₁.state.db.events id) ↔
      snap.state.terminal = true ∧ setup.policy caller (.cancel id reason) = .ok () ∧
        ∀ st ∈ p₂.own t₂, ¬ CoreOp.Fault st.op st.reply := by
  have hp₂ : p₂.Reachable := hp.run hrun
  have hstate : snap.state ∉ cancellable := by
    rcases cancel_succeeds hp hth₁ hcancel hsnap with hterminal | hrequested
    · intro hmem
      cases hs : snap.state <;> simp [hs, TaskState.terminal, cancellable] at hterminal hmem
    · rw [hrequested]
      decide
  obtain ⟨hend, hpre⟩ := unchanged_by_cancel hp hrun hstate hstored hth₂ hentry hothers
  obtain ⟨x, rfl, hx⟩ := replays_dispatched hp₂ hth₂ hentry hres
  rcases replays_dispatch hx with ⟨e, he, _, rfl⟩ | ⟨hallowed, hcalled⟩
  · constructor
    · rintro ⟨⟨again, hagain, _⟩, _⟩
      cases hagain
    · rintro ⟨_, hok, _⟩
      rw [he] at hok
      cases hok
  obtain ⟨got, read, hmem, hgot, hcase⟩ := replays_cancel hcalled
  -- The task the call reads is the one the first call has returned.
  obtain ⟨hgotl, hgotp⟩ := hp.own_of_new hrun hnew hmem
  obtain ⟨c, hex⟩ := hgot.executed hp₂ hgotp
  obtain ⟨db, hdb, _⟩ := coreExec_store hex
  have hread : read = .ok (some snap) ∨ CoreOp.Fault got.op got.reply := by
    rw [hgot]
    rcases (LogStore.exec_get hdb).2 with hr | ⟨e, rfl, he⟩
    · rw [(hpre got hgotl).1] at hr
      exact .inl hr
    · exact .inr he
  rcases hcase with ⟨_, hno, e, rfl⟩ | ⟨s, rfl, hcase⟩
  · constructor
    · rintro ⟨⟨again, hagain, _⟩, _⟩
      cases hagain
    · rintro ⟨hterminal, _, hfault⟩
      rcases hread with rfl | hf
      · exact absurd hterminal (by rw [hno snap rfl]; decide)
      · exact absurd hf (hfault got hmem)
  have hs : s = snap := by
    rcases hread with hs | hf
    · exact Option.some.inj (Except.ok.inj hs)
    · rw [hgot] at hf
      exact hf.elim
  subst hs
  rcases hcase with ⟨hterminal, hown, rfl⟩ | ⟨hrunning, appended, hmem', happended⟩
  · refine ⟨fun _ => ⟨hterminal, hallowed, fun st hst => ?_⟩, fun _ => ⟨⟨s, rfl, rfl⟩, hend⟩⟩
    rw [hown, List.mem_singleton] at hst
    rw [hst, hgot]
    exact not_false
  · -- The task was asked to stop: the second request is not an allowed transition.
    have hrefused : ∀ a, ¬ appended.Did (.store (.append (cancellation s reason))) (.ok a) := by
      intro a hdid
      obtain ⟨hnewl, hnewp⟩ := hp.own_of_new hrun hnew hmem'
      obtain ⟨c, hex⟩ := hdid.executed hp₂ hnewp
      obtain ⟨db, hdb, _⟩ := coreExec_store hex
      have hstored := (hpre appended hnewl).1
      have hid : s.taskId = id := ((extends_of_mem_trace hp₂ hnewp).1.db.log hstored).taskId
      rcases LogStore.exec_append hdb with ⟨cur, hcheck, _⟩ | ⟨e, _, ha, _⟩ | ⟨e, ha, _⟩
      · obtain ⟨hcur, _, hcancellable⟩ := (LogStore.check_eq_ok_iff _ _ _).mp hcheck
        change appended.pre.db.tasks s.taskId = some cur at hcur
        rw [hid, hstored] at hcur
        cases hcur
        exact hstate hcancellable
      · cases ha
      · cases ha
    constructor
    · rintro ⟨⟨again, hagain, _⟩, _⟩
      rcases happended with ⟨e, _, rfl⟩ | ⟨a, hdid, _⟩
      · cases hagain
      · exact absurd hdid (hrefused a)
    · rintro ⟨hterminal, _⟩
      rw [hrunning] at hterminal
      cases hterminal

/-- A call of `cancel` for task 1. -/
def cancelTask : CoreEntry := .dispatch localCaller (.cancel 1 none)

/-- A task that has failed is cancelled twice. -/
theorem repeated_cancel_iff_failed : ∃ p₁ p₂ : Pool (contractCore singleAgentSetup), p₁.Reachable ∧
      p₁.run (.call cancelTask :: steps singleAgentSetup 3 1) = some p₂ ∧
      (p₁.state.db.tasks 1).map TaskSnapshot.state = some .failed ∧
      p₂.state.db.tasks 1 = p₁.state.db.tasks 1 ∧
      p₂.state.db.events 1 = p₁.state.db.events 1 ∧
      ∃ th ∈ p₂.threads[3]?, ∃ r ∈ th.prog.result?, ∃ again, r.snapshot? = some again ∧
        again.state = .failed := by
  obtain ⟨p₁, p₂, hp, hrun, ⟨th₁, hth₁, hcancel, snap, hsnap, hstored, hstate⟩, hnew,
      ⟨th₂, hth₂, hagain, hfinished⟩, honly, hfault⟩ := Pool.exists_reachable_run
    (acceptedTask ++ turns 1 14 ++ .call cancelTask :: turns 2 1)
    (.call cancelTask :: turns 3 1)
    (fun p₁ p₂ => (∃ th ∈ p₁.threads[2]?, th.entry.cancel? = some 1 ∧
        ∃ snap ∈ th.prog.result?.bind CoreOutcome.snapshot?,
          p₁.state.db.tasks 1 = some snap ∧ snap.state = .failed) ∧
      p₁.threads.length ≤ 3 ∧
      (∃ th ∈ p₂.threads[3]?, th.entry.cancel? = some 1 ∧ th.prog.result?.isSome = true) ∧
      (∀ st ∈ p₁.since p₂, st.tid = 3) ∧
      (∀ st ∈ p₂.own 3, ¬ CoreOp.Fault st.op st.reply)) (by decide +kernel)
  obtain ⟨r, hres⟩ := isSome_iff_exists.mp hfinished
  obtain ⟨caller, reason, hentry⟩ := CoreEntry.exists_cancel hagain
  have hrepeated := (repeated_cancel_iff hp hrun hth₁ hcancel hsnap hstored hnew hth₂ hentry hres
    (fun st hst hne => absurd (honly st hst) hne)).mpr ⟨by rw [hstate]; rfl, rfl, hfault⟩
  obtain ⟨⟨again, hr, hsame⟩, htasks, hevents⟩ := hrepeated
  refine ⟨p₁, p₂, hp, hrun, ?_, htasks.trans hstored.symm, hevents, th₂, hth₂, r, hres, again, hr,
    hsame.trans hstate⟩
  rw [hstored, map_some, hstate]

/-- A task that was asked to stop refuses to be asked again, although nothing else has happened. -/
theorem repeated_cancel_fails : ∃ p₁ p₂ : Pool (contractCore singleAgentSetup), p₁.Reachable ∧
      p₁.run (.call cancelTask :: steps singleAgentSetup 3 3) = some p₂ ∧
      (∃ th ∈ p₁.threads[2]?, th.entry.cancel? = some 1 ∧
        th.prog.result?.any CoreOutcome.succeeds = true ∧
        th.prog.result?.bind CoreOutcome.snapshot? = p₁.state.db.tasks 1) ∧
      (∀ st ∈ p₁.since p₂, st.tid = 3 ∧ ¬ CoreOp.Fault st.op st.reply) ∧
      ∃ th ∈ p₂.threads[3]?, th.entry.cancel? = some 1 ∧
        th.prog.result?.any (fun r => !r.succeeds) = true := by
  apply Pool.exists_reachable_run (acceptedTask ++ .call cancelTask :: turns 2 6)
  decide +kernel

end AgentConnector
