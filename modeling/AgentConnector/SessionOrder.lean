import AgentConnector.InvokeSteps
import AgentConnector.ProvidedInput
import AgentConnector.RepeatedCancel

/-!
# Calls that follow one another

The snapshot a command returns is what the store held of the task after one of the steps of the
call. So a command that is dispatched after another has returned never returns an older snapshot of
the task.
-/

namespace AgentConnector

open Concurrent AdapterCore Replays Option

variable {setup : CoreSetup} {l : List (Step (contractCore setup))} {s : TaskSnapshot}
  {id : TaskId}

/-- The store has answered the step with the snapshot. -/
def Tells (st : Step (contractCore setup)) (s : TaskSnapshot) : Prop :=
  (∃ id, st.Did (.store (.get id)) (.ok (some s))) ∨
    (∃ t a, st.Did (.store (.append t)) (.ok a) ∧ a.snapshot = s) ∨
    ∃ key, st.Did (.store (.row key)) (.ok s)

theorem Tells.stored {p : Pool (contractCore setup)} (hp : p.Reachable) {st} (hst : st ∈ p.trace)
    (h : Tells st s) : st.post.db.tasks s.taskId = some s := by
  have hwf := (extends_of_mem_trace hp hst).1.db
  rcases h with ⟨id, hdid⟩ | ⟨t, a, hdid, rfl⟩ | ⟨key, hdid⟩ <;>
    obtain ⟨c, hex⟩ := hdid.executed hp hst <;> obtain ⟨db, hdb, hpost⟩ := coreExec_store hex
  · obtain ⟨rfl, hr | ⟨e, hr, _⟩⟩ := LogStore.exec_get hdb
    · have hs := (Except.ok.inj hr).symm
      rw [hpost, (hwf.log hs).taskId]
      exact hs
    · cases hr
  · rcases LogStore.exec_append hdb with ⟨cur, hcheck, hr, rfl⟩ | ⟨e, _, hr, _⟩ | ⟨e, hr, _⟩
    · cases hr
      have hcur := ((LogStore.check_eq_ok_iff _ _ _).mp hcheck).1
      have hid : (LogStore.applied cur t c.store.now).snapshot.taskId = t.taskId :=
        (hwf.log hcur).taskId
      rw [hpost, hid]
      exact Function.update_self ..
    · cases hr
    · cases hr
  · obtain ⟨rfl, ⟨id, s', _, hs, hr⟩ | ⟨_, e, hr⟩ | ⟨e, hr, _⟩⟩ := LogStore.exec_row hwf hdb
    · cases hr
      rw [hpost, (hwf.log hs).taskId]
      exact hs
    · cases hr
    · cases hr

theorem returns_of_replays {x : α} (h : Replays (S := contractCore setup) p l (.pure x))
    (hp : p.Returns R) : R x :=
  h.preserves (A := fun p => p.Returns R) (C := fun _ => True) (fun st _ _ h => h st.reply)
    (fun _ _ => trivial) hp

/-- After its acceptance an invocation fails or returns the accepted task. -/
theorem tells_of_startTask
    (h : Replays (S := contractCore setup)
      (startTask setup.contract caller request agent id snap).run l (.pure (.ok d))) :
    ∃ st ∈ l, Tells st d.snapshot := by
  obtain ⟨_, _, _, rfl, _, h⟩ := op_pure (S := contractCore setup) h
  obtain ⟨_, _, appended, r, rfl, _, happended, h⟩ := replays_transition h
  cases r with
  | error e => cases h.2
  | ok a =>
    obtain ⟨l', _, rfl, _, h⟩ := h
    refine ⟨appended, by simp, .inr (.inl ⟨_, a, happended, ?_⟩)⟩
    refine returns_of_replays (R := fun r => ∀ d, r = .ok d → a.snapshot = d.snapshot) h ?_ d rfl
    have hreject : ∀ reason answer, (reject setup.contract id reason answer).run.Returns
        (fun r => ∀ d : DispatchResult, r = .ok d → a.snapshot = d.snapshot) := by
      intro reason answer
      refine Prog.returns_bind (Prog.returns_true _) (fun r _ => ?_)
      cases r with
      | error e | ok _ => exact fun d hd => by cases hd
    intro queue
    cases queue with
    | false => exact hreject _ _
    | true =>
    intro caller
    cases caller with
    | false => exact fun _ => hreject _ _
    | true =>
    intro global
    cases global with
    | false => exact fun _ _ => hreject _ _
    | true =>
    intro agent
    cases agent with
    | false => exact fun _ _ _ => hreject _ _
    | true =>
      intro _ _ d hd
      cases hd
      rfl

theorem tells_of_dispatch
    (h : Replays (S := contractCore setup) (dispatch setup.contract caller command).run l
      (.pure (.ok d))) : ∃ st ∈ l, Tells st d.snapshot := by
  rcases replays_dispatch h with ⟨e, _, _, hx⟩ | ⟨_, h⟩
  · cases hx
  cases command with
  | invoke request =>
    rcases replays_invoke h with ⟨_, _, e, hx⟩ | ⟨e, _, _, hx⟩ |
      ⟨agent, n, l₀, l₁, l₂, r, _, _, _, _, _, rfl, _, hcreate, h⟩
    · cases hx
    · cases hx
    obtain ⟨claimed, r', _, hcreated⟩ := replays_create hcreate
    match r, h with
    | .error e, h => cases h.2
    | .ok (.created s), h =>
      obtain ⟨st, hst, htells⟩ := tells_of_startTask h
      exact ⟨st, by simp [hst], htells⟩
    | .ok (.existing s), h =>
      cases h.2
      cases r' with
      | error e => cases hcreated.2
      | ok inserted =>
        obtain ⟨row, r', hrow, rfl, hx⟩ := hcreated
        match r', inserted, hx with
        | .ok s, false, hx =>
          cases hx
          exact ⟨row, by simp, .inr (.inr ⟨_, hrow⟩)⟩
  | cancel id reason =>
    obtain ⟨got, r, hgot, hdid, ⟨_, _, e, hx⟩ | ⟨s, rfl, ⟨_, _, hx⟩ | ⟨_, st, hst, h⟩⟩⟩ :=
      replays_cancel h
    · cases hx
    · cases hx
      exact ⟨got, hgot, .inl ⟨id, hdid⟩⟩
    · rcases h with ⟨e, _, hx⟩ | ⟨a, hdid, hx⟩
      · cases hx
      · cases hx
        exact ⟨st, hst, .inr (.inl ⟨_, a, hdid, rfl⟩)⟩
  | provideInput id input =>
    obtain ⟨got, ⟨_, _, e, hx⟩ | ⟨s, _, _, _, _, ⟨e, _, _, hx⟩ | ⟨_, _, st, r, _, hst, h⟩⟩⟩ :=
      replays_provideInput h
    · cases hx
    · cases hx
    · cases r with
      | error e => cases h.2
      | ok a =>
        obtain ⟨sent, _, rfl, hx⟩ := h
        cases hx
        exact ⟨st, by simp, .inr (.inl ⟨_, a, hst, rfl⟩)⟩
  | getStatus id =>
    obtain ⟨l', got, r, rfl, hgot, ⟨_, _, e, hx⟩ | ⟨s, rfl, h⟩⟩ := replays_read h
    · cases hx
    · cases (replays_done h).2
      exact ⟨got, by simp, .inl ⟨id, hgot⟩⟩

/-- The snapshot that the command of a thread has returned. -/
def returned? (p : Pool (contractCore setup)) (tid : ℕ) : Option TaskSnapshot :=
  p.threads[tid]?.bind fun th => th.prog.result?.bind CoreOutcome.snapshot?

theorem stored_of_returned {p : Pool (contractCore setup)} (hp : p.Reachable) {tid : ℕ}
    (hs : returned? p tid = some s) : ∃ st ∈ p.own tid, st.post.db.tasks s.taskId = some s := by
  obtain ⟨th, hth, hs⟩ := bind_eq_some_iff.mp hs
  obtain ⟨r, hr, hs⟩ := bind_eq_some_iff.mp hs
  cases hentry : th.entry with
  | dispatch caller command =>
    obtain ⟨x, rfl, hx⟩ := replays_dispatched hp hth hentry hr
    cases x with
    | error e => cases hs
    | ok d =>
      cases hs
      obtain ⟨st, hst, htells⟩ := tells_of_dispatch hx
      exact ⟨st, hst, htells.stored hp (World.mem_own.mp hst).1⟩
  | _ =>
    have hreplays := hp.replays hth
    rw [hentry, Prog.eq_pure_of_result? hr] at hreplays
    obtain ⟨x, _, rfl⟩ := map_pure hreplays
    cases hs

end AgentConnector
