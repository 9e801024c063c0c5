import AgentConnector.MethodTriples

/-!
# Calls that succeed

In runs in which the storage does not fail, a stored task can be read, and a transition whose append
passes the checks of the store is applied: the caller gets the snapshot it has produced, and the
task is that snapshot or has moved on from it.
-/

namespace AgentConnector

open Concurrent Protocol

/-- What a caller knows of the snapshot its transition from `snap` has returned. -/
structure Applied (s : CoreState LogStore) (snap : TaskSnapshot) (next : TaskState)
    (snap' : TaskSnapshot) : Prop where
  taskId : snap'.taskId = snap.taskId
  state : snap'.state = next
  known : s.Known snap'

variable {s : CoreState LogStore} {snap : TaskSnapshot}

variable {s' : CoreState LogStore}

theorem Applied.extends (h : Applied s snap next snap') (hext : s.Extends s') :
    Applied s' snap next snap' :=
  ⟨h.taskId, h.state, h.known.extends hext⟩

theorem CoreState.Known.terminal (h : s.Known snap) (ht : snap.state.terminal = true) :
    s.db.tasks snap.taskId = some snap := by
  obtain ⟨cur, hcur, hsucc⟩ := h
  rw [hcur, hsucc.terminal ht]

theorem CoreState.Known.applied (h : s.Known snap) (hid : t.taskId = snap.taskId)
    (hrev : t.expectedRevision = snap.revision)
    (hex : coreExec contractMachine tid s (.store (.append t)) c = some (s', .ok a)) :
    Applied s' snap t.nextState a.snapshot ∧ a.event ∈ s'.db.events snap.taskId := by
  obtain ⟨db, hdb, rfl⟩ := coreExec_store hex
  rcases LogStore.exec_append hdb with ⟨cur, hc, hr, rfl⟩ | ⟨e, _, hr, _⟩ | ⟨e, hr, _⟩
  · cases hr
    obtain ⟨rfl, _⟩ := h.of_check hid hrev hc
    refine ⟨⟨rfl, rfl, _, ?_, .refl _⟩, ?_⟩
    · change Function.update s.db.tasks t.taskId _ cur.taskId = _
      rw [hid, Function.update_self]
    · rw [← hid]
      exact LogStore.mem_events_record ..
  · cases hr
  · cases hr

theorem CoreState.Known.check (h : s.Known snap) (hcur : s.db.tasks snap.taskId = some cur)
    (hrev : cur.revision = snap.revision) (hallowed : snap.state ∈ allowed) (next : TaskState)
    (kind : CoreEventKind) :
    cur = snap ∧ s.db.check ⟨snap.taskId, snap.revision, allowed, next, kind⟩ = .ok snap := by
  obtain ⟨cur', hcur', hsucc⟩ := h
  rw [hcur] at hcur'
  cases hcur'
  have hsame := hsucc.same hrev
  subst hsame
  exact ⟨rfl, (LogStore.check_eq_ok_iff ..).mpr ⟨hcur, rfl, hallowed⟩⟩

theorem coreExec_append_ok (hcheck : s.db.check t = .ok cur)
    (hex : coreExec contractMachine tid s (.store (.append t)) c = some (s', r))
    (hfault : ¬ CoreOp.Fault (.store (.append t)) r) : ∃ a, r = .ok a := by
  obtain ⟨db, hdb, rfl⟩ := coreExec_store hex
  rcases LogStore.exec_append hdb with ⟨_, _, hr, _⟩ | ⟨e, hc, _⟩ | ⟨e, rfl, he⟩
  · exact ⟨_, hr⟩
  · rw [hcheck] at hc
    cases hc
  · exact absurd he hfault

section

variable {setup : CoreSetup} {P : Protocol (contractCore setup)} {tid : ℕ}
variable {J J' : World (contractCore setup) → Prop} {H H' : TaskId → Prop}

/-- Without faults, a stored task can be read; `K` is what the thread knows of the stored task. -/
theorem triple_snapshot_stored {K : TaskSnapshot → Prop} (hJ : Carries setup P tid J H)
    (hfault : ∀ w st, st.tid = tid → P.given w st → ¬ CoreOp.Fault st.op st.reply) {id : TaskId}
    (hstored : ∀ w, P.inv w → J w → ∃ snap, w.state.db.tasks id = some snap ∧ K snap) :
    P.Triple tid J (AdapterCore.snapshot setup.contract id).run
      (fun r w => ∃ snap, r = .ok snap ∧ J w ∧ K snap ∧ Read id w snap) := by
  have hstable := fun snap => hJ.stable.and (hJ.stable_read id snap)
  have hcall : P.Triple tid J (fromStore (setup.contract.store.getSnapshot id)).run
      (fun r w => ∃ x, r = .ok x ∧ ∃ snap, x = some snap ∧ J w ∧ K snap ∧ Read id w snap) := by
    apply triple_call rfl hJ.stable
    · rintro r w w' he ⟨_, hr, snap, rfl, hj, hk, hread⟩
      obtain ⟨hj', hread'⟩ := hstable snap w w' he ⟨hj, hread⟩
      exact ⟨_, hr, snap, rfl, hj', hk, hread'⟩
    · intro w c s r next hi hw hex _ _ hg
      obtain ⟨hkeeps, hj⟩ := hJ.free w _ c s r next trivial hi hw hex hg
      obtain ⟨snap, hsnap, hk⟩ := hstored w hi hw
      obtain ⟨db, hdb, rfl⟩ := coreExec_store hex
      obtain ⟨rfl, rfl | ⟨e, rfl, he⟩⟩ := LogStore.exec_get hdb
      · exact ⟨hkeeps, _, rfl, snap, hsnap, hj, hk, (hJ.wf w hi).known hsnap⟩
      · exact absurd he (hfault w _ rfl hg)
  refine triple_try_ok hcall (fun x => ?_)
  rintro w hi ⟨snap, rfl, hj, hk, hread⟩
  exact triple_pure (hstable snap) (fun _ _ h => h) (fun _ _ h => ⟨snap, rfl, h.1, hk, h.2⟩) w hi
    ⟨hj, hread⟩

theorem triple_transition_applied (hJ : Carries setup P tid J H) (hJ' : Carries setup P tid J' H')
    (hsites : ∀ w w', P.Env tid w w' → w'.state.sites tid = w.state.sites tid) (site : Site)
    (happend : ∀ w c s r n, P.inv w → J w → w.state.Known snap → w.state.sites tid = some site →
      coreExec contractMachine tid w.state
      (.store (.append ⟨snap.taskId, snap.revision, allowed, next, kind⟩)) c = some (s, r) →
      P.given w ⟨tid, .store (.append ⟨snap.taskId, snap.revision, allowed, next, kind⟩), r,
      w.state, s, n⟩ → P.Keeps w ⟨tid,
      .store (.append ⟨snap.taskId, snap.revision, allowed, next, kind⟩), r, w.state, s, n⟩ ∧
      J' (w.push ⟨tid, .store (.append ⟨snap.taskId, snap.revision, allowed, next, kind⟩), r,
      w.state, s, n⟩) ∧ ∃ a, r = .ok a) :
    P.Triple tid (fun w => J w ∧ w.state.Known snap)
      (AdapterCore.transition setup.contract site snap allowed next kind).run
      (fun r w => ∃ snap', r = .ok snap' ∧ J' w ∧ Applied w.state snap next snap') := by
  have hstable : P.Stable tid (fun w => (J w ∧ w.state.Known snap) ∧
      w.state.sites tid = some site) :=
    fun w w' he h => ⟨hJ.known snap w w' he h.1, (hsites w w' he).trans h.2⟩
  have henter : P.Triple tid (fun w => J w ∧ w.state.Known snap) (perform (.enter site))
      (fun _ w => (J w ∧ w.state.Known snap) ∧ w.state.sites tid = some site) := by
    refine triple_last (hJ.known snap) (fun _ => hstable) ?_
    intro w c s r n hi hw hex _ _ hg
    obtain ⟨hkeeps, hj⟩ := hJ.free w (.enter site) c s r n trivial hi hw.1 hex hg
    cases hex
    exact ⟨hkeeps, ⟨hj, hw.2⟩, Function.update_self ..⟩
  -- What is known after the append: the event to send and the snapshot to return.
  have hafter : ∀ a : AppliedTransition, P.Stable tid (fun w => J' w ∧
      Applied w.state snap next a.snapshot ∧ a.event ∈ w.state.db.events snap.taskId) := by
    rintro a w w' he ⟨hj, happlied, hevent⟩
    have hext := hJ'.grows w w' he
    exact ⟨hJ'.stable w w' he hj, happlied.extends hext, (hext.db.events _).subset hevent⟩
  have hcall : P.Triple tid (fun w => (J w ∧ w.state.Known snap) ∧ w.state.sites tid = some site)
      (fromStore (setup.contract.store.appendEventAndTransition
        ⟨snap.taskId, snap.revision, allowed, next, kind⟩)).run
      (fun r w => ∃ a, r = .ok a ∧ J' w ∧ Applied w.state snap next a.snapshot ∧
        a.event ∈ w.state.db.events snap.taskId) := by
    apply triple_call (o := .append ⟨snap.taskId, snap.revision, allowed, next, kind⟩) rfl hstable
    · rintro r w w' he ⟨a, hr, ha⟩
      exact ⟨a, hr, hafter a w w' he ha⟩
    · intro w c s r n hi hw hex _ _ hg
      obtain ⟨hkeeps, hj, a, rfl⟩ := happend w c s r n hi hw.1.1 hw.1.2 hw.2 hex hg
      exact ⟨hkeeps, a, rfl, hj, hw.1.2.applied rfl rfl hex⟩
  refine triple_bind (p := perform (.enter site)) henter (fun _ => ?_)
  refine triple_try_ok hcall (fun a => ?_)
  have hreturn : P.Stable tid (fun w => J' w ∧ Applied w.state snap next a.snapshot) :=
    fun w w' he h => ⟨hJ'.stable w w' he h.1, h.2.extends (hJ'.grows w w' he)⟩
  have hsend : P.Triple tid (fun w => J' w ∧ Applied w.state snap next a.snapshot ∧
        a.event ∈ w.state.db.events snap.taskId)
      (perform (.activeSend snap.taskId a.event))
      (fun _ w => J' w ∧ Applied w.state snap next a.snapshot) := by
    refine triple_last (hafter a) (fun _ => hreturn) ?_
    intro w c s r n hi hw hex _ _ hg
    obtain ⟨hkeeps, hj⟩ := hJ'.send w _ _ c s r n hw.2.2 hi hw.1 hex hg
    refine ⟨hkeeps, hj, hw.2.1.extends ?_⟩
    cases hex
    exact w.state.extends_send snap.taskId a.event
  exact triple_bind (p := perform (.activeSend snap.taskId a.event)) hsend
    (fun _ => triple_pure hreturn (fun _ _ h => h) (fun _ _ h => ⟨_, rfl, h⟩))

end

end AgentConnector
