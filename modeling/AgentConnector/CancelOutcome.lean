import AgentConnector.CancelProtocol

/-!
# The outcome of a cancelled task

A worker whose driver confirms the cancellation, and whose events are admitted by the store, leaves
a cancelled task, whatever the other threads do. Without admission the outcome may be a failure: a
cancellation that is committed before a progress event makes the append of the event fail, and the
worker turns that error into a failure of the task.
-/

namespace AgentConnector

open Concurrent Protocol

variable {setup : CoreSetup} {worker tid : ℕ}

theorem cancel_given_fault (htid : st.tid = worker) (hg : (cancelProtocol worker setup).given w st)
    :
    ¬ CoreOp.Fault st.op st.reply :=
  (hg.2 htid).fault

theorem driverEvent_applied (hsite : w.state.sites worker = some .driverEvent)
    (hex : coreExec contractMachine worker w.state (.store (.append t)) c = some (s, r))
    (hg : (cancelProtocol worker setup).given w ⟨worker, .store (.append t), r, w.state, s, n⟩) :
    ∃ a, r = .ok a := by
  have hstep := hg.2 rfl
  have hadmitted : (w.state.db.check t).isOk = true := hstep.admitted hsite
  cases hcheck : w.state.db.check t with
  | error e =>
    rw [hcheck] at hadmitted
    cases hadmitted
  | ok cur => exact coreExec_append_ok hcheck hex hstep.fault

variable (id : TaskId)

theorem triple_report_transition (hd : Decides snap allowed next kind)
    (hnext : next.terminal = false) :
    (cancelProtocol worker setup).Triple worker
      (fun w => (HoldsAsWorker w worker id ∧ w.state.Live id) ∧ w.state.Known snap)
      (AdapterCore.transition setup.contract .driverEvent snap allowed next kind >>=
        fun _ => pure ()).run
      (fun r w => ∃ a, r = .ok a ∧ HoldsAsWorker w worker id ∧ w.state.Live id) := by
  have hJ := @carries_worker_live setup worker worker id
  refine triple_try_ok (triple_transition_applied hJ hJ (fun _ _ he => he.rely.2) .driverEvent ?_)
    (fun snap' => ?_)
  · intro w c s r n hi hj hk hsite hex hg
    have hend : next.terminal = true → False := fun h => by
      rw [hnext] at h
      cases h
    obtain ⟨hkeeps, hj'⟩ := hJ.append w _ c s r n (hd.legal hk) hend hi hj hex hg
    exact ⟨hkeeps, hj', driverEvent_applied hsite hex hg⟩
  · exact triple_pure hJ.stable (fun _ _ h => h.1) (fun _ _ h => ⟨(), rfl, h⟩)

theorem triple_cancel_snapshot {J : World (contractCore setup) → Prop} {K : TaskSnapshot → Prop}
    (hJ : Carries setup (cancelProtocol worker setup) worker J (fun _ => False)) {id : TaskId}
    (hstored : ∀ w, J w → ∃ snap, w.state.db.tasks id = some snap ∧ K snap) {β : Type}
    {f : TaskSnapshot → CoreM contractSig β}
    {T : Except CoreError β → World (contractCore setup) → Prop}
    (hf : ∀ snap, K snap → snap.taskId = id → (cancelProtocol worker setup).Triple worker
      (fun w => J w ∧ w.state.Known snap) (f snap).run T) :
    (cancelProtocol worker setup).Triple worker J
      (AdapterCore.snapshot setup.contract id >>= f).run T := by
  refine triple_try_ok (triple_snapshot_stored hJ (fun _ _ => cancel_given_fault)
    (fun w _ => hstored w)) (fun snap => ?_)
  rintro w hi ⟨hj, hk, hid, hknown⟩
  exact hf snap hk hid w hi ⟨hj, hknown⟩

theorem triple_report (hevent : event.reports = true) :
    (cancelProtocol worker setup).Triple worker
      (fun w => HoldsAsWorker w worker id ∧ w.state.Live id)
      (AdapterCore.applyDriverEvent setup.contract id event).run
      (fun r w => ∃ a, r = .ok a ∧ HoldsAsWorker w worker id ∧ w.state.Live id) := by
  have hJ := @carries_worker_live setup worker worker id
  refine triple_cancel_snapshot hJ (fun _ h => h.2) (fun snap hlive _ => ?_)
  cases event with
  | accepted => exact triple_pure hJ.stable (fun _ _ h => h.1) (fun _ _ h => ⟨(), rfl, h⟩)
  | progress message percent =>
    apply triple_report_transition id (decides_progress snap message percent)
    split
    · rfl
    · exact hlive
  | artifact artifact | inputRequired request =>
    exact triple_report_transition id ⟨by decide, fun _ => rfl⟩ rfl
  | completed output | failed error | cancelled => cases hevent

theorem triple_confirm : (cancelProtocol worker setup).Triple worker
      (fun w => HoldsAsWorker w worker id ∧ w.state.Live id)
      (AdapterCore.applyDriverEvent setup.contract id .cancelled).run
      (fun r w => ∃ a, r = .ok a ∧ w.state.Cancelled id) := by
  have hJ := @carries_worker_live setup worker worker id
  have hC := @carries_cancelled setup worker worker id
  refine triple_cancel_snapshot hJ (fun _ h => h.2) (fun snap _ hid => ?_)
  refine triple_try_ok (triple_transition_applied hJ hC (fun _ _ he => he.rely.2) .driverEvent ?_)
    (fun snap' => ?_)
  · intro w c s r n hi _ hk hsite hex hg
    obtain ⟨a, rfl⟩ := driverEvent_applied hsite hex hg
    refine ⟨keeps_cancel hi hex hg (fun _ h => by cases h) ?_, ?_, a, rfl⟩
    · intro t hop _ _
      cases hop
      rfl
    · have happlied := (hk.applied rfl rfl hex).1
      refine ⟨a.snapshot, ?_, happlied.state⟩
      rw [← hid, ← happlied.taskId]
      exact happlied.known.terminal (by rw [happlied.state]; rfl)
  · exact triple_pure hC.stable (fun _ _ h => h.1) (fun _ _ h => ⟨(), rfl, h⟩)

theorem triple_drain_cancelled (hevents : endsInCancelled events = true) :
    (cancelProtocol worker setup).Triple worker
      (fun w => HoldsAsWorker w worker id ∧ w.state.Live id)
      (AdapterCore.drainStream setup.contract id events).run
      (fun r w => w.state.Cancelled id ∧ r = .ok ()) := by
  have hJ := @carries_worker_live setup worker worker id
  have hC := @carries_cancelled setup worker worker id
  induction events with
  | nil => cases hevents
  | cons event rest ih =>
    refine triple_action_then hJ (.driverRecv id) trivial (fun _ => ?_)
    by_cases hlast : event = .cancelled
    · subst hlast
      refine triple_try_ok (triple_confirm id) (fun _ => ?_)
      refine triple_cancel_snapshot hC (fun _ h => h) (fun snap hstate _ => ?_)
      rw [if_pos (by rw [hstate]; rfl)]
      exact triple_pure hC.stable (fun _ _ h => h.1) (fun _ _ h => ⟨h, rfl⟩)
    · obtain ⟨hreports, hrest⟩ := endsInCancelled_cons hlast hevents
      refine triple_try_ok (triple_report id hreports) (fun _ => ?_)
      refine triple_cancel_snapshot hJ (fun _ h => h.2) (fun snap hlive _ => ?_)
      rw [if_neg (by rw [hlive]; decide)]
      exact (ih hrest).conseq (fun _ _ h => h.1) (fun _ _ _ h => h)

theorem triple_runDriver_cancelled (agent : RegisteredAgent) (id : TaskId)
    (request : InvokeRequest) :
    (cancelProtocol worker setup).Triple worker
      (fun w => HoldsAsWorker w worker id ∧ w.state.Live id)
      (AdapterCore.runDriver setup.contract agent id request).run
      (fun r w => w.state.Cancelled id ∧ r = .ok ()) := by
  have hJ := @carries_worker_live setup worker worker id
  have hinvoke : (cancelProtocol worker setup).Triple worker
      (fun w => HoldsAsWorker w worker id ∧ w.state.Live id)
      (perform (.driverInvoke agent.id id request))
      (fun r w => (HoldsAsWorker w worker id ∧ w.state.Live id) ∧
        CoreOp.DriverCancels (.driverInvoke agent.id id request) r) := by
    refine triple_last hJ.stable (fun r => hJ.stable.and fun _ _ _ h => h) ?_
    intro w c s r n hi hw hex _ _ hg
    obtain ⟨hkeeps, hj⟩ := hJ.free w (.driverInvoke agent.id id request) c s r n trivial hi hw
      hex hg
    exact ⟨hkeeps, hj, (hg.2 rfl).driver⟩
  refine triple_try hinvoke (fun e => ?_) (fun events => ?_)
  · rintro w _ ⟨_, events, hmem, _⟩
    cases hmem
  · rintro w hi ⟨hj, events', hmem, hends⟩
    cases hmem
    exact triple_drain_cancelled id hends w hi hj

theorem triple_cancel_worker (args : WorkerArgs) : (cancelProtocol worker setup).Triple worker
      (fun w => HoldsAsWorker w worker args.taskId ∧ w.state.Live args.taskId)
      (AdapterCore.worker setup.contract args)
      (fun _ w => w.state.Cancelled args.taskId) := by
  have hC := @carries_cancelled setup worker worker args.taskId
  have hdrive : (cancelProtocol worker setup).Triple worker
      (fun w => HoldsAsWorker w worker args.taskId ∧ w.state.Live args.taskId)
      (AdapterCore.withTimeout setup.contract
        (AdapterCore.runDriver setup.contract args.agent args.taskId
          args.request).run)
      (Timed (fun r w => w.state.Cancelled args.taskId ∧ r = .ok ()) (fun _ => False)) := by
    intro w hi hw
    exact safe_withTimeout_pending timerNeutral_cancel (fun _ _ _ hg => (hg.2 rfl).timer)
      (triple_runDriver_cancelled args.agent args.taskId args.request w hi hw)
  have hsettle : ∀ outcome, (cancelProtocol worker setup).Triple worker
      (Timed (fun r w => w.state.Cancelled args.taskId ∧ r = .ok ()) (fun _ => False) outcome)
      (AdapterCore.settleWorker setup.contract args outcome)
      (fun _ w => w.state.Cancelled args.taskId) := by
    intro outcome
    match outcome with
    | some (.ok ()) => exact triple_pure hC.stable (fun _ _ h => h.1) (fun _ _ h => h)
    | some (.error error) =>
      rintro w _ ⟨_, hr⟩
      cases hr
    | none => exact fun w _ h => h.elim
  refine triple_bind hdrive (fun outcome => triple_bind (hsettle outcome) (fun _ => ?_))
  exact triple_free hC ⟨trivial, fun _ => ⟨trivial, fun _ => ⟨trivial, fun _ => ⟨trivial,
    fun _ => trivial⟩⟩⟩⟩

variable (caller : Caller)

theorem triple_cancel_startTask (request : InvokeRequest) (agent : RegisteredAgent) (id : TaskId)
    (snap : TaskSnapshot) :
    (cancelProtocol worker setup).Triple tid
      (fun w => (HoldsAsCreator w tid id ∧ w.state.Live id) ∧ w.state.Known snap)
      (AdapterCore.startTask setup.contract caller request agent id snap).run
      (fun _ _ => True) := by
  have hJ := @carries_creator_live setup worker tid id
  have hdecides : Decides snap [.created] .accepted (.accepted false) :=
    ⟨by decide, fun _ => rfl⟩
  apply triple_startTask hJ caller request agent id snap
  · intro f hf
    exact triple_seq hJ (triple_transition hJ .invokeAccept hdecides (fun h => by cases h))
      (fun _ _ _ _ => trivial) hf
  · intro reason answer
    exact (triple_reject (carries_cancel_creator id) rfl reason answer).conseq (fun _ _ h => h.1)
      (fun _ _ _ _ => trivial)
  · intro s
    refine triple_last hJ.stable (fun _ _ _ _ _ => trivial) ?_
    intro w c s r next hi hw hex _ _ hg
    refine ⟨keeps_cancel (c := c) hi hex hg (fun args h => ?_) (fun _ h => by cases h), trivial⟩
    cases h
    exact hw.2

theorem triple_cancel_dispatch (command : CoreCommand) :
    (cancelProtocol worker setup).Triple tid (fun _ => True)
      (AdapterCore.dispatch setup.contract caller command).run
      (fun _ _ => True) := by
  refine triple_dispatch carries_cancel_nothing (fun _ _ _ _ => trivial) carries_creator_live
    (fun _ _ _ _ => trivial) (fun _ _ _ _ _ _ => trivial) ?_ caller
    (fun request agent id snap _ => triple_cancel_startTask caller request agent id snap) command
  intro n w c s r next hi _ hex hg
  refine ⟨keeps_cancel hi hex hg (fun _ h => by cases h) (fun _ h => by cases h), ?_,
    fun _ => trivial⟩
  intro hr
  refine ⟨(triple_claim _ w c s r next hi.custody hex).2 hr, ?_⟩
  obtain ⟨db, hdb, rfl⟩ := coreExec_store hex
  rcases LogStore.exec_claim hdb with ⟨_, _, _, rfl⟩ | ⟨hr', _⟩ | ⟨e, hr', _⟩
  · exact ⟨_, Function.update_self .., rfl⟩
  · rw [hr] at hr'
    cases hr'
  · rw [hr] at hr'
    cases hr'

theorem cancel_sound (worker : ℕ) (setup : CoreSetup) :
    (cancelProtocol worker setup).Sound (fun st => st.tid = worker → CancelStep st) where
  given {p q a st} hr ha hst hc := by
    refine ⟨(custody_sound setup).keeps hr ha (fun _ _ => trivial) hst, hc st ?_⟩
    rw [show q.trace = st :: p.trace from congrArg World.trace hst]
    exact List.mem_cons_self ..
  init :=
    { custody := (custody_sound setup).init
      cancelled := by
        rintro id snap ⟨st, hst, _⟩
        cases hst }
  call {tid e w} he _ _ := by
    cases e with
    | worker args => cases he
    | _ => trivial
  entry {tid e w} hi _ hpre := by
    have hother : ∀ e : CoreEntry, e.worker? = none → (cancelProtocol worker setup).Safe tid
        (fun _ _ => True) ((contractCore setup).program e) w →
        (cancelProtocol worker setup).Safe tid ((cancelProtocol worker setup).post tid e)
          ((contractCore setup).program e) w := by
      intro e he hsafe
      refine hsafe.mono (fun _ _ _ _ _ id hid => ?_)
      rw [he] at hid
      cases hid
    cases e with
    | dispatch caller command =>
      apply hother _ rfl
      exact triple_bind (triple_cancel_dispatch caller command)
        (fun _ => triple_done carries_cancel_nothing (fun _ h => h) _) w hi trivial
    | worker args =>
      by_cases htid : tid = worker
      · subst htid
        refine safe_bind hi ((triple_cancel_worker args w hi hpre).mono (fun _ w' hi' h => ?_))
        refine triple_pure (carries_cancelled args.taskId).stable (fun _ _ h => h) ?_ w' hi' h
        intro _ _ h _ id hid
        cases hid
        exact h
      · have hO := @carries_other_worker setup worker tid htid args.taskId
        have hworker := triple_worker hO timerNeutral_cancel
          ⟨hO.stable, fun _ _ _ _ _ _ h => h.push⟩ args rfl
        refine safe_bind hi ((hworker w hi hpre.1).mono (fun _ w' hi' h => ?_))
        exact triple_pure hO.stable (fun _ _ h => h) (fun _ _ _ h => absurd h htid) w' hi' h
    | subscribe id afterSeq | stream id afterSeq fuels =>
      exact hother _ rfl (triple_reader carries_cancel_nothing rfl w hi trivial)

/-- Consider a worker whose driver reports and then confirms the cancellation, without a fault or a
timeout, and whose driver events are admitted by the store. In every interleaving with any other
threads, its task ends as cancelled and in no other way, and it has ended when the worker has. -/
theorem cancelled_task_ends_cancelled (setup : CoreSetup) {p : Pool (contractCore setup)}
    (hp : p.Reachable) {tid : ℕ} {th : Thread (contractCore setup)} {id : TaskId}
    (hth : p.threads[tid]? = some th) (hentry : th.entry.worker? = some id)
    (hfault : ∀ st ∈ p.own tid, ¬ CoreOp.Fault st.op st.reply)
    (htimer : ∀ st ∈ p.own tid, CoreOp.TimerPending st.op st.reply)
    (hdriver : ∀ st ∈ p.own tid, CoreOp.DriverCancels st.op st.reply)
    (hadmitted : ∀ st ∈ p.own tid, CoreOp.EventAdmitted st.pre (st.pre.sites tid) st.op) :
    (∀ snap, p.state.db.tasks id = some snap → snap.state.terminal = true →
      snap.state = .cancelled) ∧
    (th.finished = true → (p.state.db.tasks id).map TaskSnapshot.state = some .cancelled) := by
  have hcond : ∀ st ∈ p.trace, st.tid = tid → CancelStep st := by
    rintro st hst rfl
    have hown := World.mem_own.mpr ⟨hst, rfl⟩
    exact ⟨hfault st hown, hdriver st hown, htimer st hown, hadmitted st hown⟩
  constructor
  · have hinv := (cancel_sound tid setup).inv hp hcond
    intro snap hsnap hterminal
    refine hinv.cancelled id snap ?_ hsnap hterminal
    obtain ⟨args, hargs, rfl⟩ := CoreEntry.exists_worker hentry
    obtain ⟨st, hst, hfork, hnext⟩ := hp.exists_fork hth (by rw [hargs])
    rw [hargs] at hfork
    exact ⟨st, hst, spawns_of_fork hfork, hnext⟩
  · intro hfinished
    obtain ⟨r, hr⟩ := Option.isSome_iff_exists.mp hfinished
    obtain ⟨snap, hsnap, hstate⟩ := (cancel_sound tid setup).post hp hcond hth hr rfl id hentry
    rw [hsnap, Option.map_some, hstate]

/-- The driver of a worker reports once and then confirms the cancellation. -/
def confirmingDriver (tid : ℕ) : Action (contractCore singleAgentSetup) :=
  .step tid { calm with stream := .ok [.progress "working" none, .cancelled] }

/-- The cancellation comes after the report. -/
theorem cancelled_task_ends_cancelled_after_report :
    ∃ p : Pool (contractCore singleAgentSetup), p.Reachable ∧
      (p.threads[2]?.bind (fun th => th.prog.result?)).any CoreOutcome.succeeds = true ∧
      (p.state.db.tasks 1).map TaskSnapshot.state = some .cancelled := by
  obtain ⟨p, hp, hcancel, hworker, hfault, htimer, hdriver, hadmitted⟩ := Pool.exists_reachable
    (acceptedTask ++ turns 1 1 ++ confirmingDriver 1 :: turns 1 10 ++ cancelCall 2 ++ turns 1 18)
    (fun p => (p.threads[2]?.bind (fun th => th.prog.result?)).any CoreOutcome.succeeds = true ∧
      (∃ th ∈ p.threads[1]?, th.entry.worker? = some 1 ∧ th.finished = true) ∧
      (∀ st ∈ p.own 1, ¬ CoreOp.Fault st.op st.reply) ∧
      (∀ st ∈ p.own 1, CoreOp.TimerPending st.op st.reply) ∧
      (∀ st ∈ p.own 1, CoreOp.DriverCancels st.op st.reply) ∧
      (∀ st ∈ p.own 1, CoreOp.EventAdmitted st.pre (st.pre.sites 1) st.op)) (by decide +kernel)
  obtain ⟨th, hth, hentry, hfinished⟩ := hworker
  exact ⟨p, hp, hcancel, (cancelled_task_ends_cancelled singleAgentSetup hp hth hentry hfault
    htimer hdriver hadmitted).2 hfinished⟩

/-- A cancellation that is committed before the report of the driver turns into a failure. -/
theorem cancelled_task_fails : ∃ p : Pool (contractCore singleAgentSetup), p.Reachable ∧
      (∀ st ∈ p.trace, ¬ CoreOp.Fault st.op st.reply) ∧
      (∀ st ∈ p.own 1, CoreOp.TimerPending st.op st.reply) ∧
      (∀ st ∈ p.own 1, CoreOp.DriverCancels st.op st.reply) ∧
      (p.threads[2]?.bind (fun th => th.prog.result?)).any CoreOutcome.succeeds = true ∧
      (∀ th ∈ p.threads, th.finished = true) ∧
      (p.state.db.tasks 1).map TaskSnapshot.state = some .failed := by
  apply Pool.exists_reachable (acceptedTask ++ turns 1 1 ++ confirmingDriver 1 :: cancelCall 2 ++
    turns 1 16)
  decide +kernel

end AgentConnector
