import AgentConnector.ExitPaths

/-!
# No orphaned tasks

In runs that meet the condition of the exit paths, a task that is not terminal has the call that
created it still running or a worker that is still running. Without the condition it may be
orphaned: a cancellation that is committed between the creation of a task and its acceptance makes
the acceptance fail, and `invoke` returns an error without ending the task.
-/

namespace AgentConnector

open Concurrent Protocol AdapterCore World Option

variable {setup : CoreSetup} {tid : ℕ} {J : World (contractCore setup) → Prop}

theorem triple_exit_transition (hJ : Carries setup (exitProtocol setup) tid J (fun _ => True))
    (hsite : site.exits = true) (hd : Decides snap allowed next kind)
    (hallowed : (site = .invokeAccept → snap.state = .created) → snap.state ∈ allowed) :
    (exitProtocol setup).Triple tid (fun w => J w ∧ w.state.Known snap)
      (transition setup.contract site snap allowed next kind).run
      (fun r w => ∃ snap', r = .ok snap' ∧ J w ∧ Applied w.state snap next snap') := by
  apply triple_transition_applied hJ hJ (fun _ _ he => he.rely.site)
  intro w c s r n hi hj hk hat hex hg
  obtain ⟨hkeeps, hj'⟩ := hJ.append w _ c s r n (hd.legal hk) (fun _ => trivial) hi hj hex hg
  obtain ⟨cur, hcur, hrev, hcreated⟩ := hg.2.timely ⟨site, hat, hsite⟩
  have hsnap : cur = snap ∧ snap.state ∈ allowed := by
    obtain ⟨cur', hcur', hsucc⟩ := hk
    rw [show w.state.db.tasks snap.taskId = some cur from hcur] at hcur'
    cases hcur'
    have hsame := hsucc.same hrev
    subst hsame
    refine ⟨rfl, hallowed (fun h => hcreated ?_)⟩
    rw [← h]
    exact hat
  have hcheck := (hk.check hcur hrev hsnap.2 next kind).2
  exact ⟨hkeeps, hj', coreExec_append_ok hcheck hex hg.2.fault⟩

variable {id : TaskId}

theorem triple_exit_failActive (hJ : Carries setup (exitProtocol setup) tid J (fun _ => True))
    (hstored : ∀ w, (exitProtocol setup).inv w → J w → w.state.Stored id)
    (hsite : site.exits = true) (error : CoreError) :
    (exitProtocol setup).Triple tid J (failActive setup.contract site id error).run
      (fun r w => ∃ a, r = .ok a ∧ J w ∧ w.state.Ended id) := by
  have hended := hJ.stable.and (carries_ended id).stable
  have hread : ∀ w, (exitProtocol setup).inv w → J w →
      ∃ snap, w.state.db.tasks id = some snap ∧ True := by
    intro w hi hw
    obtain ⟨snap, hsnap⟩ := isSome_iff_exists.mp (hstored w hi hw)
    exact ⟨snap, hsnap, trivial⟩
  refine triple_try_ok (triple_snapshot_stored hJ (fun _ _ _ hg => hg.2.fault) hread)
    (fun snap => ?_)
  by_cases ht : snap.state.terminal = true
  · rw [if_pos ht]
    refine triple_pure hended ?_ (fun w _ h => ⟨(), rfl, h⟩)
    rintro w _ ⟨hj, _, hid, hknown⟩
    exact ⟨hj, snap, hid ▸ hknown.terminal ht, ht⟩
  · rw [if_neg ht]
    have hallowed : snap.state ∈ [TaskState.created, .accepted, .running, .waitingForInput,
        .cancelRequested] := by
      revert ht
      cases snap.state <;> decide
    have hfail := triple_exit_transition hJ hsite
      (⟨by decide, fun _ => rfl⟩ : Decides snap [.created, .accepted, .running, .waitingForInput,
        .cancelRequested] .failed (.failed (failure error))) (fun _ => hallowed)
    rintro w hi ⟨hj, _, hid, hknown⟩
    refine triple_try_ok hfail (fun snap' => ?_) w hi ⟨hj, hknown⟩
    refine triple_pure hended ?_ (fun w _ h => ⟨(), rfl, h⟩)
    rintro w _ ⟨hj, happlied⟩
    have ht' : snap'.state.terminal = true := by
      rw [happlied.state]
      rfl
    refine ⟨hj, snap', ?_, ht'⟩
    rw [← hid, ← happlied.taskId]
    exact happlied.known.terminal ht'

/-- What `run_driver` leaves behind: if it succeeds, the task has ended. -/
def Drained (id : TaskId) (r : Except CoreError Unit) (w : World (contractCore setup)) : Prop :=
  w.state.Stored id ∧ (r = .ok () → w.state.Ended id)

variable {w : World (contractCore setup)}

theorem drained_error (h : w.state.Stored id) :
    Drained id (.error e) w := ⟨h, fun hr => by cases hr⟩

theorem stable_drained (id : TaskId) (r : Except CoreError Unit) :
    (exitProtocol setup).Stable tid (Drained id r) :=
  fun _ _ he h => ⟨h.1.extends he.rely.state, fun hr => (h.2 hr).extends he.rely.state⟩

theorem triple_ifEnded (id : TaskId)
    (hx : (exitProtocol setup).Triple tid (fun w => w.state.Stored id) x.run (Drained id)) :
    (exitProtocol setup).Triple tid (fun w => w.state.Stored id)
      (snapshot setup.contract id >>= fun s =>
        if s.state.terminal then pure () else x).run (Drained id) := by
  have hJ := @carries_stored setup tid id
  refine triple_carry hJ (triple_snapshot hJ id) (fun _ _ _ h => drained_error h) (fun snap => ?_)
  by_cases ht : snap.state.terminal = true
  · rw [if_pos ht]
    refine triple_pure (stable_drained id (.ok ())) ?_ (fun _ _ h => h)
    rintro w _ ⟨hstored, hid, hknown⟩
    exact ⟨hstored, fun _ => ⟨snap, hid ▸ hknown.terminal ht, ht⟩⟩
  · rw [if_neg ht]
    exact hx.conseq (fun _ _ h => h.1) (fun _ _ _ h => h)

theorem triple_exit_drainStream (id : TaskId) (events : List DriverEvent) :
    (exitProtocol setup).Triple tid (fun w => w.state.Stored id)
      (drainStream setup.contract id events).run (Drained id) := by
  have hJ := @carries_stored setup tid id
  induction events with
  | nil =>
    refine triple_action_then hJ (.driverRecv id) trivial (fun _ => triple_ifEnded id ?_)
    exact triple_pure hJ.stable (fun _ _ h => h) (fun _ _ h => drained_error h)
  | cons event rest ih =>
    refine triple_action_then hJ (.driverRecv id) trivial (fun _ => ?_)
    refine triple_seq hJ (triple_applyDriverEvent hJ trivial event)
      (fun _ _ _ h => drained_error h) (fun _ => triple_ifEnded id ih)

theorem timerNeutral_exit : TimerNeutral (exitProtocol setup) tid := by
  intro w r next hi hg
  have hex : coreExec contractMachine tid w.state .timer { calm with timer := r } =
      some (w.state, r) := rfl
  have hkeeps := keeps_exit hi hex hg (fun _ h => by cases h)
  refine ⟨hkeeps, hkeeps.inv, .refl _, ?_, ?_, rfl⟩
  · intro st hst
    exact own_push_self w ⟨tid, .timer, r, w.state, w.state, next⟩ ▸ List.mem_cons_of_mem _ hst
  · intro st hst id hc
    rw [own_push_self] at hst
    rcases List.mem_cons.mp hst with rfl | hst
    · exact absurd hc (not_creates hex (fun _ h => by cases h) id)
    · exact hst

theorem triple_exit_worker (args : WorkerArgs) :
    (exitProtocol setup).Triple tid (fun w => w.state.Stored args.taskId)
      (worker setup.contract args)
      (fun _ w => w.state.Ended args.taskId) := by
  have hJ := @carries_stored setup tid args.taskId
  have hrun : (exitProtocol setup).Triple tid (fun w => w.state.Stored args.taskId)
      (runDriver setup.contract args.agent args.taskId
        args.request).run (Drained args.taskId) :=
    triple_seq hJ (triple_free hJ ⟨trivial, fun _ => trivial⟩) (fun _ _ _ h => drained_error h)
      (fun events => triple_exit_drainStream args.taskId events)
  have hfail : ∀ site error, site.exits = true →
      (exitProtocol setup).Triple tid (fun w => w.state.Stored args.taskId)
        ((failActive setup.contract site args.taskId error).run.bind
          (fun _ => .pure ())) (fun _ w => w.state.Ended args.taskId) := by
    intro site error hsite
    refine triple_bind (triple_exit_failActive hJ (fun _ _ h => h) hsite error) (fun _ => ?_)
    refine triple_pure (carries_ended args.taskId).stable ?_ (fun _ _ h => h)
    exact fun _ _ ⟨_, _, _, hended⟩ => hended
  have hdrive : (exitProtocol setup).Triple tid (fun w => w.state.Stored args.taskId)
      (withTimeout setup.contract
        (runDriver setup.contract args.agent args.taskId args.request).run)
      (Timed (Drained args.taskId) (fun w => w.state.Stored args.taskId)) := by
    intro w hi hw
    refine safe_withTimeout timerNeutral_exit ⟨hJ.stable, ?_⟩ ?_ hi hw (hrun w hi hw)
    · intro w st _ hpre hg _ h
      rw [← hpre] at h
      exact h.extends hg.1.grows
    · exact triple_pure hJ.stable (fun _ _ h => h) (fun _ _ h => h)
  have hsettle : ∀ outcome, (exitProtocol setup).Triple tid
      (Timed (Drained args.taskId) (fun w => w.state.Stored args.taskId) outcome)
      (settleWorker setup.contract args outcome)
      (fun _ w => w.state.Ended args.taskId) := by
    intro outcome
    match outcome with
    | some (.ok ()) =>
      exact triple_pure (carries_ended args.taskId).stable (fun _ _ h => h.2 rfl) (fun _ _ h => h)
    | some (.error error) =>
      exact (hfail .workerError error rfl).conseq (fun _ _ h => h.1) (fun _ _ _ h => h)
    | none =>
      exact triple_bind (triple_free hJ (Prog.everywhere_perform trivial))
        (fun _ => hfail .workerTimeout .timeout rfl)
  refine triple_bind hdrive (fun outcome => triple_bind (hsettle outcome) (fun _ => ?_))
  exact triple_free (carries_ended args.taskId) ⟨trivial, fun _ => ⟨trivial, fun _ => ⟨trivial,
    fun _ => ⟨trivial, fun _ => trivial⟩⟩⟩⟩

theorem stable_accounted (r : Except CoreError DispatchResult) :
    (exitProtocol setup).Stable tid (fun w => Accounted w tid r) := by
  intro w w' he h st hst id hc
  rcases h st (he.rely.creates st hst id hc) id hc with hended | ⟨hr, st', hst', hspawns⟩
  · exact .inl (hended.extends he.rely.state)
  · exact .inr ⟨hr, st', he.rely.own st' hst', hspawns⟩

theorem accounted_createdNone (h : CreatedNone tid w) (r : Except CoreError DispatchResult) :
    Accounted w tid r :=
  fun st hst id hc => absurd hc (h st hst id)

theorem keeps_exit_claim (hi : ExitInv w) (hnone : CreatedNone tid w)
    (hex : coreExec contractMachine tid w.state (.store (.claim n)) c = some (s, r))
    (hg : (exitProtocol setup).given w ⟨tid, .store (.claim n), r, w.state, s, next⟩) :
    (exitProtocol setup).Keeps w ⟨tid, .store (.claim n), r, w.state, s, next⟩ ∧
      (r = .ok true → CreatedOnly tid n.taskId
        (w.push ⟨tid, .store (.claim n), r, w.state, s, next⟩)) ∧
      (r ≠ .ok true → CreatedNone tid (w.push ⟨tid, .store (.claim n), r, w.state, s, next⟩)) := by
  refine ⟨keeps_exit hi hex hg (fun _ h => by cases h), ?_⟩
  obtain ⟨db, hdb, rfl⟩ := coreExec_store hex
  have hown := own_push_self w ⟨tid, .store (.claim n), r, w.state, { w.state with db := db }, next⟩
  rcases LogStore.exec_claim hdb with ⟨rfl, _, _, rfl⟩ | ⟨rfl, _, rfl⟩ | ⟨e, rfl, he⟩
  · refine ⟨fun _ => ⟨?_, fun st hst id hc => ?_⟩, fun h => absurd rfl h⟩
    · simp [CoreState.Stored, LogStore.insert]
    · rw [hown] at hst
      rcases List.mem_cons.mp hst with rfl | hst
      · by_contra hid
        obtain ⟨hbefore, hafter⟩ := hc
        simp only [LogStore.insert, Function.update_of_ne hid] at hafter
        rw [hbefore] at hafter
        cases hafter
      · exact absurd hc (hnone st hst id)
  · refine ⟨fun h => (by cases h), fun _ st hst id hc => ?_⟩
    rw [hown] at hst
    rcases List.mem_cons.mp hst with rfl | hst
    · obtain ⟨hbefore, hafter⟩ := hc
      rw [hbefore] at hafter
      cases hafter
    · exact hnone st hst id hc
  · exact absurd he hg.2.fault

variable (caller : Caller)

theorem triple_exit_startTask (request : InvokeRequest) (agent : RegisteredAgent) (id : TaskId)
    (snap : TaskSnapshot) :
    (exitProtocol setup).Triple tid (fun w => CreatedOnly tid id w ∧ w.state.Known snap)
      (startTask setup.contract caller request agent id snap).run
      (fun r w => Accounted w tid r) := by
  have hJ := @carries_createdOnly setup tid id
  apply triple_startTask hJ caller request agent id snap
  · intro f hf
    have hdecides : Decides snap [.created] .accepted (.accepted false) :=
      ⟨by decide, fun _ => rfl⟩
    refine triple_try_ok (triple_exit_transition hJ rfl hdecides ?_) (fun s => ?_)
    · intro h
      rw [h rfl]
      exact List.mem_singleton_self _
    · exact (hf s).conseq (fun _ _ h => h.1) (fun _ _ _ h => h)
  · intro reason answer
    have hfail := triple_exit_failActive hJ (fun _ _ h => h.1)
      (rfl : Site.invokeReject.exits = true)
      (.resourceExhausted reason)
    refine triple_try_ok hfail (fun _ => ?_)
    refine triple_pure (hJ.stable.and (carries_ended id).stable) (fun _ _ h => h)
      (fun w _ h st hst id' hc => ?_)
    rw [h.1.2 st hst id' hc]
    exact .inl h.2
  · intro s
    have hstable : (exitProtocol setup).Stable tid
        (fun w => CreatedOnly tid id w ∧ ∃ st ∈ w.own tid, Spawns st id) := by
      rintro w w' he ⟨hj, st, hst, hspawns⟩
      exact ⟨hJ.stable w w' he hj, st, he.rely.own st hst, hspawns⟩
    refine triple_op (T := fun _ w => CreatedOnly tid id w ∧ ∃ st ∈ w.own tid, Spawns st id)
      hJ.stable ?_ (fun _ => ?_)
    · intro w c s r next hi hw hex _ _ hg
      have hown := own_push_self w ⟨tid, .spawn ⟨agent, id, request, caller.id⟩, r, w.state,
        s, next⟩
      refine ⟨keeps_exit (c := c) hi hex hg (fun args h => by cases h; exact hw.1), ?_, ?_⟩
      · refine ⟨hw.1.extends hg.1.grows, fun st hst id' hc => ?_⟩
        rw [hown] at hst
        rcases List.mem_cons.mp hst with rfl | hst
        · exact absurd hc (not_creates (c := c) hex (fun _ h => by cases h) id')
        · exact hw.2 st hst id' hc
      · exact ⟨_, hown ▸ List.mem_cons_self .., ⟨agent, id, request, caller.id⟩, rfl, rfl⟩
    · refine triple_pure hstable (fun _ _ h => h) (fun w _ h st hst id' hc => ?_)
      rw [h.1.2 st hst id' hc]
      exact .inr ⟨⟨_, rfl⟩, h.2⟩

theorem triple_exit_dispatch (command : CoreCommand) :
    (exitProtocol setup).Triple tid (CreatedNone tid)
      (dispatch setup.contract caller command).run
      (fun r w => Accounted w tid r) :=
  triple_dispatch carries_createdNone (fun r _ _ h => accounted_createdNone h r)
    carries_createdOnly (fun _ _ hg hfault => hg.2.fault hfault) (fun _ _ _ _ h => h.elim)
    (fun _ _ _ _ _ _ hi hw hex hg => keeps_exit_claim hi hw hex hg) caller
    (fun request agent id snap _ => triple_exit_startTask caller request agent id snap) command

theorem exit_sound (setup : CoreSetup) : (exitProtocol setup).Sound ExitStep where
  given {p q a st} hr ha hst hc := by
    refine ⟨(custody_coreStep hr ha hst).1, hc st ?_⟩
    rw [show q.trace = st :: p.trace from congrArg trace hst]
    exact List.mem_cons_self ..
  init :=
    { state := ⟨LogStore.wf_empty, fun h => by simp [Pool.start] at h, fun h => by cases h⟩
      created := fun id h => by cases h }
  call {tid e w} he _ _ := by
    cases e with
    | worker args => cases he
    | _ => trivial
  entry {tid e w} hi hown hpre := by
    have hreader : ∀ e : CoreEntry, e.writes = false → (exitProtocol setup).Safe tid
        (fun _ _ => True) ((contractCore setup).program e) w :=
      fun e he => (triple_reader (carries_exit (fun _ _ _ _ => trivial)
        (fun _ _ _ _ _ _ _ _ _ _ => trivial)) he w hi trivial).mono (fun _ _ _ _ => trivial)
    cases e with
    | dispatch caller command =>
      have hnone : CreatedNone tid w := by
        rw [CreatedNone, hown]
        exact fun st hst => by cases hst
      refine safe_bind hi ((triple_exit_dispatch caller command w hi hnone).mono
        (fun r w' hi' h => ?_))
      exact triple_pure (stable_accounted r) (fun _ _ h => h) (fun _ _ h => ⟨r, rfl, h⟩) w' hi' h
    | worker args =>
      refine safe_bind hi ((triple_exit_worker args w hi hpre).mono (fun _ w' hi' h => ?_))
      exact triple_pure (carries_ended args.taskId).stable (fun _ _ h => h)
        (fun _ _ h => h) w' hi' h
    | subscribe id afterSeq | stream id afterSeq fuels => exact hreader _ rfl

/-- The call with which thread `tid` has created the task. -/
def InvokedBy (p : Pool (contractCore setup)) (tid : ℕ) (e : CoreEntry) (id : TaskId) : Prop :=
  (∃ caller request, e = .dispatch caller (.invoke request)) ∧
    ∃ st ∈ p.trace, st.tid = tid ∧ Creates st id

theorem Creates.invokedBy (hp : p.Reachable) {st : Step (contractCore setup)} (hst : st ∈ p.trace)
    (hc : Creates st id) :
    ∃ th, p.threads[st.tid]? = some th ∧ InvokedBy p st.tid th.entry id := by
  have hlt := (hp.tid_lt st hst).1
  have hth := List.getElem?_eq_getElem hlt
  refine ⟨_, hth, ?_, st, hst, rfl, hc⟩
  have hop := performs_of_own hp hth (mem_own.mpr ⟨hst, rfl⟩)
  obtain ⟨c, hex⟩ := hp.executed st hst
  obtain ⟨n, hclaim⟩ := hc.claim hex
  rw [hclaim] at hop
  obtain ⟨caller, request, hentry, _⟩ := hop
  exact ⟨caller, request, hentry⟩

/-- In every run in which the storage does not fail and the appends on exit paths are timely, a task
that is not terminal has its `invoke` or its worker still running; a worker that has ended and an
`invoke` that has returned an error leave a terminal task. -/
theorem no_orphaned_task (setup : CoreSetup) {p : Pool (contractCore setup)} (hp : p.Reachable)
    (hfault : ∀ st ∈ p.trace, ¬ CoreOp.Fault st.op st.reply)
    (htimely : ∀ st ∈ p.trace, CoreOp.ExitTimely st.pre (st.pre.sites st.tid) st.op) :
    (∀ id snap, p.state.db.tasks id = some snap → snap.state.terminal = false →
      ∃ tid th, p.threads[tid]? = some th ∧ th.finished = false ∧
        (InvokedBy p tid th.entry id ∨ ∃ args, th.entry = .worker args ∧ args.taskId = id)) ∧
    (∀ (tid : ℕ) (th : Thread (contractCore setup)) (args : WorkerArgs),
      p.threads[tid]? = some th → th.entry = .worker args → th.finished = true →
      p.state.Ended args.taskId) ∧
    (∀ (tid : ℕ) (th : Thread (contractCore setup)) (e : CoreError) (id : TaskId),
      p.threads[tid]? = some th → th.prog.result? = some (.dispatched (.error e)) →
      InvokedBy p tid th.entry id → p.state.Ended id) := by
  have hcond : ∀ st ∈ p.trace, ExitStep st := fun st hst => ⟨hfault st hst, htimely st hst⟩
  have hinv := (exit_sound setup).inv hp hcond
  have hworker : ∀ (tid : ℕ) (th : Thread (contractCore setup)) (args : WorkerArgs),
      p.threads[tid]? = some th → th.entry = .worker args → th.finished = true →
      p.state.Ended args.taskId := by
    intro tid th args hth hentry hfinished
    obtain ⟨r, hr⟩ := isSome_iff_exists.mp hfinished
    have hpost := (exit_sound setup).post hp hcond hth hr
    rw [hentry] at hpost
    exact hpost
  have hcall : ∀ (tid : ℕ) (th : Thread (contractCore setup)) (r : CoreOutcome) (id : TaskId),
      p.threads[tid]? = some th → th.prog.result? = some r → InvokedBy p tid th.entry id →
      ∃ result, r = .dispatched result ∧ (p.state.Ended id ∨
        (∃ a, result = .ok a) ∧ ∃ st ∈ p.own tid, Spawns st id) := by
    rintro tid th r id hth hr ⟨⟨caller, request, hentry⟩, st, hst, htid, hc⟩
    have hpost := (exit_sound setup).post hp hcond hth hr
    rw [hentry] at hpost
    obtain ⟨result, hresult, haccounted⟩ := hpost
    exact ⟨result, hresult, haccounted st (mem_own.mpr ⟨hst, htid⟩) id hc⟩
  refine ⟨fun id snap hsnap hlive => ?_, hworker, fun tid th e id hth hr hinvoked => ?_⟩
  · have hnot : ¬ p.state.Ended id := by
      rintro ⟨snap', hsnap', hterminal⟩
      rw [hsnap] at hsnap'
      cases hsnap'
      rw [hlive] at hterminal
      cases hterminal
    obtain ⟨st, hst, hc⟩ := hinv.created id (isSome_iff_exists.mpr ⟨snap, hsnap⟩)
    obtain ⟨th, hth, hinvoked⟩ := hc.invokedBy hp hst
    cases hfinished : th.finished with
    | false => exact ⟨st.tid, th, hth, hfinished, .inl hinvoked⟩
    | true =>
      -- The call has returned, so it has spawned the worker of the task.
      obtain ⟨r, hr⟩ := isSome_iff_exists.mp hfinished
      obtain ⟨_, _, hended | ⟨_, st', hst', args, hspawn, hid⟩⟩ :=
        hcall st.tid th r id hth hr hinvoked
      · exact absurd hended hnot
      · obtain ⟨th', hth', hentry⟩ := hp.forked st' (mem_own.mp hst').1 (.worker args)
          (by rw [hspawn])
        cases hfinished' : th'.finished with
        | false => exact ⟨st'.next, th', hth', hfinished', .inr ⟨args, hentry, hid⟩⟩
        | true => exact absurd (hid ▸ hworker st'.next th' args hth' hentry hfinished') hnot
  · obtain ⟨result, hresult, hended | ⟨⟨a, ha⟩, _⟩⟩ := hcall tid th _ id hth hr hinvoked
    · exact hended
    · rw [ha] at hresult
      cases hresult

theorem no_orphaned_task_after_invoke : ∃ p : Pool (contractCore singleAgentSetup), p.Reachable ∧
      (p.state.db.tasks 1).map TaskSnapshot.state = some .accepted ∧
      ∃ tid th, p.threads[tid]? = some th ∧ th.finished = false ∧
        (InvokedBy p tid th.entry 1 ∨ ∃ args, th.entry = .worker args ∧ args.taskId = 1) := by
  obtain ⟨p, hp, hfault, htimely, hstate⟩ := Pool.exists_reachable acceptedTask
    (fun p => (∀ st ∈ p.trace, ¬ CoreOp.Fault st.op st.reply) ∧
      (∀ st ∈ p.trace, CoreOp.ExitTimely st.pre (st.pre.sites st.tid) st.op) ∧
      (p.state.db.tasks 1).map TaskSnapshot.state = some .accepted) (by decide +kernel)
  obtain ⟨snap, hsnap, haccepted⟩ := map_eq_some_iff.mp hstate
  refine ⟨p, hp, hstate, (no_orphaned_task singleAgentSetup hp hfault htimely).1 1 snap hsnap ?_⟩
  rw [haccepted]
  rfl

/-- A cancellation that comes between the creation of a task and its acceptance leaves a task that
is not terminal, with no call and no worker running. -/
theorem task_orphaned_by_cancel : ∃ p : Pool (contractCore singleAgentSetup), p.Reachable ∧
      (∀ st ∈ p.trace, ¬ CoreOp.Fault st.op st.reply) ∧
      (∀ th ∈ p.threads, th.finished = true) ∧
      (p.state.db.tasks 1).map TaskSnapshot.state = some .cancelRequested := by
  apply Pool.exists_reachable (.call (invokeTask 1) :: turns 0 3 ++ cancelCall 1 ++ turns 0 2)
  decide +kernel

end AgentConnector
