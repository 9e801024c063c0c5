import AgentConnector.CoreTriples
import AgentConnector.EntryOps

/-!
# The methods of the core keep a protocol

One triple for each method that works on an existing task, over any protocol and any assertion the
thread can carry. The methods that may end a task ask for its custody; `cancel` and `provide_input`
do not.
-/

namespace AgentConnector

open Concurrent Protocol AdapterCore

section

variable {setup : CoreSetup} {P : Protocol (contractCore setup)} {tid : ℕ} {α β : Type}
variable {J : World (contractCore setup) → Prop} {H : TaskId → Prop}

variable (hJ : Carries setup P tid J H)

include hJ

theorem triple_read {f : TaskSnapshot → CoreM contractSig β} (id : TaskId)
    (hf : ∀ snap, snap.taskId = id →
      P.Triple tid (fun w => J w ∧ w.state.Known snap) (f snap).run (fun _ => J)) :
    P.Triple tid J (snapshot setup.contract id >>= f).run (fun _ => J) := by
  refine triple_carry hJ (triple_snapshot hJ id) (fun _ _ _ h => h) (fun snap => ?_)
  intro w hi hw
  exact hf snap hw.2.1 w hi ⟨hw.1, hw.2.2⟩

theorem triple_done {R : World (contractCore setup) → Prop}
    (hR : ∀ w, R w → J w) (a : α) : P.Triple tid R (Prog.pure a) (fun _ => J) :=
  triple_pure hJ.stable (fun w _ h => hR w h) (fun _ _ h => h)

theorem triple_transition_unit (site : Site) (hd : Decides snap allowed next kind)
    (hH : next.terminal = true → H snap.taskId) {f : TaskSnapshot → CoreM contractSig β}
    (hf : ∀ s, P.Triple tid J (f s).run (fun _ => J)) :
    P.Triple tid (fun w => J w ∧ w.state.Known snap)
      (transition setup.contract site snap allowed next kind >>= f).run
      (fun _ => J) :=
  triple_seq hJ (triple_transition hJ site hd hH) (fun _ _ _ h => h) hf

variable {id : TaskId}

theorem triple_failActive (site : Site) (hH : H id) (error : CoreError) :
    P.Triple tid J (failActive setup.contract site id error).run (fun _ => J) := by
  refine triple_read hJ id (fun snap hid => ?_)
  split
  · exact triple_done hJ (fun _ h => h.1) _
  · apply triple_transition_unit hJ site
    · exact ⟨by decide, fun _ => rfl⟩
    · exact fun _ => hid ▸ hH
    · exact fun s => triple_done hJ (fun _ h => h) _

omit hJ in
theorem decides_progress (snap : TaskSnapshot) (message : String) (percent : Option UInt8) :
    Decides snap [.accepted, .running] (if snap.state = .accepted then .running else snap.state)
      (.progress message percent) := by
  refine ⟨by decide, fun hs => ?_⟩
  rcases List.mem_cons.mp hs with h | h
  · rw [if_pos h]
    rfl
  · rw [List.mem_singleton] at h
    rw [if_neg (by rw [h]; decide), h]
    rfl

theorem triple_applyDriverEvent (hH : H id) (event : DriverEvent) :
    P.Triple tid J (applyDriverEvent setup.contract id event).run (fun _ => J) := by
  refine triple_read hJ id (fun snap hid => ?_)
  have hend : ∀ {allowed next kind}, Decides snap allowed next kind →
      P.Triple tid (fun w => J w ∧ w.state.Known snap)
        (transition setup.contract .driverEvent snap allowed next kind >>=
          fun _ => pure ()).run (fun _ => J) :=
    fun hd => triple_transition_unit hJ .driverEvent hd (fun _ => hid ▸ hH)
      (fun _ => triple_done hJ (fun _ h => h) _)
  cases event with
  | accepted => exact triple_done hJ (fun _ h => h.1) _
  | progress message percent =>
    apply hend
    exact decides_progress snap message percent
  | artifact artifact | inputRequired request | completed output | cancelled =>
    apply hend
    exact ⟨by decide, fun _ => rfl⟩
  | failed error =>
    exact (triple_failActive hJ .driverEvent hH _).conseq (fun _ _ h => h.1) (fun _ _ _ h => h)

theorem triple_ifTerminal (id : TaskId) (hx : P.Triple tid J x.run (fun _ => J))
    (hy : P.Triple tid J y.run (fun _ => J)) :
    P.Triple tid J (snapshot setup.contract id >>=
      fun s => if s.state.terminal then x else y).run (fun _ => J) := by
  refine triple_read hJ id (fun snap _ => ?_)
  split
  · exact hx.conseq (fun _ _ h => h.1) (fun _ _ _ h => h)
  · exact hy.conseq (fun _ _ h => h.1) (fun _ _ _ h => h)

theorem triple_drainStream (hH : H id) (events : List DriverEvent) :
    P.Triple tid J (drainStream setup.contract id events).run (fun _ => J) := by
  induction events with
  | nil =>
    refine triple_seq hJ (triple_action_free hJ trivial) (fun _ _ _ h => h) (fun _ => ?_)
    exact triple_ifTerminal hJ id (triple_done hJ (fun _ h => h) _)
      (triple_done hJ (fun _ h => h) _)
  | cons event rest ih =>
    refine triple_seq hJ (triple_action_free hJ trivial) (fun _ _ _ h => h) (fun _ => ?_)
    refine triple_seq hJ (triple_applyDriverEvent hJ hH event) (fun _ _ _ h => h) (fun _ => ?_)
    exact triple_ifTerminal hJ id (triple_done hJ (fun _ h => h) _) ih

theorem triple_runDriver (agent : RegisteredAgent) (hH : H id) (request : InvokeRequest) :
    P.Triple tid J (runDriver setup.contract agent id request).run (fun _ => J) :=
  triple_seq hJ (triple_free hJ ⟨trivial, fun _ => trivial⟩) (fun _ _ _ h => h)
    (fun events => triple_drainStream hJ hH events)

theorem triple_settleWorker (args : WorkerArgs) (hH : H args.taskId)
    (outcome : Option (Except CoreError Unit)) :
    P.Triple tid J (settleWorker setup.contract args outcome) (fun _ => J) := by
  have hfail : ∀ site error, P.Triple tid J
      ((failActive setup.contract site args.taskId error).run.bind
        (fun _ => .pure ())) (fun _ => J) :=
    fun site error => triple_bind (triple_failActive hJ site hH error)
      (fun _ => triple_done hJ (fun _ h => h) _)
  match outcome with
  | some (.ok ()) => exact triple_done hJ (fun _ h => h) _
  | some (.error error) => exact hfail .workerError error
  | none =>
    exact triple_bind (triple_free hJ (Prog.everywhere_perform trivial))
      (fun _ => hfail .workerTimeout .timeout)

theorem triple_worker (hN : TimerNeutral P tid)
    (hlast : Lasting P tid J) (args : WorkerArgs) (hH : H args.taskId) :
    P.Triple tid J (worker setup.contract args) (fun _ => J) := by
  have hdrive : P.Triple tid J (withTimeout setup.contract
      (runDriver setup.contract args.agent args.taskId
        args.request).run) (fun _ => J) := by
    intro w hi hw
    have hrun := triple_runDriver hJ args.agent hH args.request w hi hw
    refine (safe_withTimeout hN hlast ?_ hi hw hrun).mono (fun r w' _ h => ?_)
    · exact triple_pure hJ.stable (fun _ _ h => h) (fun _ _ h => h)
    · cases r with
      | some a => exact h
      | none => exact h
  refine triple_bind hdrive (fun outcome => ?_)
  refine triple_bind (triple_settleWorker hJ args hH outcome) (fun _ => ?_)
  exact triple_free hJ ⟨trivial, fun _ => ⟨trivial, fun _ => ⟨trivial, fun _ => ⟨trivial,
    fun _ => trivial⟩⟩⟩⟩

theorem triple_cancel (id : TaskId) (reason : Option String) :
    P.Triple tid J (cancel setup.contract id reason).run (fun _ => J) := by
  refine triple_read hJ id (fun snap _ => ?_)
  split
  · exact triple_done hJ (fun _ h => h.1) _
  · split
    · exact triple_done hJ (fun _ h => h.1) _
    · rename_i agent _
      apply triple_transition_unit hJ .cancel
      · exact ⟨by decide, fun _ => rfl⟩
      · exact fun h => absurd h (by decide)
      · intro changed
        refine triple_seq hJ (triple_action_free hJ trivial) (fun _ _ _ h => h) (fun _ => ?_)
        split
        · exact triple_seq hJ (triple_action_free hJ trivial) (fun _ _ _ h => h)
            (fun _ => triple_done hJ (fun _ h => h) _)
        · exact triple_done hJ (fun _ h => h) _

theorem triple_provideInput (id : TaskId) (input : List Part) :
    P.Triple tid J (provideInput setup.contract id input).run (fun _ => J) := by
  refine triple_read hJ id (fun snap hid => ?_)
  split
  · exact triple_done hJ (fun _ h => h.1) _
  · split
    · exact triple_done hJ (fun _ h => h.1) _
    · split
      · exact triple_done hJ (fun _ h => h.1) _
      · rename_i agent _ _
        refine triple_carry hJ
          ((triple_perform_known hJ snap (.driverProvideInput agent.id id input) trivial).conseq
            (fun _ _ h => h) (fun _ _ _ h => ⟨h.1, fun _ _ => h.2⟩))
          (fun _ _ _ h => h) (fun _ => ?_)
        apply triple_transition_unit hJ .provideInput
        · exact ⟨by decide, fun _ => rfl⟩
        · exact fun h => absurd h (by decide)
        · exact fun changed => triple_done hJ (fun _ h => h) _

theorem triple_reject (hH : H id) (reason answer : String) :
    P.Triple tid J (reject setup.contract id reason answer).run (fun _ => J) :=
  triple_seq hJ (triple_failActive hJ .invokeReject hH _) (fun _ _ _ h => h)
    (fun _ => triple_done hJ (fun _ h => h) _)

/-- What `create_or_get_idempotent` returns: `J` holds until the task is created, `C` from then on;
an error after the creation is a fault of the storage. -/
def CreateOutcome (J C : World (contractCore setup) → Prop) (F : Prop) (id : TaskId) :
    Except CoreError CreateTaskResult → World (contractCore setup) → Prop
  | .ok (.created s), w => C w ∧ Read id w s
  | .ok (.existing _), w => J w
  | .error _, w => J w ∨ (F ∧ C w)

theorem triple_row_created {F : Prop}
    (hF : ∀ w st, P.given w st → CoreOp.Fault st.op st.reply → F) (key : IdempotencyKey)
    (id : TaskId) :
    P.Triple tid (fun w => J w ∧ w.state.db.keys key = some id)
      (fromStore (contractRow key true)).run
      (fun r w => J w ∧ ((∃ s, r = .ok (.created s) ∧ Read id w s) ∨ F ∧ ∃ e, r = .error e)) := by
  have hstable : P.Stable tid (fun w => J w ∧ w.state.db.keys key = some id) :=
    hJ.stable.and fun w w' he h => (hJ.grows w w' he).db.keys h
  have hrow : contractRow key true =
      .op (σ := contractSig) (.row key) (fun r => .pure (r.map .created)) := by
    refine congrArg (Prog.op _) (funext fun r => ?_)
    cases r with
    | error e | ok s => rfl
  refine triple_call hrow hstable ?_ ?_
  · rintro r w w' he ⟨hj, ⟨s, hs, hread⟩ | h⟩
    · exact ⟨hJ.stable w w' he hj, .inl ⟨s, hs, hJ.stable_read id s w w' he hread⟩⟩
    · exact ⟨hJ.stable w w' he hj, .inr h⟩
  · intro w c s r next hi hw hex _ _ hg
    obtain ⟨hkeeps, hj⟩ := hJ.free w (.store (.row key)) c s r next trivial hi hw.1 hex hg
    refine ⟨hkeeps, hj, ?_⟩
    obtain ⟨db, hdb, rfl⟩ := coreExec_store hex
    have hwf := hJ.wf w hi
    obtain ⟨rfl, ⟨id', snap, hk, hs, rfl⟩ | ⟨hk, _⟩ | ⟨e, rfl, he⟩⟩ := LogStore.exec_row hwf.db hdb
    · rw [hw.2] at hk
      cases hk
      exact .inl ⟨snap, rfl, hwf.known hs⟩
    · rw [hw.2] at hk
      cases hk
    · exact .inr ⟨hF w _ hg he, _, rfl⟩

theorem triple_row_existing (key : IdempotencyKey) :
    P.Triple tid J (fromStore (contractRow key false)).run
      (fun r w => J w ∧ ∀ s, r ≠ .ok (.created s)) := by
  refine triple_op (T := fun _ => J) hJ.stable ?_ (fun r => ?_)
  · intro w c s r next hi hw hex _ _ hg
    exact hJ.free w (.store (.row key)) c s r next trivial hi hw hex hg
  · cases r with
    | error e | ok snap =>
      exact triple_pure hJ.stable (fun _ _ h => h) (fun _ _ h => ⟨h, fun s hs => by cases hs⟩)

theorem triple_create {C : World (contractCore setup) → Prop} {H' : TaskId → Prop} {F : Prop}
    (hC : Carries setup P tid C H')
    (hF : ∀ w st, P.given w st → CoreOp.Fault st.op st.reply → F) (n : NewTask)
    (hclaim : ∀ w c s r next, P.inv w → J w →
      coreExec contractMachine tid w.state (.store (.claim n)) c = some (s, r) →
      P.given w ⟨tid, .store (.claim n), r, w.state, s, next⟩ →
      P.Keeps w ⟨tid, .store (.claim n), r, w.state, s, next⟩ ∧
        (r = .ok true → C (w.push ⟨tid, .store (.claim n), r, w.state, s, next⟩)) ∧
        (r ≠ .ok true → J (w.push ⟨tid, .store (.claim n), r, w.state, s, next⟩))) :
    P.Triple tid J (fromStore (setup.contract.store.createOrGetIdempotent n)).run
      (CreateOutcome J C F n.taskId) := by
  refine triple_op (T := fun r w => (r = .ok true → C w ∧ w.state.db.keys n.key = some n.taskId) ∧
    (r ≠ .ok true → J w)) hJ.stable ?_ (fun r => ?_)
  · intro w c s r next hi hw hex _ _ hg
    obtain ⟨hkeeps, hcreated, hother⟩ := hclaim w c s r next hi hw hex hg
    refine ⟨hkeeps, fun hr => ⟨hcreated hr, ?_⟩, hother⟩
    obtain ⟨db, hdb, rfl⟩ := coreExec_store hex
    rcases LogStore.exec_claim hdb with ⟨_, _, _, rfl⟩ | ⟨hr', _⟩ | ⟨e, hr', _⟩
    · exact Function.update_self ..
    · rw [hr] at hr'
      cases hr'
    · rw [hr] at hr'
      cases hr'
  · cases r with
    | error e =>
      exact triple_pure hJ.stable (fun _ _ h => h.2 (fun hr => by cases hr)) (fun _ _ h => .inl h)
    | ok inserted =>
      cases inserted with
      | true =>
        refine (triple_row_created hC hF n.key n.taskId).conseq (fun w _ h => h.1 rfl) ?_
        rintro r w _ ⟨hc, ⟨s, rfl, hread⟩ | ⟨hf, e, rfl⟩⟩
        · exact ⟨hc, hread⟩
        · exact .inr ⟨hf, hc⟩
      | false =>
        refine (triple_row_existing hJ n.key).conseq (fun w _ h => h.2 (fun hr => by cases hr)) ?_
        rintro r w _ ⟨hj, h⟩
        match r with
        | .ok (.created s) => exact absurd rfl (h s)
        | .ok (.existing s) => exact hj
        | .error e => exact .inl hj

/-- The start of a created task, given what its acceptance, a rejection and the spawn of the worker
lead to. -/
theorem triple_startTask {T : Except CoreError DispatchResult → World (contractCore setup) → Prop}
    (caller : Caller)
    (request : InvokeRequest) (agent : RegisteredAgent) (id : TaskId) (snap : TaskSnapshot)
    (haccept : ∀ f : TaskSnapshot → CoreM contractSig DispatchResult,
      (∀ s, P.Triple tid J (f s).run T) →
      P.Triple tid (fun w => J w ∧ w.state.Known snap)
        (transition setup.contract .invokeAccept snap [.created] .accepted
          (.accepted false) >>= f).run T)
    (hreject : ∀ reason answer, P.Triple tid J
      (reject setup.contract id reason answer).run T)
    (hspawn : ∀ s, P.Triple tid J (action (.spawn ⟨agent, id, request, caller.id⟩) >>= fun _ =>
        (pure (.created s) : CoreM contractSig DispatchResult)).run T) :
    P.Triple tid (fun w => J w ∧ w.state.Known snap)
      (startTask setup.contract caller request agent id snap).run T := by
  have hrelease : ∀ (sem : Semaphore) (x : CoreM contractSig DispatchResult),
      P.Triple tid J x.run T → P.Triple tid J (action (.release sem) >>= fun _ => x).run T :=
    fun sem x hx => triple_action_then hJ (.release sem) trivial (fun _ => hx)
  refine triple_known_then hJ (.activeInsert id) trivial (fun _ => ?_)
  refine haccept _ (fun accepted => ?_)
  refine triple_action_then hJ (.tryAcquire (.queue agent.id)) trivial (fun queue => ?_)
  split
  · exact hreject _ _
  refine triple_action_then hJ (.tryAcquire (.caller caller.id)) trivial (fun callerPermit => ?_)
  split
  · exact hrelease _ _ (hreject _ _)
  refine triple_action_then hJ (.tryAcquire .global) trivial (fun global => ?_)
  split
  · exact hrelease _ _ (hrelease _ _ (hreject _ _))
  refine triple_action_then hJ (.tryAcquire (.agent agent.id)) trivial (fun perAgent => ?_)
  split
  · exact hrelease _ _ (hrelease _ _ (hrelease _ _ (hreject _ _)))
  exact hrelease _ _ (hspawn accepted)

theorem triple_invoke {T : Except CoreError DispatchResult → World (contractCore setup) → Prop}
    (caller : Caller) (request : InvokeRequest)
    (herror : ∀ e w, P.inv w → J w → T (.error e) w)
    (hcreate : ∀ agent id deadlineAt, P.Triple tid J
      (fromStore (setup.contract.store.createOrGetIdempotent
        ⟨id, request.sessionId, agent.id, caller.id, request.idempotencyKey, deadlineAt⟩) >>=
        fun initial => match initial with
          | .existing s => pure (.existing s)
          | .created s => startTask setup.contract caller request agent id s).run T) :
    P.Triple tid J (invoke setup.contract caller request).run T := by
  unfold invoke
  split
  · exact triple_pure hJ.stable (fun _ _ h => h) (herror _)
  · refine triple_seq hJ (triple_done hJ (fun _ h => h) _) herror (fun agent => ?_)
    refine triple_seq hJ ?_ herror (fun id => ?_)
    · unfold chooseTaskId
      split
      · exact triple_done hJ (fun _ h => h) _
      · exact triple_action_free hJ trivial
    · refine triple_seq hJ ?_ herror (fun deadlineAt => hcreate agent id deadlineAt)
      unfold chooseDeadline
      split
      · exact triple_action_then hJ .utcNow trivial (fun _ => triple_done hJ (fun _ h => h) _)
      · exact triple_done hJ (fun _ h => h) _

/-- A call, given what the creation of a task and the start of a created task lead to. -/
theorem triple_dispatch {T : Except CoreError DispatchResult → World (contractCore setup) → Prop}
    (hT : ∀ r w, P.inv w → J w → T r w) {C : TaskId → World (contractCore setup) → Prop}
    {H' : TaskId → TaskId → Prop} (hC : ∀ id, Carries setup P tid (C id) (H' id)) {F : Prop}
    (hF : ∀ w st, P.given w st → CoreOp.Fault st.op st.reply → F)
    (hfault : ∀ e id w, P.inv w → F → C id w → T (.error e) w)
    (hclaim : ∀ n w c s r next, P.inv w → J w →
      coreExec contractMachine tid w.state (.store (.claim n)) c = some (s, r) →
      P.given w ⟨tid, .store (.claim n), r, w.state, s, next⟩ →
      P.Keeps w ⟨tid, .store (.claim n), r, w.state, s, next⟩ ∧
        (r = .ok true → C n.taskId (w.push ⟨tid, .store (.claim n), r, w.state, s, next⟩)) ∧
        (r ≠ .ok true → J (w.push ⟨tid, .store (.claim n), r, w.state, s, next⟩)))
    (caller : Caller)
    (hstart : ∀ request agent id snap, snap.taskId = id →
      P.Triple tid (fun w => C id w ∧ w.state.Known snap)
        (startTask setup.contract caller request agent id snap).run T)
    (command : CoreCommand) : P.Triple tid J (dispatch setup.contract caller command).run T := by
  have hother : ∀ x : CoreM contractSig DispatchResult, P.Triple tid J x.run (fun _ => J) →
      P.Triple tid J x.run T :=
    fun x hx => hx.conseq (fun _ _ h => h) hT
  refine triple_seq hJ (triple_done hJ (fun _ h => h) _) (fun e => hT (.error e)) (fun _ => ?_)
  cases command with
  | cancel id reason => exact hother _ (triple_cancel hJ id reason)
  | provideInput id input => exact hother _ (triple_provideInput hJ id input)
  | getStatus id =>
    exact hother _ (triple_read hJ id (fun _ _ => triple_done hJ (fun _ h => h.1) _))
  | invoke request =>
    refine triple_invoke hJ caller request (fun e => hT (.error e)) (fun agent id _ => ?_)
    refine triple_try (triple_create hJ (hC id) hF _ (hclaim _)) (fun e => ?_) (fun initial => ?_)
    · rintro w _ (h | ⟨hf, h⟩) w' he
      · exact hT (.error e) w' he.inv (hJ.stable w w' he h)
      · exact hfault e id w' he.inv hf ((hC id).stable w w' he h)
    · cases initial with
      | existing s => exact hother _ (triple_done hJ (fun _ h => h) _)
      | created s => exact fun w hi h => hstart request agent id s h.2.1 w hi ⟨h.1, h.2.2⟩

end

theorem triple_reader {J : World (contractCore setup) → Prop} {H : TaskId → Prop}
    (hJ : Carries setup P tid J H) (he : e.writes = false) :
    P.Triple tid J ((contractCore setup).program e) (fun _ => J) := by
  refine triple_free hJ (Prog.everywhere_mono (fun o ho => ?_)
    (contract_performs setup e))
  cases o with
  | store o =>
    cases o with
    | claim n =>
      obtain ⟨caller, request, rfl, _⟩ := ho
      cases he
    | append t => exact absurd (he.symm.trans ho) (by decide)
    | _ => trivial
  | activeSend id event => exact absurd (he.symm.trans ho) (by decide)
  | spawn args =>
    obtain ⟨caller, request, rfl, _⟩ := ho
    cases he
  | _ => trivial

end AgentConnector
