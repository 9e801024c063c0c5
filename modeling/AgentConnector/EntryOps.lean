import AgentConnector.CoreService

/-!
# Which operations each entry point can perform

`CoreEntry.Performs` lists, for every operation, the entry points whose program can issue it: only
`invoke` inserts active tasks and spawns workers, only the worker of a task starts its driver and
removes it, only `provideInput` hands it an input, only streams emit. What the methods of the store
may do is left to a parameter.
-/

namespace AgentConnector

open Concurrent AdapterCore ReliableTaskStream CoreEntry

variable {τ : Signature}

def CoreEntry.writes : CoreEntry → Bool
  | .dispatch _ _ => true
  | .worker _ => true
  | _ => false

def CoreEntry.Appends (e : CoreEntry) (t : TaskTransition) : Prop :=
  match e with
  | .worker _ => True
  | .dispatch _ (.invoke _) =>
    (t.allowedStates = [.created] ∧ t.nextState = .accepted) ∨ t.nextState = .failed
  | .dispatch _ (.cancel _ _) =>
    t.allowedStates = [.created, .accepted, .running, .waitingForInput] ∧
      t.nextState = .cancelRequested
  | .dispatch _ (.provideInput _ _) =>
    t.allowedStates = [.waitingForInput] ∧ t.nextState = .running
  | _ => False

def CoreEntry.Performs (allows : CoreEntry → τ.Op → Prop) (e : CoreEntry) : CoreOp τ → Prop
  | .store o => allows e o
  | .activeInsert _ => ∃ caller request, e = .dispatch caller (.invoke request)
  | .activeSend _ _ => e.writes = true
  | .spawn args => ∃ caller request, e = .dispatch caller (.invoke request) ∧
      args.caller = caller.id ∧ args.request = request
  | .activeRemove id => ∃ args, e = .worker args ∧ args.taskId = id
  | .driverInvoke _ id _ => ∃ args, e = .worker args ∧ args.taskId = id
  | .driverRecv id => ∃ args, e = .worker args ∧ args.taskId = id
  | .activeSubscribe id => (∃ afterSeq, e = .subscribe id afterSeq) ∨
      ∃ afterSeq fuels, e = .stream id afterSeq fuels
  | .closedReceiver id => (∃ afterSeq, e = .subscribe id afterSeq) ∨
      ∃ afterSeq fuels, e = .stream id afterSeq fuels
  | .recv id _ _ => ∃ afterSeq fuels, e = .stream id afterSeq fuels
  | .emit id afterSeq _ => ∃ fuels, e = .stream id afterSeq fuels
  | .driverProvideInput _ id _ => e.input? = some id
  | .tryAcquire _ => ∃ caller request, e = .dispatch caller (.invoke request)
  | .release _ => (∃ caller request, e = .dispatch caller (.invoke request)) ∨
      ∃ args, e = .worker args
  | _ => True

/-- The operations that an entry point issues besides those of the store and of transitions. -/
def CoreEntry.Issues (e : CoreEntry) : CoreOp τ → Prop
  | .store _ | .activeSend _ _ => False
  | o => e.Performs (fun _ _ => False) o

theorem CoreEntry.Issues.performs {e : CoreEntry} {allows : CoreEntry → τ.Op → Prop}
    (h : e.Issues o) : e.Performs allows o := by
  cases o <;> first | exact h | exact h.elim

/-- The append does not apply to a task that has ended. -/
def TaskTransition.Open (t : TaskTransition) : Prop :=
  t.allowedStates.all (fun s => !s.terminal) = true

/-- The methods of the store perform operations that `allows` permits them. -/
structure TaskStore.Within (store : TaskStore τ) (allows : CoreEntry → τ.Op → Prop) : Prop where
  create : ∀ caller request n, n.callerId = caller.id → n.idempotencyKey = request.idempotencyKey →
    (store.createOrGetIdempotent n).Everywhere (allows (.dispatch caller (.invoke request)))
  get : ∀ e id, (store.getSnapshot id).Everywhere (allows e)
  append : ∀ e t, e.writes = true → (store.appendEventAndTransition t).Everywhere (allows e)
  events : ∀ e id afterSeq limit, (store.eventsAfter id afterSeq limit).Everywhere (allows e)
  abandon : ∀ e, store.abandon.Everywhere (allows e)

/-- The same, where only the appends an entry point may ask for have to be permitted. -/
structure TaskStore.Confined (store : TaskStore τ) (allows : CoreEntry → τ.Op → Prop) : Prop where
  create : ∀ caller request n, n.callerId = caller.id → n.idempotencyKey = request.idempotencyKey →
    (store.createOrGetIdempotent n).Everywhere (allows (.dispatch caller (.invoke request)))
  get : ∀ e id, (store.getSnapshot id).Everywhere (allows e)
  append : ∀ e t, e.Appends t → (store.appendEventAndTransition t).Everywhere (allows e)
  events : ∀ e id afterSeq limit, (store.eventsAfter id afterSeq limit).Everywhere (allows e)
  abandon : ∀ e, store.abandon.Everywhere (allows e)

theorem CoreEntry.Appends.writes {e : CoreEntry} (h : e.Appends t) :
    e.writes = true := by
  cases e with
  | dispatch caller command => rfl
  | worker args => rfl
  | subscribe id afterSeq | stream id afterSeq fuels => exact h.elim

theorem TaskStore.Within.confined {store : TaskStore τ} {allows : CoreEntry → τ.Op → Prop}
    (h : store.Within allows) : store.Confined allows where
  create := h.create
  get := h.get
  append e t ht := h.append e t ht.writes
  events := h.events
  abandon := h.abandon

section

variable {allows : CoreEntry → τ.Op → Prop} {core : CoreConfig τ} {e : CoreEntry}

open Prog

variable {A : CoreOp τ → Prop}

theorem everywhere_fromStore {α : Type} {p : Prog τ (Except StoreError α)}
    (hp : p.Everywhere (fun o => A (.store o))) :
    (fromStore p).run.Everywhere A :=
  everywhere_bind (everywhere_embed hp) (fun _ => trivial)

theorem everywhere_action (ho : A o) :
    (action o).run.Everywhere A := ⟨ho, fun _ => trivial⟩

variable {id : TaskId}

theorem everywhere_snapshot_of
    (hget : (core.store.getSnapshot id).Everywhere (fun o => A (.store o))) :
    (snapshot core id).run.Everywhere A := by
  refine everywhere_try (everywhere_fromStore hget) (fun x => ?_)
  cases x <;> trivial

variable {site : Site}

theorem everywhere_transition_of (henter : A (.enter site))
    (happend : (core.store.appendEventAndTransition
      ⟨snap.taskId, snap.revision, allowed, next, kind⟩).Everywhere (fun o => A (.store o)))
    (hsend : ∀ e, A (.activeSend snap.taskId e)) :
    (transition core site snap allowed next kind).run.Everywhere A := by
  refine everywhere_try (everywhere_action henter) (fun _ => ?_)
  refine everywhere_try (everywhere_fromStore happend) (fun applied => ?_)
  exact everywhere_try (everywhere_action (hsend applied.event)) (fun _ => trivial)

/-- What the methods of the store do when a driver is run, and what is recorded of it, is in `A`. -/
structure Admits (store : TaskStore τ) (A : CoreOp τ → Prop) : Prop where
  get : ∀ id, (store.getSnapshot id).Everywhere (fun o => A (.store o))
  append : ∀ t, (store.appendEventAndTransition t).Everywhere (fun o => A (.store o))
  enter : ∀ site, A (.enter site)
  send : ∀ id e, A (.activeSend id e)

variable {A : CoreOp τ → Prop}

/-- A property of programs that is shown method by method. It admits the operations in `A` and the
transitions in `T`. -/
structure Walk (core : CoreConfig τ) (A : CoreOp τ → Prop) (T : TaskTransition → Prop)
    (P : ∀ {α : Type}, Prog (coreSig τ) α → Prop) : Prop where
  pure : ∀ {α : Type} (a : α), P (.pure a)
  bind : ∀ {α β : Type} {p : Prog (coreSig τ) α} {f : α → Prog (coreSig τ) β},
    P p → (∀ a, P (f a)) → P (p.bind f)
  op : ∀ {o}, A o → P (perform o)
  get : ∀ id, P (fromStore (core.store.getSnapshot id)).run
  transition : ∀ {site snap allowed next kind}, A (.enter site) →
    T ⟨snap.taskId, snap.revision, allowed, next, kind⟩ →
    P (transition core site snap allowed next kind).run

theorem walk_everywhere {T : TaskTransition → Prop}
    (hget : ∀ id, (core.store.getSnapshot id).Everywhere (fun o => A (.store o)))
    (happend : ∀ t, T t →
      (core.store.appendEventAndTransition t).Everywhere (fun o => A (.store o)))
    (hsend : ∀ t e, T t → A (.activeSend t.taskId e)) :
    Walk core A T (fun p => p.Everywhere A) where
  pure _ := trivial
  bind := everywhere_bind
  op ho := ⟨ho, fun _ => trivial⟩
  get id := everywhere_fromStore (hget id)
  transition henter ht := everywhere_transition_of henter (happend _ ht) (fun e => hsend _ e ht)

theorem Admits.walk (h : Admits core.store A) :
    Walk core A (fun _ => True) (fun p => p.Everywhere A) :=
  walk_everywhere h.get (fun t _ => h.append t) (fun _ e _ => h.send _ e)

section Streams

variable (source : EventHistorySource τ)

theorem returns_catchUp (s : ReliableTaskStream) (trailing : Option CoreEvent) :
    (s.catchUp source trailing).run.Returns (fun r => ∀ s', r = .ok s' → s'.taskId = s.taskId) := by
  refine returns_bind (returns_true _) (fun r _ => ?_)
  cases r with
  | error e => exact fun s' hs' => by cases hs'
  | ok events => exact fun s' hs' => by cases hs'; rfl

theorem returns_recover {s : ReliableTaskStream} (hs : s.taskId = id) (trailing : Option CoreEvent)
    {rest : ReliableTaskStream → Prog (coreSig τ) ReliableTaskStream.Polled}
    (hrest : ∀ s', s'.taskId = id → (rest s').Returns (fun r => r.2.taskId = id)) :
    (s.recover source trailing rest).Returns (fun r => r.2.taskId = id) := by
  refine returns_bind (returns_catchUp source s trailing) (fun r hr => ?_)
  cases r with
  | error error => exact hs
  | ok s' => exact hrest s' ((hr s' rfl).trans hs)

theorem returns_nextLoop (fuel : ℕ) (hs : s.taskId = id) :
    (nextLoop source fuel s).Returns (fun r => r.2.taskId = id) := by
  induction fuel generalizing s with
  | zero => exact hs
  | succ fuel ih =>
    rw [nextLoop]
    split
    · exact hs
    · split
      · exact hs
      · refine returns_bind (returns_true _) (fun got _ => ?_)
        unfold onRecv
        split
        · split
          · exact ih hs
          · split
            · exact hs
            · exact returns_recover source (s := { s with receiver := got.2 }) hs _ (fun s' => ih)
        · exact returns_recover source (s := { s with receiver := got.2 }) hs _ (fun s' => ih)
        · refine returns_recover source (s := { s with receiver := got.2 }) hs _ (fun s' hs' => ?_)
          split
          · exact hs'
          · exact ih hs'

end Streams

namespace Walk

variable {T : TaskTransition → Prop} {P : ∀ {α : Type}, Prog (coreSig τ) α → Prop}
  (h : Walk core A T P)

include h

theorem andThen {α β : Type} {x : CoreM τ α} {f : α → CoreM τ β} (hx : P x.run)
    (hf : ∀ a, P (f a).run) : P (x >>= f).run := by
  refine h.bind hx (fun r => ?_)
  cases r with
  | ok a => exact hf a
  | error e => exact h.pure _

theorem action (ho : A o) : P (action o).run := h.bind (h.op ho) (fun _ => h.pure _)

theorem snapshot (id : TaskId) : P (snapshot core id).run := by
  refine h.andThen (h.get id) (fun x => ?_)
  cases x <;> exact h.pure _

theorem failActive (henter : A (.enter site)) (hT : ∀ t, t.nextState = .failed → t.Open → T t)
    (id : TaskId) (error : CoreError) : P (failActive core site id error).run := by
  refine h.andThen (h.snapshot id) (fun snap => ?_)
  split
  · exact h.pure _
  · exact h.andThen (h.transition henter (hT _ rfl rfl)) (fun _ => h.pure _)

section Worker

variable (henter : ∀ site, A (.enter site)) (hT : ∀ t, t.Open → T t)

include henter hT

theorem applyDriverEvent (id : TaskId) (event : DriverEvent) :
    P (applyDriverEvent core id event).run := by
  refine h.andThen (h.snapshot id) (fun snap => ?_)
  cases event with
  | accepted => exact h.pure _
  | failed error => exact h.failActive (henter _) (fun t _ => hT t) _ _
  | _ => exact h.andThen (h.transition (henter _) (hT _ rfl)) (fun _ => h.pure _)

theorem drainStream (hrecv : A (.driverRecv id)) (events : List DriverEvent) :
    P (drainStream core id events).run := by
  induction events with
  | nil =>
    refine h.andThen (h.action hrecv) (fun _ => ?_)
    refine h.andThen (h.snapshot id) (fun snap => ?_)
    split <;> exact h.pure _
  | cons event rest ih =>
    refine h.andThen (h.action hrecv) (fun _ => ?_)
    refine h.andThen (h.applyDriverEvent henter hT id event) (fun _ => ?_)
    refine h.andThen (h.snapshot id) (fun snap => ?_)
    split
    · exact h.pure _
    · exact ih

theorem runDriver (hinvoke : A (.driverInvoke agent.id id request)) (hrecv : A (.driverRecv id)) :
    P (runDriver core agent id request).run :=
  h.andThen (x := ExceptT.mk (perform (.driverInvoke agent.id id request))) (h.op hinvoke)
    (fun events => h.drainStream henter hT hrecv events)

theorem settleWorker (hcancel : A (.driverCancel args.agent.id args.taskId))
    (outcome : Option (Except CoreError Unit)) : P (settleWorker core args outcome) := by
  have hfail : ∀ site error, P ((AdapterCore.failActive core site args.taskId error).run.bind
      (fun _ => .pure ())) :=
    fun site error => h.bind (h.failActive (henter site) (fun t _ => hT t) _ _) (fun _ => h.pure _)
  match outcome with
  | some (.ok ()) => exact h.pure _
  | some (.error error) => exact hfail _ error
  | none => exact h.bind (h.op hcancel) (fun _ => hfail _ _)

omit henter in
theorem worker (hA : ∀ o, (CoreEntry.worker args).Issues o → A o)
    (htimeout : ∀ {p : Prog (coreSig τ) (Except CoreError Unit)}, P p → P (withTimeout core p)) :
    P (worker core args) := by
  have henter : ∀ site, A (.enter site) := fun _ => hA _ trivial
  have hrelease : ∀ sem, A (.release sem) := fun sem => hA (.release sem) (.inr ⟨args, rfl⟩)
  refine h.bind (htimeout (h.runDriver henter hT (hA _ ⟨args, rfl, rfl⟩)
    (hA _ ⟨args, rfl, rfl⟩))) (fun outcome => ?_)
  refine h.bind (h.settleWorker henter hT (hA _ trivial) outcome) (fun _ => ?_)
  refine h.bind (h.op (hA _ ⟨args, rfl, rfl⟩)) (fun _ => h.bind (h.op (hrelease _)) (fun _ => ?_))
  exact h.bind (h.op (hrelease _)) (fun _ => h.op (hrelease _))

end Worker

section Dispatch

variable {caller : Caller}

theorem startTask (hA : ∀ o, (CoreEntry.dispatch caller (.invoke request)).Issues o → A o)
    (hT : ∀ t, (CoreEntry.dispatch caller (.invoke request)).Appends t → t.Open → T t)
    (agent : RegisteredAgent) (id : TaskId) (snap : TaskSnapshot) :
    P (startTask core caller request agent id snap).run := by
  have hrelease : ∀ (sem : Semaphore) (x : CoreM τ DispatchResult), P x.run →
      P (AgentConnector.action (.release sem) >>= fun _ => x).run :=
    fun sem x hx => h.andThen (h.action (hA (.release sem) (.inl ⟨caller, request, rfl⟩)))
      (fun _ => hx)
  have hreject : ∀ reason answer, P (reject core id reason answer).run :=
    fun _ _ => h.andThen (h.failActive (hA _ trivial) (fun t ht => hT t (.inr ht)) _ _)
      (fun _ => h.pure _)
  have hacquire : ∀ sem, P (AgentConnector.action (.tryAcquire sem) : CoreM τ Bool).run :=
    fun sem => h.action (hA (.tryAcquire sem) ⟨caller, request, rfl⟩)
  refine h.andThen (h.action (hA _ ⟨caller, request, rfl⟩)) (fun _ => ?_)
  refine h.andThen (h.transition (hA _ trivial) (hT _ (.inl ⟨rfl, rfl⟩) rfl)) (fun accepted => ?_)
  refine h.andThen (hacquire _) (fun queue => ?_)
  split
  · exact hreject _ _
  refine h.andThen (hacquire _) (fun callerPermit => ?_)
  split
  · exact hrelease _ _ (hreject _ _)
  refine h.andThen (hacquire _) (fun global => ?_)
  split
  · exact hrelease _ _ (hrelease _ _ (hreject _ _))
  refine h.andThen (hacquire _) (fun perAgent => ?_)
  split
  · exact hrelease _ _ (hrelease _ _ (hrelease _ _ (hreject _ _)))
  refine hrelease _ _ (h.andThen (h.action (hA _ ?_)) (fun _ => h.pure _))
  exact ⟨caller, request, rfl, rfl, rfl⟩

theorem dispatch (hA : ∀ o, (CoreEntry.dispatch caller command).Issues o → A o)
    (hT : ∀ t, (CoreEntry.dispatch caller command).Appends t → t.Open → T t)
    (hcreate : ∀ request n, command = .invoke request → n.callerId = caller.id →
      n.idempotencyKey = request.idempotencyKey →
      P (fromStore (core.store.createOrGetIdempotent n)).run) :
    P (dispatch core caller command).run := by
  refine h.andThen (x := ExceptT.mk (.pure (core.policy caller command))) (h.pure _) (fun _ => ?_)
  cases command with
  | invoke request =>
    change P (invoke core caller request).run
    unfold invoke
    split
    · exact h.pure _
    refine h.andThen (x := ExceptT.mk (.pure (core.registry.resolve request))) (h.pure _)
      (fun agent => ?_)
    refine h.andThen ?_ (fun id => h.andThen ?_ (fun deadlineAt => ?_))
    · unfold chooseTaskId
      split
      · exact h.pure _
      · exact h.action (hA _ trivial)
    · unfold chooseDeadline
      split
      · exact h.andThen (h.action (hA _ trivial)) (fun _ => h.pure _)
      · exact h.pure _
    refine h.andThen (hcreate request _ rfl rfl rfl) (fun initial => ?_)
    cases initial with
    | existing s => exact h.pure _
    | created s => exact h.startTask hA hT agent id s
  | cancel id reason =>
    refine h.andThen (h.snapshot id) (fun snap => ?_)
    split
    · exact h.pure _
    split
    · exact h.pure _
    refine h.andThen (h.transition (hA _ trivial) (hT _ ⟨rfl, rfl⟩ rfl)) (fun changed => ?_)
    refine h.andThen (h.action (hA _ trivial)) (fun _ => ?_)
    split
    · exact h.andThen (h.action (hA _ trivial)) (fun _ => h.pure _)
    · exact h.pure _
  | provideInput id input =>
    refine h.andThen (h.snapshot id) (fun snap => ?_)
    split
    · exact h.pure _
    split
    · exact h.pure _
    split
    · exact h.pure _
    rename_i agent _ _
    refine h.andThen (x := ExceptT.mk (perform (.driverProvideInput agent.id id input)))
      (h.op (hA _ rfl)) (fun _ => ?_)
    exact h.andThen (h.transition (hA _ trivial) (hT _ ⟨rfl, rfl⟩ rfl)) (fun _ => h.pure _)
  | getStatus id => exact h.andThen (h.snapshot id) (fun _ => h.pure _)

end Dispatch

/-- What follows a program only has to be good for what the program can return. -/
theorem bind_of_returns {α β : Type} {p : Prog (coreSig τ) α} {f : α → Prog (coreSig τ) β}
    {R : α → Prop} {a : α} (hp : P p) (hr : p.Returns R) (ha : R a) (hf : ∀ a, R a → P (f a)) :
    P (p.bind f) := by
  classical
  rw [Prog.bind_congr (g := fun b => if R b then f b else f a) hr (fun b hb => (if_pos hb).symm)]
  refine h.bind hp (fun b => ?_)
  split
  · exact hf b ‹_›
  · exact hf a ha

section Readers

variable (hevents : ∀ id afterSeq limit,
  P (fromStore (core.store.eventsAfter id afterSeq limit)).run)

include hevents

theorem subscribe (hopen : A (.activeSubscribe id)) (hclosed : A (.closedReceiver id))
    (afterSeq : ℕ) : P (subscribe core id afterSeq).run := by
  refine h.andThen (hevents ..) (fun history => ?_)
  refine h.andThen (h.action hopen) (fun receiver => ?_)
  cases receiver with
  | some r => exact h.pure _
  | none => exact h.andThen (h.action hclosed) (fun _ => h.pure _)

theorem recover (s : ReliableTaskStream) (trailing : Option CoreEvent)
    {rest : ReliableTaskStream → Prog (coreSig τ) ReliableTaskStream.Polled}
    (hrest : ∀ s', s'.taskId = s.taskId → P (rest s')) :
    P (s.recover (history core) trailing rest) := by
  refine h.bind_of_returns (h.andThen (hevents ..) (fun _ => h.pure _))
    (returns_catchUp _ s trailing) (a := .ok s) (fun s' hs' => by cases hs'; rfl) (fun r hr => ?_)
  cases r with
  | error error => exact h.pure _
  | ok s' => exact hrest s' (hr s' rfl)

theorem nextLoop (hrecv : ∀ receiver lastSeq, A (.recv id receiver lastSeq)) (fuel : ℕ)
    (s : ReliableTaskStream) (hs : s.taskId = id) : P (nextLoop (history core) fuel s) := by
  induction fuel generalizing s with
  | zero => exact h.pure _
  | succ fuel ih =>
    have hloop : ∀ s', s'.taskId = s.taskId →
      P (ReliableTaskStream.nextLoop (history core) fuel s') := fun s' hs' => ih s' (hs'.trans hs)
    rw [ReliableTaskStream.nextLoop]
    split
    · exact h.pure _
    · split
      · exact h.pure _
      · refine h.bind (h.op (hs ▸ hrecv _ _)) (fun got => ?_)
        unfold onRecv
        split
        · split
          · exact hloop _ rfl
          · split
            · exact h.pure _
            · exact h.recover hevents _ _ hloop
        · exact h.recover hevents _ _ hloop
        · refine h.recover hevents _ _ (fun s' hs' => ?_)
          split
          · exact h.pure _
          · exact hloop s' hs'

theorem consume (hrecv : ∀ receiver lastSeq, A (.recv id receiver lastSeq))
    (hemit : ∀ result, A (.emit id afterSeq result)) (fuels : List ℕ) (s : ReliableTaskStream)
    (hs : s.taskId = id) : P (consume (history core) afterSeq fuels s) := by
  induction fuels generalizing s with
  | nil => exact h.pure _
  | cons fuel rest ih =>
    refine h.bind_of_returns (h.nextLoop hevents hrecv fuel s hs) (returns_nextLoop _ fuel hs)
      (a := (none, s)) hs (fun polled hs' => ?_)
    obtain ⟨r, s'⟩ := polled
    cases r with
    | none => exact h.pure _
    | some r => exact h.bind (h.op (hs' ▸ hemit _)) (fun _ => ih s' hs')

end Readers

end Walk

theorem everywhere_withTimeout {α : Type} (htimer : A .timer)
    (habandon : core.store.abandon.Everywhere (fun o => A (.store o))) {p : Prog (coreSig τ) α}
    (hp : p.Everywhere A) :
    (withTimeout core p).Everywhere A := by
  have hdrop : (dropped core : Prog (coreSig τ) (Option α)).Everywhere A :=
    everywhere_bind (everywhere_embed habandon) (fun _ => trivial)
  induction p with
  | pure a => trivial
  | op o k ih =>
    rw [withTimeout]
    refine ⟨htimer, fun poll => ?_⟩
    cases poll with
    | pending => exact ⟨hp.1, fun r => ih r (hp.2 r)⟩
    | elapsed => exact hdrop
    | elapsedMidway => exact ⟨hp.1, fun _ => hdrop⟩

theorem everywhere_chooseTaskId (h : A .newUuid) (request : InvokeRequest) :
    (chooseTaskId request : CoreM τ TaskId).run.Everywhere A := by
  unfold chooseTaskId
  split
  · trivial
  · exact everywhere_action h

theorem everywhere_chooseDeadline (h : A .utcNow) (request : InvokeRequest) :
    (chooseDeadline request : CoreM τ (Option DateTime)).run.Everywhere A := by
  unfold chooseDeadline
  split
  · exact everywhere_try (everywhere_action h) (fun _ => trivial)
  · trivial

end

theorem Walk.program {M : StoreMachine} {setup : CoreSetup} {A : CoreOp M.sig → Prop}
    {T : TaskTransition → Prop} {P : ∀ {α : Type}, Prog (coreSig M.sig) α → Prop} {e : CoreEntry}
    (h : Walk (setup.over M) A T P) (hA : ∀ o, e.Issues o → A o)
    (hT : ∀ t, e.Appends t → t.Open → T t)
    (hcreate : ∀ caller request n, e = .dispatch caller (.invoke request) →
      n.callerId = caller.id → n.idempotencyKey = request.idempotencyKey →
      P (fromStore (M.store.createOrGetIdempotent n)).run)
    (hevents : ∀ id afterSeq limit, P (fromStore (M.store.eventsAfter id afterSeq limit)).run)
    (htimeout : ∀ {p : Prog (coreSig M.sig) (Except CoreError Unit)}, P p →
      P (withTimeout (setup.over M) p)) : P ((coreService M setup).program e) := by
  have hend : ∀ {α : Type} {p : Prog (coreSig M.sig) α} (f : α → CoreOutcome),
      P p → P (p.bind (fun a => .pure (f a))) := fun f hp => h.bind hp (fun _ => h.pure _)
  cases e with
  | dispatch caller command =>
    exact hend _ (h.dispatch hA hT (fun request n hinvoke =>
      hcreate caller request n (congrArg (CoreEntry.dispatch caller) hinvoke)))
  | worker args => exact hend _ (h.worker (fun t => hT t trivial) hA htimeout)
  | subscribe id afterSeq =>
    exact hend _ (h.subscribe hevents (hA _ (.inl ⟨_, rfl⟩)) (hA _ (.inl ⟨_, rfl⟩)) afterSeq)
  | stream id afterSeq fuels =>
    refine hend _ (h.bind (h.subscribe hevents (hA _ (.inr ⟨_, _, rfl⟩))
      (hA _ (.inr ⟨_, _, rfl⟩)) afterSeq) (fun r => ?_))
    cases r with
    | error e => exact h.pure _
    | ok subscription =>
      exact h.consume hevents (fun _ _ => hA _ ⟨_, _, rfl⟩) (fun _ => hA _ ⟨_, rfl⟩) fuels _ rfl

theorem everywhere_confined (M : StoreMachine) (setup : CoreSetup)
    {allows : CoreEntry → M.sig.Op → Prop} (h : M.store.Confined allows) (e : CoreEntry) :
    ((coreService M setup).program e).Everywhere (e.Performs allows) := by
  have hwalk : Walk (setup.over M) (e.Performs allows) e.Appends
      (fun p => p.Everywhere (e.Performs allows)) :=
    walk_everywhere (h.get e) (h.append e) (fun _ _ ht => ht.writes)
  refine hwalk.program (fun _ ho => ho.performs) (fun _ ht _ => ht) ?_
    (fun _ _ _ => everywhere_fromStore (h.events e _ _ _))
    (everywhere_withTimeout trivial (h.abandon e))
  rintro caller request n rfl hcaller hkey
  exact everywhere_fromStore (h.create caller request n hcaller hkey)

theorem everywhere_program (M : StoreMachine) (setup : CoreSetup)
    {allows : CoreEntry → M.sig.Op → Prop} (h : M.store.Within allows) (e : CoreEntry) :
    ((coreService M setup).program e).Everywhere (e.Performs allows) :=
  everywhere_confined M setup h.confined e

/-- Which operations of the contract store belong to which entry points. -/
def contractAllows (e : CoreEntry) : ContractOp → Prop
  | .claim n => ∃ caller request, e = .dispatch caller (.invoke request) ∧
      n.callerId = caller.id ∧ n.idempotencyKey = request.idempotencyKey
  | .append _ => e.writes = true
  | _ => True

theorem contractStore_within : contractStore.Within contractAllows where
  create caller request n hcaller hkey := by
    refine ⟨⟨caller, request, rfl, hcaller, hkey⟩, fun r => ?_⟩
    cases r with
    | error e => trivial
    | ok inserted =>
      refine ⟨trivial, fun r => ?_⟩
      cases r <;> trivial
  get _ _ := ⟨trivial, fun _ => trivial⟩
  append _ _ he := ⟨he, fun _ => trivial⟩
  events _ _ _ _ := ⟨trivial, fun _ => trivial⟩
  abandon _ := trivial

theorem contract_performs (setup : CoreSetup) (e : CoreEntry) :
    ((coreService contractMachine setup).program e).Everywhere (e.Performs contractAllows) :=
  everywhere_program contractMachine setup contractStore_within e

theorem performs_of_own {p : Pool (coreService contractMachine setup)} (hp : p.Reachable)
    (hth : p.threads[tid]? = some th) (hst : st ∈ p.own tid) :
    th.entry.Performs contractAllows st.op :=
  (hp.performs (contract_performs setup) hth).2 st hst

def contractAppends (e : CoreEntry) : ContractOp → Prop
  | .append t => e.Appends t
  | _ => True

theorem contractStore_confined : contractStore.Confined contractAppends where
  create caller request n _ _ := by
    refine ⟨trivial, fun r => ?_⟩
    cases r with
    | error e => trivial
    | ok inserted =>
      refine ⟨trivial, fun r => ?_⟩
      cases r <;> trivial
  get _ _ := ⟨trivial, fun _ => trivial⟩
  append _ _ ht := ⟨ht, fun _ => trivial⟩
  events _ _ _ _ := ⟨trivial, fun _ => trivial⟩
  abandon _ := trivial

end AgentConnector
