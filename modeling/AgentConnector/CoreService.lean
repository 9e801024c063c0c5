import AgentConnector.ReliableTaskStream

/-!
# The running core

The shared state of a running core over a store: the store's own state, the map of active tasks,
the broadcast channels created so far and the free permits. A client may call `dispatch`, open a
raw subscription or consume a reliable stream; workers are started by `invoke`.
-/

namespace AgentConnector

open Concurrent Broadcast

structure ActiveTask where
  channel : ℕ
  cancelled : Bool

structure TaskChannel where
  task : TaskId
  channel : Channel CoreEvent

structure CoreState (Db : Type) where
  db : Db
  active : TaskId → Option ActiveTask
  channels : List TaskChannel
  permits : Semaphore → ℕ
  sites : ℕ → Option Site

structure CoreChoice (C : Type) where
  store : C
  uuid : TaskId := 0
  now : DateTime := 0
  stream : Except CoreError (List DriverEvent) := .ok []
  answer : Except CoreError Unit := .ok ()
  timer : TimerPoll := .pending

namespace CoreState

variable {Db : Type}

variable (s : CoreState Db)

def onChannel (i : ℕ) (f : Channel CoreEvent → Channel CoreEvent) :
    CoreState Db :=
  { s with channels := s.channels.modify i (fun ch => { ch with channel := f ch.channel }) }

variable (id : TaskId)

def dropActive : CoreState Db :=
  match s.active id with
  | some a =>
    { s.onChannel a.channel Channel.close with active := Function.update s.active id none }
  | none => s

def insertActive : CoreState Db :=
  let s' := s.dropActive id
  { s' with
    active := Function.update s'.active id (some ⟨s'.channels.length, false⟩)
    channels := s'.channels ++ [⟨id, Channel.open_ 256⟩] }

def send (s : CoreState Db) (id : TaskId) (event : CoreEvent) : CoreState Db :=
  match s.active id with
  | some a => s.onChannel a.channel (fun ch => ch.send event)
  | none => s

/-- `tx.subscribe()`: a receiver that sees what is sent from now on. -/
def subscribe : Option Receiver :=
  match s.active id with
  | some a => match s.channels[a.channel]? with
    | some ch => some ⟨a.channel, ch.channel.sent.length⟩
    | none => none
  | none => none

def cancelToken : CoreState Db :=
  match s.active id with
  | some a => { s with active := Function.update s.active id (some { a with cancelled := true }) }
  | none => s

def poll (r : Receiver) : Option (Recv CoreEvent × Receiver) :=
  match s.channels[r.channel]? with
  | some ch => match ch.channel.recv r.next with
    | some (got, next) => some (got, ⟨r.channel, next⟩)
    | none => none
  | none => none

end CoreState

inductive CoreEntry where
  | dispatch (caller : Caller) (command : CoreCommand)
  | worker (args : WorkerArgs)
  | subscribe (id : TaskId) (afterSeq : ℕ)
  | stream (id : TaskId) (afterSeq : ℕ) (fuels : List ℕ)

/-- The task and the start of the stream that an entry point consumes. -/
def CoreEntry.stream? : CoreEntry → Option (TaskId × ℕ)
  | .stream id afterSeq _ => some (id, afterSeq)
  | _ => none

/-- The task and the start of a raw subscription. -/
def CoreEntry.subscribe? : CoreEntry → Option (TaskId × ℕ)
  | .subscribe id afterSeq => some (id, afterSeq)
  | _ => none

/-- The task that a worker works on. -/
def CoreEntry.worker? : CoreEntry → Option TaskId
  | .worker args => some args.taskId
  | _ => none

/-- The task that a call of `cancel` names. -/
def CoreEntry.cancel? : CoreEntry → Option TaskId
  | .dispatch _ (.cancel id _) => some id
  | _ => none

/-- The task that a call of `provideInput` names. -/
def CoreEntry.input? : CoreEntry → Option TaskId
  | .dispatch _ (.provideInput id _) => some id
  | _ => none

variable {e : CoreEntry} {id : TaskId}

theorem CoreEntry.exists_input (h : e.input? = some id) :
    ∃ caller input, e = .dispatch caller (.provideInput id input) := by
  cases e with
  | dispatch caller command =>
    cases command with
    | provideInput id' input =>
      cases Option.some.inj h
      exact ⟨caller, input, rfl⟩
    | _ => cases h
  | _ => cases h

theorem CoreEntry.exists_worker (h : e.worker? = some id) :
    ∃ args, e = .worker args ∧ args.taskId = id := by
  cases e with
  | worker args => exact ⟨args, rfl, Option.some.inj h⟩
  | _ => cases h

theorem CoreEntry.exists_cancel (h : e.cancel? = some id) :
    ∃ caller reason, e = .dispatch caller (.cancel id reason) := by
  cases e with
  | dispatch caller command =>
    cases command with
    | cancel id' reason =>
      cases Option.some.inj h
      exact ⟨caller, reason, rfl⟩
    | _ => cases h
  | _ => cases h

inductive CoreOutcome where
  | dispatched (r : Except CoreError DispatchResult)
  | worked
  | subscribed (r : Except CoreError TaskSubscription)
  | streamed

def CoreOutcome.subscription? : CoreOutcome → Option TaskSubscription
  | .subscribed (.ok sub) => some sub
  | _ => none

/-- The snapshot a dispatched command has returned. -/
def CoreOutcome.snapshot? : CoreOutcome → Option TaskSnapshot
  | .dispatched (.ok result) => some result.snapshot
  | _ => none

theorem CoreOutcome.eq_of_subscription? {r : CoreOutcome} (h : r.subscription? = some sub) :
    r = .subscribed (.ok sub) := by
  cases r with
  | subscribed r =>
    cases r with
    | ok sub' => rw [Option.some.inj h]
    | error e => cases h
  | _ => cases h

def CoreOutcome.succeeds : CoreOutcome → Bool
  | .dispatched r => r.isOk
  | .subscribed r => r.isOk
  | _ => true

section

variable (M : StoreMachine)

def coreExec (tid : ℕ) (s : CoreState M.Db) (o : CoreOp M.sig) (c : CoreChoice M.Choice) :
    Option (CoreState M.Db × o.Reply) :=
  match o with
  | .store o => match M.exec tid s.db o c.store with
    | some (db, r) => some ({ s with db := db }, r)
    | none => none
  | .enter site => some ({ s with sites := Function.update s.sites tid (some site) }, ())
  | .newUuid => some (s, c.uuid)
  | .utcNow => some (s, c.now)
  | .activeInsert id => some (s.insertActive id, ())
  | .activeSend id event => some (s.send id event, ())
  | .activeSubscribe id => some (s, s.subscribe id)
  | .closedReceiver id =>
    some ({ s with channels := s.channels ++ [⟨id, ⟨1, [], true⟩⟩] }, ⟨s.channels.length, 0⟩)
  | .activeCancel id => some (s.cancelToken id, ())
  | .activeRemove id => some (s.dropActive id, ())
  | .tryAcquire sem =>
    if 0 < s.permits sem then
      some ({ s with permits := Function.update s.permits sem (s.permits sem - 1) }, true)
    else some (s, false)
  | .release sem =>
    some ({ s with permits := Function.update s.permits sem (s.permits sem + 1) }, ())
  | .driverInvoke _ _ _ => some (s, c.stream)
  | .driverRecv _ => some (s, ())
  | .driverCancel _ _ => some (s, c.answer)
  | .driverProvideInput _ _ _ => some (s, c.answer)
  | .timer => some (s, c.timer)
  | .spawn _ => some (s, ())
  | .recv _ receiver _ => match s.poll receiver with
    | some r => some (s, r)
    | none => none
  | .emit _ _ _ => some (s, ())

theorem coreExec_store {M : StoreMachine} {s s' : CoreState M.Db} {o : M.sig.Op}
    {c : CoreChoice M.Choice} {r : M.sig.Reply o} (h : coreExec M tid s (.store o) c = some (s', r))
    :
    ∃ db, M.exec tid s.db o c.store = some (db, r) ∧ s' = { s with db := db } := by
  simp only [coreExec] at h
  split at h
  · rename_i db reply hdb
    cases h
    exact ⟨db, hdb, rfl⟩
  · cases h

/-- What an operation does to the state that the calls share. -/
inductive CoreMove (tid : ℕ) (s : CoreState M.Db) (c : CoreChoice M.Choice) :
    CoreOp M.sig → CoreState M.Db → Prop
  | stored {o db r} (h : M.exec tid s.db o c.store = some (db, r)) :
      CoreMove tid s c (.store o) { s with db := db }
  | entered (site : _) :
      CoreMove tid s c (.enter site) { s with sites := Function.update s.sites tid (some site) }
  | inserted (id : TaskId) : CoreMove tid s c (.activeInsert id) (s.insertActive id)
  | sent (id : TaskId) (e : CoreEvent) : CoreMove tid s c (.activeSend id e) (s.send id e)
  | opened (id : TaskId) : CoreMove tid s c (.closedReceiver id)
      { s with channels := s.channels ++ [⟨id, ⟨1, [], true⟩⟩] }
  | cancelled (id : TaskId) : CoreMove tid s c (.activeCancel id) (s.cancelToken id)
  | removed (id : TaskId) : CoreMove tid s c (.activeRemove id) (s.dropActive id)
  | acquired (sem : Semaphore) : CoreMove tid s c (.tryAcquire sem)
      { s with permits := Function.update s.permits sem (s.permits sem - 1) }
  | released (sem : Semaphore) : CoreMove tid s c (.release sem)
      { s with permits := Function.update s.permits sem (s.permits sem + 1) }
  | same {o} : CoreMove tid s c o s

section

variable {M : StoreMachine} {tid : ℕ} {s s' : CoreState M.Db} {o : CoreOp M.sig}
  {c : CoreChoice M.Choice}

theorem coreMove_of_exec (h : coreExec M tid s o c = some (s', r)) :
    CoreMove M tid s c o s' := by
  cases o with
  | store o =>
    obtain ⟨db, hdb, rfl⟩ := coreExec_store h
    exact .stored hdb
  | tryAcquire sem =>
    simp only [coreExec] at h
    split at h
    · cases h
      exact .acquired sem
    · cases h
      exact .same
  | recv id receiver lastSeq =>
    simp only [coreExec] at h
    split at h
    · cases h
      exact .same
    · cases h
  | _ =>
    cases h
    constructor

theorem CoreState.dropActive_frame {Db : Type} (s : CoreState Db) (id : TaskId) :
    (s.dropActive id).db = s.db ∧ (s.dropActive id).permits = s.permits ∧
      (s.dropActive id).sites = s.sites := by
  unfold CoreState.dropActive
  split <;> exact ⟨rfl, rfl, rfl⟩

/-- The store, the semaphores and the sites change by their own operations only. -/
theorem CoreMove.frame (h : CoreMove M tid s c o s') :
    ((∃ o', o = .store o') ∨ s'.db = s.db) ∧
    ((∃ sem, o = .tryAcquire sem ∨ o = .release sem) ∨ s'.permits = s.permits) ∧
    ∀ j, j ≠ tid → s'.sites j = s.sites j := by
  cases h with
  | stored h => exact ⟨.inl ⟨_, rfl⟩, .inr rfl, fun _ _ => rfl⟩
  | entered site => exact ⟨.inr rfl, .inr rfl, fun j hj => Function.update_of_ne hj _ _⟩
  | inserted id | removed id =>
    obtain ⟨hdb, hpermits, hsites⟩ := s.dropActive_frame id
    exact ⟨.inr hdb, .inr hpermits, fun j _ => congrFun hsites j⟩
  | sent id e =>
    unfold CoreState.send
    split <;> exact ⟨.inr rfl, .inr rfl, fun _ _ => rfl⟩
  | cancelled id =>
    unfold CoreState.cancelToken
    split <;> exact ⟨.inr rfl, .inr rfl, fun _ _ => rfl⟩
  | acquired sem => exact ⟨.inr rfl, .inl ⟨sem, .inl rfl⟩, fun _ _ => rfl⟩
  | released sem => exact ⟨.inr rfl, .inl ⟨sem, .inr rfl⟩, fun _ _ => rfl⟩
  | opened id | same => exact ⟨.inr rfl, .inr rfl, fun _ _ => rfl⟩

end

variable (setup : CoreSetup)

def CoreSetup.permits : Semaphore → ℕ
  | .queue a => ((setup.registry.get a).map (fun r => r.limits.maxQueuedTasks)).getD 0
  | .caller _ => setup.defaultCallerMaxConcurrent
  | .global => setup.maxConcurrent
  | .agent a => ((setup.registry.get a).map (fun r => r.limits.maxConcurrentTasks)).getD 0

def CoreSetup.over : CoreConfig M.sig := ⟨setup, M.store⟩

def coreProgram (core : CoreConfig M.sig) : CoreEntry → Prog (coreSig M.sig) CoreOutcome
  | .dispatch caller command =>
    (AdapterCore.dispatch core caller command).run.bind (fun r => .pure (.dispatched r))
  | .worker args => (AdapterCore.worker core args).bind (fun _ => .pure .worked)
  | .subscribe id afterSeq =>
    (AdapterCore.subscribe core id afterSeq).run.bind (fun r => .pure (.subscribed r))
  | .stream id afterSeq fuels =>
    (ReliableTaskStream.session core id afterSeq fuels).bind (fun _ => .pure .streamed)

abbrev coreService : Service (coreSig M.sig) where
  State := CoreState M.Db
  Choice := CoreChoice M.Choice
  Entry := CoreEntry
  Result := CoreOutcome
  init := ⟨M.empty, fun _ => none, [], setup.permits, fun _ => none⟩
  exec := coreExec M
  program := coreProgram M (setup.over M)
  external
    | .worker _ => false
    | _ => true
  fork
    | .spawn args => some (.worker args)
    | _ => none

end

/-- A core with the single agent `agent`, which supports cancellation and input. -/
def singleAgentSetup : CoreSetup :=
  .new (AgentRegistry.new.register
    { id := ⟨"agent"⟩
      skills := ["skill"]
      capabilities := ⟨true, true⟩
      limits := ⟨1, 1, 1024, 1024, 1000⟩ }) allowAllPolicy 1

def localCaller : Caller := ⟨⟨"caller"⟩, []⟩

def invokeTask (id : TaskId) : CoreEntry :=
  .dispatch localCaller (.invoke ⟨some id, none, none, "key", none, [], .null, none⟩)

def calm : CoreChoice ContractChoice := { store := {} }

/-- `n` calm steps of one thread. -/
def steps (setup : CoreSetup) (tid n : ℕ) : List (Action (coreService contractMachine setup)) :=
  List.replicate n (.step tid calm)

def turns (tid n : ℕ) := steps singleAgentSetup tid n

/-- The single agent is invoked and the task accepted. -/
def acceptedTask := .call (invokeTask 1) :: turns 0 12

/-- A second caller is rejected while the task of the first has the only permit. -/
def rejectedOther := acceptedTask ++
  .call (.dispatch ⟨⟨"other"⟩, []⟩ (.invoke ⟨some 2, none, none, "key", none, [], .null, none⟩)) ::
  turns 2 15

def cancelCall (tid : ℕ) := .call (.dispatch localCaller (.cancel 1 none)) :: turns tid 6

end AgentConnector
