import AgentConnector.AgentRegistry
import AgentConnector.BroadcastChannel

/-!
# The adapter core

The methods of `AdapterCore` as resumable programs over any store: every store call, every access
to the map of active tasks, every semaphore, every call of the agent's driver and every `await`
is one atomic operation, and nothing else is atomic. The events a driver will send on one
invocation are the reply to `driverInvoke`; the driver decides them, the schedule decides when they
arrive.
-/

namespace AgentConnector

open Concurrent

/-- The places from which the core appends an event. They are recorded when the append is reached,
so that conditions on runs can speak about them; no operation reads them. -/
inductive Site where
  | invokeAccept
  | invokeReject
  | driverEvent
  | workerError
  | workerTimeout
  | cancel
  | provideInput
  deriving DecidableEq

inductive Semaphore where
  | queue (agent : AgentId)
  | caller (caller : CallerId)
  | global
  | agent (agent : AgentId)
  deriving DecidableEq

/-- What the spawned worker of a task owns. -/
structure WorkerArgs where
  agent : RegisteredAgent
  taskId : TaskId
  request : InvokeRequest
  caller : CallerId

/-- A broadcast receiver: a channel and a position in it. -/
structure Receiver where
  channel : ℕ
  next : ℕ

/-- What a pending future sees of its timeout: it has not elapsed, it elapsed before the next
operation, or while that operation was in progress. -/
inductive TimerPoll where
  | pending
  | elapsed
  | elapsedMidway
  deriving DecidableEq

def TimerPoll.elim {α : Type} (pending elapsed midway : α) : TimerPoll → α
  | .pending => pending
  | .elapsed => elapsed
  | .elapsedMidway => midway

inductive CoreOp (τ : Signature) where
  | store (o : τ.Op)
  | enter (site : Site)
  | newUuid
  | utcNow
  | activeInsert (id : TaskId)
  | activeSend (id : TaskId) (event : CoreEvent)
  | activeSubscribe (id : TaskId)
  | closedReceiver (id : TaskId)
  | activeCancel (id : TaskId)
  | activeRemove (id : TaskId)
  | tryAcquire (s : Semaphore)
  | release (s : Semaphore)
  | driverInvoke (agent : AgentId) (id : TaskId) (request : InvokeRequest)
  | driverRecv (id : TaskId)
  | driverCancel (agent : AgentId) (id : TaskId)
  | driverProvideInput (agent : AgentId) (id : TaskId) (input : List Part)
  | timer
  | spawn (args : WorkerArgs)
  /-- Polls a receiver; `lastSeq` is the last sequence number the polling stream has delivered. -/
  | recv (id : TaskId) (receiver : Receiver) (lastSeq : ℕ)
  /-- Returns a result of `next` to the consumer of a stream of the task `id` that started after
  `afterSeq`. -/
  | emit (id : TaskId) (afterSeq : ℕ) (result : Except CoreError (Option CoreEvent))

variable {τ : Signature}

abbrev CoreOp.Reply : CoreOp τ → Type
  | .store o => τ.Reply o
  | .newUuid => TaskId
  | .utcNow => DateTime
  | .activeSubscribe _ => Option Receiver
  | .closedReceiver _ => Receiver
  | .tryAcquire _ => Bool
  | .driverInvoke _ _ _ => Except CoreError (List DriverEvent)
  | .driverCancel _ _ => Except CoreError Unit
  | .driverProvideInput _ _ _ => Except CoreError Unit
  | .timer => TimerPoll
  | .recv _ _ _ => Broadcast.Recv CoreEvent × Receiver
  | _ => Unit

abbrev coreSig (τ : Signature) : Signature := ⟨CoreOp τ, CoreOp.Reply⟩

def storeEmbedding (τ : Signature) : Prog.Embedding τ (coreSig τ) := ⟨.store, fun _ r => r⟩

abbrev CoreM (τ : Signature) := ExceptT CoreError (Prog (coreSig τ))

def perform (o : CoreOp τ) : Prog (coreSig τ) o.Reply := Prog.perform (σ := coreSig τ) o

def action (o : CoreOp τ) : CoreM τ o.Reply := ExceptT.lift (perform o)

def fromStore {α : Type} (p : Prog τ (Except StoreError α)) : CoreM τ α :=
  ExceptT.mk ((p.embed (storeEmbedding τ)).bind (fun r => .pure (r.mapError CoreError.store)))

structure CoreSetup where
  registry : AgentRegistry
  policy : PolicyEngine
  maxConcurrent : ℕ
  defaultCallerMaxConcurrent : ℕ

/-- `AdapterCore::new`: one concurrent task per caller. -/
def CoreSetup.new (registry : AgentRegistry) (policy : PolicyEngine) (maxConcurrent : ℕ) :
    CoreSetup :=
  ⟨registry, policy, maxConcurrent, 1⟩

structure CoreConfig (τ : Signature) extends CoreSetup where
  store : TaskStore τ

/-- The characters `str::trim` removes (the Unicode property `White_Space`). -/
def isWhitespace (c : Char) : Bool :=
  let n := c.toNat
  (9 ≤ n ∧ n ≤ 13) ∨ n = 32 ∨ n = 0x85 ∨ n = 0xA0 ∨ n = 0x1680 ∨ (0x2000 ≤ n ∧ n ≤ 0x200A) ∨
    n = 0x2028 ∨ n = 0x2029 ∨ n = 0x202F ∨ n = 0x205F ∨ n = 0x3000

/-- `trim().is_empty()`. -/
def isBlank (s : String) : Bool := s.toList.all isWhitespace

/-- `chrono::Duration::from_std(..).ok()`: at most `i64::MAX` milliseconds. -/
def durationFromStd (nanos : ℕ) : Option ℤ :=
  if nanos ≤ (2 ^ 63 - 1) * 1000000 then some nanos else none

structure TaskSubscription where
  history : List CoreEvent
  receiver : Receiver
  historyEndSeq : Option ℕ

namespace AdapterCore

variable (core : CoreConfig τ)

variable (id : TaskId)

def snapshot : CoreM τ TaskSnapshot := do
  match ← fromStore (core.store.getSnapshot id) with
  | some s => return s
  | none => throw (.store (.notFound id))

def transition (site : Site) (snapshot : TaskSnapshot) (allowed : List TaskState)
    (next : TaskState) (kind : CoreEventKind) : CoreM τ TaskSnapshot := do
  action (.enter site)
  let applied ← fromStore (core.store.appendEventAndTransition
    { taskId := snapshot.taskId
      expectedRevision := snapshot.revision
      allowedStates := allowed
      nextState := next
      eventKind := kind })
  action (.activeSend snapshot.taskId applied.event)
  return applied.snapshot

def failure (error : CoreError) : PublicError where
  code := match error with
    | .timeout => "timeout"
    | _ => "runtime_error"
  message := error.display
  retryable := false

def failActive (site : Site) (id : TaskId) (error : CoreError) : CoreM τ Unit := do
  let snapshot ← snapshot core id
  if snapshot.state.terminal then return ()
  else do
    let _ ← transition core site snapshot
      [.created, .accepted, .running, .waitingForInput, .cancelRequested] .failed
      (.failed (failure error))
    return ()

def applyDriverEvent (event : DriverEvent) : CoreM τ Unit := do
  let snapshot ← snapshot core id
  match event with
  | .accepted => return ()
  | .progress message percent => do
    let next := if snapshot.state = .accepted then .running else snapshot.state
    let _ ← transition core .driverEvent snapshot [.accepted, .running] next
      (.progress message percent)
    return ()
  | .artifact artifact => do
    let _ ← transition core .driverEvent snapshot [.accepted, .running, .waitingForInput] .running
      (.artifact artifact)
    return ()
  | .inputRequired request => do
    let _ ← transition core .driverEvent snapshot [.accepted, .running] .waitingForInput
      (.inputRequired request)
    return ()
  | .completed output => do
    let _ ← transition core .driverEvent snapshot [.accepted, .running, .waitingForInput]
      .completed (.completed output)
    return ()
  | .failed error => failActive core .driverEvent id (.driver error.message)
  | .cancelled => do
    let _ ← transition core .driverEvent snapshot
      [.cancelRequested, .accepted, .running, .waitingForInput] .cancelled .cancelled
    return ()

/-- The loop of `run_driver` over the events the driver's stream will yield before it closes. -/
def drainStream (id : TaskId) : List DriverEvent → CoreM τ Unit
  | [] => do
    action (.driverRecv id)
    let s ← snapshot core id
    if s.state.terminal then return ()
    else throw (.driver "driver stream closed before terminal event")
  | event :: rest => do
    action (.driverRecv id)
    applyDriverEvent core id event
    let s ← snapshot core id
    if s.state.terminal then return ()
    else drainStream id rest

def runDriver (agent : RegisteredAgent) (id : TaskId) (request : InvokeRequest) : CoreM τ Unit := do
  let stream ← ExceptT.mk (perform (.driverInvoke agent.id id request))
  drainStream core id stream

def dropped {α : Type} : Prog (coreSig τ) (Option α) :=
  (core.store.abandon.embed (storeEmbedding τ)).bind (fun _ => .pure none)

/-- `tokio::time::timeout`: the future may be dropped at any of its operations. -/
def withTimeout {α : Type} : Prog (coreSig τ) α → Prog (coreSig τ) (Option α)
  | .pure a => .pure (some a)
  | .op o k => .op (σ := coreSig τ) .timer (TimerPoll.elim (.op o (fun r => withTimeout (k r)))
      (dropped core) (.op o (fun _ => dropped core)))

/-- What the worker does once `run_driver` has ended, failed or timed out. -/
def settleWorker (args : WorkerArgs) : Option (Except CoreError Unit) → Prog (coreSig τ) Unit
  | some (.ok ()) => pure ()
  | some (.error error) => do
    let _ ← (failActive core .workerError args.taskId error).run
  | none => do
    let _ ← perform (.driverCancel args.agent.id args.taskId)
    let _ ← (failActive core .workerTimeout args.taskId .timeout).run

/-- The task spawned by `invoke`. -/
def worker (args : WorkerArgs) : Prog (coreSig τ) Unit := do
  let outcome ← withTimeout core (runDriver core args.agent args.taskId args.request).run
  settleWorker core args outcome
  perform (.activeRemove args.taskId)
  perform (.release (.agent args.agent.id))
  perform (.release .global)
  perform (.release (.caller args.caller))

def reject (reason answer : String) : CoreM τ DispatchResult := do
  failActive core .invokeReject id (.resourceExhausted reason)
  throw (.resourceExhausted answer)

variable (caller : Caller) (request : InvokeRequest)

/-- The part of `invoke` after the task has been created: acceptance, limits, worker. -/
def startTask (agent : RegisteredAgent) (id : TaskId) (snapshot : TaskSnapshot) :
    CoreM τ DispatchResult := do
  action (.activeInsert id)
  let accepted ← transition core .invokeAccept snapshot [.created] .accepted (.accepted false)
  if !(← action (.tryAcquire (.queue agent.id))) then
    reject core id ("agent " ++ agent.id.name ++ " queue full (max_queued_tasks=" ++
        toString agent.limits.maxQueuedTasks ++ ")")
      ("agent " ++ agent.id.name ++ " queue full")
  else if !(← action (.tryAcquire (.caller caller.id))) then do
    action (.release (.queue agent.id))
    reject core id ("caller " ++ caller.id.name ++ " at concurrency limit")
      ("caller " ++ caller.id.name ++ " at concurrency limit")
  else if !(← action (.tryAcquire .global)) then do
    action (.release (.caller caller.id))
    action (.release (.queue agent.id))
    reject core id "global task limit reached" "global task limit reached"
  else if !(← action (.tryAcquire (.agent agent.id))) then do
    action (.release (.caller caller.id))
    action (.release (.queue agent.id))
    action (.release .global)
    reject core id ("agent " ++ agent.id.name ++ " busy") ("agent " ++ agent.id.name ++ " busy")
  else do
    action (.release (.queue agent.id))
    action (.spawn ⟨agent, id, request, caller.id⟩)
    return .created accepted

/-- `request.task_id.unwrap_or_else(Uuid::new_v4)`. -/
def chooseTaskId : CoreM τ TaskId :=
  match request.taskId with
  | some id => pure id
  | none => action .newUuid

/-- The deadline of the request, counted from now; one that does not fit is ignored. -/
def chooseDeadline : CoreM τ (Option DateTime) :=
  match request.deadline.bind durationFromStd with
  | some d => do
    let now ← action .utcNow
    return some (now + d)
  | none => pure none

def invoke : CoreM τ DispatchResult := do
  if isBlank request.idempotencyKey then
    throw (.invalidRequest "idempotency_key required")
  else do
    let agent ← ExceptT.mk (.pure (core.registry.resolve request))
    let id ← chooseTaskId request
    let deadlineAt ← chooseDeadline request
    let initial ← fromStore (core.store.createOrGetIdempotent
      { taskId := id
        sessionId := request.sessionId
        agentId := agent.id
        callerId := caller.id
        idempotencyKey := request.idempotencyKey
        deadlineAt := deadlineAt })
    match initial with
    | .existing s => return .existing s
    | .created s => startTask core caller request agent id s

def cancel (id : TaskId) (reason : Option String) : CoreM τ DispatchResult := do
  let snapshot ← snapshot core id
  if snapshot.state.terminal then return .cancelRequested snapshot
  else match core.registry.get snapshot.agentId with
    | none => throw (.agentNotFound snapshot.agentId.name)
    | some agent => do
      let changed ← transition core .cancel snapshot
        [.created, .accepted, .running, .waitingForInput] .cancelRequested (.cancelRequested reason)
      action (.activeCancel id)
      if agent.capabilities.cancellation then do
        let _ ← action (.driverCancel agent.id id)
        return .cancelRequested changed
      else return .cancelRequested changed

def provideInput (id : TaskId) (input : List Part) : CoreM τ DispatchResult := do
  let snapshot ← snapshot core id
  if snapshot.state ≠ .waitingForInput then
    throw (.invalidRequest "task is not waiting for input")
  else match core.registry.get snapshot.agentId with
    | none => throw (.agentNotFound snapshot.agentId.name)
    | some agent =>
      if !agent.capabilities.provideInput then
        throw (.invalidRequest "agent does not support input")
      else do
        ExceptT.mk (perform (.driverProvideInput agent.id id input))
        let changed ← transition core .provideInput snapshot [.waitingForInput] .running
          (.progress "input accepted" none)
        return .inputAccepted changed

def dispatch (command : CoreCommand) : CoreM τ DispatchResult := do
  ExceptT.mk (.pure (core.policy caller command))
  match command with
  | .invoke request => invoke core caller request
  | .cancel id reason => cancel core id reason
  | .provideInput id input => provideInput core id input
  | .getStatus id => do
    let s ← snapshot core id
    return .status s

def subscribe (afterSeq : ℕ) : CoreM τ TaskSubscription := do
  let history ← fromStore (core.store.eventsAfter id afterSeq 500)
  let receiver ← match ← action (.activeSubscribe id) with
    | some r => pure r
    | none => action (.closedReceiver id)
  return ⟨history, receiver, history.getLast?.map CoreEvent.seq⟩

def history (afterSeq : ℕ) : CoreM τ (List CoreEvent) :=
  fromStore (core.store.eventsAfter id afterSeq 500)

end AdapterCore

end AgentConnector
