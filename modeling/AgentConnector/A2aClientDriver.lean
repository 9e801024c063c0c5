import AgentConnector.A2aWire
import AgentConnector.AgentRegistry
import AgentConnector.StepRuns

/-!
# The A2A client driver

`A2aClientDriver` as a machine. `invoke` spawns a task that sends one message and waits for its
answer or for the cancellation of its token, whichever comes first, reports what it got and ends,
which closes the channel. `cancel` and `provide_input` look up the remote task that the answer
named. Every access to one of the two maps and every event is one step; answers come from outside.
-/

namespace AgentConnector

namespace A2aClient

def normalizedToPart (p : NormalizedPart) : Part :=
  match p.text, p.uri with
  | some text, _ => .text text
  | none, some uri => .fileRef uri p.mimeType
  | none, none => .text ""

def isTerminal : NormalizedState → Bool
  | .completed | .failed | .canceled | .rejected => true
  | _ => false

def taskToTerminal (task : NormalizedTask) : DriverEvent :=
  match task.state with
  | .completed => .completed (task.outputParts.map normalizedToPart)
  | .failed | .rejected =>
    .failed ⟨"a2a_remote_error", task.statusMessage.getD "A2A task failed", false⟩
  | .canceled => .cancelled
  | .inputRequired | .authRequired =>
    .inputRequired ⟨task.statusMessage.getD "input required", none⟩
  | .submitted | .working => .progress (task.statusMessage.getD "") none

/-- `str::contains`. -/
def containsStr (s pattern : String) : Bool := s.toList.tails.any pattern.toList.isPrefixOf

def sendErrorToA2aCode : A2aClientError → String
  | .protocolError message =>
    if containsStr message "result" || containsStr message "task" then "a2a_no_task"
    else "a2a_remote_error"
  | _ => "a2a_remote_error"

def sendFailure (e : A2aClientError) : DriverEvent :=
  .failed ⟨sendErrorToA2aCode e, e.display, false⟩

abbrev Answer := Except A2aClientError NormalizedTask

/-- Where the task spawned by `invoke` is. -/
inductive InvokePhase where
  | starting
  | selecting
  | answered (task : NormalizedTask)
  | reporting (task : NormalizedTask)
  | failing (error : A2aClientError)
  | cancelling
  | clearingRemote
  | clearingToken
  | finished

/-- Neither the answer nor the token has been taken yet. -/
def InvokePhase.pending : InvokePhase → Bool
  | starting | selecting => true
  | _ => false

structure Invocation where
  task : TaskId
  request : InvokeRequest
  phase : InvokePhase
  /-- The state of its cancellation token. -/
  cancelled : Bool
  sent : List DriverEvent
  /-- Its token was cancelled in time; no step reads this. -/
  signalled : Bool

def Invocation.pending (v : Invocation) : Bool := v.phase.pending

/-- What the spawned task does next: a step of its own, or one of the two branches of its `select`.
-/
inductive Turn where
  | run
  | answer (r : Answer)
  | notice

def Invocation.turn (v : Invocation) : Turn → Option Invocation
  | .run => match v.phase with
    | .starting => some { v with phase := .selecting, sent := v.sent ++ [.accepted] }
    | .answered task => some { v with phase := .reporting task }
    | .reporting task => some { v with
        phase := if isTerminal task.state then .clearingRemote else .finished
        sent := v.sent ++ [taskToTerminal task] }
    | .failing error =>
      some { v with phase := .clearingToken, sent := v.sent ++ [sendFailure error] }
    | .cancelling => some { v with phase := .clearingRemote, sent := v.sent ++ [.cancelled] }
    | .clearingRemote => some { v with phase := .clearingToken }
    | .clearingToken => some { v with phase := .finished }
    | .selecting | .finished => none
  | .answer r => match v.phase with
    | .selecting => some { v with phase := match r with
        | .ok task => .answered task
        | .error error => .failing error }
    | _ => none
  | .notice => match v.phase with
    | .selecting => if v.cancelled then some { v with phase := .cancelling } else none
    | _ => none

inductive CancelPhase where
  | looking
  | signalling (remoteId : String)
  | awaiting
  | clearingRemote (result : Except CoreError Unit)
  | clearingToken (result : Except CoreError Unit)
  | returned (result : Except CoreError Unit)

/-- A call of `cancel`, made when there were `since` invocations. -/
structure CancelCall where
  task : TaskId
  since : ℕ
  phase : CancelPhase

inductive InputPhase where
  | looking
  | awaiting
  | answered (r : Answer)
  | unknown (error : CoreError)

structure InputCall where
  task : TaskId
  input : List Part
  phase : InputPhase

/-- What `provide_input` returns. -/
def InputPhase.result : InputPhase → Option (Except CoreError Unit)
  | .answered (.ok _) => some (.ok ())
  | .answered (.error e) => some (.error (.driver ("A2A provide_input failed: " ++ e.display)))
  | .unknown error => some (.error error)
  | _ => none

structure State where
  remoteTaskIds : TaskId → Option String
  /-- The invocation whose token is stored for a task. -/
  cancellationTokens : TaskId → Option ℕ
  invocations : List Invocation
  cancels : List CancelCall
  inputs : List InputCall
  /-- The operations sent to the server, newest first. -/
  posted : List A2aOperation

inductive Input where
  | invoke (task : TaskId) (request : InvokeRequest)
  | turn (k : ℕ) (t : Turn)
  | cancel (task : TaskId)
  | runCancel (c : ℕ)
  | answerCancel (c : ℕ) (r : Answer)
  | provideInput (task : TaskId) (input : List Part)
  | runInput (c : ℕ)
  | answerInput (c : ℕ) (r : Answer)

def noActiveTask (task : TaskId) : CoreError :=
  .driver ("no active A2A task for core task_id=" ++ Uuid.display task)

namespace State

variable (s : State)

def touch (v : Invocation) : State :=
  match v.phase with
  | .starting => { s with
      posted := .sendMessage (corePartsToNormalized v.request.input)
        (v.request.sessionId.map Uuid.display) none :: s.posted }
  | .answered task =>
    { s with remoteTaskIds := Function.update s.remoteTaskIds v.task (some task.id) }
  | .clearingRemote => { s with remoteTaskIds := Function.update s.remoteTaskIds v.task none }
  | .clearingToken =>
    { s with cancellationTokens := Function.update s.cancellationTokens v.task none }
  | _ => s

/-- `token.cancel()`. -/
def signal (k : ℕ) : State :=
  { s with invocations := s.invocations.modify k (fun v =>
      { v with cancelled := true, signalled := v.signalled || v.pending }) }

def setCancel (c : ℕ) (call : CancelCall) (phase : CancelPhase) : State :=
  { s with cancels := s.cancels.set c { call with phase := phase } }

def runCancel (c : ℕ) (call : CancelCall) : Option State :=
  match call.phase with
  | .looking => match s.remoteTaskIds call.task with
    | none => some (s.setCancel c call (.returned (.error (noActiveTask call.task))))
    | some remoteId => some (s.setCancel c call (.signalling remoteId))
  | .signalling remoteId =>
    let s := match s.cancellationTokens call.task with
      | some k => s.signal k
      | none => s
    some { s.setCancel c call .awaiting with posted := .cancelTask remoteId :: s.posted }
  | .clearingRemote result =>
    some { s.setCancel c call (.clearingToken result) with
      remoteTaskIds := Function.update s.remoteTaskIds call.task none }
  | .clearingToken result =>
    some { s.setCancel c call (.returned result) with
      cancellationTokens := Function.update s.cancellationTokens call.task none }
  | .awaiting | .returned _ => none

def setInput (c : ℕ) (call : InputCall) (phase : InputPhase) : State :=
  { s with inputs := s.inputs.set c { call with phase := phase } }

def runInput (c : ℕ) (call : InputCall) : Option State :=
  match call.phase with
  | .looking => match s.remoteTaskIds call.task with
    | none => some (s.setInput c call (.unknown (noActiveTask call.task)))
    | some remoteId => some { s.setInput c call .awaiting with
        posted := inputMessage call.input remoteId :: s.posted }
  | _ => none

end State

def step (s : State) : Input → Option State
  | .invoke task request => some { s with
      cancellationTokens := Function.update s.cancellationTokens task (some s.invocations.length)
      invocations := s.invocations ++ [⟨task, request, .starting, false, [], false⟩] }
  | .turn k t => s.invocations[k]?.bind (fun v => (v.turn t).map (fun v' =>
      { s.touch v with invocations := s.invocations.set k v' }))
  | .cancel task => some { s with
      cancels := s.cancels ++ [⟨task, s.invocations.length, .looking⟩] }
  | .runCancel c => s.cancels[c]?.bind (s.runCancel c)
  | .answerCancel c r => s.cancels[c]?.bind (fun call => match call.phase with
    | .awaiting => some (s.setCancel c call (.clearingRemote (match r with
        | .ok _ => .ok ()
        | .error e => .error (.driver e.display))))
    | _ => none)
  | .provideInput task input => some { s with inputs := s.inputs ++ [⟨task, input, .looking⟩] }
  | .runInput c => s.inputs[c]?.bind (s.runInput c)
  | .answerInput c r => s.inputs[c]?.bind (fun call => match call.phase with
    | .awaiting => some (s.setInput c call (.answered r))
    | _ => none)

def start : State := ⟨fun _ => none, fun _ => none, [], [], [], []⟩

end A2aClient

end AgentConnector
