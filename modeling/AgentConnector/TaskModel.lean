import Mathlib.Tactic

/-!
# Tasks, events, commands and limits

The data types of `adapter-model`. Identifiers of tasks and sessions are 128-bit UUIDs, sequence
numbers (`EventSeq`) and revisions are natural numbers, and points in time are nanoseconds since
the epoch.
-/

namespace AgentConnector

abbrev Uuid := BitVec 128
abbrev TaskId := Uuid
abbrev SessionId := Uuid

/-- The hyphenated lower-case rendering of a UUID. -/
def Uuid.display (u : Uuid) : String :=
  let digits := u.toHex.toList
  String.ofList (digits.take 8 ++ '-' :: (digits.drop 8).take 4 ++ '-' :: (digits.drop 12).take 4 ++
    '-' :: (digits.drop 16).take 4 ++ '-' :: digits.drop 20)

/-- `DateTime<Utc>`, in nanoseconds since the epoch. -/
abbrev DateTime := ℤ

/-- A JSON value; a number that is not an integer is kept as its literal. -/
inductive Json where
  | null
  | bool (b : Bool)
  | int (n : ℤ)
  | float (literal : String)
  | string (s : String)
  | array (items : List Json)
  | object (fields : List (String × Json))

structure AgentId where
  name : String
  deriving DecidableEq

structure CallerId where
  name : String
  deriving DecidableEq

structure Caller where
  id : CallerId
  scopes : List String

inductive Part where
  | text (text : String)
  | json (value : Json)
  | fileRef (uri : String) (mimeType : Option String)

structure ArtifactRef where
  id : String
  name : String
  mimeType : String
  sizeBytes : ℕ
  uri : Option String

structure InputRequest where
  question : String
  schema : Option Json

structure PublicError where
  code : String
  message : String
  retryable : Bool

inductive TaskState where
  | created
  | accepted
  | running
  | waitingForInput
  | cancelRequested
  | completed
  | failed
  | cancelled
  deriving DecidableEq

namespace TaskState

def terminal : TaskState → Bool
  | completed | failed | cancelled => true
  | _ => false

/-- The `{:?}` rendering of a state. -/
def debug : TaskState → String
  | created => "Created"
  | accepted => "Accepted"
  | running => "Running"
  | waitingForInput => "WaitingForInput"
  | cancelRequested => "CancelRequested"
  | completed => "Completed"
  | failed => "Failed"
  | cancelled => "Cancelled"

end TaskState

inductive CoreEventKind where
  | accepted (queued : Bool)
  | progress (message : String) (percent : Option UInt8)
  | artifact (artifact : ArtifactRef)
  | inputRequired (request : InputRequest)
  | completed (output : List Part)
  | failed (error : PublicError)
  | cancelRequested (reason : Option String)
  | cancelled

structure CoreEvent where
  taskId : TaskId
  seq : ℕ
  at_ : DateTime
  kind : CoreEventKind

structure InvokeRequest where
  taskId : Option TaskId
  agentId : Option AgentId
  skillId : Option String
  idempotencyKey : String
  sessionId : Option SessionId
  input : List Part
  context : Json
  /-- A `Duration`, in nanoseconds. -/
  deadline : Option ℕ

inductive CoreCommand where
  | invoke (request : InvokeRequest)
  | cancel (taskId : TaskId) (reason : Option String)
  | provideInput (taskId : TaskId) (input : List Part)
  | getStatus (taskId : TaskId)

structure TaskSnapshot where
  taskId : TaskId
  sessionId : Option SessionId
  agentId : AgentId
  callerId : CallerId
  state : TaskState
  revision : ℕ
  lastSeq : ℕ
  createdAt : DateTime
  updatedAt : DateTime
  terminalAt : Option DateTime
  deriving DecidableEq

inductive DispatchResult where
  | created (snapshot : TaskSnapshot)
  | existing (snapshot : TaskSnapshot)
  | status (snapshot : TaskSnapshot)
  | cancelRequested (snapshot : TaskSnapshot)
  | inputAccepted (snapshot : TaskSnapshot)

def DispatchResult.snapshot : DispatchResult → TaskSnapshot
  | .created s | .existing s | .status s | .cancelRequested s | .inputAccepted s => s

structure NewTask where
  taskId : TaskId
  sessionId : Option SessionId
  agentId : AgentId
  callerId : CallerId
  idempotencyKey : String
  deadlineAt : Option DateTime
  deriving DecidableEq

inductive CreateTaskResult where
  | created (snapshot : TaskSnapshot)
  | existing (snapshot : TaskSnapshot)

structure TaskTransition where
  taskId : TaskId
  expectedRevision : ℕ
  allowedStates : List TaskState
  nextState : TaskState
  eventKind : CoreEventKind

structure AppliedTransition where
  snapshot : TaskSnapshot
  event : CoreEvent

structure DriverCapabilities where
  cancellation : Bool
  provideInput : Bool

structure AgentLimits where
  maxConcurrentTasks : ℕ
  maxQueuedTasks : ℕ
  maxInputBytes : ℕ
  maxEventBytes : ℕ
  /-- A `Duration`, in nanoseconds. -/
  defaultTimeout : ℕ

/-- Whether an event ends its task (`is_terminal`). -/
def CoreEventKind.isTerminal : CoreEventKind → Bool
  | completed _ | failed _ | cancelled => true
  | _ => false

end AgentConnector
