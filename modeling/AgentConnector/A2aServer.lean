import AgentConnector.AdapterCore

/-!
# Tasks and stream items of the A2A server

The types of the A2A SDK that the server fills in, the translation of core events and snapshots into
them, and `AdapterTaskStore`, the read side the SDK uses. Timestamps that the source takes from the
clock are an argument.
-/

namespace AgentConnector

open Concurrent

variable {τ : Signature}

namespace A2a

inductive TaskState where
  | unspecified
  | submitted
  | working
  | inputRequired
  | authRequired
  | completed
  | failed
  | canceled
  | rejected
  deriving DecidableEq

def TaskState.terminal : TaskState → Bool
  | completed | failed | canceled => true
  | _ => false

inductive Role where
  | user
  | agent

inductive PartContent where
  | text (text : String)
  /-- Bytes, given by their lossy reading as UTF-8. -/
  | raw (lossy : String)
  | url (url : String)
  | data (value : Json)

structure Part where
  content : PartContent
  filename : Option String := none
  mediaType : Option String := none
  metadata : Option Json := none

structure Message where
  role : Role
  parts : List Part

structure TaskStatus where
  state : TaskState
  message : Option Message
  timestamp : Option DateTime

structure Artifact where
  artifactId : String
  name : Option String
  description : Option String := none
  parts : List Part
  metadata : Option Json := none
  extensions : Option (List String) := none

structure Task where
  id : String
  contextId : String
  status : TaskStatus
  artifacts : Option (List Artifact) := none
  history : Option (List Message) := none
  metadata : Option Json := none

inductive StreamResponse where
  | task (task : Task)
  | statusUpdate (taskId contextId : String) (status : TaskStatus) (metadata : Option Json)
  | artifactUpdate (taskId contextId : String) (artifact : Artifact)
    (append lastChunk : Option Bool)
      (metadata : Option Json)

inductive A2AError where
  | invalidRequest (message : String)
  | internal (message : String) (details : List (List (String × Json)))
  | taskNotFound (id : String)

end A2a

open A2a (A2AError StreamResponse)

def statusUpdate (taskId contextId : String) (state : A2a.TaskState) (message : Option String)
    (now : DateTime) : StreamResponse :=
  .statusUpdate taskId contextId
    ⟨state, message.map (fun text => ⟨.agent, [{ content := .text text }]⟩), some now⟩ none

variable (taskId contextId : String)

/-- `task_completed`, `task_failed` and `task_canceled`. -/
def taskEnded (state : A2a.TaskState) (message : Option A2a.Message) (now : DateTime) :
    StreamResponse :=
  .task { id := taskId, contextId := contextId, status := ⟨state, message, some now⟩ }

def taskCompleted (message : Option A2a.Message) (now : DateTime) :
    StreamResponse :=
  taskEnded taskId contextId .completed message now

def taskFailed (message : Option A2a.Message) (now : DateTime) :
    StreamResponse :=
  taskEnded taskId contextId .failed message now

def taskCanceled (now : DateTime) : StreamResponse :=
  taskEnded taskId contextId .canceled none now

def adapterPartToA2a : Part → A2a.Part
  | .text text => { content := .text text }
  | .json value => { content := .data value }
  | .fileRef uri mimeType => { content := .url uri, mediaType := some (mimeType.getD "") }

def eventToStreamResponse (event : CoreEvent) (now : DateTime) : StreamResponse :=
  let taskId := event.taskId.display
  let contextId := event.taskId.display
  match event.kind with
  | .accepted _ => statusUpdate taskId contextId .working none now
  | .progress message _ => statusUpdate taskId contextId .working (some message) now
  | .inputRequired request =>
    statusUpdate taskId contextId .inputRequired (some request.question) now
  | .artifact artifact => .artifactUpdate taskId contextId
      { artifactId := artifact.id
        name := some artifact.name
        parts := [{
          content := (artifact.uri.map A2a.PartContent.url).getD (.text "")
          mediaType := some artifact.mimeType }] } none none none
  | .completed output =>
    taskCompleted taskId contextId (some ⟨.agent, output.map adapterPartToA2a⟩) now
  | .failed error =>
    taskFailed taskId contextId (some ⟨.agent, [{ content := .text error.message }]⟩) now
  | .cancelRequested _ =>
    statusUpdate taskId contextId .working (some "cancellation requested") now
  | .cancelled => taskCanceled taskId contextId now

/-- The terminal state that an item reports: only items that carry a whole task do. -/
def A2a.StreamResponse.ended? : StreamResponse → Option A2a.TaskState
  | .task whole => if whole.status.state.terminal then some whole.status.state else none
  | _ => none

def mapTaskState : TaskState → A2a.TaskState
  | .created | .accepted | .running => .working
  | .waitingForInput => .inputRequired
  | .cancelRequested => .working
  | .cancelled => .canceled
  | .completed => .completed
  | .failed => .failed

/-- `task_to_a2a`, which `task_snapshot_to_stream` repeats. -/
def taskToA2a (snapshot : TaskSnapshot) : A2a.Task where
  id := snapshot.taskId.display
  contextId := (snapshot.sessionId.map Uuid.display).getD snapshot.taskId.display
  status := ⟨mapTaskState snapshot.state, none, some snapshot.updatedAt⟩

def taskSnapshotToStream (result : DispatchResult) : StreamResponse :=
  .task (taskToA2a result.snapshot)

def coreErrorToA2a : CoreError → A2AError
  | .invalidRequest msg => .invalidRequest msg
  | .agentNotFound id => .invalidRequest ("agent not found: " ++ id)
  | .noEligibleAgent => .invalidRequest "no eligible agent"
  | .resourceExhausted msg => .internal msg []
  | .driver msg => .internal msg []
  | .timeout => .internal "task timed out" []
  | .store e => .internal e.display []

def storeErrorToA2a : StoreError → A2AError
  | .notFound id => .taskNotFound id.display
  | .conflict => .internal "concurrent mutation conflict" []
  | .invalidTransition msg => .internal msg []
  | .unavailable msg => .internal msg []
  | .corrupt msg => .internal msg []
  | .internal msg => .internal msg []

namespace AdapterTaskStore

variable (parse : String → Option Uuid) (inner : TaskStore τ)

/-- The snapshot of the task that a text names. -/
def lookup (taskId : String) : Prog τ (Except A2AError (TaskId × Option TaskSnapshot)) :=
  match parse taskId with
  | none => .pure (.error (.invalidRequest "task_id must be a UUID"))
  | some id => (inner.getSnapshot id).bind fun r => .pure (match r with
    | .error e => .error (storeErrorToA2a e)
    | .ok snapshot => .ok (id, snapshot))

def create (task : A2a.Task) : Prog τ (Except A2AError ℕ) :=
  (lookup parse inner task.id).bind fun r => .pure (match r with
    | .error e => .error e
    | .ok (_, some snapshot) => .ok snapshot.revision
    | .ok (_, none) => .ok 1)

def update (task : A2a.Task) : Prog τ (Except A2AError ℕ) :=
  (lookup parse inner task.id).bind fun r => .pure (match r with
    | .error e => .error e
    | .ok (_, some snapshot) => .ok snapshot.revision
    | .ok (id, none) => .error (.taskNotFound id.display))

def get (taskId : String) : Prog τ (Except A2AError (Option A2a.Task)) :=
  (lookup parse inner taskId).bind fun r => .pure (match r with
    | .error e => .error e
    | .ok (_, snapshot) => .ok (snapshot.map taskToA2a))

end AdapterTaskStore

end AgentConnector
