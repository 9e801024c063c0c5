import AgentConnector.ReliableTaskStream

/-!
# The A2A mapper

`A2aMapper` translates requests of the A2A protocol into commands of the core and the results and
events of the core back. How a string is read as a UUID is left to a parameter, the parser of the
`uuid` crate.
-/

namespace AgentConnector

open Concurrent AdapterCore

variable {τ : Signature}

structure A2aPart where
  kind : String
  text : Option String := none
  data : Option Json := none
  uri : Option String := none
  mimeType : Option String := none

structure A2aMessage where
  role : String
  parts : List A2aPart

structure A2aTaskRequest where
  idempotencyKey : String
  contextId : Option String
  taskId : Option String
  targetAgentId : Option String
  skillId : Option String
  message : A2aMessage
  metadata : Json

structure A2aTaskStatus where
  state : String
  message : Option A2aMessage

structure A2aArtifact where
  name : String
  mimeType : String
  parts : List A2aPart

structure A2aTask where
  id : String
  contextId : Option String
  status : A2aTaskStatus
  artifacts : List A2aArtifact

inductive A2aStreamEvent where
  | taskStatusUpdate (taskId : String) (status : A2aTaskStatus) (finalUpdate : Bool)
  | taskArtifactUpdate (taskId : String) (artifact : A2aArtifact)

inductive A2aMapperError where
  | invalidRequest (message : String)
  | core (error : CoreError)

def A2aMapperError.display : A2aMapperError → String
  | .invalidRequest message => "invalid A2A request: " ++ message
  | .core error => "adapter core error: " ++ error.display

abbrev MapperM (τ : Signature) := ExceptT A2aMapperError (Prog (coreSig τ))

def fromCore {α : Type} (x : CoreM τ α) : MapperM τ α :=
  ExceptT.mk (x.run.bind (fun r => .pure (r.mapError A2aMapperError.core)))

namespace A2aMapper

def toCorePart (part : A2aPart) : Except A2aMapperError Part :=
  if part.kind = "text" then .ok (.text (part.text.getD ""))
  else if part.kind = "data" ∨ part.kind = "json" then .ok (.json (part.data.getD .null))
  else if part.kind = "file" ∨ part.kind = "file_ref" then
    match part.uri with
    | some uri => .ok (.fileRef uri part.mimeType)
    | none => .error (.invalidRequest "file part requires uri")
  else .error (.invalidRequest ("unsupported A2A part kind: " ++ part.kind))

def fromCorePart : Part → A2aPart
  | .text text => { kind := "text", text := some text }
  | .json value => { kind := "data", data := some value }
  | .fileRef uri mimeType => { kind := "file_ref", uri := some uri, mimeType := mimeType }

def textMessage (text : String) : A2aMessage := ⟨"agent", [{ kind := "text", text := some text }]⟩

/-- The state, the message and the finality that an event other than an artifact reports. -/
def eventStatus : CoreEventKind → String × Option A2aMessage × Bool
  | .accepted _ => ("submitted", none, false)
  | .progress message _ => ("working", some (textMessage message), false)
  | .inputRequired request => ("input-required", some (textMessage request.question), false)
  | .completed output => ("completed", some ⟨"agent", output.map fromCorePart⟩, true)
  | .failed error => ("failed", some (textMessage error.message), true)
  | .cancelRequested _ => ("working", some (textMessage "cancellation requested"), false)
  | .cancelled => ("canceled", none, true)
  -- Artifacts are handled before: `unreachable!()`.
  | .artifact _ => ("", none, false)

def mapEvent (event : CoreEvent) : A2aStreamEvent :=
  match event.kind with
  | .artifact artifact => .taskArtifactUpdate event.taskId.display
      ⟨artifact.name, artifact.mimeType, [{ kind := "file_ref", uri := artifact.uri }]⟩
  | kind => .taskStatusUpdate event.taskId.display
      ⟨(eventStatus kind).1, (eventStatus kind).2.1⟩ (eventStatus kind).2.2

def statusFromSnapshot (snapshot : TaskSnapshot) : A2aTaskStatus where
  state := match snapshot.state with
    | .created | .accepted => "submitted"
    | .running | .cancelRequested => "working"
    | .waitingForInput => "input-required"
    | .completed => "completed"
    | .failed => "failed"
    | .cancelled => "canceled"
  message := none

def taskOf (snapshot : TaskSnapshot) : A2aTask where
  id := snapshot.taskId.display
  contextId := snapshot.sessionId.map Uuid.display
  status := statusFromSnapshot snapshot
  artifacts := []

section

variable (parse : String → Option Uuid)

def parseUuid (value field : String) : Except A2aMapperError Uuid :=
  match parse value with
  | some id => .ok id
  | none => .error (.invalidRequest (field ++ " must be UUID"))

def toCoreInvoke (request : A2aTaskRequest) : Except A2aMapperError InvokeRequest :=
  if isBlank request.idempotencyKey then
    .error (.invalidRequest "idempotency_key is required")
  else do
    let input ← request.message.parts.mapM toCorePart
    let sessionId ← request.contextId.mapM (fun value => parseUuid parse value "context_id")
    let taskId ← request.taskId.mapM (fun value => parseUuid parse value "task_id")
    return {
      taskId := taskId
      agentId := request.targetAgentId.map AgentId.mk
      skillId := request.skillId
      idempotencyKey := request.idempotencyKey
      sessionId := sessionId
      input := input
      context := request.metadata
      deadline := none }

variable (core : CoreConfig τ)

variable (caller : Caller)

def sendTask (request : A2aTaskRequest) : MapperM τ A2aTask := do
  let request ← ExceptT.mk (.pure (toCoreInvoke parse request))
  match ← fromCore (dispatch core caller (.invoke request)) with
  | .created snapshot => return taskOf snapshot
  | .existing snapshot => return taskOf snapshot
  | _ => throw (.invalidRequest "unexpected core result for invoke")

variable (taskId : String)

def getTask : MapperM τ A2aTask := do
  let taskId ← ExceptT.mk (.pure (parseUuid parse taskId "task_id"))
  match ← fromCore (dispatch core caller (.getStatus taskId)) with
  | .status snapshot => return taskOf snapshot
  | _ => throw (.invalidRequest "unexpected core result for status")

def cancelTask : MapperM τ A2aTask := do
  let taskId ← ExceptT.mk (.pure (parseUuid parse taskId "task_id"))
  match ← fromCore (dispatch core caller (.cancel taskId none)) with
  | .cancelRequested snapshot => return taskOf snapshot
  | _ => throw (.invalidRequest "unexpected core result for cancel")

/-- The events of the stream are handed on through `mapEvent`. -/
def subscribeTask (afterSeq : ℕ) : MapperM τ ReliableTaskStream := do
  let taskId ← ExceptT.mk (.pure (parseUuid parse taskId "task_id"))
  let _ ← fromCore (dispatch core caller (.getStatus taskId))
  let subscription ← fromCore (subscribe core taskId afterSeq)
  return ReliableTaskStream.new taskId afterSeq subscription

end

end A2aMapper

end AgentConnector
