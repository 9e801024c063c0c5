import AgentConnector.AdapterCore
import AgentConnector.ExceptResults
import AgentConnector.JsonAccess

/-!
# The ANP task profile

The wire messages of the profile `agent-connector.anp-task.v1`, their JSON form and their
validation. A message is an internally tagged enumeration: its JSON form is the object of the fields
of the message, the envelope among them, with the tag `message_type`.
-/

namespace AgentConnector

namespace Anp

def profileId : String := "agent-connector.anp-task.v1"

def profileVersion : UInt32 := 1

def maxPayloadBytes : ℕ := 1024 * 1024

structure MessageEnvelope where
  profile : String
  version : UInt32
  taskId : String
  operationId : String
  messageId : String
  deriving DecidableEq

def MessageEnvelope.new (taskId operationId messageId : String) : MessageEnvelope :=
  ⟨profileId, profileVersion, taskId, operationId, messageId⟩

structure ArtifactRef where
  uri : String
  mimeType : Option String

inductive TaskState where
  | completed
  | failed
  | cancelled
  deriving DecidableEq

structure TaskInvoke where
  envelope : MessageEnvelope
  agent : String
  payload : Json

structure TaskCancel where
  envelope : MessageEnvelope
  payload : Json

structure TaskGetStatus where
  envelope : MessageEnvelope
  payload : Json

structure TaskEventsRequest where
  envelope : MessageEnvelope
  afterSeq : UInt64
  payload : Json

structure TaskProvideInput where
  envelope : MessageEnvelope
  inputRequestId : String
  payload : Json

structure TaskAccepted where
  envelope : MessageEnvelope
  payload : Json

structure TaskStatus where
  envelope : MessageEnvelope
  seq : UInt64
  state : TaskState
  payload : Json

structure TaskInputRequired where
  envelope : MessageEnvelope
  seq : UInt64
  inputRequestId : String
  prompt : String
  payload : Json

structure TaskProgress where
  envelope : MessageEnvelope
  seq : UInt64
  payload : Json

structure TaskArtifact where
  envelope : MessageEnvelope
  seq : UInt64
  artifact : ArtifactRef
  payload : Json

structure TaskCompleted where
  envelope : MessageEnvelope
  seq : UInt64
  isFinal : Bool
  artifacts : List ArtifactRef
  payload : Json

structure TaskFailed where
  envelope : MessageEnvelope
  seq : UInt64
  isFinal : Bool
  error : String
  payload : Json

structure TaskCancelled where
  envelope : MessageEnvelope
  seq : UInt64
  isFinal : Bool
  payload : Json

inductive TaskEvent where
  | taskInvoke (e : TaskInvoke)
  | taskCancel (e : TaskCancel)
  | taskGetStatus (e : TaskGetStatus)
  | taskEvents (e : TaskEventsRequest)
  | taskProvideInput (e : TaskProvideInput)
  | taskAccepted (e : TaskAccepted)
  | taskStatus (e : TaskStatus)
  | taskInputRequired (e : TaskInputRequired)
  | taskProgress (e : TaskProgress)
  | taskArtifact (e : TaskArtifact)
  | taskCompleted (e : TaskCompleted)
  | taskFailed (e : TaskFailed)
  | taskCancelled (e : TaskCancelled)

namespace TaskEvent

def messageType : TaskEvent → String
  | taskInvoke _ => "task.invoke"
  | taskCancel _ => "task.cancel"
  | taskGetStatus _ => "task.get_status"
  | taskEvents _ => "task.events"
  | taskProvideInput _ => "task.provide_input"
  | taskAccepted _ => "task.accepted"
  | taskStatus _ => "task.status"
  | taskInputRequired _ => "task.input_required"
  | taskProgress _ => "task.progress"
  | taskArtifact _ => "task.artifact"
  | taskCompleted _ => "task.completed"
  | taskFailed _ => "task.failed"
  | taskCancelled _ => "task.cancelled"

def envelope : TaskEvent → MessageEnvelope
  | taskInvoke e => e.envelope
  | taskCancel e => e.envelope
  | taskGetStatus e => e.envelope
  | taskEvents e => e.envelope
  | taskProvideInput e => e.envelope
  | taskAccepted e => e.envelope
  | taskStatus e => e.envelope
  | taskInputRequired e => e.envelope
  | taskProgress e => e.envelope
  | taskArtifact e => e.envelope
  | taskCompleted e => e.envelope
  | taskFailed e => e.envelope
  | taskCancelled e => e.envelope

/-- The `payload` field, which every message has. -/
def payload : TaskEvent → Json
  | taskInvoke e => e.payload
  | taskCancel e => e.payload
  | taskGetStatus e => e.payload
  | taskEvents e => e.payload
  | taskProvideInput e => e.payload
  | taskAccepted e => e.payload
  | taskStatus e => e.payload
  | taskInputRequired e => e.payload
  | taskProgress e => e.payload
  | taskArtifact e => e.payload
  | taskCompleted e => e.payload
  | taskFailed e => e.payload
  | taskCancelled e => e.payload

def seq : TaskEvent → Option UInt64
  | taskStatus e => some e.seq
  | taskInputRequired e => some e.seq
  | taskProgress e => some e.seq
  | taskArtifact e => some e.seq
  | taskCompleted e => some e.seq
  | taskFailed e => some e.seq
  | taskCancelled e => some e.seq
  | _ => none

def isTerminal : TaskEvent → Bool
  | taskCompleted _ | taskFailed _ | taskCancelled _ => true
  | _ => false

end TaskEvent

/-! ### The JSON form -/

def MessageEnvelope.fields (env : MessageEnvelope) : List (String × Json) :=
  [("profile", .string env.profile), ("version", .int env.version.toNat),
    ("task_id", .string env.taskId), ("operation_id", .string env.operationId),
    ("message_id", .string env.messageId)]

def ArtifactRef.toJson (a : ArtifactRef) : Json :=
  .object [("uri", .string a.uri), ("mime_type", .ofOption a.mimeType)]

def TaskState.toJson : TaskState → Json
  | .completed => .string "completed"
  | .failed => .string "failed"
  | .cancelled => .string "cancelled"

def seqJson (seq : UInt64) : Json := .int seq.toNat

def TaskInvoke.fields (e : TaskInvoke) : List (String × Json) :=
  e.envelope.fields ++ [("agent", .string e.agent), ("payload", e.payload)]

def TaskCancel.fields (e : TaskCancel) : List (String × Json) :=
  e.envelope.fields ++ [("payload", e.payload)]

def TaskEvent.fields : TaskEvent → List (String × Json)
  | taskInvoke e => e.fields
  | taskCancel e => e.fields
  | taskGetStatus e => e.envelope.fields ++ [("payload", e.payload)]
  | taskEvents e =>
    e.envelope.fields ++ [("after_seq", seqJson e.afterSeq), ("payload", e.payload)]
  | taskProvideInput e =>
    e.envelope.fields ++ [("input_request_id", .string e.inputRequestId), ("payload", e.payload)]
  | taskAccepted e => e.envelope.fields ++ [("payload", e.payload)]
  | taskStatus e =>
    e.envelope.fields ++ [("seq", seqJson e.seq), ("state", e.state.toJson), ("payload", e.payload)]
  | taskInputRequired e =>
    e.envelope.fields ++ [("seq", seqJson e.seq), ("input_request_id", .string e.inputRequestId),
      ("prompt", .string e.prompt), ("payload", e.payload)]
  | taskProgress e => e.envelope.fields ++ [("seq", seqJson e.seq), ("payload", e.payload)]
  | taskArtifact e =>
    e.envelope.fields ++ [("seq", seqJson e.seq), ("artifact", e.artifact.toJson),
      ("payload", e.payload)]
  | taskCompleted e =>
    e.envelope.fields ++ [("seq", seqJson e.seq), ("final", .bool e.isFinal),
      ("artifacts", .array (e.artifacts.map ArtifactRef.toJson)), ("payload", e.payload)]
  | taskFailed e =>
    e.envelope.fields ++ [("seq", seqJson e.seq), ("final", .bool e.isFinal),
      ("error", .string e.error), ("payload", e.payload)]
  | taskCancelled e =>
    e.envelope.fields ++ [("seq", seqJson e.seq), ("final", .bool e.isFinal),
      ("payload", e.payload)]

def TaskEvent.toJson (e : TaskEvent) : Json :=
  .object (("message_type", .string e.messageType) :: e.fields)

/-! ### Validation -/

inductive ProfileError where
  | unsupportedProfileId (id : String)
  | versionMismatch (expected actual : UInt32)
  | payloadTooLarge (actual max : ℕ)
  | invalidField (field reason : String)
  | invalidSequence (reason : String)
  | terminalRuleViolation (reason : String)
  deriving DecidableEq

abbrev ProfileResult := Except ProfileError Unit

def rejectIf (bad : Bool) (e : ProfileError) : ProfileResult := if bad then .error e else .ok ()

def validateProfile (id : String) (version : UInt32) : ProfileResult := do
  rejectIf (id != profileId) (.unsupportedProfileId id)
  rejectIf (version != profileVersion) (.versionMismatch profileVersion version)

def validateText (field s : String) : ProfileResult :=
  rejectIf (isBlank s) (.invalidField field "must not be empty")

def validateTaskId (taskId : String) : ProfileResult := validateText "task_id" taskId

def validateOperationId (op : String) : ProfileResult := validateText "operation_id" op

def validateMessageId (msg : String) : ProfileResult := validateText "message_id" msg

def validatePayload (payload : Json) : ProfileResult :=
  let size := payload.render.utf8ByteSize
  rejectIf (size > maxPayloadBytes) (.payloadTooLarge size maxPayloadBytes)

def validateSeq (seq : UInt64) : ProfileResult :=
  rejectIf (seq == 0) (.invalidSequence "seq must be >= 1")

def validateEnvelope (env : MessageEnvelope) (payload : Json) : ProfileResult := do
  validateProfile env.profile env.version
  validateTaskId env.taskId
  validateOperationId env.operationId
  validateMessageId env.messageId
  validatePayload payload

def validateInvoke (inv : TaskInvoke) : ProfileResult := do
  validateEnvelope inv.envelope inv.payload
  validateText "agent" inv.agent

def validateProvideInput (pi : TaskProvideInput) (inputRequestId : String) : ProfileResult := do
  validateEnvelope pi.envelope pi.payload
  rejectIf (pi.inputRequestId != inputRequestId) (.invalidField "input_request_id"
    ("does not match expected input request `" ++ inputRequestId ++ "`"))

def validateFinal (messageType : String) (isFinal : Bool) : ProfileResult :=
  rejectIf (!isFinal) (.terminalRuleViolation (messageType ++ " must set final=true"))

def validateArtifacts (artifacts : List ArtifactRef) : ProfileResult :=
  rejectIf (artifacts.any (fun a => isBlank a.uri))
    (.invalidField "artifacts[].uri" "must not be empty")

def TaskEvent.validateBody : TaskEvent → ProfileResult
  | taskInvoke e => validateInvoke e
  | taskCancel e => validateEnvelope e.envelope e.payload
  | taskGetStatus e => validateEnvelope e.envelope e.payload
  | taskEvents e => validateEnvelope e.envelope e.payload
  | taskProvideInput e => validateProvideInput e e.inputRequestId
  | taskAccepted e => validateEnvelope e.envelope e.payload
  | taskStatus e => validateEnvelope e.envelope e.payload
  | taskInputRequired e => do
    validateEnvelope e.envelope e.payload
    validateText "input_request_id" e.inputRequestId
    validateText "prompt" e.prompt
  | taskProgress e => validateEnvelope e.envelope e.payload
  | taskArtifact e => do
    validateEnvelope e.envelope e.payload
    validateText "artifacts[].uri" e.artifact.uri
  | taskCompleted e => do
    validateEnvelope e.envelope e.payload
    validateFinal "task.completed" e.isFinal
    validateArtifacts e.artifacts
  | taskFailed e => do
    validateEnvelope e.envelope e.payload
    validateFinal "task.failed" e.isFinal
    validateText "error" e.error
  | taskCancelled e => do
    validateEnvelope e.envelope e.payload
    validateFinal "task.cancelled" e.isFinal

def validateEvent (ev : TaskEvent) : ProfileResult := do
  validateTaskId ev.envelope.taskId
  validateOperationId ev.envelope.operationId
  validateMessageId ev.envelope.messageId
  ev.seq.elim (.ok ()) validateSeq
  ev.validateBody

theorem rejectIf_eq_ok : rejectIf bad e = .ok () ↔ bad = false := by
  cases bad <;> simp [rejectIf]

theorem validateText_eq_ok : validateText field s = .ok () ↔ isBlank s = false :=
  rejectIf_eq_ok

theorem validateEnvelope_eq_ok :
    validateEnvelope env payload = .ok () ↔ env.profile = profileId ∧
      env.version = profileVersion ∧ isBlank env.taskId = false ∧ isBlank env.operationId = false ∧
      isBlank env.messageId = false ∧ payload.render.utf8ByteSize ≤ maxPayloadBytes := by
  simp only [validateEnvelope, validateProfile, validateTaskId, validateOperationId,
    validateMessageId, validatePayload, unit_bind_eq_ok_iff, validateText_eq_ok, rejectIf_eq_ok,
    bne_eq_false_iff_eq, decide_eq_false_iff_not, not_lt, gt_iff_lt, and_assoc]

end Anp

end AgentConnector
