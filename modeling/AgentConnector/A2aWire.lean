import AgentConnector.JsonAccess

/-!
# The wire formats of the A2A client

The two JSON-RPC dialects of the A2A client driver. A dialect names the method of an operation,
builds its parameters and parses the task in a result; the driver itself only sees normalized tasks.
-/

namespace AgentConnector

namespace A2aClient

inductive NormalizedState where
  | submitted
  | working
  | inputRequired
  | authRequired
  | completed
  | failed
  | canceled
  | rejected
  deriving DecidableEq

structure NormalizedPart where
  text : Option String
  raw : Option (List UInt8)
  uri : Option String
  mimeType : Option String
  deriving DecidableEq

/-- `NormalizedPart::default`. -/
def NormalizedPart.empty : NormalizedPart := ⟨none, none, none, none⟩

def NormalizedPart.ofText (text : String) : NormalizedPart := ⟨some text, none, none, none⟩

structure NormalizedTask where
  id : String
  contextId : Option String
  state : NormalizedState
  statusMessage : Option String
  outputParts : List NormalizedPart
  deriving DecidableEq

inductive A2aOperation where
  | sendMessage (parts : List NormalizedPart) (contextId taskId : Option String)
  | getTask (taskId : String)
  | cancelTask (taskId : String)
  deriving DecidableEq

inductive A2aClientError where
  | http (message : String)
  | protocolError (message : String)
  | methodNotFound (method wireFormat : String) (serverCode : ℤ) (serverMessage : String)
  | contextLost (serverMessage : String)
  | remoteError (code : ℤ) (message : String)
  deriving DecidableEq

def A2aClientError.display : A2aClientError → String
  | .http message => "A2A transport error: " ++ message
  | .protocolError message => "A2A protocol error: " ++ message
  | .methodNotFound method wireFormat serverCode serverMessage =>
    "Method '" ++ method ++ "' not recognized by server (wire_format=" ++ wireFormat ++
      ", server_code=" ++ toString serverCode ++
      "). Hint: check that the endpoint's wire_format " ++
      "matches the server's expected JSON-RPC dialect (sdk ↔ SendMessage/GetTask/ " ++
      "CancelTask, spec ↔ message/send/tasks/get/tasks/cancel). Note: servers may " ++
      "report this as -32601 (unknown agent path) or as a generic application error " ++
      "(e.g. -32000) with 'method_not_found:' in the message — both are treated as " ++
      "the same class of error here. Server said: " ++ serverMessage
  | .contextLost serverMessage =>
    "A2A context lost (-32010), likely due to agent restart behind the " ++
      "gateway. Retry with a fresh context_id (do not reuse task_id). " ++
      "Server said: " ++ serverMessage
  | .remoteError code message => "A2A remote error [" ++ toString code ++ "]: " ++ message

structure A2aWire where
  name : String
  jsonrpcMethod : A2aOperation → String
  buildParams : A2aOperation → Json
  parseTask : Json → Except A2aClientError NormalizedTask

/-- `ok_or_else` with a protocol error. -/
def orProtocolError {α : Type} (v : Option α) (message : String) : Except A2aClientError α :=
  match v with
  | some a => .ok a
  | none => .error (.protocolError message)

/-- The parts of all artifacts of a task, each read by `read`. -/
def artifactParts (read : List Json → List NormalizedPart) (task : Json) : List NormalizedPart :=
  ((task.getArray "artifacts").getD []).flatMap
    (fun artifact => read ((artifact.getArray "parts").getD []))

namespace Sdk

def partToSdk (p : NormalizedPart) : Json :=
  match p.text, p.uri, p.raw with
  | some text, _, _ => .object [("text", .string text)]
  | none, some uri, _ => .object [("url", .string uri), ("media_type", .ofOption p.mimeType)]
  | none, none, some raw => .object [("raw", .array (raw.map (fun b => .int b.toNat)))]
  | none, none, none => .object [("text", .string "")]

def sdkPartToNormalized (p : Json) : NormalizedPart :=
  match p.getStr "text", p.getStr "url" with
  | some text, _ => .ofText text
  | none, some url => ⟨none, none, some url, p.getStr "media_type"⟩
  | none, none => .empty

def jsonrpcMethod : A2aOperation → String
  | .sendMessage _ _ _ => "SendMessage"
  | .getTask _ => "GetTask"
  | .cancelTask _ => "CancelTask"

def buildParams : A2aOperation → Json
  | .sendMessage parts contextId taskId =>
    let message := .object [("role", .string "ROLE_USER"), ("parts", .array (parts.map partToSdk))]
    .object ([("message", message)] ++ Json.optional "contextId" (contextId.map .string) ++
      Json.optional "taskId" (taskId.map .string))
  | .getTask taskId => .object [("name", .string ("tasks/" ++ taskId))]
  | .cancelTask taskId => .object [("name", .string ("tasks/" ++ taskId))]

def parseState : String → Except A2aClientError NormalizedState
  | "TASK_STATE_SUBMITTED" => .ok .submitted
  | "TASK_STATE_WORKING" => .ok .working
  | "TASK_STATE_INPUT_REQUIRED" => .ok .inputRequired
  | "TASK_STATE_AUTH_REQUIRED" => .ok .authRequired
  | "TASK_STATE_COMPLETED" => .ok .completed
  | "TASK_STATE_FAILED" => .ok .failed
  | "TASK_STATE_CANCELLED" => .ok .canceled
  | "TASK_STATE_REJECTED" => .ok .rejected
  | other => .error (.protocolError ("sdk wire: unknown task state '" ++ other ++
      "' — verify against a2a/src/types.rs TaskState serde before treating this as terminal"))

def parseTask (result : Json) : Except A2aClientError NormalizedTask := do
  let task ← orProtocolError (result.get "task")
    "sdk wire: expected 'result.task' wrapper, field missing"
  let id ← orProtocolError (task.getStr "id") "sdk wire: task.id missing"
  let state ← parseState
    (((task.pointer ["status", "state"]).bind Json.asStr).getD "TASK_STATE_UNSPECIFIED")
  let messageParts := (task.pointer ["status", "message", "parts"]).bind Json.asArray
  return {
    id := id
    contextId := task.getStr "contextId"
    state := state
    -- All texts of the message, one after the other.
    statusMessage := messageParts.map
      (fun parts => String.join (parts.filterMap (fun p => p.getStr "text")))
    outputParts := artifactParts (fun parts => parts.map sdkPartToNormalized) task }

end Sdk

namespace Spec

def partToSpec (p : NormalizedPart) : Json :=
  match p.text, p.uri, p.raw with
  | some text, _, _ => .object [("kind", .string "text"), ("text", .string text)]
  | none, some uri, _ => .object [("kind", .string "file"),
      ("file", .object [("uri", .string uri), ("mimeType", .ofOption p.mimeType)])]
  | none, none, some raw =>
    .object [("kind", .string "data"), ("data", .array (raw.map (fun b => .int b.toNat)))]
  | none, none, none => .object [("kind", .string "text"), ("text", .string "")]

/-- Reads a part by its tag; a part that is neither a text nor a file is left out. -/
def specPartToNormalized (p : Json) : Option NormalizedPart :=
  match p.getStr "kind" with
  | some "text" => (p.getStr "text").map .ofText
  | some "file" => ((p.pointer ["file", "uri"]).bind Json.asStr).map (fun uri =>
      ⟨none, none, some uri, (p.pointer ["file", "mimeType"]).bind Json.asStr⟩)
  | _ => none

def jsonrpcMethod : A2aOperation → String
  | .sendMessage _ _ _ => "message/send"
  | .getTask _ => "tasks/get"
  | .cancelTask _ => "tasks/cancel"

def buildParams : A2aOperation → Json
  | .sendMessage parts contextId _ =>
    let message := [("role", .string "user"), ("parts", .array (parts.map partToSpec))] ++
      Json.optional "contextId" (contextId.map .string)
    .object [("message", .object message)]
  | .getTask taskId => .object [("id", .string taskId)]
  | .cancelTask taskId => .object [("id", .string taskId)]

def parseState : String → Except A2aClientError NormalizedState
  | "submitted" => .ok .submitted
  | "working" => .ok .working
  | "input_required" => .ok .inputRequired
  | "auth_required" => .ok .authRequired
  | "completed" => .ok .completed
  | "failed" => .ok .failed
  | "canceled" => .ok .canceled
  | "rejected" => .ok .rejected
  | other => .error (.protocolError ("spec wire: unknown task state '" ++ other ++
      "' — verify against protocol/src/a2a.rs kebab-case state list"))

def parseTask (result : Json) : Except A2aClientError NormalizedTask := do
  let id ← orProtocolError (result.getStr "id") "spec wire: task.id missing"
  let state ← parseState
    (((result.pointer ["status", "state"]).bind Json.asStr).getD "submitted")
  return {
    id := id
    contextId := result.getStr "context_id"
    state := state
    -- The text of the first part only.
    statusMessage := (result.pointer ["status", "message", "parts", "0", "text"]).bind Json.asStr
    outputParts := artifactParts (fun parts => parts.filterMap specPartToNormalized) result }

end Spec

def sdkWire : A2aWire := ⟨"sdk", Sdk.jsonrpcMethod, Sdk.buildParams, Sdk.parseTask⟩

def specWire : A2aWire := ⟨"spec", Spec.jsonrpcMethod, Spec.buildParams, Spec.parseTask⟩

/-- `A2aWireFormat` once it is resolved. -/
inductive Dialect where
  | sdk
  | spec
  deriving DecidableEq

def Dialect.wire : Dialect → A2aWire
  | .sdk => sdkWire
  | .spec => specWire

def corePartsToNormalized (parts : List Part) : List NormalizedPart :=
  parts.map (fun
    | .text text => .ofText text
    | .json value => .ofText value.render
    | .fileRef uri mimeType => ⟨none, none, some uri, mimeType⟩)

/-- The message with which `provide_input` continues the task `remoteId`. -/
def inputMessage (input : List Part) (remoteId : String) : A2aOperation :=
  .sendMessage (corePartsToNormalized input) none (some remoteId)

end A2aClient

end AgentConnector
