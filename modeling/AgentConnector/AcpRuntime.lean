import AgentConnector.AcpWire
import AgentConnector.AdapterCore

/-!
# The ACP runtime

The methods of the JSON-RPC runtime over the core, from the parameters of a request to its result or
error. Parsing a UUID is left to a parameter.
-/

namespace AgentConnector.Acp

open Concurrent

structure JsonRpcError where
  code : ℤ
  message : String

def invalidRequest (message : String) : JsonRpcError := ⟨-32600, message⟩

def internalError (message : String) : JsonRpcError := ⟨-32603, message⟩

def coreError : CoreError → JsonRpcError
  | .invalidRequest message => invalidRequest message
  | .agentNotFound id => internalError ("agent not found: " ++ id)
  | .noEligibleAgent => internalError "no eligible agent"
  | .resourceExhausted message => internalError message
  | .driver message => internalError message
  | .timeout => internalError "task timed out"
  | .store e => internalError e.display

abbrev Response := Except JsonRpcError Json

def blockToPart (block : Json) : Option Part :=
  match block.getStr "kind" with
  | some "text" => (block.getStr "text").map .text
  | some "resource" =>
    some (.fileRef ((block.getStr "uri").getD "") (block.getStr "mimeType"))
  | _ => (block.get "json").map .json

def extractParts (params : Json) : List Part :=
  match params.getArray "prompt" with
  | some blocks => blocks.filterMap blockToPart
  | none => []

def promptResponse : Except CoreError DispatchResult → Response
  | .ok (.created s) | .ok (.existing s) =>
    .ok (.object [("sessionId", .string ((s.sessionId.map Uuid.display).getD "")),
      ("taskId", .string s.taskId.display)])
  | .ok _ => .error (internalError "unexpected core result")
  | .error e => .error (coreError e)

def commandResponse : Except CoreError DispatchResult → Response
  | .ok _ => .ok .null
  | .error e => .error (coreError e)

def updateResponse : Except CoreError (List CoreEvent) → Response
  | .ok events => .ok (.object [("events", .array (events.map eventToJson))])
  | .error e => .error (coreError e)

section

variable {τ : Signature} (parse : String → Option Uuid) (core : CoreConfig τ) (caller : Caller)

def taskIdParam (params : Json) : Option TaskId := (params.getStr "taskId").bind parse

def sessionIdParam (params : Json) : Option SessionId :=
  match (params.getStr "sessionId").getD "" with
  | "" => none
  | text => parse text

/-- The command of a prompt; the core chooses the identifier of the task. -/
def promptRequest (params : Json) (requestId : String) : InvokeRequest where
  taskId := none
  agentId := none
  skillId := none
  idempotencyKey := "acp:" ++ requestId
  sessionId := sessionIdParam parse params
  input := extractParts params
  context := (params.get "metadata").getD .null
  deadline := none

def promptCommand (params : Json) : Except JsonRpcError CoreCommand :=
  match (params.getStr "requestId").getD "" with
  | "" => .error (invalidRequest "requestId is required")
  | requestId => .ok (.invoke (promptRequest parse params requestId))

def cancelCommand (params : Json) : Except JsonRpcError CoreCommand :=
  match taskIdParam parse params with
  | some id => .ok (.cancel id (some "ACP cancel"))
  | none => .error (invalidRequest "taskId (UUID) is required")

def inputCommand (params : Json) : Except JsonRpcError CoreCommand :=
  match taskIdParam parse params with
  | some id => .ok (.provideInput id (extractParts params))
  | none => .error (invalidRequest "taskId (UUID) is required")

/-- A command for the core, and what its result is answered with. -/
def answer (command : Except JsonRpcError CoreCommand)
    (respond : Except CoreError DispatchResult → Response) : Prog (coreSig τ) Response :=
  match command with
  | .ok command => (AdapterCore.dispatch core caller command).run.bind (fun r => .pure (respond r))
  | .error e => .pure (.error e)

def methodSessionPrompt (params : Json) : Prog (coreSig τ) Response :=
  answer core caller (promptCommand parse params) promptResponse

def methodSessionCancel (params : Json) : Prog (coreSig τ) Response :=
  answer core caller (cancelCommand parse params) commandResponse

def methodSessionInput (params : Json) : Prog (coreSig τ) Response :=
  answer core caller (inputCommand parse params) commandResponse

def methodSessionUpdate (params : Json) : Prog (coreSig τ) Response :=
  match taskIdParam parse params with
  | some id => (AdapterCore.history core id 0).run.bind (fun r => .pure (updateResponse r))
  | none => .pure (.error (invalidRequest "taskId (UUID) is required"))

end

end AgentConnector.Acp
