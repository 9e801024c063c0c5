import AgentConnector.A2aServer
import AgentConnector.BearerTokenPolicy
import AgentConnector.ClientSession
import AgentConnector.CoreService

/-!
# The A2A executor

`AdapterAgentExecutor::execute` turns a message of the A2A protocol into a stream: it invokes the
task with the identifier of the message as idempotency key, subscribes to it from the start, and
hands on the history and then what it receives. One turn of the client is one pass through the
closure of the source, a duplicate that is skipped being a pass without an item.
-/

namespace AgentConnector

open Concurrent Broadcast

open A2a (A2AError StreamResponse)

structure ExecutorContext where
  taskId : String
  contextId : String
  message : Option A2a.Message
  metadata : Option (List (String × Json))
  serviceParams : List (String × List String)

/-- `str::strip_prefix`. -/
def stripPrefix (pattern value : String) : Option String :=
  if pattern.toList.isPrefixOf value.toList then
    some (String.ofList (value.toList.drop pattern.length))
  else none

/-- What the stream asks of its surroundings: the clock, and the next value of its receiver. -/
inductive StreamQuery where
  | now
  | recv (receiver : Receiver)

abbrev StreamQuery.Answer : StreamQuery → Type
  | now => DateTime
  | recv _ => Recv CoreEvent × Receiver

abbrev executorSig : Signature := clientSig CoreEntry CoreOutcome StreamQuery StreamQuery.Answer

abbrev ExecutorM := ExceptT A2AError (Prog executorSig)

def ofExcept {α : Type} (r : Except A2AError α) : ExecutorM α := ExceptT.mk (.pure r)

def askCore {α : Type} (e : CoreEntry) (read : CoreOutcome → Except A2AError α) : ExecutorM α :=
  ExceptT.mk ((Prog.perform (σ := executorSig) (.call e)).bind
    (fun outcome => .pure (read outcome)))

def look (q : StreamQuery) : Prog executorSig q.Answer := Prog.perform (σ := executorSig) (.look q)

/-- The result of a call; an entry point of the core only returns outcomes of its own kind. -/
def dispatched : CoreOutcome → Except A2AError DispatchResult
  | .dispatched r => r.mapError coreErrorToA2a
  | _ => .error (.internal "" [])

def subscribed : CoreOutcome → Except A2AError TaskSubscription
  | .subscribed r => r.mapError coreErrorToA2a
  | _ => .error (.internal "" [])

def invokedTask : DispatchResult → Except A2AError TaskId
  | .created s => .ok s.taskId
  | .existing s => .ok s.taskId
  | _ => .error (.internal "unexpected core result for invoke" [])

def a2aPartToAdapter (part : A2a.Part) : Part :=
  match part.content with
  | .text text => .text text
  | .raw lossy => .json (.string lossy)
  | .url url => .fileRef url part.mediaType
  | .data value => .json value

/-- The `Result` of the source is always `Ok`. -/
def a2aMessageToParts (message : Option A2a.Message) : List Part :=
  match message with
  | none => []
  | some message => message.parts.map a2aPartToAdapter

def terminalStreamResponse (ctx : ExecutorContext) (now : DateTime) : StreamResponse :=
  taskEnded ctx.taskId ctx.contextId .canceled none now

def streamLagged : A2AError :=
  .internal "subscription fell behind task history; resume with a cursor"
    [[("reason", .string "stream_lagged")]]

structure AdapterAgentExecutor where
  caller : Caller
  auth : Option BearerTokenPolicy

namespace AdapterAgentExecutor

def new (callerId : String) : AdapterAgentExecutor := ⟨⟨⟨callerId⟩, []⟩, none⟩

def withAuth (callerId : String) (auth : BearerTokenPolicy) : AdapterAgentExecutor :=
  ⟨⟨⟨callerId⟩, []⟩, some auth⟩

/-- The state of the stream between two items. -/
inductive State where
  | init
  | ready (sub : TaskSubscription)
  | done

section

variable (this : AdapterAgentExecutor)

def resolveCaller (ctx : ExecutorContext) : Except A2AError Caller :=
  match this.auth with
  | none => .ok this.caller
  | some policy =>
    match ((ctx.serviceParams.lookup "authorization").bind List.head?).bind
        (stripPrefix "Bearer ") with
    | none => .error (.invalidRequest "missing bearer token")
    | some token => match policy.resolve token with
      | none => .error (.invalidRequest "invalid bearer token")
      | some caller => .ok caller

variable (parse : String → Option Uuid)

def invokeRequest (ctx : ExecutorContext) (taskId : TaskId) : InvokeRequest where
  taskId := some taskId
  agentId := none
  skillId := none
  idempotencyKey := ctx.taskId
  sessionId := parse ctx.contextId
  input := a2aMessageToParts ctx.message
  context := (ctx.metadata.map Json.object).getD .null
  deadline := none

def parseTaskId (ctx : ExecutorContext) : Except A2AError TaskId :=
  match parse ctx.taskId with
  | some id => .ok id
  | none => .error (.invalidRequest "task_id must be a UUID")

def createAndSubscribe (ctx : ExecutorContext) : ExecutorM (TaskId × TaskSubscription) := do
  let taskId ← ofExcept (parseTaskId parse ctx)
  let caller ← ofExcept (this.resolveCaller ctx)
  let result ← askCore (.dispatch caller (.invoke (invokeRequest parse ctx taskId))) dispatched
  let taskId ← ofExcept (invokedTask result)
  let subscription ← askCore (.subscribe taskId 0) subscribed
  return (taskId, subscription)

/-- One pass through the closure of `unfold`. -/
def turn (ctx : ExecutorContext) :
    State → Option (Prog executorSig (State × Option (Except A2AError StreamResponse)))
  | .init => some do
    match ← (this.createAndSubscribe parse ctx).run with
    | .ok (_, sub) => return (.ready sub, none)
    | .error e => return (.done, some (.error e))
  | .ready sub => some <| match sub.history with
    | event :: rest => do
      let now ← look .now
      return (.ready { sub with history := rest }, some (.ok (eventToStreamResponse event now)))
    | [] => do
      match ← look (.recv sub.receiver) with
      | (.value event, receiver) =>
        -- Already handed on from the history.
        if sub.historyEndSeq.any (fun last => event.seq ≤ last) then
          return (.ready { sub with receiver := receiver }, none)
        else do
          let now ← look .now
          return (if event.kind.isTerminal then .done else .ready { sub with receiver := receiver },
            some (.ok (eventToStreamResponse event now)))
      | (.closed, _) => do
        let now ← look .now
        return (.done, some (.ok (terminalStreamResponse ctx now)))
      | (.lagged _, _) => return (.done, some (.error streamLagged))
  | .done => none

variable (M : StoreMachine) (setup : CoreSetup)

/-- The stream that `execute` returns, as a client of the core. -/
abbrev execute (ctx : ExecutorContext) : Client (coreService M setup) where
  Query := StreamQuery
  Answer := StreamQuery.Answer
  look
    | s, .recv receiver, _ => s.poll receiver
    | _, .now, c => some c.now
  Phase := State
  Item := Except A2AError StreamResponse
  init := .init
  turn := this.turn parse ctx

end

end AdapterAgentExecutor

end AgentConnector
