import AgentConnector.SseFrames
import AgentConnector.StepRuns

/-!
# The HTTP/SSE driver

`stream_events` with its calls of `read_sse`, as a machine whose inputs are what the server, the
timers and the consumer of the events do. Awaiting a response, a chunk, room in the task channel or
the end of a pause are its waiting points, so the consumer can go away at any of them. The log keeps
what the driver does: the requests it makes, the frames it parses, the events it sends and what each
call of `read_sse` returns. Decoding JSON is left to a parameter.
-/

namespace AgentConnector

namespace HttpSse

structure UaicEvent where
  protocol : String
  messageType : String
  taskId : TaskId
  seq : Option ℕ
  message : Option String
  percent : Option UInt8
  artifact : Option ArtifactRef
  request : Option InputRequest
  output : Option (List Part)
  error : Option PublicError

structure Config where
  maxEventBytes : ℕ
  reconnectInitialBackoff : ℕ
  reconnectMaxBackoff : ℕ
  reconnectAttempts : ℕ
  /-- `serde_json::from_slice::<UaicEvent>`, with the text of its error. -/
  decode : Bytes → Except String UaicEvent

/-- `map_uaic_event` up to the sending; a message of an unknown type is dropped. -/
def mapUaicEvent (event : UaicEvent) : Except CoreError (Option DriverEvent) :=
  match event.messageType with
  | "accepted" => .ok (some .accepted)
  | "progress" => .ok (some (.progress (event.message.getD "") event.percent))
  | "artifact" => match event.artifact with
    | some artifact => .ok (some (.artifact artifact))
    | none => .error (.driver "artifact event without artifact")
  | "input_required" => match event.request with
    | some request => .ok (some (.inputRequired request))
    | none => .error (.driver "input_required without request")
  | "completed" => .ok (some (.completed (event.output.getD [])))
  | "failed" => .ok (some (.failed (event.error.getD
      ⟨"agent_failed", event.message.getD "agent failed", false⟩)))
  | "cancelled" => .ok (some .cancelled)
  | _ => .ok none

def terminal : DriverEvent → Bool
  | .completed _ | .failed _ | .cancelled => true
  | _ => false

variable (cfg : Config) (task : TaskId)

/-- The body of the loop over the frames: the new cursor, and the event to be sent with its
number. -/
def readEvent (latest : ℕ) (id : Option (List Char)) (data : Bytes) :
    Except CoreError (ℕ × Option (Option ℕ × DriverEvent)) :=
  match cfg.decode data with
  | .error m => .error (.driver ("invalid UAIC SSE event: " ++ m))
  | .ok event =>
    if event.protocol ≠ "uaic/1" ∨ event.taskId ≠ task then .ok (latest, none)
    else
      let seq := event.seq.or (id.bind parseU64)
      if seq.any (· ≤ latest) then .ok (latest, none)
      else match mapUaicEvent event with
        | .error e => .error e
        | .ok none => .ok (seq.getD latest, none)
        | .ok (some mapped) => .ok (seq.getD latest, some (seq, mapped))

inductive StreamOutcome where
  | terminal
  | disconnected (lastSeq : ℕ)

/-- The variables of a call of `read_sse`. -/
structure Reader where
  buffer : Bytes
  latestSeq : ℕ
  first : Bool

/-- Where `stream_events` waits. -/
inductive Phase where
  | requesting
  | reading (r : Reader)
  /-- In the loop over the frames of the buffer, where sending may have to wait. -/
  | draining (r : Reader)
  | sleeping
  | finished

inductive Entry where
  | request (afterSeq : ℕ)
  | parsed (id : Option (List Char)) (data : Bytes)
  | forwarded (seq : Option ℕ) (event : DriverEvent)
  | returned (result : Except CoreError StreamOutcome)
  /-- The failure that `stream_events` reports when it gives up. -/
  | gaveUp (event : DriverEvent)

structure State where
  phase : Phase
  afterSeq : ℕ
  attempts : ℕ
  backoff : ℕ
  /-- How many more events the consumer takes before it goes away, if it ever does. -/
  room : Option ℕ
  /-- Newest first. -/
  log : List Entry

/-- What the driver can be given: the response to its request, a chunk, a failure to read, the end
of the stream, the end of a timer, its turn while it drains the buffer, and a consumer that goes
away. -/
inductive Input where
  | respond (r : Except CoreError Unit)
  | chunk (bytes : Bytes)
  | readError (message : String)
  | timeout
  | eof
  | proceed
  | wake
  | close

namespace State

variable (s : State)

def closed : Bool := s.room = some 0

def record (e : Entry) : State := { s with log := e :: s.log }

/-- `tx.send(..)`. -/
def deliver (e : Entry) : Option State :=
  if s.closed then none else some { s with room := s.room.map (· - 1), log := e :: s.log }

/-- `read_sse` has returned an error. -/
def fail (error : CoreError) : State :=
  let s := { s with attempts := s.attempts + 1, log := .returned (.error error) :: s.log }
  if s.attempts > cfg.reconnectAttempts then
    { (s.deliver (.gaveUp (.failed ⟨"stream_unavailable", error.display, true⟩))).getD s with
      phase := .finished }
  else { s with phase := .sleeping }

def disconnect (lastSeq : ℕ) : State :=
  { s with
    phase := .sleeping
    afterSeq := lastSeq
    attempts := s.attempts + 1
    log := .returned (.ok (.disconnected lastSeq)) :: s.log }

def handle (s : State) (r : Reader) (frame : Bytes) : State :=
  match parseSseFrame frame with
  | none => { s with phase := .draining r }
  | some (id, data) =>
    let s := s.record (.parsed id data)
    match readEvent cfg task r.latestSeq id data with
    | .error e => s.fail cfg e
    | .ok (latest, none) => { s with phase := .draining { r with latestSeq := latest } }
    | .ok (latest, some (seq, event)) => match s.deliver (.forwarded seq event) with
      | none => s.fail cfg (.driver "task consumer closed")
      | some s =>
        if terminal event then { s.record (.returned (.ok .terminal)) with phase := .finished }
        else { s with phase := .draining { r with latestSeq := latest } }

/-- One turn of the loop over the buffer. -/
def proceed (s : State) (r : Reader) : State :=
  match findSseBoundary r.buffer with
  | none => { s with phase := .reading r }
  | some n =>
    s.handle cfg task { r with buffer := drainBoundary (r.buffer.drop n) } (r.buffer.take n)

/-- A chunk has arrived. -/
def receive (r : Reader) (bytes : Bytes) : State :=
  if (r.buffer ++ bytes).length > cfg.maxEventBytes then
    s.fail cfg (.driver "SSE event exceeds max_event_bytes")
  else { s with phase := .draining ⟨r.buffer ++ bytes, r.latestSeq, false⟩ }

end State

def step (s : State) (i : Input) : Option State :=
  match i, s.phase with
  | .close, _ => some { s with room := some 0 }
  | .respond (.ok ()), .requesting => some { s with phase := .reading ⟨[], s.afterSeq, true⟩ }
  | .respond (.error e), .requesting => some (s.fail cfg e)
  | .chunk bytes, .reading r => some (s.receive cfg r bytes)
  | .readError m, .reading _ => some (s.fail cfg (.driver ("SSE read failure: " ++ m)))
  | .timeout, .reading r =>
    some (s.fail cfg (.driver
      (if r.first then "first SSE event timeout" else "idle SSE stream timeout")))
  | .eof, .reading r => some (s.disconnect r.latestSeq)
  | .proceed, .draining r => some (s.proceed cfg task r)
  | .wake, .sleeping =>
    some { s with
      phase := .requesting
      backoff := min (2 * s.backoff) cfg.reconnectMaxBackoff
      log := .request s.afterSeq :: s.log }
  | _, _ => none

/-- The start of `stream_events`, for a consumer that takes `room` events. -/
def start (room : Option ℕ) : State where
  phase := .requesting
  afterSeq := 0
  attempts := 0
  backoff := cfg.reconnectInitialBackoff
  room := room
  log := [.request 0]

end HttpSse

end AgentConnector
