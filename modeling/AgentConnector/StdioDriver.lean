import AgentConnector.StepRuns
import AgentConnector.SseFrames
import Mathlib.Data.List.AList

/-!
# The stdio driver

One process with a reader task for its output and the calls of `invoke` that register tasks with it.
The reader looks the task of a line up under the lock of `pending` and sends the event outside of
it, waiting for room in the channel. The slot of the process is filled once and never emptied, also
when the reader has ended. Decoding JSON is left to a parameter.
-/

namespace AgentConnector.Stdio

structure UaicCapabilities where
  streaming : Bool
  cancellation : Bool
  provideInput : Bool
  status : Bool
  resume : Bool
  artifacts : Bool

/-- `UaicCapabilities::default`. -/
def UaicCapabilities.none : UaicCapabilities := ⟨false, false, false, false, false, false⟩

structure UaicAgentIdentity where
  name : String
  version : String
  description : String

structure UaicManifest where
  protocol : String
  agent : UaicAgentIdentity
  capabilities : UaicCapabilities

structure UaicInbound where
  protocol : String
  messageType : String
  taskId : Option TaskId
  capabilities : Option UaicCapabilities
  agent : Option UaicAgentIdentity
  message : Option String
  percent : Option UInt8
  artifact : Option ArtifactRef
  request : Option InputRequest
  output : Option (List Part)
  error : Option PublicError

structure Config where
  maxLineBytes : ℕ
  /-- `serde_json::from_str::<UaicInbound>`. -/
  decode : HttpSse.Bytes → Option UaicInbound

def UaicInbound.event (m : UaicInbound) : Option DriverEvent :=
  match m.messageType with
  | "accepted" => some .accepted
  | "progress" => some (.progress (m.message.getD "") m.percent)
  | "artifact" => m.artifact.map .artifact
  | "input_required" => m.request.map .inputRequired
  | "completed" => some (.completed (m.output.getD []))
  | "failed" => some (.failed (m.error.getD ⟨"agent_failed", m.message.getD "agent failed", false⟩))
  | "cancelled" => some .cancelled
  | _ => none

def UaicInbound.manifest (m : UaicInbound) : UaicManifest :=
  ⟨m.protocol, m.agent.getD ⟨"unnamed-agent", "", ""⟩, m.capabilities.getD .none⟩

inductive Reading
  | skipped
  | initialized (manifest : UaicManifest)
  | event (task : TaskId) (event : DriverEvent)

def readLine (cfg : Config) (line : HttpSse.Bytes) : Reading :=
  if cfg.maxLineBytes < line.length then .skipped
  else match cfg.decode line with
    | none => .skipped
    | some m =>
      if m.protocol ≠ "uaic/1" then .skipped
      else if m.messageType = "initialized" then .initialized m.manifest
      else match m.taskId, m.event with
        | some task, some event => .event task event
        | _, _ => .skipped

/-- The failure that the reader reports to the tasks that are left when it ends. -/
def processClosed : DriverEvent := .failed ⟨"agent_process_closed", "agent stdout closed", true⟩

/-- How far the call of `invoke` is that made a channel. -/
inductive Call
  | writing
  | accepted
  | refused
  deriving DecidableEq

structure Channel where
  task : TaskId
  call : Call
  sent : List DriverEvent
  /-- How many events the receiver has taken. -/
  taken : ℕ
  /-- The lines the reader has handled since the task was registered. -/
  heard : List HttpSse.Bytes

def Channel.new (task : TaskId) : Channel := ⟨task, .writing, [], 0, []⟩

/-- The channel holds at most 128 events. -/
def Channel.room (c : Channel) : Bool := c.sent.length - c.taken < 128

def Channel.send (e : DriverEvent) (c : Channel) : Channel := { c with sent := c.sent ++ [e] }

def Channel.trySend (e : DriverEvent) (c : Channel) : Channel := if c.room then c.send e else c

def Channel.setCall (call : Call) (c : Channel) : Channel := { c with call := call }

def Channel.takeOne (c : Channel) : Channel := { c with taken := c.taken + 1 }

def Channel.hear (line : HttpSse.Bytes) (c : Channel) : Channel :=
  { c with heard := c.heard ++ [line] }

/-- The slot of the process. While the process starts, the manifest it has sent, if any. -/
inductive Slot
  | absent
  | starting (manifest : Option UaicManifest)
  | running (manifest : UaicManifest)

inductive Reader
  | absent
  | reading
  /-- Waiting for room in the channel of this number. -/
  | sending (k : ℕ) (event : DriverEvent)
  /-- The loop has ended and the tasks that are left are not drained yet. -/
  | closing
  | drained

/-- The reader task exists and has not drained its tasks. -/
def Reader.runs : Reader → Bool
  | .reading | .sending .. | .closing => true
  | .absent | .drained => false

structure State where
  slot : Slot
  reader : Reader
  /-- The channel of each registered task. -/
  pending : AList fun _ : TaskId => ℕ
  channels : List Channel
  /-- The channel of the call of `invoke` that holds the lock of the process. -/
  writing : Option ℕ

def State.start : State := ⟨.absent, .absent, ∅, [], none⟩

inductive Input
  | spawn
  | startFailed
  | started
  | line (line : HttpSse.Bytes)
  | eof
  | deliver
  | drain
  | register (task : TaskId)
  | written
  | writeFailed
  | take (k : ℕ)

def Slot.setManifest (manifest : UaicManifest) : Slot → Slot
  | .starting none => .starting (some manifest)
  | slot => slot

def State.hear (s : State) (line : HttpSse.Bytes) : State :=
  { s with channels := s.channels.map (Channel.hear line) }

/-- The event of a line is about to be sent; a terminal one takes the sender out of the map. -/
def State.route (s : State) (task : TaskId) (k : ℕ) (e : DriverEvent) : State :=
  { s with
    reader := .sending k e
    pending := if e.ends then s.pending.erase task else s.pending }

def State.handle (cfg : Config) (s : State) (line : HttpSse.Bytes) : State :=
  match readLine cfg line with
  | .skipped => s.hear line
  | .initialized manifest => { s.hear line with slot := s.slot.setManifest manifest }
  | .event task e =>
    match s.pending.lookup task with
    | none => s.hear line
    | some k => (s.hear line).route task k e

/-- The tasks that are left are told that the process is gone, and their senders are dropped. -/
def State.drain (s : State) : State :=
  { s with
    reader := .drained
    pending := ∅
    channels := s.channels.mapIdx (fun k c =>
      if s.pending.lookup c.task = some k then c.trySend processClosed else c) }

def step (cfg : Config) (s : State) : Input → Option State
  | .spawn =>
    match s.slot with
    | .absent => some { s with slot := .starting none, reader := .reading, pending := ∅ }
    | _ => none
  | .startFailed =>
    match s.slot with
    | .starting _ => some { s with slot := .absent, reader := .absent, pending := ∅ }
    | _ => none
  | .started =>
    match s.slot with
    | .starting (some manifest) =>
      if manifest.protocol = "uaic/1" then some { s with slot := .running manifest } else none
    | _ => none
  | .line line =>
    match s.reader with
    | .reading => some (s.handle cfg line)
    | _ => none
  | .eof =>
    match s.reader with
    | .reading => some { s with reader := .closing }
    | _ => none
  | .deliver =>
    match s.reader with
    | .sending k e =>
      match s.channels[k]? with
      | none => none
      | some c =>
        -- Without a receiver the send fails at once and its error is ignored.
        if c.call = .refused then some { s with reader := .reading }
        else if c.room then
          some { s with reader := .reading, channels := s.channels.modify k (Channel.send e) }
        else none
    | _ => none
  | .drain =>
    match s.reader with
    | .closing => some s.drain
    | _ => none
  | .register task =>
    match s.slot, s.writing with
    | .running _, none => some { s with
        pending := s.pending.insert task s.channels.length
        channels := s.channels ++ [.new task]
        writing := some s.channels.length }
    | _, _ => none
  | .written =>
    s.writing.map (fun k => { s with
      channels := s.channels.modify k (Channel.setCall .accepted)
      writing := none })
  | .writeFailed =>
    match s.writing with
    | none => none
    | some k => (s.channels[k]?).map (fun c => { s with
        pending := s.pending.erase c.task
        channels := s.channels.modify k (Channel.setCall .refused)
        writing := none })
  | .take k =>
    match s.channels[k]? with
    | none => none
    | some c =>
      if c.taken < c.sent.length then
        some { s with channels := s.channels.modify k Channel.takeOne }
      else none

variable {cfg : Config} {s s' : State} {i : Input}

inductive Move (cfg : Config) (s : State) : Input → State → Prop
  | spawn : s.slot = .absent →
      Move cfg s .spawn { s with slot := .starting none, reader := .reading, pending := ∅ }
  | startFailed {manifest : Option UaicManifest} : s.slot = .starting manifest →
      Move cfg s .startFailed { s with slot := .absent, reader := .absent, pending := ∅ }
  | started {manifest : UaicManifest} : s.slot = .starting (some manifest) →
      Move cfg s .started { s with slot := .running manifest }
  | skip {line : HttpSse.Bytes} : s.reader = .reading → readLine cfg line = .skipped →
      Move cfg s (.line line) (s.hear line)
  | greet {line : HttpSse.Bytes} {manifest : UaicManifest} : s.reader = .reading →
      readLine cfg line = .initialized manifest →
      Move cfg s (.line line) { s.hear line with slot := s.slot.setManifest manifest }
  | unknown {line : HttpSse.Bytes} {task : TaskId} {e : DriverEvent} : s.reader = .reading →
      readLine cfg line = .event task e → s.pending.lookup task = none →
      Move cfg s (.line line) (s.hear line)
  | route {line : HttpSse.Bytes} {task : TaskId} {e : DriverEvent} {k : ℕ} : s.reader = .reading →
      readLine cfg line = .event task e → s.pending.lookup task = some k →
      Move cfg s (.line line) ((s.hear line).route task k e)
  | eof : s.reader = .reading → Move cfg s .eof { s with reader := .closing }
  | lost {k : ℕ} {e : DriverEvent} {c : Channel} : s.reader = .sending k e →
      s.channels[k]? = some c → c.call = .refused →
      Move cfg s .deliver { s with reader := .reading }
  | deliver {k : ℕ} {e : DriverEvent} : s.reader = .sending k e → Move cfg s .deliver
        { s with reader := .reading, channels := s.channels.modify k (Channel.send e) }
  | drain : s.reader = .closing → Move cfg s .drain s.drain
  | register {task : TaskId} {manifest : UaicManifest} : s.slot = .running manifest →
      Move cfg s (.register task) { s with
        pending := s.pending.insert task s.channels.length
        channels := s.channels ++ [.new task]
        writing := some s.channels.length }
  | written {k : ℕ} : s.writing = some k → Move cfg s .written { s with
        channels := s.channels.modify k (Channel.setCall .accepted)
        writing := none }
  | writeFailed {k : ℕ} {c : Channel} : s.writing = some k → s.channels[k]? = some c →
      Move cfg s .writeFailed { s with
        pending := s.pending.erase c.task
        channels := s.channels.modify k (Channel.setCall .refused)
        writing := none }
  | take {k : ℕ} : Move cfg s (.take k) { s with channels := s.channels.modify k Channel.takeOne }

theorem move_of_line (h : s.reader = .reading) :
    Move cfg s (.line line) (s.handle cfg line) := by
  unfold State.handle
  cases hread : readLine cfg line with
  | skipped => exact .skip h hread
  | initialized manifest => exact .greet h hread
  | event task e =>
    cases hlookup : s.pending.lookup task with
    | none =>
      simp only [hlookup]
      exact .unknown h hread hlookup
    | some k =>
      simp only [hlookup]
      exact .route h hread hlookup

theorem move_of_step (h : step cfg s i = some s') : Move cfg s i s' := by
  cases i with
  | spawn =>
    simp only [step] at h
    split at h
    · cases h
      exact .spawn ‹_›
    · cases h
  | startFailed =>
    simp only [step] at h
    split at h
    · cases h
      exact .startFailed ‹_›
    · cases h
  | started =>
    simp only [step] at h
    split at h
    · split at h
      · cases h
        exact .started ‹_›
      · cases h
    · cases h
  | line line =>
    simp only [step] at h
    split at h
    · cases h
      exact move_of_line ‹_›
    · cases h
  | eof =>
    simp only [step] at h
    split at h
    · cases h
      exact .eof ‹_›
    · cases h
  | deliver =>
    simp only [step] at h
    split at h
    · split at h
      · cases h
      · split at h
        · cases h
          exact .lost ‹_› ‹_› ‹_›
        · split at h
          · cases h
            exact .deliver ‹_›
          · cases h
    · cases h
  | drain =>
    simp only [step] at h
    split at h
    · cases h
      exact .drain ‹_›
    · cases h
  | register task =>
    simp only [step] at h
    split at h
    · cases h
      exact .register ‹_›
    · cases h
  | written =>
    obtain ⟨k, hk, rfl⟩ := Option.map_eq_some_iff.mp h
    exact .written hk
  | writeFailed =>
    simp only [step] at h
    split at h
    · cases h
    · obtain ⟨c, hc, rfl⟩ := Option.map_eq_some_iff.mp h
      exact .writeFailed ‹_› hc
  | take k =>
    simp only [step] at h
    split at h
    · cases h
    · split at h
      · cases h
        exact .take
      · cases h

/-- A sender of the channel exists, in the map or in the hands of the reader. -/
def State.holds (s : State) (k : ℕ) : Prop :=
  (∃ task, s.pending.lookup task = some k) ∨ ∃ e, s.reader = .sending k e

end AgentConnector.Stdio
