import AgentConnector.DriverStreams
import AgentConnector.StepRuns

/-!
# One tool call of the MCP driver

`invoke` spawns a task that reports the acceptance, waits for the response, the timeout or the
cancellation, and reports the outcome; a second task forwards progress notifications into the same
channel. The first task asks the runtime to abort the second one before it reports the outcome, but
an abort only takes effect where the aborted task gives up control: a forwarder that is running on
another thread may still send.
-/

namespace AgentConnector.McpCall

open Steps

inductive Content
  | text (text : String)
  | image (mimeType data : String)
  | other (value : Json)

inductive Response
  | result (isError : Option Bool) (content : List Content)
  | unexpected (rendered : String)
  | serviceError (message : String)
  | elapsed

def contentBlockToPart : Content → Part
  | .text t => .text t
  | .image mimeType data => .json (.object [("mimeType", .string mimeType), ("data", .string data)])
  | .other value => .json value

def contentBlocksToParts (blocks : List Content) : List Part := blocks.map contentBlockToPart

def Content.asText : Content → Option String
  | .text t => some t
  | _ => none

def failure (code message : String) : DriverEvent :=
  .failed { code := code, message := message, retryable := false }

def Response.outcome : Response → DriverEvent
  | .result isError content =>
    if isError.getD false then
      failure "mcp_tool_error"
        ((content.findSome? Content.asText).getD "MCP tool returned an error")
    else .completed (contentBlocksToParts content)
  | .unexpected rendered =>
    failure "mcp_unexpected_response" s!"unexpected MCP response: {rendered}"
  | .serviceError message => failure "mcp_call_failed" message
  | .elapsed => failure "timeout" "MCP tool call timed out"

theorem Response.ends_outcome (r : Response) : r.outcome.ends = true := by
  cases r with
  | result isError content =>
    simp only [outcome]
    split
    · rfl
    · rfl
  | unexpected rendered => rfl
  | serviceError message => rfl
  | elapsed => rfl

inductive Phase
  | starting
  | waiting
  | notifying
  | decided (outcome : DriverEvent)
  | aborting (outcome : DriverEvent)
  | removed (outcome : DriverEvent)
  | finished

/-- The task that forwards progress; it holds a sender of the channel while it runs. -/
inductive Forwarder
  | absent
  | running
  | done
  deriving DecidableEq

structure ToolCall where
  phase : Phase
  forwarder : Forwarder
  /-- The progress notifications the forwarder has not taken yet. -/
  updates : List String
  cancelled : Bool
  /-- `active_handles` has an entry for the task. -/
  entry : Bool
  sent : List DriverEvent
  /-- How many events the receiver has taken. -/
  taken : ℕ

/-- The state in which `invoke` returns. -/
def ToolCall.start : ToolCall := ⟨.starting, .absent, [], false, true, [], 0⟩

variable (s : ToolCall)

/-- The channel holds at most 32 events. -/
def ToolCall.room : Bool := s.sent.length - s.taken < 32

def Phase.pastAbort : Phase → Bool
  | .aborting _ | .removed _ | .finished => true
  | _ => false

inductive Input
  | cancel
  | progress (update : String)
  | accept
  | respond (r : Response)
  | observeCancel
  | notified
  | abort
  | remove
  | finish
  | forward
  | stop
  | streamEnd
  | take

def step : Input → Option ToolCall
  | .cancel => some { s with cancelled := s.cancelled || s.entry }
  | .progress update => some { s with updates := s.updates ++ [update] }
  | .accept =>
    match s.phase with
    | .starting =>
      if s.room then
        some { s with phase := .waiting, forwarder := .running, sent := s.sent ++ [.accepted] }
      else none
    | _ => none
  | .respond r =>
    match s.phase with
    | .waiting => some { s with phase := .decided r.outcome }
    | _ => none
  | .observeCancel =>
    match s.phase with
    | .waiting => if s.cancelled then some { s with phase := .notifying } else none
    | _ => none
  | .notified =>
    match s.phase with
    | .notifying => some { s with phase := .decided .cancelled }
    | _ => none
  | .abort =>
    match s.phase with
    | .decided outcome => some { s with phase := .aborting outcome }
    | _ => none
  | .remove =>
    match s.phase with
    | .aborting outcome => some { s with phase := .removed outcome, entry := false }
    | _ => none
  | .finish =>
    match s.phase with
    | .removed outcome =>
      if s.room then some { s with phase := .finished, sent := s.sent ++ [outcome] } else none
    | _ => none
  | .forward =>
    match s.forwarder, s.updates with
    | .running, update :: updates =>
      if s.room then
        some { s with
          updates := updates, sent := s.sent ++ [.progress s!"progress: {update}" none] }
      else none
    | _, _ => none
  | .stop =>
    if s.phase.pastAbort && s.forwarder == .running then some { s with forwarder := .done }
    else none
  | .streamEnd => if s.forwarder == .running then some { s with forwarder := .done } else none
  | .take => if s.taken < s.sent.length then some { s with taken := s.taken + 1 } else none

/-- All senders of the channel are gone. -/
def ToolCall.closed : Prop := s.phase = .finished ∧ s.forwarder ≠ .running

/-- The steps that the tasks of the call and the clock take by themselves. -/
def Input.own : Input → Bool
  | .accept | .respond .elapsed | .notified | .abort | .remove | .finish | .stop => true
  | _ => false

/-- The forwarder does not run on after its abort has been requested. -/
def Prompt : Input → Prop
  | .forward => s.phase.pastAbort = false
  | _ => True

instance decidablePrompt (s : ToolCall) : (i : Input) → Decidable (Prompt s i)
  | .forward => inferInstanceAs (Decidable (s.phase.pastAbort = false))
  | .cancel | .progress _ | .accept | .respond _ | .observeCancel | .notified | .abort | .remove
  | .finish | .stop | .streamEnd | .take => isTrue trivial

variable {s s' : ToolCall} {i : Input}

def Phase.Sound (sent : List DriverEvent) (entry : Bool) : Phase → Prop
  | starting | waiting | notifying => entry = true ∧ Unended sent
  | decided e | aborting e => entry = true ∧ e.ends = true ∧ Unended sent
  | removed e => entry = false ∧ e.ends = true ∧ Unended sent
  | finished => entry = false ∧ ∃ earlier e, sent = earlier ++ [e] ∧ Unended earlier ∧ e.ends = true

def ToolCall.Sound (s : ToolCall) : Prop := s.phase.Sound s.sent s.entry

theorem ToolCall.sound_start : ToolCall.start.Sound := ⟨rfl, fun _ h => by cases h⟩

theorem Phase.Sound.send {p : Phase} (h : p.Sound sent entry) (hp : p.pastAbort = false)
    (he : e.ends = false) :
    p.Sound (sent ++ [e]) entry := by
  cases p with
  | starting | waiting | notifying => exact ⟨h.1, h.2.append he⟩
  | decided outcome => exact ⟨h.1, h.2.1, h.2.2.append he⟩
  | aborting outcome => cases hp
  | removed outcome => cases hp
  | finished => cases hp

/-- What a step of the call can be, with its effect on the phase, the entry and the channel. -/
inductive Move (s : ToolCall) : Input → ToolCall → Prop
  | beside {i : Input} {forwarder : Forwarder} {updates : List String} {cancelled : Bool}
      {taken : ℕ} : i.own = false → (forwarder = .done ∨ forwarder = s.forwarder) →
      Move s i { s with
        forwarder := forwarder, updates := updates, cancelled := cancelled, taken := taken }
  | accept : s.phase = .starting → Move s .accept
        { s with phase := .waiting, forwarder := .running, sent := s.sent ++ [.accepted] }
  | respond {r : Response} : s.phase = .waiting →
      Move s (.respond r) { s with phase := .decided r.outcome }
  | observeCancel : s.phase = .waiting → Move s .observeCancel { s with phase := .notifying }
  | notified : s.phase = .notifying → Move s .notified { s with phase := .decided .cancelled }
  | abort {e : DriverEvent} : s.phase = .decided e → Move s .abort { s with phase := .aborting e }
  | remove {e : DriverEvent} : s.phase = .aborting e →
      Move s .remove { s with phase := .removed e, entry := false }
  | finish {e : DriverEvent} : s.phase = .removed e →
      Move s .finish { s with phase := .finished, sent := s.sent ++ [e] }
  | forward {update : String} {updates : List String} : Move s .forward
        { s with updates := updates, sent := s.sent ++ [.progress s!"progress: {update}" none] }
  | stop : s.forwarder = .running → Move s .stop { s with forwarder := .done }

theorem move_of_step (h : step s i = some s') : Move s i s' := by
  cases i with
  | cancel | progress update =>
    cases h
    exact .beside rfl (.inr rfl)
  | accept =>
    simp only [step] at h
    split at h
    · split at h
      · cases h
        exact .accept ‹_›
      · cases h
    · cases h
  | respond r =>
    simp only [step] at h
    split at h
    · cases h
      exact .respond ‹_›
    · cases h
  | observeCancel =>
    simp only [step] at h
    split at h
    · split at h
      · cases h
        exact .observeCancel ‹_›
      · cases h
    · cases h
  | notified =>
    simp only [step] at h
    split at h
    · cases h
      exact .notified ‹_›
    · cases h
  | abort =>
    simp only [step] at h
    split at h
    · cases h
      exact .abort ‹_›
    · cases h
  | remove =>
    simp only [step] at h
    split at h
    · cases h
      exact .remove ‹_›
    · cases h
  | finish =>
    simp only [step] at h
    split at h
    · split at h
      · cases h
        exact .finish ‹_›
      · cases h
    · cases h
  | forward =>
    simp only [step] at h
    split at h
    · split at h
      · cases h
        exact .forward
      · cases h
    · cases h
  | stop =>
    simp only [step] at h
    split at h
    · rename_i hc
      cases h
      exact .stop (by simpa using (Bool.and_eq_true_iff.mp hc).2)
    · cases h
  | streamEnd =>
    simp only [step] at h
    split at h
    · cases h
      exact .beside rfl (.inl rfl)
    · cases h
  | take =>
    simp only [step] at h
    split at h
    · cases h
      exact .beside rfl (.inr rfl)
    · cases h

theorem ToolCall.Sound.move (h : s.Sound) (hp : Prompt s i) (hm : Move s i s') : s'.Sound := by
  unfold ToolCall.Sound at h ⊢
  cases hm with
  | beside => exact h
  | accept hphase =>
    rw [hphase] at h
    exact ⟨h.1, h.2.append rfl⟩
  | respond hphase =>
    rw [hphase] at h
    exact ⟨h.1, Response.ends_outcome _, h.2⟩
  | observeCancel hphase | abort hphase =>
    rw [hphase] at h
    exact h
  | notified hphase =>
    rw [hphase] at h
    exact ⟨h.1, rfl, h.2⟩
  | remove hphase =>
    rw [hphase] at h
    exact ⟨rfl, h.2⟩
  | finish hphase =>
    rw [hphase] at h
    exact ⟨h.1, s.sent, _, rfl, h.2.2, h.2.1⟩
  | forward => exact h.send hp rfl
  | stop => exact h

/-- A bound on the steps that the tasks of the call still take by themselves. -/
def Phase.rank : Phase → ℕ
  | starting => 7
  | waiting => 5
  | notifying => 4
  | decided _ => 3
  | aborting _ => 2
  | removed _ => 1
  | finished => 0

def ToolCall.remaining (s : ToolCall) : ℕ :=
  s.phase.rank + if s.forwarder = .done then 0 else 1

theorem remaining_of_move (hm : Move s i s') :
    s'.remaining ≤ s.remaining ∧ (i.own = true → s'.remaining < s.remaining) := by
  unfold ToolCall.remaining
  cases hm with
  | beside hi hf =>
    refine ⟨?_, fun h => absurd h (by rw [hi]; decide)⟩
    rcases hf with rfl | rfl
    · simp
    · exact le_rfl
  | accept hphase =>
    have hrank : s.phase.rank = 7 := by rw [hphase]; rfl
    have hnext : Phase.rank .waiting + 1 < 7 := by decide
    constructor
    · exact (hnext.trans_le (hrank ▸ Nat.le_add_right _ _)).le
    · exact fun _ => hnext.trans_le (hrank ▸ Nat.le_add_right _ _)
  | respond hphase | observeCancel hphase | notified hphase | abort hphase | remove hphase
  | finish hphase => simp [hphase, Phase.rank]
  | forward => exact ⟨le_rfl, fun h => by cases h⟩
  | stop hf => simp [hf]

theorem exists_own_step (hroom : s.room = true) (hopen : ¬ s.closed) :
    ∃ i, i.own = true ∧ (step s i).isSome = true := by
  cases hp : s.phase with
  | starting => exact ⟨.accept, rfl, by simp [step, hp, hroom]⟩
  | waiting => exact ⟨.respond .elapsed, rfl, by simp [step, hp]⟩
  | notifying => exact ⟨.notified, rfl, by simp [step, hp]⟩
  | decided e => exact ⟨.abort, rfl, by simp [step, hp]⟩
  | aborting e => exact ⟨.remove, rfl, by simp [step, hp]⟩
  | removed e => exact ⟨.finish, rfl, by simp [step, hp, hroom]⟩
  | finished =>
    have hf : s.forwarder = .running := by
      by_contra hf
      exact hopen ⟨hp, hf⟩
    exact ⟨.stop, rfl, by simp [step, hp, hf, Phase.pastAbort]⟩

/-- In a sound state a terminal event is the last one, and it has been sent when the task is
finished and only then. -/
theorem ToolCall.Sound.final (h : s.Sound) :
    (∀ earlier e later, s.sent = earlier ++ e :: later → e.ends = true →
      later = [] ∧ s.phase = .finished) ∧
    (s.phase = .finished → s.entry = false ∧
      ∃ earlier e, s.sent = earlier ++ [e] ∧ Unended earlier ∧ e.ends = true) := by
  unfold ToolCall.Sound at h
  have hopen : Unended s.sent → ∀ earlier e later, s.sent = earlier ++ e :: later →
      e.ends = true → later = [] ∧ s.phase = .finished := by
    intro hu earlier e later hsent he
    have hmem : e ∈ s.sent := by rw [hsent]; simp
    rw [hu e hmem] at he
    cases he
  cases hp : s.phase with
  | starting | waiting | notifying =>
    rw [hp] at h
    exact ⟨hp ▸ hopen h.2, fun hf => by cases hf⟩
  | decided e | aborting e | removed e =>
    rw [hp] at h
    exact ⟨hp ▸ hopen h.2.2, fun hf => by cases hf⟩
  | finished =>
    rw [hp] at h
    refine ⟨fun earlier e later hsent he => ⟨?_, rfl⟩, fun _ => h⟩
    obtain ⟨-, before, last, hlast, hu, -⟩ := h
    cases List.eq_nil_or_concat later with
    | inl hnil => exact hnil
    | inr hcons =>
      obtain ⟨init, x, rfl⟩ := hcons
      have heq : before ++ [last] = (earlier ++ e :: init) ++ [x] := by
        rw [← hlast, hsent]
        simp
      obtain ⟨hbefore, -⟩ := List.append_inj' heq rfl
      have hmem : e ∈ before := by rw [hbefore]; simp
      rw [hu e hmem] at he
      cases he

/-- If the forwarder never sends after its abort, then a terminal event is the last event of the
channel and is sent by the finished task, which has left no entry; and the call reaches that state
by itself and closes the channel. -/
theorem tool_call_final {is : List Input} (hrun : run step .start is = some s)
    (hprompt : Along step Prompt .start is) :
    (∀ earlier e later, s.sent = earlier ++ e :: later → e.ends = true →
      later = [] ∧ s.phase = .finished) ∧
    (s.phase = .finished → s.entry = false ∧
      ∃ earlier e, s.sent = earlier ++ [e] ∧ Unended earlier ∧ e.ends = true) ∧
    (s.room = true → ¬ s.closed → ∃ i, i.own = true ∧ (step s i).isSome = true) ∧
    ∀ i s', step s i = some s' →
      s'.remaining ≤ s.remaining ∧ (i.own = true → s'.remaining < s.remaining) := by
  have hsound : s.Sound :=
    run_invariant (fun h hp hstep => h.move hp (move_of_step hstep)) hrun hprompt
      ToolCall.sound_start
  exact ⟨hsound.final.1, hsound.final.2, exists_own_step,
    fun i s' hstep => remaining_of_move (move_of_step hstep)⟩

/-- A call with a progress notification, cancelled before the response. -/
def cancelledCall : List Input :=
  [.accept, .progress "1", .forward, .cancel, .observeCancel, .notified, .abort, .stop, .remove,
    .finish]

/-- A call whose forwarder is in the middle of its loop when the response arrives. -/
def racingCall : List Input :=
  [.accept, .progress "1", .respond (.result none [.text "ok"]), .abort, .remove, .finish,
    .forward, .stop]

theorem tool_call_final_cancelled : ∃ s, run step .start cancelledCall = some s ∧ s.entry = false ∧
      ∃ earlier e, s.sent = earlier ++ [e] ∧ Unended earlier ∧ e.ends = true := by
  have hprompt : Along step Prompt .start cancelledCall := by decide
  exact ⟨_, rfl, (tool_call_final rfl hprompt).2.1 rfl⟩

/-- The forwarder sends a progress event behind the terminal one. -/
theorem progress_after_terminal : (run step .start racingCall).map ToolCall.sent =
      some [.accepted, .completed [.text "ok"], .progress "progress: 1" none] := by
  rfl

end AgentConnector.McpCall
