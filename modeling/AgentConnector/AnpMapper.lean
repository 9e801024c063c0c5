import AgentConnector.AnpInbound

/-!
# The readings of an ANP event

An event of the profile is read in three places: `is_terminal` classifies it, the client driver
translates it for its consumer, and the mapper makes a core event of it. The last two agree on every
valid event. A `task.status` message ends the task for both of them, and is not terminal.
-/

namespace AgentConnector.Anp

def toCoreArtifact (a : ArtifactRef) : AgentConnector.ArtifactRef :=
  ⟨a.uri, lastSegment a.uri, a.mimeType.getD "application/octet-stream", 0, some a.uri⟩

def toCorePart (a : ArtifactRef) : Part := .fileRef a.uri a.mimeType

def eventKind : TaskEvent → Except ProfileError CoreEventKind
  | .taskAccepted _ => .ok (.accepted false)
  | .taskStatus e => match e.state with
    | .completed => .ok (.completed [])
    | .failed => .ok (.failed ⟨"anp.task_failed", "remote task failed", false⟩)
    | .cancelled => .ok .cancelled
  | .taskInputRequired e => .ok (.inputRequired ⟨e.prompt, none⟩)
  | .taskProgress e => .ok (.progress ((e.payload.getStr "message").getD "progress") none)
  | .taskArtifact e => .ok (.artifact (toCoreArtifact e.artifact))
  | .taskCompleted e => .ok (.completed (e.artifacts.map toCorePart))
  | .taskFailed e => .ok (.failed ⟨"anp.task_failed", e.error, false⟩)
  | .taskCancelled _ => .ok .cancelled
  | .taskInvoke _ | .taskGetStatus _ | .taskEvents _ | .taskCancel _ | .taskProvideInput _ =>
    .error (.invalidField "message_type" "outbound operation is not a core event")

def eventToCoreEvent (ev : TaskEvent) (taskId : TaskId) (at_ : DateTime) :
    Except ProfileError CoreEvent := do
  validateEvent ev
  let seq := ev.seq.getD 0
  let kind ← eventKind ev
  return ⟨taskId, seq.toNat, at_, kind⟩

/-- The kind of core event with the content of a driver event. -/
def kindOf : DriverEvent → CoreEventKind
  | .accepted => .accepted false
  | .progress message percent => .progress message percent
  | .artifact artifact => .artifact artifact
  | .inputRequired request => .inputRequired request
  | .completed output => .completed output
  | .failed error => .failed error
  | .cancelled => .cancelled

/-- The readings agree on whether the event ends the task and on its content. -/
structure Agrees (ev : TaskEvent) (taskId : TaskId) (at_ : DateTime) : Prop where
  translated : ev.isTerminal = true ↔ ∃ d, translateEvent ev = some d ∧ d.ends = true
  mapped : ev.isTerminal = true ↔
    ∃ e, eventToCoreEvent ev taskId at_ = .ok e ∧ e.kind.isTerminal = true
  content : ∀ d, translateEvent ev = some d →
    ∃ e, eventToCoreEvent ev taskId at_ = .ok e ∧ e.kind = kindOf d

variable {ev : TaskEvent} (taskId : TaskId) (at_ : DateTime)

theorem eventToCoreEvent_eq (h : validateEvent ev = .ok ()) : eventToCoreEvent ev taskId at_ =
    (eventKind ev).map (fun kind => ⟨taskId, (ev.seq.getD 0).toNat, at_, kind⟩) := by
  rw [eventToCoreEvent, h]
  cases hk : eventKind ev <;> rfl

theorem eventKind_of_translateEvent (h : translateEvent ev = some d) :
    eventKind ev = .ok (kindOf d) := by
  cases ev with
  | taskStatus e =>
    obtain ⟨envelope, seq, state, payload⟩ := e
    cases state <;> cases h <;> rfl
  | taskInvoke | taskCancel | taskGetStatus | taskEvents | taskProvideInput | taskAccepted =>
    cases h
  | taskInputRequired | taskProgress | taskArtifact | taskCompleted | taskFailed | taskCancelled =>
    cases h
    rfl

theorem translateEvent_of_eventKind (h : eventKind ev = .ok kind) (hends : kind.isTerminal = true) :
    ∃ d, translateEvent ev = some d ∧ d.ends = true := by
  cases ev with
  | taskStatus e =>
    obtain ⟨envelope, seq, state, payload⟩ := e
    cases state <;> exact ⟨_, rfl, rfl⟩
  | taskInvoke | taskCancel | taskGetStatus | taskEvents | taskProvideInput => cases h
  | taskAccepted | taskInputRequired | taskProgress | taskArtifact =>
    cases h
    cases hends
  | taskCompleted | taskFailed | taskCancelled => exact ⟨_, rfl, rfl⟩

theorem isTerminal_kindOf (d : DriverEvent) : (kindOf d).isTerminal = d.ends := by
  cases d <;> rfl

/-- What the driver's translation and the mapper make of a valid event ends the task for both or for
neither, with the same content. -/
theorem content_agrees (h : validateEvent ev = .ok ()) :
    ((∃ d, translateEvent ev = some d ∧ d.ends = true) ↔
      ∃ e, eventToCoreEvent ev taskId at_ = .ok e ∧ e.kind.isTerminal = true) ∧
    ∀ d, translateEvent ev = some d →
      ∃ e, eventToCoreEvent ev taskId at_ = .ok e ∧ e.kind = kindOf d := by
  have hcontent : ∀ d, translateEvent ev = some d →
      ∃ e, eventToCoreEvent ev taskId at_ = .ok e ∧ e.kind = kindOf d := by
    intro d hd
    rw [eventToCoreEvent_eq taskId at_ h, eventKind_of_translateEvent hd]
    exact ⟨_, rfl, rfl⟩
  refine ⟨⟨fun ⟨d, hd, hends⟩ => ?_, fun ⟨e, he, hends⟩ => ?_⟩, hcontent⟩
  · obtain ⟨e, he, hkind⟩ := hcontent d hd
    exact ⟨e, he, by rw [hkind, isTerminal_kindOf, hends]⟩
  · rw [eventToCoreEvent_eq taskId at_ h] at he
    cases hk : eventKind ev with
    | error error =>
      rw [hk] at he
      cases he
    | ok kind =>
      rw [hk] at he
      cases he
      exact translateEvent_of_eventKind hk hends

theorem isTerminal_iff_translated (hev : ∀ e, ev ≠ .taskStatus e) :
    ev.isTerminal = true ↔ ∃ d, translateEvent ev = some d ∧ d.ends = true := by
  cases ev with
  | taskStatus e => exact absurd rfl (hev e)
  | taskCompleted | taskFailed | taskCancelled => exact ⟨fun _ => ⟨_, rfl, rfl⟩, fun _ => rfl⟩
  | taskInvoke | taskCancel | taskGetStatus | taskEvents | taskProvideInput | taskAccepted =>
    exact ⟨(fun h => by cases h), fun ⟨d, hd, _⟩ => by cases hd⟩
  | taskInputRequired | taskProgress | taskArtifact =>
    refine ⟨(fun h => by cases h), fun ⟨d, hd, hends⟩ => ?_⟩
    cases hd
    cases hends

/-- The three readings of a valid event agree unless it is a `task.status` message. -/
theorem readings_agree_iff (ev : TaskEvent) (h : validateEvent ev = .ok ()) (taskId : TaskId)
    (at_ : DateTime) : Agrees ev taskId at_ ↔ ∀ e, ev ≠ .taskStatus e := by
  obtain ⟨hboth, hcontent⟩ := content_agrees taskId at_ h
  constructor
  · intro hagrees e hev
    subst hev
    have hends : ∃ d, translateEvent (.taskStatus e) = some d ∧ d.ends = true := by
      obtain ⟨envelope, seq, state, payload⟩ := e
      cases state <;> exact ⟨_, rfl, rfl⟩
    exact absurd (hagrees.translated.mpr hends) (by simp [TaskEvent.isTerminal])
  · intro hev
    have hterminal := isTerminal_iff_translated hev
    exact ⟨hterminal, hterminal.trans hboth, hcontent⟩

theorem readings_agree_progress :
    validateEvent (exampleProgress 1) = .ok () ∧ Agrees (exampleProgress 1) 1 0 :=
  ⟨rfl, (readings_agree_iff _ rfl 1 0).mpr (fun _ h => by cases h)⟩

/-- A valid report that the task is completed, which both translations take as its end. -/
theorem final_status_not_terminal :
    validateEvent (exampleStatus 1) = .ok () ∧ (exampleStatus 1).isTerminal = false ∧
    translateEvent (exampleStatus 1) = some (.completed []) ∧
    eventToCoreEvent (exampleStatus 1) 1 0 = .ok ⟨1, 1, 0, .completed []⟩ :=
  ⟨rfl, rfl, rfl, rfl⟩

end AgentConnector.Anp
