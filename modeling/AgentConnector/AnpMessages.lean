import AgentConnector.AnpConnection

/-!
# Messages to and from an ANP peer

A message of the profile is read by its tag. The driver sends the fields of an invocation or a
cancellation without the tag, so that no message it hands to its transport is one of the profile;
the tag stands in the `kind` beside the body. Inbound, the driver checks each event by itself and
forwards it: neither the order of the numbers nor the end of the task is looked at.
-/

namespace AgentConnector

open Option

namespace Anp

/-! ### Reading a message -/

def readVersion (v : Json) : Option UInt32 :=
  ((v.get "version").bind (Json.asUInt UInt32.size)).map UInt32.ofNat

def MessageEnvelope.read (v : Json) : Option MessageEnvelope := do
  let profile ← v.getStr "profile"
  let version ← readVersion v
  let taskId ← v.getStr "task_id"
  let operationId ← v.getStr "operation_id"
  let messageId ← v.getStr "message_id"
  return ⟨profile, version, taskId, operationId, messageId⟩

def ArtifactRef.read (v : Json) : Option ArtifactRef := do
  let uri ← v.getStr "uri"
  let mimeType ← Json.asOption Json.asStr (v.get "mime_type")
  return ⟨uri, mimeType⟩

def TaskState.read (v : Json) : Option TaskState :=
  match v.asStr with
  | some "completed" => some .completed
  | some "failed" => some .failed
  | some "cancelled" => some .cancelled
  | _ => none

def readSeq (v : Json) (field : String) : Option UInt64 :=
  ((v.get field).bind (Json.asUInt UInt64.size)).map UInt64.ofNat

/-- The field `final`, which is true if it is missing. -/
def readFinal (v : Json) : Option Bool :=
  match v.get "final" with
  | none => some true
  | some b => b.asBool

section Readers

variable (v : Json) (envelope : MessageEnvelope) (payload : Json)

/-! The messages of each type are read from the object, its envelope and its payload. -/

def readInvoke : Option TaskEvent := do
  let agent ← v.getStr "agent"
  return .taskInvoke ⟨envelope, agent, payload⟩

def readEvents : Option TaskEvent := do
  let afterSeq ← readSeq v "after_seq"
  return .taskEvents ⟨envelope, afterSeq, payload⟩

def readProvideInput : Option TaskEvent := do
  let inputRequestId ← v.getStr "input_request_id"
  return .taskProvideInput ⟨envelope, inputRequestId, payload⟩

def readStatus : Option TaskEvent := do
  let seq ← readSeq v "seq"
  let state ← (v.get "state").bind TaskState.read
  return .taskStatus ⟨envelope, seq, state, payload⟩

def readInputRequired : Option TaskEvent := do
  let seq ← readSeq v "seq"
  let inputRequestId ← v.getStr "input_request_id"
  let prompt ← v.getStr "prompt"
  return .taskInputRequired ⟨envelope, seq, inputRequestId, prompt, payload⟩

def readProgress : Option TaskEvent := do
  let seq ← readSeq v "seq"
  return .taskProgress ⟨envelope, seq, payload⟩

def readArtifact : Option TaskEvent := do
  let seq ← readSeq v "seq"
  let artifact ← (v.get "artifact").bind ArtifactRef.read
  return .taskArtifact ⟨envelope, seq, artifact, payload⟩

def readCompleted : Option TaskEvent := do
  let seq ← readSeq v "seq"
  let isFinal ← readFinal v
  let artifacts ← (v.get "artifacts").bind (Json.asList ArtifactRef.read)
  return .taskCompleted ⟨envelope, seq, isFinal, artifacts, payload⟩

def readFailed : Option TaskEvent := do
  let seq ← readSeq v "seq"
  let isFinal ← readFinal v
  let error ← v.getStr "error"
  return .taskFailed ⟨envelope, seq, isFinal, error, payload⟩

def readCancelled : Option TaskEvent := do
  let seq ← readSeq v "seq"
  let isFinal ← readFinal v
  return .taskCancelled ⟨envelope, seq, isFinal, payload⟩

end Readers

def TaskEvent.readers : List (String × (Json → MessageEnvelope → Json → Option TaskEvent)) := [
  ("task.invoke", readInvoke),
  ("task.cancel", fun _ envelope payload => some (.taskCancel ⟨envelope, payload⟩)),
  ("task.get_status", fun _ envelope payload => some (.taskGetStatus ⟨envelope, payload⟩)),
  ("task.events", readEvents),
  ("task.provide_input", readProvideInput),
  ("task.accepted", fun _ envelope payload => some (.taskAccepted ⟨envelope, payload⟩)),
  ("task.status", readStatus),
  ("task.input_required", readInputRequired),
  ("task.progress", readProgress),
  ("task.artifact", readArtifact),
  ("task.completed", readCompleted),
  ("task.failed", readFailed),
  ("task.cancelled", readCancelled)]

/-- A message, read by its tag. -/
def TaskEvent.read (v : Json) : Option TaskEvent := do
  let messageType ← v.getStr "message_type"
  let reader ← TaskEvent.readers.lookup messageType
  let envelope ← MessageEnvelope.read v
  let payload ← v.get "payload"
  reader v envelope payload

theorem ArtifactRef.read_toJson (a : ArtifactRef) : ArtifactRef.read a.toJson = some a := by
  obtain ⟨uri, mimeType⟩ := a
  cases mimeType <;> rfl

theorem readVersion_eq (h : v.get "version" = some (.int version.toNat)) :
    readVersion v = some version := by
  rw [readVersion, h, bind_some, Json.asUInt_int version.toNat_lt_size, map_some,
    UInt32.ofNat_toNat]

theorem readSeq_eq (h : v.get field = some (seqJson seq)) : readSeq v field = some seq := by
  rw [readSeq, h, seqJson, bind_some, Json.asUInt_int seq.toNat_lt_size, map_some,
    UInt64.ofNat_toNat]

theorem MessageEnvelope.read_toJson (e : TaskEvent) :
    MessageEnvelope.read e.toJson = some e.envelope := by
  have hread : ∀ (tag : String) (env : MessageEnvelope) (fields : List (String × Json)),
      MessageEnvelope.read (.object (("message_type", .string tag) :: (env.fields ++ fields))) =
        some env := by
    intro tag env fields
    have hversion : readVersion (.object (("message_type", .string tag) ::
        (env.fields ++ fields))) = some env.version := readVersion_eq rfl
    rw [MessageEnvelope.read, hversion]
    rfl
  cases e <;> exact hread _ _ _

theorem TaskEvent.get_payload_toJson (e : TaskEvent) : e.toJson.get "payload" = some e.payload := by
  cases e <;> rfl

theorem TaskEvent.read_eq {e : TaskEvent}
    {reader : Json → MessageEnvelope → Json → Option TaskEvent}
    (h : TaskEvent.readers.lookup e.messageType = some reader) :
    TaskEvent.read e.toJson = reader e.toJson e.envelope e.payload := by
  have htype : e.toJson.getStr "message_type" = some e.messageType := rfl
  unfold TaskEvent.read
  rw [htype, MessageEnvelope.read_toJson, TaskEvent.get_payload_toJson]
  simp only [bind_eq_bind, bind_some, h]

theorem TaskEvent.read_toJson (e : TaskEvent) : TaskEvent.read e.toJson = some e := by
  cases e with
  | taskInvoke e | taskCancel e | taskGetStatus e | taskProvideInput e | taskAccepted e =>
    exact (TaskEvent.read_eq rfl).trans rfl
  | taskEvents e =>
    rw [TaskEvent.read_eq rfl, readEvents, readSeq_eq rfl]
    rfl
  | taskStatus e =>
    obtain ⟨envelope, seq, state, payload⟩ := e
    rw [TaskEvent.read_eq rfl, readStatus, readSeq_eq rfl]
    cases state <;> rfl
  | taskInputRequired e =>
    rw [TaskEvent.read_eq rfl, readInputRequired, readSeq_eq rfl]
    rfl
  | taskProgress e =>
    rw [TaskEvent.read_eq rfl, readProgress, readSeq_eq rfl]
    rfl
  | taskArtifact e =>
    have hartifact : ((TaskEvent.taskArtifact e).toJson.get "artifact").bind ArtifactRef.read =
        some e.artifact := ArtifactRef.read_toJson e.artifact
    rw [TaskEvent.read_eq rfl, readArtifact, readSeq_eq rfl, hartifact]
    rfl
  | taskCompleted e =>
    have hartifacts : ((TaskEvent.taskCompleted e).toJson.get "artifacts").bind
        (Json.asList ArtifactRef.read) = some e.artifacts :=
      Json.asList_array_map ArtifactRef.read_toJson e.artifacts
    rw [TaskEvent.read_eq rfl, readCompleted, readSeq_eq rfl, hartifacts]
    rfl
  | taskFailed e =>
    rw [TaskEvent.read_eq rfl, readFailed, readSeq_eq rfl]
    rfl
  | taskCancelled e =>
    rw [TaskEvent.read_eq rfl, readCancelled, readSeq_eq rfl]
    rfl

/-- Every message is read back from its JSON form, in which no two members have one name. -/
theorem wire_round_trip (e : TaskEvent) : TaskEvent.read e.toJson = some e ∧
    ("message_type" :: e.fields.map Prod.fst).Nodup := by
  refine ⟨TaskEvent.read_toJson e, ?_⟩
  cases e <;> simp [TaskEvent.fields, TaskInvoke.fields, TaskCancel.fields, MessageEnvelope.fields]

/-! ### Outbound messages -/

/-- The body with the kind of the message as its tag. -/
def AnpMessage.tagged (m : AnpMessage) : Json :=
  match m.body with
  | .object fields => .object (("message_type", .string m.kind) :: fields)
  | v => v

/-- The body is the event, and the event is valid. -/
def Conveys (body : Json) (e : TaskEvent) : Prop :=
  TaskEvent.read body = some e ∧ validateEvent e = .ok ()

/-- The event that `send_invoke` is to convey. -/
def Driver.invocation (d : Driver) (messageId : Uuid) (taskId operationId : String)
    (payload : Json) : TaskEvent :=
  .taskInvoke ⟨.new taskId operationId messageId.display, d.config.localAgent, payload⟩

def cancellation (messageId : Uuid) (taskId operationId : String) : TaskEvent :=
  .taskCancel ⟨.new taskId operationId messageId.display, .object []⟩

theorem not_isBlank_display (u : Uuid) : isBlank u.display = false := by
  have hdash : '-' ∈ u.display.toList := by
    simp [Uuid.display]
  by_contra hblank
  rw [Bool.not_eq_false, isBlank, List.all_eq_true] at hblank
  exact absurd (hblank '-' hdash) (by decide)

theorem validateEnvelope_new_iff {messageId : Uuid} (hop : isBlank operationId = false)
    (hsize : payload.render.utf8ByteSize ≤ maxPayloadBytes) :
    validateEnvelope (.new taskId operationId messageId.display) payload = .ok () ↔
      isBlank taskId = false := by
  rw [validateEnvelope_eq_ok]
  exact ⟨fun h => h.2.2.1, fun h => ⟨rfl, rfl, h, hop, not_isBlank_display messageId, hsize⟩⟩

theorem validateEvent_iff_of_request (hseq : e.seq = none)
    (hbody : e.validateBody = .ok () ↔ validateEnvelope e.envelope e.payload = .ok ()) :
    validateEvent e = .ok () ↔ validateEnvelope e.envelope e.payload = .ok () := by
  simp only [validateEvent, unit_bind_eq_ok_iff, hseq, hbody]
  refine ⟨fun h => h.2.2.2.2, fun h => ?_⟩
  obtain ⟨-, -, htask, hop, hmsg, -⟩ := validateEnvelope_eq_ok.mp h
  exact ⟨validateText_eq_ok.mpr htask, validateText_eq_ok.mpr hop, validateText_eq_ok.mpr hmsg,
    rfl, h⟩

theorem sendMessage_eq_some {d : Driver} (h : (d.sendMessage now t m).handed = some (peer, m')) :
    m' = m ∧ d.sends now = true := by
  have hsome := sendMessage_handed d now t m
  rw [h] at hsome
  refine ⟨?_, hsome.symm⟩
  unfold Driver.sendMessage at h
  split at h <;> cases h
  rfl

theorem validateEvent_invocation_iff {d : Driver} {messageId : Uuid} {taskId operationId : String}
    {payload : Json} (hop : isBlank operationId = false)
    (hagent : isBlank d.config.localAgent = false)
    (hsize : payload.render.utf8ByteSize ≤ maxPayloadBytes) :
    validateEvent (d.invocation messageId taskId operationId payload) = .ok () ↔
      isBlank taskId = false := by
  have hbody : (d.invocation messageId taskId operationId payload).validateBody = .ok () ↔
      validateEnvelope (.new taskId operationId messageId.display) payload = .ok () := by
    refine unit_bind_eq_ok_iff.trans ⟨And.left, fun h => ⟨h, validateText_eq_ok.mpr hagent⟩⟩
  exact (validateEvent_iff_of_request rfl hbody).trans (validateEnvelope_new_iff hop hsize)

theorem validateEvent_cancellation_iff {taskId operationId : String}
    (hop : isBlank operationId = false) :
    validateEvent (cancellation messageId taskId operationId) = .ok () ↔
      isBlank taskId = false := by
  have hsize : (Json.object []).render.utf8ByteSize ≤ maxPayloadBytes := by decide +kernel
  exact (validateEvent_iff_of_request rfl Iff.rfl).trans (validateEnvelope_new_iff hop hsize)

theorem not_conveys_of_untagged (h : fields.lookup "message_type" = none) :
    ¬ Conveys (.object fields) e := by
  intro hconveys
  have hread := hconveys.1
  rw [TaskEvent.read, Json.getStr, Json.get, h] at hread
  cases hread

/-- No message that the driver hands to its transport is one of the profile. With its kind as the
tag it would be the event that was to be conveyed, valid if the task has an identifier. -/
theorem outbound_messages_iff (d : Driver) (now : DateTime) (t : AnpTransport) (messageId : Uuid)
    (taskId operationId : String) (payload : Json) (hop : isBlank operationId = false)
    (hagent : isBlank d.config.localAgent = false)
    (hsize : payload.render.utf8ByteSize ≤ maxPayloadBytes) :
    ((∀ peer m, (d.sendInvoke now t messageId taskId operationId payload).handed = some (peer, m) →
        Conveys m.body (d.invocation messageId taskId operationId payload)) ∧
      (∀ peer m, (d.sendCancel now t messageId taskId operationId).handed = some (peer, m) →
        Conveys m.body (cancellation messageId taskId operationId)) ↔ d.sends now = false) ∧
    (∀ peer m, (d.sendInvoke now t messageId taskId operationId payload).handed = some (peer, m) →
      (Conveys m.tagged (d.invocation messageId taskId operationId payload) ↔
        isBlank taskId = false)) ∧
    (∀ peer m, (d.sendCancel now t messageId taskId operationId).handed = some (peer, m) →
      (Conveys m.tagged (cancellation messageId taskId operationId) ↔ isBlank taskId = false)) ∧
    (∀ id, (d.sendInvoke now t messageId taskId operationId payload).result = .ok id →
      id = messageId.display) := by
  have hinvoke := @validateEvent_invocation_iff d messageId taskId operationId payload hop hagent
    hsize
  have hcancel := @validateEvent_cancellation_iff messageId taskId operationId hop
  refine ⟨⟨fun h => ?_, fun hclosed => ⟨fun peer m hm => ?_, fun peer m hm => ?_⟩⟩,
    fun peer m hm => ?_, fun peer m hm => ?_, fun id hid => ?_⟩
  · by_contra hopen
    rw [Bool.not_eq_false] at hopen
    obtain ⟨⟨peer, m⟩, hm⟩ := isSome_iff_exists.mp
      ((sendMessage_handed d now t _).trans hopen)
    have hconveys := h.2 peer m hm
    rw [(sendMessage_eq_some hm).1] at hconveys
    exact not_conveys_of_untagged rfl hconveys
  · rw [(sendMessage_eq_some hm).2] at hclosed
    cases hclosed
  · rw [(sendMessage_eq_some hm).2] at hclosed
    cases hclosed
  · rw [(sendMessage_eq_some hm).1]
    have hread := TaskEvent.read_toJson (d.invocation messageId taskId operationId payload)
    exact ⟨fun h => hinvoke.mp h.2, fun h => ⟨hread, hinvoke.mpr h⟩⟩
  · rw [(sendMessage_eq_some hm).1]
    have hread := TaskEvent.read_toJson (cancellation messageId taskId operationId)
    exact ⟨fun h => hcancel.mp h.2, fun h => ⟨hread, hcancel.mpr h⟩⟩
  · unfold Driver.sendInvoke Driver.sendMessage at hid
    split at hid
    · cases hid
    · cases hid
    · dsimp only at hid
      split at hid
      · cases hid
        rfl
      · cases hid

/-- The messages of a live session cannot be read. -/
theorem outbound_message_unread :
    (exampleSession.sendInvoke 0 exampleTransport 7 "t-1" "op-1" (.object [])).handed.isSome =
      true ∧
    ∀ m ∈ (exampleSession.sendInvoke 0 exampleTransport 7 "t-1" "op-1" (.object [])).handed,
      TaskEvent.read m.2.body = none := by
  refine ⟨rfl, fun m hm => ?_⟩
  cases hm
  rfl

theorem outbound_messages_of_session :
    ∃ peer m, (exampleSession.sendInvoke 0 exampleTransport 7 "t-1" "op-1" (.object [])).handed =
      some (peer, m) ∧ Conveys m.tagged (exampleSession.invocation 7 "t-1" "op-1" (.object [])) :=
  ⟨_, _, rfl, ((outbound_messages_iff exampleSession 0 exampleTransport 7 "t-1" "op-1" (.object [])
    (by decide) (by decide) (by decide +kernel)).2.1 _ _ rfl).mpr (by decide)⟩

end Anp

end AgentConnector
