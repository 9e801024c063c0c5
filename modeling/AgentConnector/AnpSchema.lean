import AgentConnector.AnpProfile
import AgentConnector.JsonSchema

/-!
# The messages of the profile and its schema

The schema `docs/schemas/anp-task-v1.schema.json`, which the profile declares to be its wire
contract, and the messages that the validation accepts. The schema closes the object of a message,
so that a message with fields of its own (the request of an input, an artifact, a state) does not
pass; it also numbers every acceptance and has rules for the payloads, which the validation does not
read.
-/

namespace AgentConnector

namespace Anp

open JsonSchema TaskEvent

/-! ### The rules for the payloads -/

def optionalString : JsonSchema := type [.string, .null]

def invokePayload : JsonSchema := allOf [ type [.object], required ["input"], properties [
    ("skill_id", optionalString),
    ("session_id", optionalString),
    ("input", type [.array]),
    ("context", type [.object]),
    ("deadline_ms", allOf [type [.integer, .null], minimum 1])]]

def cancelPayload : JsonSchema := allOf [ type [.object], properties [("reason", optionalString)]]

def provideInputPayload : JsonSchema := allOf [
  type [.object], required ["input"], properties [("input", type [.array])]]

def emptyPayload : JsonSchema := allOf [type [.object], maxProperties 0]

def acceptedPayload : JsonSchema := allOf [
  type [.object], properties [("queued", type [.boolean])]]

def progressPayload : JsonSchema := allOf [ type [.object], required ["message"], properties [
    ("message", type [.string]),
    ("percent", allOf [type [.integer, .null], minimum 0, maximum 100])]]

def artifactPayload : JsonSchema := allOf [
  type [.object], required ["id", "name", "mime_type", "size_bytes"], properties [
    ("id", type [.string]),
    ("name", type [.string]),
    ("mime_type", type [.string]),
    ("size_bytes", allOf [type [.integer], minimum 0]),
    ("uri", optionalString)]]

def inputRequiredPayload : JsonSchema := allOf [
  type [.object], required ["request_id", "question"], properties [ ("request_id", type [.string]),
    ("question", type [.string]),
    ("schema", type [.object, .null])]]

def completedPayload : JsonSchema := allOf [
  type [.object], required ["output"], properties [("output", type [.array])]]

def failedPayload : JsonSchema := allOf [
  type [.object], required ["code", "message", "retryable"], properties [ ("code", type [.string]),
    ("message", type [.string]),
    ("retryable", type [.boolean])]]

/-! ### The schema -/

def messageTypes : List String :=
  ["task.invoke", "task.accepted", "task.get_status", "task.cancel", "task.input_required",
    "task.provide_input", "task.progress", "task.artifact", "task.events", "task.completed",
    "task.failed", "task.cancelled"]

def messageProperties : List (String × JsonSchema) := [ ("profile", constString profileId),
  ("version", allOf [type [.integer], constInt 1]),
  ("agent", type [.string]),
  ("message_type", allOf [type [.string], enumString messageTypes]),
  ("task_id", type [.string]),
  ("remote_task_id", optionalString),
  ("operation_id", allOf [type [.string], minLength 1, maxLength 256]),
  ("message_id", type [.string]),
  ("causation_id", optionalString),
  ("seq", allOf [type [.integer, .null], minimum 1]),
  ("after_seq", allOf [type [.integer, .null], minimum 0]),
  ("final", type [.boolean]),
  ("artifacts", type [.array]),
  ("error", optionalString),
  ("payload", type [.object])]

def rule (messageType : String) (consequence : JsonSchema) : JsonSchema :=
  ifThen (properties [("message_type", constString messageType)]) consequence

/-- A request is neither numbered nor a resumption nor final. -/
def request (payload : JsonSchema) : JsonSchema := properties [
  ("seq", constNull), ("after_seq", constNull), ("final", constBool false), ("payload", payload)]

def report (isFinal : Bool) (payload : JsonSchema) : JsonSchema := allOf [
  required ["seq"], properties [("final", constBool isFinal), ("payload", payload)]]

def messageRules : List JsonSchema := [ rule "task.invoke" (request invokePayload),
  rule "task.cancel" (request cancelPayload),
  rule "task.provide_input" (request provideInputPayload),
  rule "task.get_status" (request emptyPayload),
  rule "task.events" (allOf [required ["after_seq"], properties [
    ("seq", constNull), ("final", constBool false), ("payload", emptyPayload)]]),
  rule "task.accepted" (report false acceptedPayload),
  rule "task.progress" (report false progressPayload),
  rule "task.artifact" (report false artifactPayload),
  rule "task.input_required" (report false inputRequiredPayload),
  rule "task.completed" (allOf [report true completedPayload,
    properties [("artifacts", type [.array])]]),
  rule "task.failed" (allOf [report true failedPayload, properties [("error", optionalString)]]),
  rule "task.cancelled" (report true emptyPayload)]

def taskSchema : JsonSchema := allOf [ type [.object],
  required ["profile", "message_type", "task_id", "operation_id", "message_id", "payload"],
  noOthers (messageProperties.map Prod.fst),
  properties messageProperties,
  allOf messageRules]

/-- The rule for the payload of a message, if the schema has room for the message. -/
def TaskEvent.payloadRule : TaskEvent → Option JsonSchema
  | taskInvoke _ => some invokePayload
  | taskCancel _ => some cancelPayload
  | taskGetStatus _ => some emptyPayload
  | taskEvents _ => some emptyPayload
  | taskProgress _ => some progressPayload
  | taskCompleted _ => some completedPayload
  | taskFailed _ => some failedPayload
  | taskCancelled _ => some emptyPayload
  | taskProvideInput _ | taskAccepted _ | taskStatus _ | taskInputRequired _ | taskArtifact _ =>
    none

/-- The messages that the schema has room for, with a payload by its rules. -/
def TaskEvent.conforms (e : TaskEvent) : Bool :=
  e.envelope.operationId.length ≤ 256 && e.payloadRule.any (fun p => p e.payload)

theorem rule_toJson (e : TaskEvent) (messageType : String) (consequence : JsonSchema) :
    rule messageType consequence e.toJson =
      (decide (e.messageType ≠ messageType) || consequence e.toJson) := by
  simp [rule, ifThen, properties, onFields, toJson, constString, Json.asStr]

theorem hasType_object_of_payloadRule {e : TaskEvent} (hp : e.payloadRule = some p) (h : p v = true)
    : hasType v .object = true := by
  have hfirst : ∀ ss : List JsonSchema, allOf (type [.object] :: ss) v = true →
      hasType v .object = true := by
    intro ss hall
    simp only [allOf, List.all_cons, type, List.any_cons, List.any_nil, Bool.or_false,
      Bool.and_eq_true] at hall
    exact hall.1
  cases e <;> cases hp <;> exact hfirst _ h

def TaskEvent.final? : TaskEvent → Option Bool
  | taskCompleted e => some e.isFinal
  | taskFailed e => some e.isFinal
  | taskCancelled e => some e.isFinal
  | _ => none

theorem taskSchema_toJson (e : TaskEvent) :
    taskSchema e.toJson = true ↔ e.envelope.profile = profileId ∧ e.envelope.version.toNat = 1 ∧
      1 ≤ e.envelope.operationId.length ∧ (∀ seq ∈ e.seq, 1 ≤ seq.toNat) ∧
      (∀ b ∈ e.final?, b = true) ∧ e.conforms = true := by
  have hobject : ∀ p ∈ e.payloadRule, p e.payload = true → hasType e.payload .object = true :=
    fun p hp => hasType_object_of_payloadRule hp
  simp only [taskSchema, allOf, List.all_cons, List.all_nil, messageRules, rule_toJson]
  cases e with
  | taskInvoke e | taskCancel e | taskGetStatus e | taskEvents e | taskProgress e
  | taskCompleted e | taskFailed e | taskCancelled e =>
    simp [payloadRule, payload, hasType] at hobject
    simp [toJson, messageType, fields, TaskInvoke.fields, TaskCancel.fields, MessageEnvelope.fields,
      conforms, payloadRule, envelope, payload, seq, final?, messageProperties, type, required,
      properties, noOthers, onFields, List.lookup_cons, List.lookup_nil, allOf, request, report,
      Json.number?, minLength, maxLength, minimum, constString, constInt, constBool, enumString,
      messageTypes, optionalString, seqJson, Decimal.geInt, Decimal.leInt, Decimal.isInteger,
      hasType, Json.asStr, Json.asArray]
    grind
  | taskProvideInput e | taskAccepted e | taskStatus e | taskInputRequired e | taskArtifact e =>
    simp [toJson, messageType, fields, MessageEnvelope.fields,
      required, onFields, List.lookup_cons, List.lookup_nil, noOthers, messageProperties, allOf,
      report, conforms, payloadRule]

theorem checks_of_validateEvent (h : validateEvent e = .ok ()) :
    validateEnvelope e.envelope e.payload = .ok () ∧ (∀ seq ∈ e.seq, seq ≠ 0) ∧
      ∀ b ∈ e.final?, b = true := by
  simp only [validateEvent, unit_bind_eq_ok_iff] at h
  obtain ⟨-, -, -, hseq, hbody⟩ := h
  refine ⟨?_, ?_, ?_⟩
  · cases e with
    | taskCancel e | taskGetStatus e | taskEvents e | taskAccepted e | taskStatus e
    | taskProgress e => exact hbody
    | taskInvoke e | taskProvideInput e | taskInputRequired e | taskArtifact e | taskCompleted e
    | taskFailed e | taskCancelled e => exact (unit_bind_eq_ok_iff.mp hbody).1
  · intro seq hmem
    rw [Option.mem_def.mp hmem] at hseq
    simpa [validateSeq, rejectIf_eq_ok] using hseq
  · intro b hb
    cases e with
    | taskCompleted e | taskFailed e =>
      cases hb
      simp only [validateBody, unit_bind_eq_ok_iff, validateFinal, rejectIf_eq_ok] at hbody
      simpa using hbody.2.1
    | taskCancelled e =>
      cases hb
      simp only [validateBody, unit_bind_eq_ok_iff, validateFinal, rejectIf_eq_ok] at hbody
      simpa using hbody.2
    | _ => cases hb

theorem length_pos_of_not_isBlank (h : isBlank s = false) : 1 ≤ s.length := by
  by_contra hlen
  have hempty : s = "" := by
    rw [← String.length_eq_zero_iff]
    omega
  rw [hempty] at h
  exact absurd h (by decide)

/-- Of the messages that the validation accepts, the schema accepts those that it has room for and
whose payload follows the rules for their type. -/
theorem schema_accepts_iff (e : TaskEvent) (h : validateEvent e = .ok ()) :
    taskSchema e.toJson = true ↔ e.conforms = true := by
  obtain ⟨henv, hseq, hfinal⟩ := checks_of_validateEvent h
  obtain ⟨hprofile, hversion, -, hop, -, -⟩ := validateEnvelope_eq_ok.mp henv
  rw [taskSchema_toJson]
  refine ⟨fun hall => hall.2.2.2.2.2, fun hconforms => ?_⟩
  have hone : ∀ seq ∈ e.seq, 1 ≤ seq.toNat := by
    intro seq hmem
    have hne : seq.toNat ≠ 0 := fun h0 => hseq seq hmem (UInt64.toNat_inj.mp h0)
    omega
  exact ⟨hprofile, by rw [hversion]; rfl, length_pos_of_not_isBlank hop, hone, hfinal, hconforms⟩

def exampleEnvelope : MessageEnvelope := .new "t-1" "op-1" "m-1"

/-- An acceptance, a question and a progress report without a message pass the validation and not
the schema. -/
theorem schema_rejects_validated : [TaskEvent.taskAccepted ⟨exampleEnvelope, .object []⟩,
      .taskInputRequired ⟨exampleEnvelope, 1, "r-1", "which file?", .object []⟩,
      .taskProgress ⟨exampleEnvelope, 1, .object []⟩].Forall
      (fun e => validateEvent e = .ok () ∧ taskSchema e.toJson = false) :=
  ⟨⟨rfl, rfl⟩, ⟨rfl, rfl⟩, ⟨rfl, rfl⟩⟩

theorem schema_accepts_progress : taskSchema (TaskEvent.taskProgress
      ⟨exampleEnvelope, 4, .object [("message", .string "reading"), ("percent", .int 40)]⟩).toJson =
      true :=
  (schema_accepts_iff _ rfl).mpr rfl

end Anp

end AgentConnector
