import AgentConnector.AgentRegistry
import AgentConnector.JsonAccess

/-!
# Events between the ACP runtime and the ACP client

The runtime writes the kind of an event the way `serde` does: a variant with fields is an object
whose only key is the name of the variant, a variant without fields is its name. The client reads
the kind as a string, and the fields next to it.
-/

namespace AgentConnector.Acp

/-! ### The runtime -/

/-- A variant with fields. -/
def tagged (tag : String) (fields : List (String × Json)) : Json :=
  .object [(tag, .object fields)]

def partToJson : Part → Json
  | .text t => tagged "Text" [("text", .string t)]
  | .json value => tagged "Json" [("value", value)]
  | .fileRef uri mimeType =>
    tagged "FileRef" [("uri", .string uri), ("mime_type", Json.ofOption mimeType)]

def artifactToJson (a : ArtifactRef) : Json :=
  .object [("id", .string a.id), ("name", .string a.name), ("mime_type", .string a.mimeType),
    ("size_bytes", .int a.sizeBytes), ("uri", Json.ofOption a.uri)]

def inputRequestToJson (r : InputRequest) : Json :=
  .object [("question", .string r.question), ("schema", r.schema.getD .null)]

def publicErrorToJson (e : PublicError) : Json :=
  .object [("code", .string e.code), ("message", .string e.message),
    ("retryable", .bool e.retryable)]

def percentToJson : Option UInt8 → Json
  | some percent => .int percent.toNat
  | none => .null

def kindToJson : CoreEventKind → Json
  | .accepted queued => tagged "Accepted" [("queued", .bool queued)]
  | .progress message percent =>
    tagged "Progress" [("message", .string message), ("percent", percentToJson percent)]
  | .artifact a => tagged "Artifact" [("artifact", artifactToJson a)]
  | .inputRequired r => tagged "InputRequired" [("request", inputRequestToJson r)]
  | .completed output => tagged "Completed" [("output", .array (output.map partToJson))]
  | .failed error => tagged "Failed" [("error", publicErrorToJson error)]
  | .cancelRequested reason => tagged "CancelRequested" [("reason", Json.ofOption reason)]
  | .cancelled => .string "Cancelled"

def eventToJson (e : CoreEvent) : Json :=
  .object [("seq", .int e.seq), ("taskId", .string e.taskId.display), ("kind", kindToJson e.kind)]

/-! ### The client -/

def acpBlockToPart (block : Json) : Option Part := do
  let kind ← block.getStr "kind"
  match kind with
  | "text" => (block.getStr "text").map .text
  | "resource" => (block.getStr "uri").map (fun uri => .fileRef uri (block.getStr "mimeType"))
  | "data" => (block.get "json").map .json
  | _ => none

def extractOutputParts (event : Json) : List Part :=
  match event.getArray "output" with
  | some blocks => blocks.filterMap acpBlockToPart
  | none => []

def getU64 (v : Json) (key : String) : Option ℕ := (v.get key).bind (Json.asUInt UInt64.size)

def driverEvent (event : Json) (kind : String) : Option DriverEvent :=
  match kind with
  | "Progress" => some (.progress ((event.getStr "message").getD "")
      ((getU64 event "percent").map UInt8.ofNat))
  | "InputRequired" =>
    some (.inputRequired ⟨(event.getStr "question").getD "input required", none⟩)
  | "Completed" => some (.completed (extractOutputParts event))
  | "Failed" => some (.failed ⟨"acp_task_failed",
      ((event.get "error").bind (fun e => e.getStr "message")).getD
        "remote ACP task failed", false⟩)
  | "Cancelled" => some .cancelled
  | _ => none

def isTerminalKind (kind : String) : Bool :=
  kind = "Completed" ∨ kind = "Failed" ∨ kind = "Cancelled"

/-- The variables of the polling loop and what it has sent. -/
structure Poll where
  lastSeq : ℕ
  sent : List DriverEvent
  finished : Bool

/-- The body of the loop over the events of a response. -/
def Poll.event (p : Poll) (event : Json) : Poll :=
  let seq := (getU64 event "seq").getD 0
  if seq ≤ p.lastSeq then p
  else
    let kind := (event.getStr "kind").getD ""
    ⟨seq, p.sent ++ (driverEvent event kind).toList, isTerminalKind kind⟩

def Poll.events : Poll → List Json → Poll
  | p, [] => p
  | p, e :: rest => if (p.event e).finished then p.event e else (p.event e).events rest

def Poll.response (p : Poll) (response : Json) : Poll :=
  match response.getArray "events" with
  | some events => p.events events
  | none => p

/-! ### What is forwarded -/

/-- The driver event says what the event of the core says. -/
inductive Means : CoreEventKind → DriverEvent → Prop
  | progress (message : String) (percent : Option UInt8) :
      Means (.progress message percent) (.progress message percent)
  | artifact (a : ArtifactRef) : Means (.artifact a) (.artifact a)
  | inputRequired (r : InputRequest) : Means (.inputRequired r) (.inputRequired r)
  | completed (output : List Part) : Means (.completed output) (.completed output)
  | failed {error forwarded : PublicError} : forwarded.message = error.message →
      Means (.failed error) (.failed forwarded)
  | cancelled : Means .cancelled .cancelled

variable {e : CoreEvent}

theorem getU64_seq (h : e.seq < UInt64.size) : getU64 (eventToJson e) "seq" = some e.seq := by
  have hget : (eventToJson e).get "seq" = some (.int e.seq) := rfl
  rw [getU64, hget, Option.bind_some, Json.asUInt_int h]

theorem response_single (p : Poll) (event : Json) :
    p.response (.object [("events", .array [event])]) = p.event event := by
  have hevents : p.response (.object [("events", .array [event])]) = p.events [event] := rfl
  rw [hevents, Poll.events, Poll.events]
  split <;> rfl

theorem event_new {p : Poll} (hseq : p.lastSeq < e.seq) (hbound : e.seq < UInt64.size) :
    p.event (eventToJson e) = ⟨e.seq, p.sent ++
        (driverEvent (eventToJson e) (((kindToJson e.kind).asStr).getD "")).toList,
        isTerminalKind (((kindToJson e.kind).asStr).getD "")⟩ := by
  have hkind : (eventToJson e).getStr "kind" = (kindToJson e.kind).asStr := rfl
  rw [Poll.event, getU64_seq hbound, Option.getD_some, if_neg (not_le_of_gt hseq), hkind]

theorem event_of_fields {p : Poll} (hseq : p.lastSeq < e.seq) (hbound : e.seq < UInt64.size)
    (hkind : e.kind ≠ .cancelled) :
    p.event (eventToJson e) = ⟨e.seq, p.sent, false⟩ := by
  have hnone : (kindToJson e.kind).asStr = none := by
    cases hk : e.kind with
    | cancelled => exact absurd hk hkind
    | _ => rfl
  rw [event_new hseq hbound, hnone]
  exact congrArg (fun sent => Poll.mk e.seq sent false) (List.append_nil _)

/-- The client forwards what an event says if and only if the event is a cancellation. -/
theorem event_forwarded_iff (e : CoreEvent) (p : Poll) (hseq : p.lastSeq < e.seq)
    (hbound : e.seq < UInt64.size) :
    (∃ event, Means e.kind event ∧
      (p.response (.object [("events", .array [eventToJson e])])).sent = p.sent ++ [event]) ↔
    e.kind = .cancelled := by
  rw [response_single]
  constructor
  · rintro ⟨event, -, hsent⟩
    by_contra hkind
    rw [event_of_fields hseq hbound hkind] at hsent
    exact List.cons_ne_nil _ _ (List.self_eq_append_right.mp hsent)
  · intro hkind
    refine ⟨.cancelled, hkind ▸ .cancelled, ?_⟩
    rw [event_new hseq hbound, hkind]
    rfl

def firstEvent (kind : CoreEventKind) : CoreEvent := ⟨1, 1, 0, kind⟩

theorem event_forwarded_cancelled : ∃ event, Means .cancelled event ∧ (Poll.response ⟨0, [], false⟩
        (.object [("events", .array [eventToJson (firstEvent .cancelled)])])).sent = [event] :=
  (event_forwarded_iff (firstEvent .cancelled) ⟨0, [], false⟩ (by decide) (by decide)).mpr rfl

/-- A completion is passed over, and the loop goes on. -/
theorem completion_not_forwarded : Poll.response ⟨0, [], false⟩
      (.object [("events", .array [eventToJson (firstEvent (.completed [.text "done"]))])]) =
      ⟨1, [], false⟩ := by
  rw [response_single]
  exact event_of_fields (by decide) (by decide) (fun h => by cases h)

end AgentConnector.Acp
