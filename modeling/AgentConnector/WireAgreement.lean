import AgentConnector.A2aWire

/-!
# Agreement of the two wire formats

A task of a remote agent, written in either dialect and parsed by the dialect's parser. Both parsers
read the identifier, the texts and files of the artifacts and any state that is there in the same
way. They differ on a task without a state, on a status message that is not a single text, and on
artifacts with other data; otherwise they agree.
-/

namespace AgentConnector

open List

namespace A2aClient

inductive RemotePart where
  | text (text : String)
  | file (uri : String) (mimeType : Option String)
  | data (value : Json)

structure RemoteTask where
  id : String
  contextId : Option String
  state : Option NormalizedState
  message : Option (List RemotePart)
  artifacts : List (List RemotePart)

namespace RemotePart

def text? : RemotePart → Option String
  | text s => some s
  | _ => none

def isData : RemotePart → Bool
  | data _ => true
  | _ => false

def toSdk : RemotePart → Json
  | text s => .object [("text", .string s)]
  | file uri mimeType => .object [("url", .string uri), ("media_type", .ofOption mimeType)]
  | data value => .object [("data", value)]

def toSpec : RemotePart → Json
  | text s => .object [("kind", .string "text"), ("text", .string s)]
  | file uri mimeType => .object [("kind", .string "file"),
      ("file", .object [("uri", .string uri), ("mimeType", .ofOption mimeType)])]
  | data value => .object [("kind", .string "data"), ("data", value)]

def sdkNormalized : RemotePart → NormalizedPart
  | text s => .ofText s
  | file uri mimeType => ⟨none, none, some uri, mimeType⟩
  | data _ => .empty

def specNormalized (p : RemotePart) : Option NormalizedPart :=
  if p.isData then none else some p.sdkNormalized

end RemotePart

namespace NormalizedState

def sdkName : NormalizedState → String
  | submitted => "TASK_STATE_SUBMITTED"
  | working => "TASK_STATE_WORKING"
  | inputRequired => "TASK_STATE_INPUT_REQUIRED"
  | authRequired => "TASK_STATE_AUTH_REQUIRED"
  | completed => "TASK_STATE_COMPLETED"
  | failed => "TASK_STATE_FAILED"
  | canceled => "TASK_STATE_CANCELLED"
  | rejected => "TASK_STATE_REJECTED"

def specName : NormalizedState → String
  | submitted => "submitted"
  | working => "working"
  | inputRequired => "input_required"
  | authRequired => "auth_required"
  | completed => "completed"
  | failed => "failed"
  | canceled => "canceled"
  | rejected => "rejected"

end NormalizedState

namespace RemoteTask

variable (t : RemoteTask)

/-- The `status` of a task whose parts are written by `part`. -/
def status (name : NormalizedState → String) (role : String) (part : RemotePart → Json) : Json :=
  .object (Json.optional "state" (t.state.map (fun st => .string (name st))) ++
    Json.optional "message" (t.message.map (fun parts =>
      .object [("role", .string role), ("parts", .array (parts.map part))])))

def artifactList (part : RemotePart → Json) : Json :=
  .array (t.artifacts.map (fun parts => .object [("parts", .array (parts.map part))]))

def toSdk (t : RemoteTask) : Json :=
  .object [("task", .object ([("id", .string t.id)] ++
    Json.optional "contextId" (t.contextId.map .string) ++
    [("status", t.status NormalizedState.sdkName "ROLE_AGENT" RemotePart.toSdk),
      ("artifacts", t.artifactList RemotePart.toSdk)]))]

def toSpec (t : RemoteTask) : Json :=
  .object ([("id", .string t.id)] ++ Json.optional "context_id" (t.contextId.map .string) ++
    [("status", t.status NormalizedState.specName "agent" RemotePart.toSpec),
      ("artifacts", t.artifactList RemotePart.toSpec)])

def firstText : Option String :=
  t.message.bind (fun parts => parts.head?.bind RemotePart.text?)

def allText : Option String :=
  t.message.map (fun parts => String.join (parts.filterMap RemotePart.text?))

end RemoteTask

theorem sdkPart_eq (p : RemotePart) : Sdk.sdkPartToNormalized p.toSdk = p.sdkNormalized := by
  cases p with
  | text s => rfl
  | file uri mimeType => cases mimeType <;> rfl
  | data value => rfl

theorem specPart_eq (p : RemotePart) : Spec.specPartToNormalized p.toSpec = p.specNormalized := by
  cases p with
  | text s => rfl
  | file uri mimeType => cases mimeType <;> rfl
  | data value => rfl

theorem sdkState_eq (st : NormalizedState) : Sdk.parseState st.sdkName = .ok st := by
  cases st <;> rfl

theorem specState_eq (st : NormalizedState) : Spec.parseState st.specName = .ok st := by
  cases st <;> rfl

variable (t : RemoteTask)

/-- The fields of a task that both dialects have, behind an optional context. -/
def taskFields (key : String) (name : NormalizedState → String) (role : String)
    (part : RemotePart → Json) : Json :=
  .object ([("id", .string t.id)] ++ Json.optional key (t.contextId.map .string) ++
    [("status", t.status name role part), ("artifacts", t.artifactList part)])

theorem taskFields_id : (taskFields t key name role part).getStr "id" = some t.id := rfl

section

variable {t} {key : String} (hkey : key = "contextId" ∨ key = "context_id")
  (name : NormalizedState → String) (role : String) (part : RemotePart → Json)

include hkey

theorem taskFields_contextId : (taskFields t key name role part).getStr key = t.contextId := by
  obtain ⟨_, contextId, _, _, _⟩ := t
  obtain rfl | rfl := hkey <;> cases contextId <;> rfl

theorem taskFields_state :
    ((taskFields t key name role part).pointer ["status", "state"]).bind Json.asStr =
      t.state.map name := by
  obtain ⟨_, contextId, state, message, _⟩ := t
  obtain rfl | rfl := hkey <;> cases contextId <;> cases state <;> cases message <;> rfl

theorem taskFields_message (path : List String) :
    (taskFields t key name role part).pointer ("status" :: "message" :: "parts" :: path) =
      t.message.bind (fun parts => (Json.array (parts.map part)).pointer path) := by
  obtain ⟨_, contextId, state, message, _⟩ := t
  obtain rfl | rfl := hkey <;> cases contextId <;> cases state <;> cases message <;> rfl

theorem taskFields_artifacts (read : List Json → List NormalizedPart) :
    artifactParts read (taskFields t key name role part) =
      t.artifacts.flatMap (fun parts => read (parts.map part)) := by
  have hlist : (taskFields t key name role part).getArray "artifacts" =
      some (t.artifacts.map (fun parts => .object [("parts", .array (parts.map part))])) := by
    obtain ⟨_, contextId, _, _, _⟩ := t
    obtain rfl | rfl := hkey <;> cases contextId <;> rfl
  rw [artifactParts, hlist, Option.getD_some, flatMap_map]
  rfl

end

theorem bind_orProtocolError {α β : Type} {v : Option α} {a : α} (h : v = some a)
    (message : String) (f : α → Except A2aClientError β) :
    (orProtocolError v message >>= f) = f a := by
  rw [h]
  rfl

theorem sdkText_eq (p : RemotePart) : p.toSdk.getStr "text" = p.text? := by
  cases p with
  | text s => rfl
  | file uri mimeType => rfl
  | data value => rfl

theorem sdk_parseTask : Sdk.parseTask t.toSdk =
    (Sdk.parseState ((t.state.map NormalizedState.sdkName).getD "TASK_STATE_UNSPECIFIED")).map
      (fun st => ⟨t.id, t.contextId, st, t.allText,
        t.artifacts.flatMap (List.map RemotePart.sdkNormalized)⟩) := by
  have hkey : "contextId" = "contextId" ∨ "contextId" = "context_id" := .inl rfl
  have htask : t.toSdk.get "task" =
      some (taskFields t "contextId" NormalizedState.sdkName "ROLE_AGENT" RemotePart.toSdk) := rfl
  have hmessage : (((taskFields t "contextId" NormalizedState.sdkName "ROLE_AGENT"
      RemotePart.toSdk).pointer ["status", "message", "parts"]).bind Json.asArray).map
      (fun parts => String.join (parts.filterMap (fun p => p.getStr "text"))) = t.allText := by
    rw [taskFields_message hkey, RemoteTask.allText]
    cases t.message with
    | none => rfl
    | some parts =>
      have htexts : (parts.map RemotePart.toSdk).filterMap (fun p => p.getStr "text") =
          parts.filterMap RemotePart.text? := by
        rw [filterMap_map]
        exact congrArg (fun f => parts.filterMap f) (funext sdkText_eq)
      exact congrArg (fun texts => some (String.join texts)) htexts
  have hparts : artifactParts (fun parts => parts.map Sdk.sdkPartToNormalized)
      (taskFields t "contextId" NormalizedState.sdkName "ROLE_AGENT" RemotePart.toSdk) =
      t.artifacts.flatMap (List.map RemotePart.sdkNormalized) := by
    rw [taskFields_artifacts hkey]
    congr 1
    funext parts
    rw [map_map]
    exact congrArg (fun f => parts.map f) (funext sdkPart_eq)
  unfold Sdk.parseTask
  rw [bind_orProtocolError htask, bind_orProtocolError (taskFields_id t), taskFields_state hkey]
  dsimp only
  rw [hmessage, hparts, taskFields_contextId hkey]
  rfl

/-- What the Spec dialect reads: the text of the first part of the message, and the parts that are
texts or files. -/
theorem spec_parseTask : Spec.parseTask t.toSpec =
    .ok ⟨t.id, t.contextId, t.state.getD .submitted, t.firstText,
      t.artifacts.flatMap (List.filterMap RemotePart.specNormalized)⟩ := by
  have hkey : "context_id" = "contextId" ∨ "context_id" = "context_id" := .inr rfl
  have htask : t.toSpec =
      taskFields t "context_id" NormalizedState.specName "agent" RemotePart.toSpec := rfl
  have hmessage : ((taskFields t "context_id" NormalizedState.specName "agent"
      RemotePart.toSpec).pointer ["status", "message", "parts", "0", "text"]).bind Json.asStr =
      t.firstText := by
    rw [taskFields_message hkey, RemoteTask.firstText]
    cases t.message with
    | none => rfl
    | some parts =>
      cases parts with
      | nil => rfl
      | cons p rest => cases p <;> rfl
  have hparts : artifactParts (fun parts => parts.filterMap Spec.specPartToNormalized)
      (taskFields t "context_id" NormalizedState.specName "agent" RemotePart.toSpec) =
      t.artifacts.flatMap (List.filterMap RemotePart.specNormalized) := by
    rw [taskFields_artifacts hkey]
    congr 1
    funext parts
    rw [filterMap_map]
    exact congrArg (fun f => parts.filterMap f) (funext specPart_eq)
  have hstate : Spec.parseState ((t.state.map NormalizedState.specName).getD "submitted") =
      .ok (t.state.getD .submitted) := by
    cases t.state with
    | none => rfl
    | some st => exact specState_eq st
  unfold Spec.parseTask
  rw [htask, bind_orProtocolError (taskFields_id t), taskFields_state hkey, hmessage, hparts,
    taskFields_contextId hkey, hstate]
  rfl

/-- The same outcome for the driver: both parsers fail, or both give the same identifier, state,
message and parts. -/
def SameTask : Except A2aClientError NormalizedTask → Except A2aClientError NormalizedTask → Prop
  | .ok a, .ok b => a.id = b.id ∧ a.state = b.state ∧ a.statusMessage = b.statusMessage ∧
      a.outputParts = b.outputParts
  | .error _, .error _ => True
  | _, _ => False

instance (r r' : Except A2aClientError NormalizedTask) : Decidable (SameTask r r') := by
  unfold SameTask
  split <;> infer_instance

/-- A message whose first part is a text and whose other texts are empty. -/
def SingleText : List RemotePart → Prop
  | .text _ :: rest => ∀ s ∈ rest.filterMap RemotePart.text?, s = ""
  | _ => False

theorem join_eq_empty : String.join l = "" ↔ ∀ s ∈ l, s = "" := by
  induction l with
  | nil => simp [String.join]
  | cons s l ih =>
    have hcons : String.join (s :: l) = s ++ String.join l := by simp
    rw [hcons, forall_mem_cons, ← ih]
    simp

theorem allText_eq_firstText_iff : t.allText = t.firstText ↔
    ∀ parts ∈ t.message, SingleText parts := by
  unfold RemoteTask.allText RemoteTask.firstText
  cases t.message with
  | none => simp
  | some parts =>
    simp only [Option.map_some, Option.bind_some, Option.mem_some_iff, forall_eq']
    cases parts with
    | nil => simp [SingleText]
    | cons p rest =>
      cases p with
      | text s =>
        have hcons : String.join ((RemotePart.text s :: rest).filterMap RemotePart.text?) =
            s ++ String.join (rest.filterMap RemotePart.text?) := by
          simp [RemotePart.text?]
        rw [hcons]
        change some _ = some s ↔ ∀ s ∈ rest.filterMap RemotePart.text?, s = ""
        rw [← join_eq_empty]
        simp
      | file uri mimeType | data value => simp [SingleText, RemotePart.text?]

theorem filterMap_specNormalized (parts : List RemotePart) :
    parts.filterMap RemotePart.specNormalized =
      (parts.filter (fun p => !p.isData)).map RemotePart.sdkNormalized := by
  induction parts with
  | nil => rfl
  | cons p rest ih =>
    cases p with
    | data value => exact ih
    | text s | file uri mimeType => exact congrArg _ ih

theorem parts_eq_iff (artifacts : List (List RemotePart)) :
    artifacts.flatMap (List.map RemotePart.sdkNormalized) =
        artifacts.flatMap (List.filterMap RemotePart.specNormalized) ↔
      ∀ parts ∈ artifacts, ∀ p ∈ parts, p.isData = false := by
  have hall : (∀ parts ∈ artifacts, ∀ p ∈ parts, p.isData = false) ↔
      ∀ p ∈ artifacts.flatten, (!p.isData) = true := by
    simp only [mem_flatten, Bool.not_eq_true', forall_exists_index, and_imp]
    exact ⟨fun h p parts hparts hp => h parts hparts p hp,
      fun h parts hparts p hp => h p parts hparts hp⟩
  rw [hall, flatMap_def, flatMap_def, ← map_flatten, ← filterMap_flatten,
    filterMap_specNormalized]
  constructor
  · intro h
    have hlength := congrArg List.length h
    rw [length_map, length_map] at hlength
    exact length_filter_eq_length_iff.mp hlength.symm
  · intro h
    rw [filter_eq_self.mpr h]

/-- The two dialects agree on exactly the tasks that have a state, at most one text as their message
and no other data in their artifacts. -/
theorem same_task_iff : SameTask (sdkWire.parseTask t.toSdk) (specWire.parseTask t.toSpec) ↔
    t.state.isSome = true ∧ (∀ parts ∈ t.message, SingleText parts) ∧
      ∀ parts ∈ t.artifacts, ∀ p ∈ parts, p.isData = false := by
  change SameTask (Sdk.parseTask t.toSdk) (Spec.parseTask t.toSpec) ↔ _
  rw [sdk_parseTask, spec_parseTask, ← allText_eq_firstText_iff, ← parts_eq_iff]
  cases hstate : t.state with
  | none => exact ⟨fun h => h.elim, fun h => absurd h.1 (by decide)⟩
  | some st =>
    rw [Option.map_some, Option.getD_some, sdkState_eq]
    exact ⟨fun h => ⟨rfl, h.2.2⟩, fun h => ⟨rfl, rfl, h.2⟩⟩

/-- A task that is merely known, one with a message in two pieces, and one with a data part. -/
def noState : RemoteTask := ⟨"task", none, none, none, []⟩

def twoTexts : RemoteTask := ⟨"task", none, some .working, some [.text "SD", .text "K"], []⟩

def withData : RemoteTask := ⟨"task", none, some .completed, none, [[.data .null]]⟩

theorem dialects_differ :
    ¬ SameTask (sdkWire.parseTask noState.toSdk) (specWire.parseTask noState.toSpec) ∧
    ¬ SameTask (sdkWire.parseTask twoTexts.toSdk) (specWire.parseTask twoTexts.toSpec) ∧
    ¬ SameTask (sdkWire.parseTask withData.toSdk) (specWire.parseTask withData.toSpec) := by
  decide

end A2aClient

end AgentConnector
