import AgentConnector.AcpRuntime
import AgentConnector.OrderedMap
import Mathlib.Data.String.Basic

/-!
# Content blocks and updates of the ACP mapper

A prompt reaches the runtime as content blocks. The blocks that the client driver writes are read
back as the parts they came from. The mapper's own blocks are serialised with other field names, so
the runtime drops the JSON blocks and the media types of resources. A prompt with a workspace is
written into the metadata by an assignment that panics unless the metadata is an object or null.
Events become session updates
with a session identifier that is a constant and a request identifier that is drawn anew whenever an
event is mapped.
-/

namespace AgentConnector.Acp

open List

/-! ### Blocks of the client driver -/

def partToAcpBlock : Part → Json
  | .text text => .object [("kind", .string "text"), ("text", .string text)]
  | .json value => .object [("kind", .string "data"), ("json", value)]
  | .fileRef uri mimeType => .object [("kind", .string "resource"), ("uri", .string uri),
      ("mimeType", Json.ofOption mimeType)]

def partsToAcpBlocks (parts : List Part) : List Json := parts.map partToAcpBlock

/-- The parameters of a prompt that consists of `blocks`. -/
def promptParams (blocks : List Json) : Json := .object [("prompt", .array blocks)]

theorem extractParts_promptParams (blocks : List Json) :
    extractParts (promptParams blocks) = blocks.filterMap blockToPart := rfl

theorem blockToPart_partToAcpBlock (p : Part) : blockToPart (partToAcpBlock p) = some p := by
  cases p with
  | text text => rfl
  | json value => rfl
  | fileRef uri mimeType => cases mimeType <;> rfl

theorem acpBlockToPart_partToAcpBlock (p : Part) : acpBlockToPart (partToAcpBlock p) = some p := by
  cases p with
  | text text => rfl
  | json value => rfl
  | fileRef uri mimeType => cases mimeType <;> rfl

/-- Both readers of blocks give back the parts of a prompt. -/
theorem prompt_round_trip (parts : List Part) :
    extractParts (promptParams (partsToAcpBlocks parts)) = parts ∧
      (partsToAcpBlocks parts).map acpBlockToPart = parts.map some := by
  constructor
  · rw [extractParts_promptParams, partsToAcpBlocks, filterMap_map]
    exact (filterMap_congr (fun p _ => blockToPart_partToAcpBlock p)).trans filterMap_some
  · rw [partsToAcpBlocks, map_map]
    exact map_congr_left (fun p _ => acpBlockToPart_partToAcpBlock p)

/-! ### Blocks of the mapper -/

inductive AcpContentBlock where
  | text (text : String)
  | json (value : Json)
  | resource (uri : String) (mimeType : Option String)

namespace AcpContentBlock

def toCorePart : AcpContentBlock → Part
  | text t => .text t
  | json value => .json value
  | resource uri mimeType => .fileRef uri mimeType

def fromCorePart : Part → AcpContentBlock
  | .text t => text t
  | .json value => json value
  | .fileRef uri mimeType => resource uri mimeType

/-- The serialisation derived for the type: the tag `kind`, then the fields under their names. -/
def toJson : AcpContentBlock → Json
  | text t => .object [("kind", .string "text"), ("text", .string t)]
  | json value => .object [("kind", .string "json"), ("value", value)]
  | resource uri mimeType => .object [("kind", .string "resource"), ("uri", .string uri),
      ("mime_type", Json.ofOption mimeType)]

/-- A text, or a resource without a media type. -/
def Plain : AcpContentBlock → Prop
  | text _ => True
  | json _ => False
  | resource _ mimeType => mimeType = none

theorem blockToPart_toJson (b : AcpContentBlock) : blockToPart b.toJson =
    match b with
    | text t => some (.text t)
    | json _ => none
    | resource uri _ => some (.fileRef uri none) := by
  cases b <;> rfl

theorem blocks_agree_iff (blocks : List AcpContentBlock) :
    extractParts (promptParams (blocks.map toJson)) = blocks.map toCorePart ↔
      ∀ b ∈ blocks, b.Plain := by
  rw [extractParts_promptParams, filterMap_map]
  change blocks.filterMap (fun b => blockToPart b.toJson) = _ ↔ _
  induction blocks with
  | nil => simp
  | cons b blocks ih =>
    rw [forall_mem_cons, ← ih, filterMap_cons, blockToPart_toJson, map_cons]
    cases b with
    | text t => simp [toCorePart, Plain]
    | json value =>
      -- the rest alone would have to be as long as the whole list
      refine iff_of_false (fun h => ?_) (fun h => h.1)
      have hrest : blocks.filterMap (fun b => blockToPart b.toJson) =
          .json value :: blocks.map toCorePart := h
      have hlength := length_filterMap_le (fun b => blockToPart b.toJson) blocks
      rw [hrest, length_cons, length_map] at hlength
      omega
    | resource uri mimeType =>
      simp only [toCorePart, Plain, List.cons.injEq, Part.fileRef.injEq, true_and, eq_comm]

theorem json_block_dropped : extractParts (promptParams ([json .null].map toJson)) ≠
    [json .null].map toCorePart := by
  change ([] : List Part) ≠ [.json .null]
  simp

end AcpContentBlock

/-! ### Updates of a session -/

inductive AcpUpdate where
  | agentMessage (content : List AcpContentBlock)
  | progress (message : String) (percent : Option UInt8)
  | requestInput (requestId question : String) (schema : Option Json)
  | artifact (name : String) (uri : Option String) (mimeType : String) (sizeBytes : ℕ)
  | completed
  | failed (code message : String)
  | cancelled

structure AcpSessionUpdate where
  sessionId : String
  taskId : String
  update : AcpUpdate

variable (fresh : Uuid)

/-- The updates for a kind of event; `fresh` is the UUID drawn for a request for input. -/
def updatesOf : CoreEventKind → List AcpUpdate
  | .accepted _ => [.progress "task accepted" none]
  | .progress message percent => [.progress message percent]
  | .inputRequired request => [.requestInput fresh.display request.question request.schema]
  | .artifact a => [.artifact a.name a.uri a.mimeType a.sizeBytes]
  | .completed output => [.agentMessage (output.map .fromCorePart), .completed]
  | .failed error => [.failed error.code error.message]
  | .cancelRequested _ => [.progress "cancellation requested" none]
  | .cancelled => [.cancelled]

def mapEvent (event : CoreEvent) : List AcpSessionUpdate :=
  (updatesOf fresh event.kind).map (fun update => ⟨"unknown", event.taskId.display, update⟩)

structure AcpTaskRef where
  sessionId : String
  taskId : String

/-- What `prompt` answers with, from the snapshot of the task. -/
def taskRef (snapshot : TaskSnapshot) : AcpTaskRef :=
  ⟨(snapshot.sessionId.getD fresh).display, snapshot.taskId.display⟩

/-- What an `AcpUpdateStream` has delivered of a log: events, each with the UUID that was drawn when
it was mapped. -/
structure AcpSubscription (log : List CoreEvent) where
  delivered : List (CoreEvent × Uuid)
  sound : ∀ d ∈ delivered, d.1 ∈ log

/-- Events that both subscriptions deliver give the same updates, of the given session. -/
def StableReplay {log : List CoreEvent} (a b : AcpSubscription log) (sessionId : String) : Prop :=
  ∀ d ∈ a.delivered, ∀ d' ∈ b.delivered, d.1.seq = d'.1.seq →
    mapEvent d.2 d.1 = mapEvent d'.2 d'.1 ∧ ∀ u ∈ mapEvent d.2 d.1, u.sessionId = sessionId

def CoreEventKind.AsksInput : CoreEventKind → Prop
  | .inputRequired _ => True
  | _ => False

theorem mapEvent_eq_iff (fresh fresh' : Uuid) (e : CoreEvent) :
    mapEvent fresh e = mapEvent fresh' e ↔
      ¬ CoreEventKind.AsksInput e.kind ∨ fresh.display = fresh'.display := by
  obtain ⟨taskId, seq, at_, kind⟩ := e
  cases kind <;> simp [mapEvent, updatesOf, CoreEventKind.AsksInput]

theorem display_ne_unknown (u : Uuid) : u.display ≠ "unknown" := by
  intro h
  have hdash : '-' ∈ u.display.toList := by simp [Uuid.display]
  rw [h] at hdash
  exact absurd hdash (by decide)

theorem exists_mem_mapEvent (e : CoreEvent) : ∃ u ∈ mapEvent fresh e, u.sessionId = "unknown" := by
  obtain ⟨taskId, seq, at_, kind⟩ := e
  cases kind <;> simp [mapEvent, updatesOf]

section

variable {log : List CoreEvent} (a b : AcpSubscription log) (fresh : Uuid) (s : TaskSnapshot)

/-- No event that is delivered twice is stable, since no task has the session `"unknown"`. The
updates alone are the same unless the event asks for input. -/
theorem replay_stable_iff (hlog : (log.map CoreEvent.seq).Nodup) :
    (StableReplay a b (taskRef fresh s).sessionId ↔
      ∀ d ∈ a.delivered, ∀ d' ∈ b.delivered, d.1.seq ≠ d'.1.seq) ∧
    ∀ d ∈ a.delivered, ∀ d' ∈ b.delivered, d.1.seq = d'.1.seq →
      (mapEvent d.2 d.1 = mapEvent d'.2 d'.1 ↔
        ¬ CoreEventKind.AsksInput d.1.kind ∨ d.2.display = d'.2.display) := by
  refine ⟨⟨fun h d hd d' hd' heq => ?_, fun h d hd d' hd' heq => absurd heq (h d hd d' hd')⟩,
    fun d hd d' hd' heq => ?_⟩
  · obtain ⟨u, hu, hunknown⟩ := exists_mem_mapEvent d.2 d.1
    exact display_ne_unknown _ (((h d hd d' hd' heq).2 u hu).symm.trans hunknown)
  · have hsame : d.1 = d'.1 :=
      inj_on_of_nodup_map hlog (a.sound d hd) (b.sound d' hd') heq
    rw [← hsame]
    exact mapEvent_eq_iff d.2 d'.2 d.1

end

def askedOnce : List CoreEvent := [⟨1, 1, 0, .inputRequired ⟨"which?", none⟩⟩]

def replayOf : AcpSubscription askedOnce :=
  ⟨askedOnce.map (·, fresh), by simp [askedOnce]⟩

def askedTask : TaskSnapshot :=
  ⟨1, none, ⟨"agent"⟩, ⟨"client"⟩, .waitingForInput, 1, 1, 0, 0, none⟩

theorem replay_stable_iff_asked :
    StableReplay (replayOf 1) (replayOf 2) (taskRef 3 askedTask).sessionId ↔
      ∀ d ∈ (replayOf 1).delivered, ∀ d' ∈ (replayOf 2).delivered, d.1.seq ≠ d'.1.seq :=
  (replay_stable_iff (replayOf 1) (replayOf 2) 3 askedTask (by decide)).1

theorem question_not_stable :
    ¬ StableReplay (replayOf 1) (replayOf 2) (taskRef 3 askedTask).sessionId := by
  intro h
  have hsession := (h _ (mem_singleton_self _) _ (mem_singleton_self _) rfl).2 _
    (mem_singleton_self _)
  exact display_ne_unknown _ hsession.symm

/-! ### Prompts -/

structure AcpSessionPrompt where
  sessionId : Option String
  requestId : String
  agentId : Option String
  skillId : Option String
  prompt : List AcpContentBlock
  workspace : Option String
  metadata : Json

inductive AcpMapperError where
  | core (error : CoreError)
  | invalidRequest (message : String)

/-- `value[key] = x`; `none` is the panic of `serde_json`. -/
def assign (key : String) (x : Json) : Json → Option Json
  | .object fields => some (.object (OrderedMap.insert key x fields))
  | .null => some (.object [(key, x)])
  | _ => none

section

variable (parse : String → Option Uuid)

def parseUuid (value : String) : Except AcpMapperError Uuid :=
  match parse value with
  | some id => .ok id
  | none => .error (.invalidRequest "expected UUID")

/-- The context of the request; `none` is a panic. -/
def promptContext (p : AcpSessionPrompt) : Option Json :=
  match p.workspace with
  | some workspace => assign "workspace" (.string workspace) p.metadata
  | none => some p.metadata

def invokeRequest (p : AcpSessionPrompt) (sessionId : Option SessionId) (context : Json) :
    InvokeRequest where
  taskId := none
  agentId := p.agentId.map AgentId.mk
  skillId := p.skillId
  idempotencyKey := "acp:" ++ p.requestId
  sessionId := sessionId
  input := p.prompt.map AcpContentBlock.toCorePart
  context := context
  deadline := none

/-- The request that has been dispatched, if any, and what is returned; `none` is a panic. -/
def prompt (dispatch : InvokeRequest → Except CoreError DispatchResult) (p : AcpSessionPrompt) :
    Option (Option InvokeRequest × Except AcpMapperError AcpTaskRef) :=
  if isBlank p.requestId then
    some (none, .error (.invalidRequest "request_id is required for idempotency"))
  else match p.sessionId.mapM (parseUuid parse) with
  | .error e => some (none, .error e)
  | .ok sessionId => (promptContext p).map (fun context =>
    let request := invokeRequest p sessionId context
    (some request, match dispatch request with
      | .error e => .error (.core e)
      | .ok (.created s) | .ok (.existing s) => .ok (taskRef fresh s)
      | .ok _ => .error (.invalidRequest "unexpected core result for prompt")))

/-- The request has the blocks, the workspace and the members of the metadata that the workspace
does not replace. -/
structure Carries (p : AcpSessionPrompt) (request : InvokeRequest) : Prop where
  input : request.input = p.prompt.map AcpContentBlock.toCorePart
  workspace : ∀ w, p.workspace = some w → request.context.get "workspace" = some (.string w)
  members : ∀ key, (p.workspace.isSome → key ≠ "workspace") →
    request.context.get key = p.metadata.get key

def Indexable (v : Json) : Prop := v = .null ∨ ∃ fields, v = .object fields

theorem assign_eq_none_iff {key : String} {x v : Json} :
    assign key x v = none ↔ ¬ Indexable v := by
  cases v <;> simp [assign, Indexable]

theorem get_assign {key : String} (h : assign key x v = some w) (key' : String) :
    w.get key' = if key' = key then some x else v.get key' := by
  unfold assign at h
  split at h
  · cases h
    exact OrderedMap.lookup_insert _ _ _ _
  · cases h
    exact OrderedMap.lookup_cons_eq (key, x) [] key'
  · cases h

theorem carries_invokeRequest (h : promptContext p = some context) (sessionId : Option SessionId) :
    Carries p (invokeRequest p sessionId context) := by
  unfold promptContext at h
  cases hw : p.workspace with
  | none =>
    rw [hw] at h
    cases h
    exact ⟨rfl, fun w hw' => (by rw [hw] at hw'; cases hw'), fun _ _ => rfl⟩
  | some w =>
    rw [hw] at h
    have hget : ∀ key, context.get key = _ := get_assign h
    refine ⟨rfl, fun w' hw' => ?_, fun key hkey => ?_⟩
    · rw [hw] at hw'
      cases hw'
      exact (hget _).trans (if_pos rfl)
    · exact (hget key).trans (if_neg (hkey (by rw [hw]; rfl)))

/-- A prompt is refused or dispatched with all it carries, or it makes the mapper panic. -/
theorem prompt_total_iff (dispatch : InvokeRequest → Except CoreError DispatchResult)
    (p : AcpSessionPrompt) :
    (∃ sent r, prompt fresh parse dispatch p = some (sent, r) ∧
      match sent with
      | some request => Carries p request
      | none => ∃ e, r = .error e) ↔
    (p.workspace.isSome → isBlank p.requestId = false →
      (∀ id, p.sessionId = some id → (parse id).isSome) → Indexable p.metadata) := by
  have hsession : (∀ id, p.sessionId = some id → (parse id).isSome) ↔
      ∃ sessionId, p.sessionId.mapM (parseUuid parse) = .ok sessionId := by
    cases p.sessionId with
    | none => simp [pure, Except.pure]
    | some id => cases h : parse id <;> simp [parseUuid, h, Functor.map, Except.map]
  rw [hsession]
  unfold prompt
  cases isBlank p.requestId with
  | true => simp
  | false =>
    cases p.sessionId.mapM (parseUuid parse) with
    | error e => simp
    | ok sessionId =>
      cases hc : promptContext p with
      | some context =>
        refine iff_of_true ⟨_, _, rfl, carries_invokeRequest hc sessionId⟩ (fun hw _ _ => ?_)
        obtain ⟨w, hw⟩ := Option.isSome_iff_exists.mp hw
        by_contra hv
        rw [promptContext, hw] at hc
        cases (assign_eq_none_iff.mpr hv).symm.trans hc
      | none =>
        refine iff_of_false (fun h => by simp at h) (fun h => ?_)
        unfold promptContext at hc
        cases hw : p.workspace with
        | none =>
          rw [hw] at hc
          cases hc
        | some w =>
          rw [hw] at hc h
          exact assign_eq_none_iff.mp hc (h rfl rfl ⟨sessionId, rfl⟩)

/-- Metadata that is a number, with a workspace. -/
theorem number_metadata_panics : prompt 0 (fun _ => none) (fun _ => .error .timeout)
    ⟨none, "1", none, none, [], some "w", .int 0⟩ = none := by
  rfl

end

end AgentConnector.Acp
