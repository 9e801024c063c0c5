import AgentConnector.A2aWire

/-!
# What a request says about its operation

The method and the parameters of a request determine the operation in the SDK dialect. In the Spec
dialect they determine it up to the task of a message, which is left out: a message that continues a
task is the same as one that does not.
-/

namespace AgentConnector

open List

namespace A2aClient

/-- The shapes of the parts that the driver sends: a text, or a reference to a file. -/
def NormalizedPart.Shaped (p : NormalizedPart) : Prop :=
  p.raw = none ∧ (p.text.isSome = true ∧ p.uri = none ∧ p.mimeType = none ∨
    p.text = none ∧ p.uri.isSome = true)

def A2aOperation.Shaped : A2aOperation → Prop
  | .sendMessage parts _ _ => ∀ p ∈ parts, p.Shaped
  | _ => True

theorem shaped_corePartsToNormalized (input : List Part) :
    ∀ p ∈ corePartsToNormalized input, p.Shaped := by
  intro p hp
  obtain ⟨part, -, rfl⟩ := mem_map.mp hp
  cases part with
  | text text | json value => exact ⟨rfl, .inl ⟨rfl, rfl, rfl⟩⟩
  | fileRef uri mimeType => exact ⟨rfl, .inr ⟨rfl, rfl⟩⟩

/-- The method and the parameters of a request. -/
def encode (w : A2aWire) (op : A2aOperation) : String × Json :=
  (w.jsonrpcMethod op, w.buildParams op)

/-- The operation without the task that a message continues. -/
def A2aOperation.withoutTaskId : A2aOperation → A2aOperation
  | .sendMessage parts contextId _ => .sendMessage parts contextId none
  | op => op

variable {p : NormalizedPart}

theorem NormalizedPart.Shaped.cases (h : p.Shaped) :
    (∃ text, p = .ofText text) ∨ ∃ uri mimeType, p = ⟨none, none, some uri, mimeType⟩ := by
  obtain ⟨text, raw, uri, mimeType⟩ := p
  obtain ⟨hraw, ⟨htext, huri, hmime⟩ | ⟨htext, huri⟩⟩ := h
  · obtain ⟨s, hs⟩ := Option.isSome_iff_exists.mp htext
    exact .inl ⟨s, by simp_all [NormalizedPart.ofText]⟩
  · obtain ⟨u, hu⟩ := Option.isSome_iff_exists.mp huri
    exact .inr ⟨u, mimeType, by simp_all⟩

theorem sdkPart_partToSdk (h : p.Shaped) : Sdk.sdkPartToNormalized (Sdk.partToSdk p) = p := by
  obtain ⟨text, rfl⟩ | ⟨uri, mimeType, rfl⟩ := h.cases
  · rfl
  · cases mimeType <;> rfl

theorem specPart_partToSpec (h : p.Shaped) :
    Spec.specPartToNormalized (Spec.partToSpec p) = some p := by
  obtain ⟨text, rfl⟩ | ⟨uri, mimeType, rfl⟩ := h.cases
  · rfl
  · cases mimeType <;> rfl

theorem map_sdkPart {parts : List NormalizedPart} (h : ∀ p ∈ parts, p.Shaped) :
    (parts.map Sdk.partToSdk).map Sdk.sdkPartToNormalized = parts := by
  rw [map_map]
  exact (map_congr_left (fun p hp => sdkPart_partToSdk (h p hp))).trans (map_id _)

theorem filterMap_specPart {parts : List NormalizedPart} (h : ∀ p ∈ parts, p.Shaped) :
    (parts.map Spec.partToSpec).filterMap Spec.specPartToNormalized = parts := by
  rw [filterMap_map]
  exact (filterMap_congr (fun p hp => specPart_partToSpec (h p hp))).trans filterMap_some

section

variable (parts : List NormalizedPart) (contextId taskId : Option String)

theorem sdk_contextId :
    (Sdk.buildParams (.sendMessage parts contextId taskId)).getStr "contextId" = contextId := by
  cases contextId <;> cases taskId <;> rfl

theorem sdk_taskId :
    (Sdk.buildParams (.sendMessage parts contextId taskId)).getStr "taskId" = taskId := by
  cases contextId <;> cases taskId <;> rfl

theorem spec_contextId : ((Spec.buildParams (.sendMessage parts contextId taskId)).pointer
      ["message", "contextId"]).bind Json.asStr = contextId := by
  cases contextId <;> rfl

end

variable {op op' : A2aOperation}

inductive SameKind : A2aOperation → A2aOperation → Prop where
  | send (parts parts' : List NormalizedPart)
      (contextId contextId' taskId taskId' : Option String) :
      SameKind (.sendMessage parts contextId taskId) (.sendMessage parts' contextId' taskId')
  | get (taskId taskId' : String) : SameKind (.getTask taskId) (.getTask taskId')
  | cancel (taskId taskId' : String) : SameKind (.cancelTask taskId) (.cancelTask taskId')

theorem sameKind_of_method (d : Dialect)
    (h : d.wire.jsonrpcMethod op = d.wire.jsonrpcMethod op') : SameKind op op' := by
  cases op <;> cases op' <;>
    first
    | constructor
    | cases d <;> exact absurd h (by simp [Dialect.wire, sdkWire, specWire, Sdk.jsonrpcMethod,
        Spec.jsonrpcMethod])

theorem encode_sdk_inj (h : op.Shaped) (h' : op'.Shaped)
    (heq : encode sdkWire op = encode sdkWire op') : op = op' := by
  have hparams : Sdk.buildParams op = Sdk.buildParams op' := congrArg Prod.snd heq
  have hname : ∀ {a b : String}, some ("tasks/" ++ a) = some ("tasks/" ++ b) → a = b := by simp
  cases sameKind_of_method .sdk (congrArg Prod.fst heq) with
  | send parts parts' contextId contextId' taskId taskId' =>
    have hparts : some ((parts.map Sdk.partToSdk).map Sdk.sdkPartToNormalized) =
        some ((parts'.map Sdk.partToSdk).map Sdk.sdkPartToNormalized) :=
      congrArg (fun v => ((v.pointer ["message", "parts"]).bind Json.asArray).map
        (List.map Sdk.sdkPartToNormalized)) hparams
    have hcontext := congrArg (fun v => v.getStr "contextId") hparams
    have htask := congrArg (fun v => v.getStr "taskId") hparams
    simp only [sdk_contextId] at hcontext
    simp only [sdk_taskId] at htask
    rw [map_sdkPart h, map_sdkPart h'] at hparts
    rw [Option.some.inj hparts, hcontext, htask]
  | get taskId taskId' | cancel taskId taskId' =>
    rw [hname (congrArg (fun v => v.getStr "name") hparams)]

theorem encode_spec_eq_iff (h : op.Shaped) (h' : op'.Shaped) :
    encode specWire op = encode specWire op' ↔ op.withoutTaskId = op'.withoutTaskId := by
  constructor
  · intro heq
    have hparams : Spec.buildParams op = Spec.buildParams op' := congrArg Prod.snd heq
    cases sameKind_of_method .spec (congrArg Prod.fst heq) with
    | send parts parts' contextId contextId' taskId taskId' =>
      have hparts : some ((parts.map Spec.partToSpec).filterMap Spec.specPartToNormalized) =
          some ((parts'.map Spec.partToSpec).filterMap Spec.specPartToNormalized) :=
        congrArg (fun v => ((v.pointer ["message", "parts"]).bind Json.asArray).map
          (List.filterMap Spec.specPartToNormalized)) hparams
      have hcontext := congrArg
        (fun v => (v.pointer ["message", "contextId"]).bind Json.asStr) hparams
      simp only [spec_contextId] at hcontext
      rw [filterMap_specPart h, filterMap_specPart h'] at hparts
      rw [A2aOperation.withoutTaskId, A2aOperation.withoutTaskId, Option.some.inj hparts, hcontext]
    | get taskId taskId' | cancel taskId taskId' =>
      have hid : some taskId = some taskId' := congrArg (fun v => v.getStr "id") hparams
      rw [Option.some.inj hid]
  · intro heq
    have hforget : ∀ o : A2aOperation, encode specWire o.withoutTaskId = encode specWire o := by
      intro o
      cases o <;> rfl
    rw [← hforget op, heq, hforget op']

/-- A request determines its operation, except that in the Spec dialect a message may be taken for
one that continues another task; so an input names the task it continues in the SDK dialect only. -/
theorem encode_determines_iff (d : Dialect) (h : op.Shaped) (h' : op'.Shaped) :
    ((encode d.wire op = encode d.wire op' → op = op') ↔
      d = .sdk ∨ op = op' ∨ op.withoutTaskId ≠ op'.withoutTaskId) ∧
    ∀ input remoteId, (d.wire.buildParams (inputMessage input remoteId)).getStr "taskId" =
      some remoteId ↔ d = .sdk := by
  cases d with
  | sdk =>
    refine ⟨⟨fun _ => .inl rfl, fun _ => encode_sdk_inj h h'⟩, fun input remoteId => ?_⟩
    exact ⟨fun _ => rfl, fun _ => sdk_taskId _ _ _⟩
  | spec =>
    have hiff : encode Dialect.spec.wire op = encode Dialect.spec.wire op' ↔
        op.withoutTaskId = op'.withoutTaskId := encode_spec_eq_iff h h'
    rw [hiff]
    refine ⟨⟨fun himp => ?_, ?_⟩, fun input remoteId => ⟨fun hid => ?_, (fun hd => by cases hd)⟩⟩
    · by_cases heq : op.withoutTaskId = op'.withoutTaskId
      · exact .inr (.inl (himp heq))
      · exact .inr (.inr heq)
    · rintro (hd | heq | hne) hsame
      · cases hd
      · exact heq
      · exact absurd hsame hne
    · have hnone : some remoteId = none := hid.symm
      cases hnone

/-- In the Spec dialect the inputs for two tasks are the same request. -/
theorem inputs_for_two_tasks : inputMessage [.text "yes"] "1" ≠ inputMessage [.text "yes"] "2" ∧
      encode Dialect.spec.wire (inputMessage [.text "yes"] "1") =
        encode Dialect.spec.wire (inputMessage [.text "yes"] "2") :=
  ⟨by decide, rfl⟩

/-- In the SDK dialect the inputs for two tasks are told apart. -/
theorem encode_determines_inputs : encode Dialect.sdk.wire (inputMessage [.text "yes"] "1") ≠
      encode Dialect.sdk.wire (inputMessage [.text "yes"] "2") := by
  have h : ∀ remoteId, (inputMessage [.text "yes"] remoteId).Shaped :=
    fun _ => shaped_corePartsToNormalized _
  have hne : inputMessage [.text "yes"] "1" ≠ inputMessage [.text "yes"] "2" := by decide
  exact fun heq => hne ((encode_determines_iff .sdk (h "1") (h "2")).1.mpr (.inl rfl) heq)

end A2aClient

end AgentConnector
