import AgentConnector.McpAllowlist

/-!
# The arguments of an MCP tool call

The parts of an input are merged into one object: a text under `input`, a file under `resource`, a
JSON object with its own keys and any other value under `value`. Later parts replace what earlier
ones have put under the same key, and nothing is checked before the call is sent.
-/

namespace AgentConnector.Mcp

open List

/-- The entries that a part puts into the arguments. -/
def contributions : Part → List (String × Json)
  | .text t => [("input", .string t)]
  | .json (.object fields) => fields
  | .json value => [("value", value)]
  | .fileRef uri mimeType =>
    [("resource", .object [("uri", .string uri), ("mimeType", Json.ofOption mimeType)])]

theorem addArgument_eq (merged : List (String × Json)) (p : Part) : addArgument merged p =
    (contributions p).foldl (fun m e => OrderedMap.insert e.1 e.2 m) merged := by
  cases p with
  | json value => cases value <;> rfl
  | _ => rfl

theorem partToArguments_eq (input : List Part) : partToArguments input =
    (input.flatMap contributions).foldl (fun m e => OrderedMap.insert e.1 e.2 m) [] := by
  rw [foldl_flatMap]
  exact congrArg (fun f => input.foldl f []) (funext fun m => funext (addArgument_eq m))

theorem lookup_partToArguments (input : List Part) (k : String) :
    (partToArguments input).lookup k = (input.flatMap contributions).reverse.lookup k := by
  rw [partToArguments_eq, OrderedMap.lookup_foldl_insert]

/-- No two entries give one key different values. -/
def NoClash (input : List Part) : Prop :=
  ∀ e ∈ input.flatMap contributions, ∀ e' ∈ input.flatMap contributions, e.1 = e'.1 → e.2 = e'.2

/-- Every entry of every part is among the arguments. -/
def Kept (input : List Part) (arguments : List (String × Json)) : Prop :=
  ∀ p ∈ input, ∀ e ∈ contributions p, arguments.lookup e.1 = some e.2

theorem mem_of_lookup {es : List (String × Json)} (h : es.lookup k = some v) : (k, v) ∈ es := by
  obtain ⟨l₁, l₂, rfl, -⟩ := lookup_eq_some_iff.mp h
  exact mem_append_right _ (mem_cons_self ..)

theorem kept_of_noClash (h : NoClash input) : Kept input (partToArguments input) := by
  intro p hp e he
  have hmem : e ∈ input.flatMap contributions := mem_flatMap.mpr ⟨p, hp, he⟩
  rw [lookup_partToArguments]
  cases hl : (input.flatMap contributions).reverse.lookup e.1 with
  | none =>
    rw [lookup_eq_none_iff] at hl
    simpa using hl e (mem_reverse.mpr hmem)
  | some v =>
    have hv : (e.1, v) ∈ input.flatMap contributions := mem_reverse.mp (mem_of_lookup hl)
    rw [h e hmem _ hv rfl]

theorem noClash_of_kept (h : Kept input arguments) : NoClash input := by
  intro e he e' he' hkey
  obtain ⟨p, hp, hep⟩ := mem_flatMap.mp he
  obtain ⟨p', hp', hep'⟩ := mem_flatMap.mp he'
  have hfound := h p hp e hep
  rw [hkey, h p' hp' e' hep'] at hfound
  exact (Option.some.inj hfound).symm

theorem mem_contributions_iff (h : NoClash input) (e : String × Json) :
    e ∈ input.flatMap contributions ↔ (partToArguments input).lookup e.1 = some e.2 := by
  constructor
  · intro he
    obtain ⟨p, hp, hep⟩ := mem_flatMap.mp he
    exact kept_of_noClash h p hp e hep
  · intro hl
    rw [lookup_partToArguments] at hl
    exact mem_reverse.mp (mem_of_lookup hl)

theorem arguments_of_prepare (h : prepare c schemas request = .ok params) :
    params.arguments = partToArguments request.input := by
  unfold prepare at h
  split at h
  · cases h
  · cases hv : validateInput c schemas ‹String› (partToArguments request.input) with
    | error error =>
      rw [hv] at h
      cases h
    | ok _ =>
      rw [hv] at h
      cases h
      rfl

/-- Every call that is sent for an input carries all its entries exactly if no two of them clash,
and two such inputs with the same arguments have the same entries. -/
theorem arguments_keep_iff (input : List Part) :
    ((∀ c schemas request params, request.input = input →
        prepare c schemas request = .ok params → Kept input params.arguments) ↔ NoClash input) ∧
    ∀ other, NoClash input → NoClash other → partToArguments input = partToArguments other →
      ∀ e, e ∈ input.flatMap contributions ↔ e ∈ other.flatMap contributions := by
  refine ⟨⟨fun h => ?_, fun h c schemas request params hinput hprepare => ?_⟩,
    fun other h hother heq e => ?_⟩
  · exact noClash_of_kept (h searchOnly ((∅ : Schemas).insert "search" .null)
      { searchRequest with input := input } ⟨"search", partToArguments input⟩ rfl rfl)
  · rw [arguments_of_prepare hprepare, hinput]
    exact kept_of_noClash h
  · rw [mem_contributions_iff h, mem_contributions_iff hother, heq]

/-- Of two texts only the second one is sent. -/
theorem first_text_overwritten :
    prepare searchOnly ((∅ : Schemas).insert "search" .null)
      { searchRequest with input := [.text "first", .text "second"] } =
      .ok ⟨"search", [("input", .string "second")]⟩ ∧
    ¬ Kept [.text "first", .text "second"] [("input", .string "second")] := by
  refine ⟨rfl, fun h => ?_⟩
  have hfirst : some (Json.string "second") = some (.string "first") :=
    h (.text "first") (mem_cons_self ..) _ (mem_singleton_self _)
  simp at hfirst

end AgentConnector.Mcp
