import AgentConnector.McpDriver

/-!
# The tool allowlist of the MCP driver

The allowlist is not looked at when a tool is called: it filters what a discovery collects, and a
call needs a schema among what the last discovery collected.
-/

namespace AgentConnector.Mcp

open Steps List

variable {c : Config} {s s' : Driver} {e : Event}

/-- The discovery under way has collected the allowed tools of its pages. -/
def Watcher.Collects (c : Config) : Watcher → Prop
  | .discovering _ d | .storing _ d => Collected c d.found d.pages
  | _ => True

def Admitted.Allowed (c : Config) (a : Admitted) : Prop :=
  c.allows a.params.name = true ∧ a.params.name ∈ a.listed

/-- The schemas are those of the allowed tools that the last discovery listed, and every admitted
or sent call names one of those at its time. -/
structure Driver.Listed (c : Config) (s : Driver) : Prop where
  discovery : s.watcher.Collects c
  schemas : ∀ name, name ∈ s.schemas ↔ c.allows name = true ∧ name ∈ s.listed
  admitted : ∀ a ∈ s.admitted, a.Allowed c
  calls : ∀ a ∈ s.calls, a.Allowed c

theorem listed_start (c : Config) : Driver.start.Listed c where
  discovery := collected_start c
  schemas := by simp [Driver.start, AList.notMem_empty]
  admitted := by simp [Driver.start]
  calls := by simp [Driver.start]

theorem mem_of_prepare (h : prepare c schemas request = .ok params) :
    request.skillId = some params.name ∧ params.name ∈ schemas := by
  unfold prepare at h
  cases hskill : request.skillId with
  | none =>
    rw [hskill] at h
    cases h
  | some skillId =>
    simp only [hskill] at h
    cases hv : validateInput c schemas skillId (partToArguments request.input) with
    | error error =>
      rw [hv] at h
      cases h
    | ok _ =>
      rw [hv] at h
      cases h
      refine ⟨rfl, AList.lookup_isSome.mp ?_⟩
      cases hl : schemas.lookup skillId with
      | some schema => rfl
      | none =>
        simp only [validateInput, hl] at hv
        cases hv

theorem Driver.Listed.move (h : s.Listed c) (hm : Move c s e s') : s'.Listed c := by
  have hcollects := h.discovery
  cases hm with
  | notify | connectFailed | discoveryFailed | closed | found | missing | update =>
    exact ⟨by first | exact hcollects | trivial, h.schemas, h.admitted, h.calls⟩
  | register | reject | dropDriver | dropRegistry =>
    exact ⟨hcollects, h.schemas, h.admitted, h.calls⟩
  | more hw | last hw =>
    rw [hw] at hcollects
    exact ⟨hcollects.add _, h.schemas, h.admitted, h.calls⟩
  | connect hw | store hw =>
    rw [hw] at hcollects
    exact ⟨trivial, hcollects, h.admitted, h.calls⟩
  | receive => exact ⟨collected_start c, h.schemas, h.admitted, h.calls⟩
  | admitted hprepare =>
    refine ⟨hcollects, h.schemas, fun a ha => ?_, h.calls⟩
    rcases mem_append.mp ha with ha | ha
    · exact h.admitted a ha
    · rw [mem_singleton.mp ha]
      exact (h.schemas _).mp (mem_of_prepare hprepare).2
  | send hk =>
    refine ⟨hcollects, h.schemas, fun a ha => h.admitted a (mem_of_mem_eraseIdx ha),
      fun a ha => ?_⟩
    rcases mem_append.mp ha with ha | ha
    · exact h.calls a ha
    · rw [mem_singleton.mp ha]
      exact h.admitted _ (mem_of_getElem? hk)
  | refuse =>
    exact ⟨hcollects, h.schemas, fun a ha => h.admitted a (mem_of_mem_eraseIdx ha), h.calls⟩

theorem listed_of_run (hrun : run (react c) .start es = some s) : s.Listed c :=
  run_keeps (fun h hstep => h.move (move_of_react hstep)) hrun (listed_start c)

/-- With a non-empty allowlist, a tool is called only if it is on the list and the server listed it
in the last discovery before the call was validated. -/
theorem called_tools_allowed (c : Config) (hc : c.allowedTools ≠ []) {es : List Event}
    (hrun : run (react c) .start es = some s) :
    ∀ a ∈ s.calls, a.params.name ∈ c.allowedTools ∧ a.params.name ∈ a.listed := by
  intro a ha
  obtain ⟨hallows, hlisted⟩ := (listed_of_run hrun).calls a ha
  refine ⟨?_, hlisted⟩
  simpa [Config.allows, hc] using hallows

/-- A driver that may only use one tool. -/
def searchOnly : Config := ⟨["search"], ["search"], fun _ => none⟩

def searchRequest : InvokeRequest where
  taskId := none
  agentId := none
  skillId := some "search"
  idempotencyKey := "key"
  sessionId := none
  input := []
  context := .null
  deadline := none

/-- Two pages, a request for the allowed tool, and a second listing without it before the request
is sent. -/
def searchThenGone : List Event :=
  [.page ⟨[⟨"shell", .null⟩], some "2"⟩, .page ⟨[⟨"search", .null⟩], none⟩, .store,
    .invoke searchRequest, .notify, .receive, .page ⟨[⟨"shell", .null⟩], none⟩, .store,
    .send 0, .invoke searchRequest]

theorem called_tools_allowed_search : ∃ s, run (react searchOnly) .start searchThenGone = some s ∧
      s.calls.map (fun a => a.params.name) = ["search"] ∧
      ∀ a ∈ s.calls, a.params.name ∈ searchOnly.allowedTools ∧ a.params.name ∈ a.listed := by
  have hcalled : ∃ s, run (react searchOnly) .start searchThenGone = some s ∧
      s.calls.map (fun a => a.params.name) = ["search"] := ⟨_, rfl, rfl⟩
  obtain ⟨s, hrun, hcalls⟩ := hcalled
  exact ⟨s, hrun, hcalls, called_tools_allowed searchOnly (by decide) hrun⟩

end AgentConnector.Mcp
