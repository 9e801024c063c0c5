import AgentConnector.StoreContract

/-!
# Core errors, driver events, registered agents and policies

The registry is a map from agent ids to agents; it is kept as the list of its entries in the
order in which the map iterates over them, with distinct ids. `resolve` prefers an explicit agent
over an explicit skill over the first agent.
-/

namespace AgentConnector

open List

inductive CoreError where
  | invalidRequest (message : String)
  | agentNotFound (message : String)
  | noEligibleAgent
  | resourceExhausted (message : String)
  | driver (message : String)
  | timeout
  | store (error : StoreError)

def CoreError.display : CoreError → String
  | .invalidRequest m => "invalid request: " ++ m
  | .agentNotFound m => "agent not found: " ++ m
  | .noEligibleAgent => "no eligible agent"
  | .resourceExhausted m => "resource exhausted: " ++ m
  | .driver m => "driver error: " ++ m
  | .timeout => "task timed out"
  | .store e => "store error: " ++ e.display

inductive DriverEvent where
  | accepted
  | progress (message : String) (percent : Option UInt8)
  | artifact (artifact : ArtifactRef)
  | inputRequired (request : InputRequest)
  | completed (output : List Part)
  | failed (error : PublicError)
  | cancelled

/-- The events that end a task. -/
def DriverEvent.ends : DriverEvent → Bool
  | .completed _ | .failed _ | .cancelled => true
  | _ => false

structure RegisteredAgent where
  id : AgentId
  skills : List String
  capabilities : DriverCapabilities
  limits : AgentLimits

def RegisteredAgent.hasSkill (a : RegisteredAgent) (skill : String) : Bool :=
  a.skills.any (fun candidate => candidate = skill)

structure AgentRegistry where
  agents : List RegisteredAgent
  nodup : (agents.map RegisteredAgent.id).Nodup

namespace AgentRegistry

def new : AgentRegistry := ⟨[], nodup_nil⟩

variable (r : AgentRegistry)

theorem nodup_register (a : RegisteredAgent) :
    ((a :: r.agents.filter (fun b => b.id ≠ a.id)).map RegisteredAgent.id).Nodup := by
  rw [map_cons, nodup_cons]
  refine ⟨?_, r.nodup.sublist (filter_sublist.map _)⟩
  intro h
  obtain ⟨b, hb, hid⟩ := mem_map.mp h
  have := (mem_filter.mp hb).2
  simp [hid] at this

def register (a : RegisteredAgent) : AgentRegistry :=
  ⟨a :: r.agents.filter (fun b => b.id ≠ a.id), r.nodup_register a⟩

def get (id : AgentId) : Option RegisteredAgent :=
  r.agents.find? (fun a => a.id = id)

def resolve (request : InvokeRequest) : Except CoreError RegisteredAgent :=
  match request.agentId with
  | some id => match r.get id with
    | some a => .ok a
    | none => .error (.agentNotFound id.name)
  | none => match request.skillId with
    | some skill => match r.agents.find? (fun a => a.hasSkill skill) with
      | some a => .ok a
      | none => .error .noEligibleAgent
    | none => match r.agents.head? with
      | some a => .ok a
      | none => .error .noEligibleAgent

theorem hasSkill_of_resolve {r : AgentRegistry} (hagent : request.agentId = none)
    (hskill : request.skillId = some skill) (h : r.resolve request = .ok agent) :
    agent.hasSkill skill = true := by
  simp only [resolve, hagent, hskill] at h
  split at h
  · rename_i found hfound
    cases h
    have hoffers := find?_some hfound
    exact hoffers
  · cases h

end AgentRegistry

/-- `PolicyEngine::authorize`. -/
abbrev PolicyEngine := Caller → CoreCommand → Except CoreError Unit

def allowAllPolicy : PolicyEngine := fun _ _ => .ok ()

end AgentConnector
