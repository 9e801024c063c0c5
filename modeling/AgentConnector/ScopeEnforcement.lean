import AgentConnector.BearerTokenPolicy
import AgentConnector.CoreTriples
import AgentConnector.SoloRun
import AgentConnector.ThreadReplay

/-!
# Scopes and the agents they give access to

The policy checks the skill an invocation names; the registry prefers the agent it names, and takes
its first agent when nothing is named. Whatever agents are registered, a caller with scopes is kept
to agents that offer one of them exactly if the named skill is refused, or decides the agent.
-/

namespace AgentConnector

open Concurrent AdapterCore BearerTokenPolicy

def commandScopes : List String := ["cancel", "provide-input", "get-status"]

def CreatesTask (setup : CoreSetup) (caller : Caller) (request : InvokeRequest) : Prop :=
  ∃ p : Pool (contractCore setup), p.Reachable ∧ ∃ tid th, p.threads[tid]? = some th ∧
    th.entry = .dispatch caller (.invoke request) ∧
    ∃ st ∈ p.own tid, ∃ id, st.pre.db.tasks id = none ∧ (st.post.db.tasks id).isSome

/-- What the scopes of a caller are to guarantee about an invocation. -/
structure ScopeEnforced (setup : CoreSetup) (caller : Caller) (request : InvokeRequest) : Prop where
  offers : setup.policy caller (.invoke request) = .ok () →
    ∀ agent, setup.registry.resolve request = .ok agent →
      ∃ skill ∈ caller.scopes, agent.hasSkill skill = true
  commands : (∀ scope ∈ caller.scopes, scope ∈ commandScopes) → ¬CreatesTask setup caller request

variable {caller : Caller} {request : InvokeRequest}

variable {setup : CoreSetup}

theorem not_createsTask (h : (dispatch setup.contract caller (.invoke request)).run = .pure r) :
    ¬CreatesTask setup caller request := by
  rintro ⟨p, hp, tid, th, hth, hentry, st, hst, -⟩
  have hreplay := hp.replays hth
  have hprog : (contractCore setup).program th.entry = .pure (.dispatched r) := by
    rw [hentry]
    change Prog.bind (dispatch setup.contract caller (.invoke request)).run _ = _
    rw [h]
    rfl
  rw [hprog] at hreplay
  rw [hreplay.eq_pure.1] at hst
  cases hst

section

variable {setup : CoreSetup} {tid next : ℕ} {s : CoreState LogStore}

theorem solo_chooseTaskId (request : InvokeRequest) : ∃ l id,
    Solo (contractCore setup) tid next s (chooseTaskId request).run l s (.pure (.ok id)) := by
  unfold chooseTaskId
  split
  · rename_i id _
    exact ⟨[], id, .refl _ _⟩
  · exact ⟨_, _, Solo.op (c := calm) rfl rfl (.refl _ _)⟩

theorem solo_chooseDeadline (request : InvokeRequest) : ∃ l deadline,
    Solo (contractCore setup) tid next s (chooseDeadline request).run l s
      (.pure (.ok deadline)) := by
  unfold chooseDeadline
  split
  · exact ⟨_, _, Solo.op (c := calm) rfl rfl (.refl _ _)⟩
  · exact ⟨[], none, .refl _ _⟩

end

theorem invoke_eq_of_resolve (caller : Caller) (hkey : isBlank request.idempotencyKey = false)
    (hagent : setup.registry.resolve request = .ok agent) :
    invoke setup.contract caller request = (do
      let id ← chooseTaskId request
      let deadlineAt ← chooseDeadline request
      let initial ← fromStore (contractStore.createOrGetIdempotent
        ⟨id, request.sessionId, agent.id, caller.id, request.idempotencyKey, deadlineAt⟩)
      match initial with
      | .existing s => return .existing s
      | .created s => startTask setup.contract caller request agent id s) := by
  unfold invoke
  rw [hkey, if_neg Bool.false_ne_true]
  change (ExceptT.mk (Prog.pure (setup.registry.resolve request)) >>= _) = _
  rw [hagent]
  rfl

/-- An invocation that is authorized, has a key and finds an agent creates a task on an empty
store. -/
theorem createsTask_of_resolve (hpolicy : setup.policy caller (.invoke request) = .ok ())
    (hkey : isBlank request.idempotencyKey = false)
    (hagent : setup.registry.resolve request = .ok agent) :
    CreatesTask setup caller request := by
  let s : CoreState LogStore := (contractCore setup).init
  obtain ⟨l₁, id, hid⟩ : ∃ l id, Solo (contractCore setup) 0 1 s (chooseTaskId request).run l s
      (.pure (.ok id)) := solo_chooseTaskId request
  obtain ⟨l₂, deadline, hdeadline⟩ : ∃ l deadline, Solo (contractCore setup) 0 1 s
      (chooseDeadline request).run l s (.pure (.ok deadline)) := solo_chooseDeadline request
  let n : NewTask := ⟨id, request.sessionId, agent.id, caller.id, request.idempotencyKey, deadline⟩
  let s' : CoreState LogStore := { s with db := s.db.insert n 0 }
  have hclaim : coreExec contractMachine 0 s (.store (.claim n)) calm = some (s', .ok true) := rfl
  obtain ⟨q, hq⟩ : ∃ q, Solo (contractCore setup) 0 1 s
      (invoke setup.contract caller request).run
      ([⟨0, .store (.claim n), .ok true, s, s', 1⟩] ++ l₂ ++ l₁) s' q := by
    rw [invoke_eq_of_resolve caller hkey hagent]
    exact ⟨_, hid.try_ok (hdeadline.try_ok (Solo.op (c := calm) hclaim rfl (.refl _ _)))⟩
  have hprog : (contractCore setup).program (.dispatch caller (.invoke request)) =
      (invoke setup.contract caller request).run.bind
        (fun r => .pure (.dispatched r)) := by
    change ((ExceptT.mk (Prog.pure (setup.policy caller (.invoke request))) >>= _).run).bind _ = _
    rw [hpolicy]
    rfl
  have hsolo := hq.bind (fun r => Prog.pure (CoreOutcome.dispatched r))
  rw [← hprog] at hsolo
  let e : CoreEntry := .dispatch caller (.invoke request)
  let p : Pool (contractCore setup) :=
    { Pool.start (contractCore setup) with threads := [⟨e, (contractCore setup).program e⟩] }
  have hp : p.Reachable := Pool.Reachable.act (a := .call e) .start rfl
  have hth : p.threads[0]? = some ⟨e, (contractCore setup).program e⟩ := rfl
  obtain ⟨p', hp', _, hthreads, hown⟩ := hp.solo hth hsolo
  refine ⟨p', hp', 0, _, by rw [hthreads]; rfl, rfl, ⟨0, .store (.claim n), .ok true, s, s', 1⟩,
    ?_, id, rfl, ?_⟩
  · rw [hown]
    simp
  · simp [s', LogStore.insert, n]

/-- The invocations that are refused, or whose skill decides the agent. -/
def ScopeDecides (caller : Caller) (request : InvokeRequest) : Prop :=
  Denied caller (.invoke request) ∨ (request.agentId = none ∧ request.skillId.isSome ∧
      (isBlank request.idempotencyKey = true ∨ ∃ scope ∈ caller.scopes, scope ∉ commandScopes))

theorem dispatch_denied (h : setup.policy caller command = .error error) :
    (dispatch setup.contract caller command).run = .pure (.error error) := by
  change (ExceptT.mk (Prog.pure (setup.policy caller command)) >>= _).run = _
  rw [h]
  rfl

theorem dispatch_blank (hpolicy : setup.policy caller (.invoke request) = .ok ())
    (hkey : isBlank request.idempotencyKey = true) :
    (dispatch setup.contract caller (.invoke request)).run =
      .pure (.error (.invalidRequest "idempotency_key required")) := by
  change (ExceptT.mk (Prog.pure (setup.policy caller (.invoke request))) >>= _).run = _
  rw [hpolicy]
  change (invoke setup.contract caller request).run = _
  unfold invoke
  rw [hkey, if_pos rfl]
  rfl

variable {policy : BearerTokenPolicy}

theorem scopeEnforced_of_decides (hpolicy : setup.policy = policy.authorize)
    (hscopes : caller.scopes ≠ []) (h : ScopeDecides caller request) :
    ScopeEnforced setup caller request := by
  rcases policy.authorize_eq caller (.invoke request) with ⟨_, message, hauth⟩ | ⟨hallowed, hauth⟩
  · rw [← hpolicy] at hauth
    constructor
    · intro hok
      rw [hauth] at hok
      cases hok
    · intro _
      exact not_createsTask (dispatch_denied hauth)
  · rcases h with hdenied | ⟨hagent, hskill, hcommands⟩
    · exact absurd hdenied hallowed
    · rw [← hpolicy] at hauth
      obtain ⟨skill, hskill⟩ := Option.isSome_iff_exists.mp hskill
      constructor
      · intro _ agent hres
        have hmem : skill ∈ caller.scopes := by
          by_contra hnot
          exact hallowed ⟨hscopes, skill, hskill, hnot⟩
        exact ⟨skill, hmem, AgentRegistry.hasSkill_of_resolve hagent hskill hres⟩
      · intro hall
        rcases hcommands with hblank | ⟨scope, hmem, hnot⟩
        · exact not_createsTask (dispatch_blank hauth hblank)
        · exact absurd (hall scope hmem) hnot

/-- A core with one agent, under a bearer token policy. -/
def oneAgent (policy : BearerTokenPolicy) (id : AgentId) (skills : List String) : CoreSetup :=
  .new (AgentRegistry.new.register ⟨id, skills, ⟨true, true⟩, ⟨1, 1, 1024, 1024, 1000⟩⟩)
    policy.authorize 1

theorem resolve_oneAgent (policy : BearerTokenPolicy) (id : AgentId) (skills : List String)
    (hid : ∀ a, request.agentId = some a → a = id)
    (hskill : request.agentId = none → ∀ s, request.skillId = some s → s ∈ skills) :
    (oneAgent policy id skills).registry.resolve request =
      .ok ⟨id, skills, ⟨true, true⟩, ⟨1, 1, 1024, 1024, 1000⟩⟩ := by
  unfold AgentRegistry.resolve
  cases hagent : request.agentId with
  | some a =>
    rw [hid a hagent]
    simp [oneAgent, CoreSetup.new, AgentRegistry.get, AgentRegistry.register, AgentRegistry.new]
  | none =>
    cases hs : request.skillId with
    | some s =>
      have hmem := hskill hagent s hs
      simp [oneAgent, CoreSetup.new, AgentRegistry.register, AgentRegistry.new,
        RegisteredAgent.hasSkill, hmem]
    | none => rfl

theorem not_scopeEnforced_of_skipped (hallowed : ¬Denied caller (.invoke request)) (id : AgentId)
    (hid : ∀ a, request.agentId = some a → a = id)
    (hskill : request.agentId = none → request.skillId = none) :
    ¬ScopeEnforced (oneAgent policy id []) caller request := by
  intro h
  have hres := resolve_oneAgent policy id [] hid (fun hnone s hs => by
    rw [hskill hnone] at hs
    cases hs)
  obtain ⟨skill, _, hoffers⟩ :=
    h.offers ((policy.authorize_eq_ok_iff caller _).mpr hallowed) _ hres
  cases hoffers

theorem not_scopeEnforced_of_commands (hallowed : ¬Denied caller (.invoke request))
    (hagent : request.agentId = none) (hskill : request.skillId = some skill)
    (hkey : isBlank request.idempotencyKey = false)
    (hcommands : ∀ scope ∈ caller.scopes, scope ∈ commandScopes) :
    ¬ScopeEnforced (oneAgent policy ⟨"agent"⟩ [skill]) caller request := by
  intro h
  have hres := resolve_oneAgent policy ⟨"agent"⟩ [skill]
    (fun a (ha : request.agentId = some a) => by rw [hagent] at ha; cases ha)
    (fun _ s hs => by rw [hskill] at hs; cases hs; simp)
  exact h.commands hcommands
    (createsTask_of_resolve ((policy.authorize_eq_ok_iff caller _).mpr hallowed) hkey hres)

/-- Whatever agents are registered, the scopes of a caller are enforced exactly if the invocation
is refused, or names a skill and no agent. -/
theorem scope_enforced_iff (policy : BearerTokenPolicy) (caller : Caller)
    (hscopes : caller.scopes ≠ []) (request : InvokeRequest) :
    (∀ setup : CoreSetup, setup.policy = policy.authorize → ScopeEnforced setup caller request) ↔
      ScopeDecides caller request := by
  constructor
  · intro h
    by_contra hnot
    have hallowed : ¬Denied caller (.invoke request) := fun hdenied => hnot (.inl hdenied)
    cases hagent : request.agentId with
    | some a =>
      refine not_scopeEnforced_of_skipped hallowed a (fun b hb => ?_) (fun hnone => ?_)
        (h (oneAgent policy a []) rfl)
      · rw [hagent] at hb
        exact (Option.some.inj hb).symm
      · rw [hagent] at hnone
        cases hnone
    | none =>
      cases hskill : request.skillId with
      | none =>
        refine not_scopeEnforced_of_skipped hallowed ⟨"agent"⟩ (fun b hb => ?_)
          (fun _ => hskill) (h (oneAgent policy ⟨"agent"⟩ []) rfl)
        rw [hagent] at hb
        cases hb
      | some skill =>
        have hkey : isBlank request.idempotencyKey = false := by
          by_contra hkey
          rw [Bool.not_eq_false] at hkey
          exact hnot (.inr ⟨hagent, by rw [hskill]; rfl, .inl hkey⟩)
        have hcommands : ∀ scope ∈ caller.scopes, scope ∈ commandScopes := by
          intro scope hmem
          by_contra hout
          exact hnot (.inr ⟨hagent, by rw [hskill]; rfl, .inr ⟨scope, hmem, hout⟩⟩)
        exact not_scopeEnforced_of_commands hallowed hagent hskill hkey hcommands
          (h (oneAgent policy ⟨"agent"⟩ [skill]) rfl)
  · intro h setup hpolicy
    exact scopeEnforced_of_decides hpolicy hscopes h

/-- A caller that may only read, and the invocation of a client that names neither agent nor
skill. -/
def readOnlyCaller : Caller := ⟨⟨"readonly-client"⟩, ["get-status"]⟩

def anyAgentRequest : InvokeRequest := ⟨some 1, none, none, "key", none, [], .null, none⟩

theorem scope_enforced_iff_skill : ["skill"] ≠ [] ∧
    ∀ setup : CoreSetup, setup.policy = BearerTokenPolicy.empty.authorize →
      ScopeEnforced setup ⟨⟨"client"⟩, ["skill"]⟩
        { anyAgentRequest with skillId := some "skill" } :=
  ⟨by decide, (scope_enforced_iff .empty ⟨⟨"client"⟩, ["skill"]⟩ (by decide)
    { anyAgentRequest with skillId := some "skill" }).mpr
    (.inr ⟨rfl, rfl, .inr ⟨"skill", by decide, by decide⟩⟩)⟩

/-- A caller that may only read starts a task, with an agent that offers none of its scopes. -/
theorem read_only_caller_starts_task :
    let setup := oneAgent .empty ⟨"agent"⟩ ["skill"]
    setup.policy readOnlyCaller (.invoke anyAgentRequest) = .ok () ∧
      (∃ agent, setup.registry.resolve anyAgentRequest = .ok agent ∧
        ∀ skill ∈ readOnlyCaller.scopes, agent.hasSkill skill = false) ∧
      (∀ scope ∈ readOnlyCaller.scopes, scope ∈ commandScopes) ∧
      CreatesTask setup readOnlyCaller anyAgentRequest := by
  refine ⟨rfl, ⟨_, rfl, by decide⟩, by decide, ?_⟩
  exact createsTask_of_resolve rfl (by decide) rfl

end AgentConnector
