import AgentConnector.PermitQuotas
import AgentConnector.DaemonConfig

/-!
# Rejected invocations

A call of `invoke` is rejected when one of four semaphores has no permit left. By the conservation
of permits, all permits of that semaphore are then held by other calls and workers, each of which
holds at most one. The queue and the caller's quota may be smaller than the pools they stand before,
and then a call is rejected though the pools are free.
-/

namespace AgentConnector

open Concurrent Accounting List Option

variable {M : StoreMachine} {setup : CoreSetup} {p q : Pool (coreService M setup)}

def slotTasks (p : Pool (coreService M setup)) (P : Semaphore → Bool) : ℕ :=
  ((Finset.range p.threads.length).filter (fun tid => 0 < (heldPermits p tid).countP (P ·))).card

def Semaphore.ofAgent (agent : RegisteredAgent) (sem : Semaphore) : Bool :=
  sem = .queue agent.id || sem = .agent agent.id

/-- As many tasks hold or acquire slots as there are in all, or as the agent has. -/
def Saturated (p : Pool (coreService M setup)) (agent : RegisteredAgent) : Prop :=
  setup.maxConcurrent ≤ slotTasks p (fun _ => true) ∨
    agent.limits.maxConcurrentTasks ≤ slotTasks p (Semaphore.ofAgent agent)

variable {agent : RegisteredAgent}

theorem AgentRegistry.get_of_mem (r : AgentRegistry) (h : agent ∈ r.agents) :
    r.get agent.id = some agent := by
  cases hget : r.get agent.id with
  | none =>
    have hnone := find?_eq_none.mp hget agent h
    simp at hnone
  | some found =>
    have hid : found.id = agent.id := by simpa using find?_some hget
    rw [inj_on_of_nodup_map r.nodup (mem_of_find?_eq_some hget) h hid]

theorem AgentRegistry.mem_of_resolve {r : AgentRegistry} (h : r.resolve request = .ok agent) :
    agent ∈ r.agents := by
  unfold resolve at h
  repeat' split at h
  all_goals cases h
  · exact mem_of_find?_eq_some ‹_›
  · exact mem_of_find?_eq_some ‹_›
  · exact mem_of_head? ‹_›

theorem heldPermits_nodup (hp : p.Reachable) (tid : ℕ) : (heldPermits p tid).Nodup := by
  -- No permit is acquired twice, whoever else keeps an account of it.
  let A : Accounting (coreService M setup) :=
    { permitAccounts M setup with allowed held o := ∀ sem, o = .tryAcquire sem → sem ∉ held }
  have hfollows : ∀ e, A.Follows (fun _ _ => True) (A.opening e)
    ((coreService M setup).program e) :=
    fun e => (follows_slots e).map (A := slotAccounts M setup) (B := A)
      (fun _ _ _ => rfl) (fun _ _ h => h.2) (fun _ _ _ => trivial) (fun _ _ _ => trivial)
  unfold heldPermits
  split
  · rename_i th hth
    refine account_invariant hfollows hp (fun _ _ => trivial) hth ?_ ?_
    · cases th.entry with
      | worker args => simp [A, workerPermits]
      | _ => exact Multiset.nodup_zero
    · intro held o r hheld hallowed
      cases o with
      | tryAcquire sem =>
        cases r with
        | true => exact Multiset.nodup_cons.mpr ⟨hallowed sem rfl, hheld⟩
        | false => exact hheld
      | release sem => exact hheld.erase sem
      | spawn args => exact Multiset.nodup_of_le (Multiset.sub_le_self _ _) hheld
      | _ => exact hheld
  · exact Multiset.nodup_zero

variable {sem : Semaphore}

theorem permits_le_slotTasks (hp : p.Reachable) (hfree : p.state.permits sem = 0)
    {P : Semaphore → Bool} (hP : P sem = true) : setup.permits sem ≤ slotTasks p P := by
  have hconserved := permits_conserved hp sem
  rw [hfree, Nat.zero_add] at hconserved
  rw [← hconserved, slotTasks, Finset.card_filter]
  apply Finset.sum_le_sum
  intro tid _
  rw [holding_heldPermits]
  split
  · exact Multiset.nodup_iff_count_le_one.mp (heldPermits_nodup hp tid) sem
  · rename_i hnone
    have hnot : sem ∉ heldPermits p tid :=
      fun hmem => hnone (Multiset.countP_pos.mpr ⟨sem, hmem, hP⟩)
    rw [Multiset.count_eq_zero_of_notMem hnot]

theorem exists_denied {l : List (Step (coreService M setup))} (ha : a.denied = [])
    (h : sem ∈ (l.foldr (fun st a => (slotAccounts M setup).record a st.op st.reply) a).denied) :
    ∃ st ∈ l, sem ∈ recordDenied [] st.op st.reply := by
  induction l with
  | nil =>
    rw [foldr_nil, ha] at h
    cases h
  | cons st l ih =>
    rw [foldr_cons] at h
    generalize l.foldr _ a = before at h ih
    have hsplit : ∀ (o : CoreOp M.sig) (r : o.Reply), sem ∈ recordDenied before.denied o r →
        sem ∈ before.denied ∨ sem ∈ recordDenied [] o r := by
      intro o r hmem
      cases o with
      | tryAcquire sem' =>
        cases r with
        | true => exact .inl hmem
        | false => exact (mem_cons.mp hmem).symm.imp_right (fun h => by simp [recordDenied, h])
      | _ => exact .inl hmem
    rcases hsplit st.op st.reply h with hbefore | hnow
    · obtain ⟨st', hst', hdenied⟩ := ih hbefore
      exact ⟨st', mem_cons_of_mem _ hst', hdenied⟩
    · exact ⟨st, mem_cons_self .., hnow⟩

theorem permits_of_denied (hex : coreExec M tid s o c = some (s', r))
    (h : sem ∈ recordDenied [] o r) :
    s.permits sem = 0 := by
  cases o with
  | tryAcquire sem' =>
    by_cases hfree : 0 < s.permits sem'
    · simp only [coreExec, hfree, if_true] at hex
      obtain ⟨_, rfl⟩ := Prod.mk.inj (Option.some.inj hex)
      cases h
    · simp only [coreExec, hfree, if_false] at hex
      obtain ⟨_, rfl⟩ := Prod.mk.inj (Option.some.inj hex)
      rw [mem_singleton.mp h]
      exact Nat.eq_zero_of_not_pos hfree
  | _ => cases h

/-- The limits before the pools are no smaller than the pools themselves. -/
structure CoreSetup.Roomy (setup : CoreSetup) : Prop where
  caller : setup.maxConcurrent ≤ setup.defaultCallerMaxConcurrent
  queue : ∀ agent ∈ setup.registry.agents,
    min setup.maxConcurrent agent.limits.maxConcurrentTasks ≤ agent.limits.maxQueuedTasks

theorem saturated_of_exhausted (hroomy : setup.Roomy) (hq : q.Reachable)
    (hagent : agent ∈ setup.registry.agents) (hsem : sem ∈ callLimits caller agent)
    (hfree : q.state.permits sem = 0) :
    Saturated q agent := by
  have hget := setup.registry.get_of_mem hagent
  have hall := permits_le_slotTasks hq hfree (P := fun _ => true) rfl
  simp only [callLimits, mem_cons, not_mem_nil, or_false] at hsem
  rcases hsem with rfl | rfl | rfl | rfl
  · have hthis := permits_le_slotTasks hq hfree (P := Semaphore.ofAgent agent)
      (by simp [Semaphore.ofAgent])
    have hqueue := hroomy.queue agent hagent
    simp only [CoreSetup.permits, hget, map_some, getD_some] at hall hthis
    rcases min_le_iff.mp hqueue with hglobal | hown
    · exact .inl (hglobal.trans hall)
    · exact .inr (hown.trans hthis)
  · exact .inl (hroomy.caller.trans hall)
  · exact .inl hall
  · have hthis := permits_le_slotTasks hq hfree (P := Semaphore.ofAgent agent)
      (by simp [Semaphore.ofAgent])
    simp only [CoreSetup.permits, hget, map_some, getD_some] at hthis
    exact .inr hthis

/-- The call was an invocation and has been answered that a limit is reached. -/
def exhausts (th : Thread (coreService M setup)) : Bool :=
  match th.entry, th.prog.result? with
  | .dispatch _ (.invoke _), some (.dispatched (.error (.resourceExhausted _))) => true
  | _, _ => false

theorem exhausts_cases (h : exhausts th = true) :
    ∃ caller request message, th.entry = .dispatch caller (.invoke request) ∧
      th.prog.result? = some (.dispatched (.error (.resourceExhausted message))) := by
  unfold exhausts at h
  split at h
  · exact ⟨_, _, _, ‹_›, ‹_›⟩
  · cases h

/-- If neither the queue nor the caller's quota is smaller than the pools, and the policy does not
refuse by itself, a call is rejected only if at a moment of the call the pools were saturated. -/
theorem saturated_of_rejected (hroomy : setup.Roomy)
    (hpolicy : ∀ caller request, Unrefused (setup.policy caller (.invoke request)))
    (hp : p.Reachable) {tid : ℕ} {th : Thread (coreService M setup)}
    (hth : p.threads[tid]? = some th) {caller : Caller} {request : InvokeRequest}
    (hentry : th.entry = .dispatch caller (.invoke request)) {message : String}
    (hresult : th.prog.result? = some (.dispatched (.error (.resourceExhausted message)))) :
    ∃ agent, setup.registry.resolve request = .ok agent ∧
      ∃ (q : Pool (coreService M setup)) (as : List (Action (coreService M setup))),
        q.Reachable ∧ q.run as = some p ∧
        q.threads[tid]?.any (fun th => !th.finished) = true ∧ Saturated q agent := by
  have hpost := post_of_reachable follows_slots hp (fun _ _ => trivial) hth hresult
  obtain ⟨-, hunrefused | ⟨agent, hresolve, sem, hdenied, hsem⟩⟩ :=
    hpost.2 caller request _ hentry rfl (hpolicy caller request)
  · exact absurd rfl (hunrefused message)
  obtain ⟨st, hst, hnow⟩ := exists_denied rfl hdenied
  obtain ⟨hmem, rfl⟩ := World.mem_own.mp hst
  obtain ⟨l, l', htrace⟩ := append_of_mem hmem
  obtain ⟨q, as, hq, hrun, -, hstate, hcalled⟩ := hp.exists_moment htrace
  obtain ⟨c, hex⟩ := hp.executed st hmem
  refine ⟨agent, hresolve, q, as, hq, hrun, hcalled, ?_⟩
  refine saturated_of_exhausted hroomy hq (AgentRegistry.mem_of_resolve hresolve) hsem ?_
  rw [hstate]
  exact permits_of_denied hex hnow

/-- The only slot is taken when another caller comes. -/
theorem saturated_of_rejected_other :
    ∃ p : Pool (coreService contractMachine singleAgentSetup), p.Reachable ∧
      ∃ (agent : RegisteredAgent) (q : Pool (coreService contractMachine singleAgentSetup))
        (as : List (Action (coreService contractMachine singleAgentSetup))),
        q.run as = some p ∧ Saturated q agent := by
  obtain ⟨p, hp, hrejected⟩ := Pool.exists_reachable rejectedOther
    (fun p => p.threads[2]?.any exhausts = true) (by decide +kernel)
  obtain ⟨th, hth, hexhausts⟩ := (Option.any_eq_true ..).mp hrejected
  obtain ⟨caller, request, message, hentry, hresult⟩ := exhausts_cases hexhausts
  obtain ⟨agent, -, q, as, -, hrun, -, hsaturated⟩ := saturated_of_rejected
    ⟨le_rfl, by decide⟩ (fun _ _ _ h => by cases h) hp hth hentry hresult
  exact ⟨p, hp, agent, q, as, hrun, hsaturated⟩

/-- Rejected though the pools are free at all times of the run. -/
def RejectedFreely (p : Pool (coreService M setup)) (tid : ℕ) : Prop :=
  p.threads[tid]?.any exhausts = true ∧
    ∀ (q : Pool (coreService M setup)) (as : List (Action (coreService M setup))),
      q.run as = some p → ∀ agent ∈ setup.registry.agents, ¬ Saturated q agent

theorem slotTasks_le_length (p : Pool (coreService M setup)) (P : Semaphore → Bool) :
    slotTasks p P ≤ p.threads.length :=
  (Finset.card_filter_le _ _).trans (Finset.card_range _).le

theorem rejectedFreely_of_few (h : p.threads[tid]?.any exhausts = true)
    (hglobal : p.threads.length < setup.maxConcurrent)
    (hagent : ∀ agent ∈ setup.registry.agents, p.threads.length < agent.limits.maxConcurrentTasks) :
    RejectedFreely p tid := by
  refine ⟨h, fun q as hrun agent hmem hsaturated => ?_⟩
  have hlength := Pool.run_length_le hrun
  have hown := hagent agent hmem
  rcases hsaturated with hfull | hfull
  · have hle := slotTasks_le_length q (fun _ => true)
    omega
  · have hle := slotTasks_le_length q (Semaphore.ofAgent agent)
    omega

namespace Daemon

/-- `Config::agent_limits`. -/
def AgentLimitsConfig.agentLimits (l : AgentLimitsConfig) : AgentLimits where
  maxConcurrentTasks := l.maxConcurrentTasks.toNat
  maxQueuedTasks := l.maxQueuedTasks.toNat
  maxInputBytes := l.maxInputBytes.toNat
  maxEventBytes := l.maxEventBytes.toNat
  defaultTimeout := l.defaultTimeoutSeconds.toNat * 1000000000

def oneAgentConfig (limits : AgentLimitsConfig) : Config :=
  ⟨.localProfile, .memory, .standard, [⟨"agent", [], limits, .stdio "agent" [] none []⟩]⟩

/-- The core that `Daemon::build` makes from this configuration, without authentication. -/
def oneAgentSetup (limits : AgentLimitsConfig) : CoreSetup :=
  .new (AgentRegistry.new.register ⟨⟨"agent"⟩, [], ⟨true, true⟩, limits.agentLimits⟩) allowAllPolicy
    (oneAgentConfig limits).runtime.maxConcurrentTasks.toNat

def noQueue : AgentLimitsConfig := { AgentLimitsConfig.standard with maxQueuedTasks := 0 }

/-- With the standard settings, the second task of a caller is rejected; with an empty queue, the
first one is. -/
theorem rejects_freely : (oneAgentConfig .standard).validate = .ok () ∧
    (∃ p : Pool (coreService contractMachine (oneAgentSetup .standard)),
      p.Reachable ∧ RejectedFreely p 2) ∧
    (oneAgentConfig noQueue).validate = .ok () ∧
    ∃ p : Pool (coreService contractMachine (oneAgentSetup noQueue)),
      p.Reachable ∧ RejectedFreely p 0 := by
  obtain ⟨p, hp, hrejected, hlength⟩ := Pool.exists_reachable
    (.call (invokeTask 1) :: steps (oneAgentSetup .standard) 0 12 ++
      .call (.dispatch localCaller (.invoke
        ⟨some 2, none, none, "other", none, [], .null, none⟩)) ::
      steps (oneAgentSetup .standard) 2 13)
    (fun p => p.threads[2]?.any exhausts = true ∧ p.threads.length = 3) (by decide +kernel)
  obtain ⟨p', hp', hrejected', hlength'⟩ := Pool.exists_reachable
    (.call (invokeTask 1) :: steps (oneAgentSetup noQueue) 0 11)
    (fun p => p.threads[0]?.any exhausts = true ∧ p.threads.length = 1) (by decide +kernel)
  refine ⟨by decide +kernel, ⟨p, hp, rejectedFreely_of_few hrejected ?_ ?_⟩, by decide +kernel,
    p', hp', rejectedFreely_of_few hrejected' ?_ ?_⟩
  · rw [hlength]
    decide
  · rw [hlength]
    decide
  · rw [hlength']
    decide
  · rw [hlength']
    decide

end Daemon

end AgentConnector
