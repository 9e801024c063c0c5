import AgentConnector.EntryOps
import AgentConnector.ThreadAccounts

/-!
# Concurrency quotas

The permits of a semaphore are free, or held by a call of `invoke` that has acquired them, or held
by the worker they were handed to. Nothing is lost and nothing is held twice, over any store: a call
ends with no permit, a worker gives back its three, so the number of workers is bounded by each of
the three limits and all permits are free again when everything has ended.
-/

namespace AgentConnector

open Concurrent Accounting AdapterCore

variable {M : StoreMachine} {setup : CoreSetup}

def workerPermits (args : WorkerArgs) : Multiset Semaphore :=
  .agent args.agent.id ::ₘ .global ::ₘ .caller args.caller ::ₘ 0

variable {τ : Signature}

def recordPermits (held : Multiset Semaphore) : (o : CoreOp τ) → o.Reply → Multiset Semaphore
  | .tryAcquire sem => fun acquired => if acquired then sem ::ₘ held else held
  | .release sem => fun _ => held.erase sem
  | .spawn args => fun _ => held - workerPermits args
  | _ => fun _ => held

def allowsPermits (held : Multiset Semaphore) : CoreOp τ → Prop
  | .release sem => sem ∈ held
  | .spawn args => workerPermits args ≤ held
  | _ => True

abbrev permitAccounts (M : StoreMachine) (setup : CoreSetup) : Accounting
    (coreService M setup) where
  Account := Multiset Semaphore
  opening
    | .worker args => workerPermits args
    | _ => 0
  record := recordPermits
  allowed := allowsPermits
  possible _ _ := True

structure SlotAccount where
  held : Multiset Semaphore
  denied : List Semaphore

def recordDenied (denied : List Semaphore) : (o : CoreOp τ) → o.Reply → List Semaphore
  | .tryAcquire sem => fun acquired => if acquired then denied else sem :: denied
  | _ => fun _ => denied

/-- As `permitAccounts`, with what was denied; moreover no permit is acquired twice. -/
abbrev slotAccounts (M : StoreMachine) (setup : CoreSetup) : Accounting (coreService M setup) where
  Account := SlotAccount
  opening e := ⟨(permitAccounts M setup).opening e, []⟩
  record a o r := ⟨recordPermits a.held o r, recordDenied a.denied o r⟩
  allowed a o := allowsPermits a.held o ∧ ∀ sem, o = .tryAcquire sem → sem ∉ a.held
  possible _ _ := True

/-- The operation neither acquires nor releases a permit nor hands one on. -/
def CoreOp.KeepsPermits : CoreOp τ → Prop
  | .tryAcquire _ | .release _ | .spawn _ => False
  | _ => True

theorem keepsPermits_record (held : Multiset Semaphore) (ho : o.KeepsPermits) (r : o.Reply) :
    recordPermits held o r = held := by
  cases o <;> first | rfl | exact ho.elim

variable (M setup) in
theorem keepsPermits_idle (a : SlotAccount) (o : CoreOp M.sig) (ho : o.KeepsPermits) :
    (slotAccounts M setup).allowed a o ∧ ∀ r, (slotAccounts M setup).record a o r = a := by
  cases o <;> first
    | exact ⟨⟨trivial, fun _ h => by cases h⟩, fun _ => rfl⟩
    | exact ho.elim

theorem admits_keepsPermits (store : TaskStore M.sig) : Admits store CoreOp.KeepsPermits where
  get _ := Prog.everywhere_true _ (fun _ => trivial)
  append _ := Prog.everywhere_true _ (fun _ => trivial)
  enter _ := trivial
  send _ _ := trivial

def Unrefused {α : Type} (r : Except CoreError α) : Prop :=
  ∀ message, r ≠ .error (.resourceExhausted message)

theorem returns_try {α β : Type} {x : CoreM M.sig α} {f : α → CoreM M.sig β}
    (hx : x.run.Returns Unrefused) (hf : ∀ v, (f v).run.Returns Unrefused) :
    (x >>= f).run.Returns Unrefused := by
  refine Prog.returns_bind hx (fun r hr => ?_)
  cases r with
  | ok v => exact hf v
  | error e =>
    intro message h
    cases h
    exact hr message rfl

theorem returns_action (o : CoreOp M.sig) : (action o).run.Returns Unrefused :=
  fun _ _ h => by cases h

theorem returns_fromStore {α : Type} (x : Prog M.sig (Except StoreError α)) :
    (fromStore x).run.Returns Unrefused := by
  refine Prog.returns_bind (Prog.returns_true _) (fun r _ message h => ?_)
  cases r with
  | ok v => cases h
  | error e => cases h

theorem returns_transition (core : CoreConfig M.sig) (site : Site) (snap : TaskSnapshot)
    (allowed : List TaskState) (next : TaskState) (kind : CoreEventKind) :
    (transition core site snap allowed next kind).run.Returns Unrefused := by
  refine returns_try (returns_action _) (fun _ => returns_try (returns_fromStore _) (fun _ => ?_))
  exact returns_try (returns_action _) (fun _ _ h => by cases h)

section

variable {α : Type} {held : Multiset Semaphore} {denied : List Semaphore} {sem : Semaphore}
  {Q : Except CoreError α → SlotAccount → Prop}

theorem follows_acquire {f : Bool → CoreM M.sig α} (hfree : sem ∉ held)
    (hyes : (slotAccounts M setup).Follows Q ⟨sem ::ₘ held, denied⟩ (f true).run)
    (hno : (slotAccounts M setup).Follows Q ⟨held, sem :: denied⟩ (f false).run) :
    (slotAccounts M setup).Follows Q ⟨held, denied⟩ (action (.tryAcquire sem) >>= f).run := by
  refine ⟨⟨trivial, fun sem' h => ?_⟩, fun acquired _ => ?_⟩
  · cases h
    exact hfree
  · cases acquired with
    | true => exact hyes
    | false => exact hno

theorem follows_release (hheld : sem ∈ held)
    (hx : (slotAccounts M setup).Follows Q ⟨held.erase sem, denied⟩ x.run) :
    (slotAccounts M setup).Follows Q ⟨held, denied⟩ (action (.release sem) >>= fun _ => x).run :=
  ⟨⟨hheld, fun _ h => by cases h⟩, fun _ _ => hx⟩

theorem follows_perform_release {β : Type} {Q : β → SlotAccount → Prop}
    {f : Unit → Prog (coreSig M.sig) β} (hheld : sem ∈ held)
    (hf : (slotAccounts M setup).Follows Q ⟨held.erase sem, denied⟩ (f ())) :
    (slotAccounts M setup).Follows Q ⟨held, denied⟩ ((perform (.release sem)).bind f) :=
  ⟨⟨hheld, fun _ h => by cases h⟩, fun _ _ => hf⟩

end

variable (caller : Caller)

/-- The limits that a call of `invoke` meets. -/
def callLimits (agent : RegisteredAgent) : List Semaphore :=
  [.queue agent.id, .caller caller.id, .global, .agent agent.id]

/-- Nothing is held any more, and a refusal goes back to a limit that denied a permit. -/
def StartPost (agent : RegisteredAgent) (r : Except CoreError DispatchResult) (a : SlotAccount) :
    Prop :=
  a.held = 0 ∧ (Unrefused r ∨ ∃ sem ∈ a.denied, sem ∈ callLimits caller agent)

variable (request : InvokeRequest)

/-- A call that is over its limits, or whose acceptance fails, holds nothing; one that succeeds has
handed its permits to the worker. -/
theorem follows_startTask (agent : RegisteredAgent) (id : TaskId) (snap : TaskSnapshot) :
    (slotAccounts M setup).Follows (StartPost caller agent) ⟨0, []⟩
      (startTask (setup.over M) caller request agent id snap).run := by
  have hreject : ∀ sem ∈ callLimits caller agent, ∀ reason answer,
      (slotAccounts M setup).Follows (StartPost caller agent) ⟨0, [sem]⟩
        (reject (setup.over M) id reason answer).run := by
    intro sem hsem reason answer
    have hpost : ∀ r, StartPost caller agent r ⟨0, [sem]⟩ :=
      fun r => ⟨rfl, .inr ⟨sem, List.mem_singleton_self sem, hsem⟩⟩
    exact follows_idle_try (keepsPermits_idle M setup _) ((admits_keepsPermits
      _).walk.failActive trivial (fun _ _ _ => trivial) _ _)
      (fun _ => hpost _) (fun _ => hpost _)
  refine ⟨(keepsPermits_idle M setup ⟨0, []⟩ (.activeInsert id) trivial).1, fun _ _ => ?_⟩
  change (slotAccounts M setup).Follows (StartPost caller agent) ⟨0, []⟩ _
  apply follows_idle_returns (keepsPermits_idle M setup _)
    ((admits_keepsPermits _).walk.transition trivial trivial) (returns_transition _ _ _ _ _ _)
  · intro e he
    refine ⟨rfl, .inl fun message h => he message ?_⟩
    cases h
    rfl
  intro accepted _
  apply follows_acquire (by simp)
  swap
  · exact hreject _ (by simp [callLimits]) _ _
  apply follows_acquire (by simp)
  swap
  · apply follows_release (by simp)
    rw [Multiset.erase_cons_head]
    exact hreject _ (by simp [callLimits]) _ _
  apply follows_acquire (by simp)
  swap
  · apply follows_release (by simp)
    rw [Multiset.erase_cons_head]
    apply follows_release (by simp)
    rw [Multiset.erase_cons_head]
    exact hreject _ (by simp [callLimits]) _ _
  apply follows_acquire (by simp)
  swap
  · apply follows_release (by simp)
    rw [Multiset.erase_cons_tail _ (by simp), Multiset.erase_cons_head]
    apply follows_release (by simp)
    rw [Multiset.erase_cons_tail _ (by simp), Multiset.erase_cons_head]
    apply follows_release (by simp)
    rw [Multiset.erase_cons_head]
    exact hreject _ (by simp [callLimits]) _ _
  apply follows_release (by simp)
  have hkept : (Semaphore.agent agent.id ::ₘ .global ::ₘ .caller caller.id ::ₘ
      .queue agent.id ::ₘ 0).erase (.queue agent.id) =
      workerPermits ⟨agent, id, request, caller.id⟩ := by
    rw [Multiset.erase_cons_tail _ (by simp), Multiset.erase_cons_tail _ (by simp),
      Multiset.erase_cons_tail _ (by simp), Multiset.erase_cons_head, workerPermits]
  rw [hkept]
  refine ⟨⟨le_refl _, fun _ h => by cases h⟩, fun _ _ => ⟨tsub_self _, .inl ?_⟩⟩
  exact fun _ h => by cases h

def InvokePost (setup : CoreSetup) (caller : Caller) (request : InvokeRequest)
    (r : Except CoreError DispatchResult) (a : SlotAccount) : Prop :=
  a.held = 0 ∧ (Unrefused r ∨ ∃ agent, setup.registry.resolve request = .ok agent ∧
    ∃ sem ∈ a.denied, sem ∈ callLimits caller agent)

theorem unrefused_resolve (registry : AgentRegistry) (request : InvokeRequest) :
    Unrefused (registry.resolve request) := by
  intro message h
  unfold AgentRegistry.resolve at h
  repeat' split at h
  all_goals cases h

theorem returns_chooseTaskId : (chooseTaskId (τ := M.sig) request).run.Returns Unrefused := by
  unfold chooseTaskId
  split
  · exact fun _ h => by cases h
  · exact returns_action _

theorem returns_chooseDeadline : (chooseDeadline (τ := M.sig) request).run.Returns Unrefused := by
  unfold chooseDeadline
  split
  · exact returns_try (returns_action _) (fun _ _ h => by cases h)
  · exact fun _ h => by cases h

theorem follows_invoke : (slotAccounts M setup).Follows (InvokePost setup caller request) ⟨0, []⟩
      (invoke (setup.over M) caller request).run := by
  have hidle := keepsPermits_idle M setup ⟨0, []⟩
  have herror : ∀ {α : Type} (e : CoreError), Unrefused (.error e : Except CoreError α) →
      InvokePost setup caller request (.error e) ⟨0, []⟩ := by
    refine fun e he => ⟨rfl, .inl fun message h => he message ?_⟩
    cases h
    rfl
  unfold invoke
  split
  · exact herror (α := Unit) _ (fun _ h => by cases h)
  cases hresolve : setup.registry.resolve request with
  | error e =>
    rw [show (setup.over M).registry.resolve request = .error e from hresolve]
    exact herror e (hresolve ▸ unrefused_resolve setup.registry request)
  | ok agent =>
    rw [show (setup.over M).registry.resolve request = .ok agent from hresolve]
    apply follows_idle_returns hidle (everywhere_chooseTaskId trivial request)
      (returns_chooseTaskId request)
    · exact herror
    intro id _
    apply follows_idle_returns hidle (everywhere_chooseDeadline trivial request)
      (returns_chooseDeadline request)
    · exact herror
    intro deadlineAt _
    apply follows_idle_returns hidle
      (everywhere_fromStore (Prog.everywhere_true _ (fun _ => trivial))) (returns_fromStore _)
    · exact herror
    intro initial _
    cases initial with
    | existing s => exact ⟨rfl, .inl fun _ h => by cases h⟩
    | created s =>
      refine (follows_startTask caller request agent id s).mono (fun r a h => ⟨h.1, ?_⟩)
      exact h.2.imp_right (fun hdenied => ⟨agent, hresolve, hdenied⟩)

theorem follows_worker (args : WorkerArgs) :
    (slotAccounts M setup).Follows (fun _ a => a.held = 0) ⟨workerPermits args, []⟩
      (worker (setup.over M) args) := by
  have hidle := keepsPermits_idle M setup ⟨workerPermits args, []⟩
  have hwalk : Walk (setup.over M) CoreOp.KeepsPermits (fun _ => True) (fun p => p.Everywhere _) :=
    (admits_keepsPermits _).walk
  apply follows_bind
  apply follows_idle hidle
  · exact everywhere_withTimeout trivial (Prog.everywhere_true _ (fun _ => trivial))
      (hwalk.runDriver (fun _ => trivial) (fun _ _ => trivial) trivial trivial)
  intro outcome
  apply follows_bind
  apply follows_idle hidle
    (hwalk.settleWorker (fun _ => trivial) (fun _ _ => trivial) trivial outcome)
  intro _
  have hreleases : (slotAccounts M setup).Follows (fun _ a => a.held = 0) ⟨workerPermits args, []⟩
      ((perform (.release (.agent args.agent.id))).bind fun _ =>
        (perform (.release .global)).bind fun _ =>
          (perform (.release (.caller args.caller))).bind .pure) := by
    apply follows_perform_release (Multiset.mem_cons_self _ _)
    rw [Multiset.erase_cons_head]
    apply follows_perform_release (Multiset.mem_cons_self _ _)
    rw [Multiset.erase_cons_head]
    apply follows_perform_release (Multiset.mem_cons_self _ _)
    exact Multiset.erase_cons_head (Semaphore.caller args.caller) 0
  exact ⟨(hidle (.activeRemove args.taskId) trivial).1, fun _ _ => hreleases⟩

def CoreEntry.holdsPermits : CoreEntry → Bool
  | .dispatch _ (.invoke _) => true
  | .worker _ => true
  | _ => false

theorem within_all (store : TaskStore M.sig) : store.Within (fun _ _ => True) where
  create _ _ _ _ _ := Prog.everywhere_true _ (fun _ => trivial)
  get _ _ := Prog.everywhere_true _ (fun _ => trivial)
  append _ _ _ := Prog.everywhere_true _ (fun _ => trivial)
  events _ _ _ _ := Prog.everywhere_true _ (fun _ => trivial)
  abandon _ := Prog.everywhere_true _ (fun _ => trivial)

theorem CoreEntry.Performs.keepsPermits {allows : CoreEntry → τ.Op → Prop} {e : CoreEntry}
    (h : e.Performs allows o) (he : e.holdsPermits = false) :
    o.KeepsPermits := by
  cases o with
  | tryAcquire sem =>
    obtain ⟨caller, request, rfl⟩ := h
    cases he
  | release sem =>
    rcases h with ⟨caller, request, rfl⟩ | ⟨args, rfl⟩ <;> cases he
  | spawn args =>
    obtain ⟨caller, request, rfl, _⟩ := h
    cases he
  | _ => trivial

/-- What is left of a thread: nothing is held, and a refusal by `invoke` is one by a limit, unless
the policy makes it. -/
def SlotPost (setup : CoreSetup) (e : CoreEntry) (r : CoreOutcome) (a : SlotAccount) : Prop :=
  a.held = 0 ∧ ∀ caller request x, e = .dispatch caller (.invoke request) → r = .dispatched x →
    Unrefused (setup.policy caller (.invoke request)) → InvokePost setup caller request x a

theorem follows_slots (e : CoreEntry) :
    (slotAccounts M setup).Follows (SlotPost setup e) ((slotAccounts M setup).opening e)
      ((coreService M setup).program e) := by
  have hidle : ∀ e : CoreEntry, e.holdsPermits = false →
      (slotAccounts M setup).Follows (SlotPost setup e) ⟨0, []⟩
        ((coreService M setup).program e) := by
    intro e he
    apply follows_idle (keepsPermits_idle M setup _)
    · apply Prog.everywhere_mono _ (everywhere_program M setup (within_all M.store) e)
      exact fun o ho => ho.keepsPermits he
    · refine fun r => ⟨rfl, fun caller request x h => ?_⟩
      rw [h] at he
      cases he
  cases e with
  | dispatch caller command =>
    cases command with
    | invoke request =>
      apply follows_bind
      apply Follows.mono (Q := fun r (a : SlotAccount) => a.held = 0 ∧
        (Unrefused (setup.policy caller (.invoke request)) → InvokePost setup caller request r a))
      · unfold dispatch
        cases hpolicy : setup.policy caller (.invoke request) with
        | error e =>
          rw [show (setup.over M).policy caller (.invoke request) = .error e from hpolicy]
          refine ⟨rfl, fun hunrefused => ⟨rfl, .inl fun message h => hunrefused message ?_⟩⟩
          cases h
          rfl
        | ok u =>
          rw [show (setup.over M).policy caller (.invoke request) = .ok u from hpolicy]
          exact (follows_invoke caller request).mono (fun r a h => ⟨h.1, fun _ => h⟩)
      · rintro r a ⟨hheld, hr⟩
        refine ⟨hheld, ?_⟩
        rintro _ _ _ ⟨⟩ ⟨⟩ hpolicy
        exact hr hpolicy
    | _ => exact hidle _ rfl
  | worker args =>
    refine follows_bind ((follows_worker args).mono fun r a h => ⟨h, ?_⟩)
    exact fun _ _ _ h => by cases h
  | subscribe id afterSeq | stream id afterSeq fuels => exact hidle _ rfl

theorem follows_permits (e : CoreEntry) :
    (permitAccounts M setup).Follows (fun _ held => held = 0) ((permitAccounts M setup).opening e)
      ((coreService M setup).program e) :=
  (follows_slots e).map (A := slotAccounts M setup) (B := permitAccounts M setup) (fun _ _ _ => rfl)
    (fun _ _ h => h.1) (fun _ _ _ => trivial)
    (fun _ _ h => h.1)

variable {tid : ℕ}

theorem coreExec_permits (ho : o.KeepsPermits) (hex : coreExec M tid s o c = some (s', r)) :
    s'.permits = s.permits := by
  rcases (coreMove_of_exec hex).frame.2.1 with ⟨sem, rfl | rfl⟩ | h
  · exact ho.elim
  · exact ho.elim
  · exact h

/-- What leaves a semaphore goes to the thread that acquires it, and comes back when it is
released; a spawn hands permits on. -/
theorem conserves_permits (sem : Semaphore) (hex : coreExec M tid s o c = some (s', r))
    (hallowed : allowsPermits held o) :
    s'.permits sem + (recordPermits held o r).count sem +
      (permitAccounts M setup).forked (fun held => held.count sem) o =
        s.permits sem + held.count sem := by
  cases o with
  | tryAcquire sem' =>
    by_cases hfree : 0 < s.permits sem'
    · simp only [coreExec, hfree, if_true] at hex
      obtain ⟨rfl, rfl⟩ := Prod.mk.inj (Option.some.inj hex)
      by_cases hsem : sem = sem'
      · subst hsem
        simp only [recordPermits, if_true, Function.update_self, Multiset.count_cons_self, forked]
        omega
      · simp [recordPermits, hsem, forked]
    · simp only [coreExec, hfree, if_false] at hex
      obtain ⟨rfl, rfl⟩ := Prod.mk.inj (Option.some.inj hex)
      simp [recordPermits, forked]
  | release sem' =>
    obtain ⟨rfl, _⟩ := Prod.mk.inj (Option.some.inj hex)
    by_cases hsem : sem = sem'
    · subst hsem
      have hcount : 0 < held.count sem := Multiset.count_pos.mpr hallowed
      simp only [recordPermits, Function.update_self, Multiset.count_erase_self, forked]
      omega
    · simp [recordPermits, hsem, forked, Multiset.count_erase_of_ne hsem]
  | spawn args =>
    obtain ⟨rfl, _⟩ := Prod.mk.inj (Option.some.inj hex)
    have hcount := Multiset.count_le_of_le sem hallowed
    simp only [recordPermits, Multiset.count_sub, forked]
    omega
  | _ =>
    have hsame : s'.permits = s.permits := by
      apply coreExec_permits _ hex
      trivial
    rw [hsame]
    rfl

variable {p : Pool (coreService M setup)}

theorem permits_conserved (hp : p.Reachable) (sem : Semaphore) :
    p.state.permits sem + (permitAccounts M setup).total (fun held => held.count sem) p =
      setup.permits sem := by
  refine conservation (A := permitAccounts M setup) (fun s => s.permits sem) follows_permits ?_ ?_
    hp (fun _ _ => trivial)
  · intro e he
    cases e with
    | worker args => cases he
    | _ => rfl
  · intro p q a st th hp ha hw _ _ hallowed _
    obtain ⟨_, c, hex⟩ := Pool.act_executed ha hw
    exact conserves_permits sem hex hallowed

def heldPermits (p : Pool (coreService M setup)) (tid : ℕ) : Multiset Semaphore :=
  match p.threads[tid]? with
  | some th => (permitAccounts M setup).account p.toWorld th.entry tid
  | none => 0

def CoreOp.releases : CoreOp τ → Bool
  | .release _ => true
  | _ => false

def liveWorker (p : Pool (coreService M setup)) (tid : ℕ) : Option WorkerArgs :=
  match p.threads[tid]? with
  | some ⟨.worker args, _⟩ =>
    if (p.own tid).any (fun st => st.op.releases) then none else some args
  | _ => none

/-- The number of live workers with a property. -/
def liveWorkers (p : Pool (coreService M setup)) (P : WorkerArgs → Bool) : ℕ :=
  ((Finset.range p.threads.length).filter (fun tid => (liveWorker p tid).any P)).card

structure Quotas (p : Pool (coreService M setup)) : Prop where
  global : liveWorkers p (fun _ => true) ≤ setup.maxConcurrent
  agent : ∀ agent, setup.registry.get agent.id = some agent →
    liveWorkers p (fun args => args.agent.id = agent.id) ≤ agent.limits.maxConcurrentTasks
  caller : ∀ caller,
    liveWorkers p (fun args => args.caller = caller) ≤ setup.defaultCallerMaxConcurrent
  /-- A call that has returned, whatever it has returned, holds no permit. -/
  returned : ∀ tid th caller request, p.threads[tid]? = some th →
    th.entry = .dispatch caller (.invoke request) → th.finished = true → heldPermits p tid = 0
  restored : (∀ th ∈ p.threads, th.entry.holdsPermits = true → th.finished = true) →
    p.state.permits = setup.permits

theorem heldPermits_of_live (hp : p.Reachable) (h : liveWorker p tid = some args) :
    heldPermits p tid = workerPermits args := by
  unfold liveWorker at h
  split at h
  · rename_i args' prog hth
    split at h
    · cases h
    rename_i hreleases
    cases h
    have hperforms := (hp.performs (everywhere_program M setup (within_all M.store)) hth).2
    rw [heldPermits, hth]
    apply account_eq_opening
    intro st hst held
    have hop := hperforms st hst
    apply keepsPermits_record
    cases ho : st.op with
    | tryAcquire sem =>
      rw [ho] at hop
      obtain ⟨_, _, he⟩ := hop
      cases he
    | release sem =>
      have hany : (p.own tid).any (fun st => st.op.releases) = true :=
        List.any_eq_true.mpr ⟨st, hst, by rw [ho]; rfl⟩
      exact absurd hany hreleases
    | spawn args =>
      rw [ho] at hop
      obtain ⟨_, _, he, _⟩ := hop
      cases he
    | _ => trivial
  · cases h

theorem heldPermits_of_finished (hp : p.Reachable) (hth : p.threads[tid]? = some th)
    (hfinished : th.finished = true) : heldPermits p tid = 0 := by
  obtain ⟨r, hr⟩ := Option.isSome_iff_exists.mp hfinished
  rw [heldPermits, hth]
  exact post_of_reachable follows_permits hp (fun _ _ => trivial) hth hr

theorem heldPermits_of_other (hp : p.Reachable) {th : Thread (coreService M setup)}
    (hth : p.threads[tid]? = some th) (he : th.entry.holdsPermits = false) :
    heldPermits p tid = 0 := by
  have hperforms := (hp.performs (everywhere_program M setup (within_all M.store)) hth).2
  have hopening : (permitAccounts M setup).opening th.entry = 0 := by
    cases hentry : th.entry with
    | worker args =>
      rw [hentry] at he
      cases he
    | _ => rfl
  rw [heldPermits, hth, ← hopening]
  apply account_eq_opening
  intro st hst held
  exact keepsPermits_record held ((hperforms st hst).keepsPermits he) _

theorem holding_heldPermits (p : Pool (coreService M setup)) (sem : Semaphore) (tid : ℕ) :
    (permitAccounts M setup).holding (fun held => held.count sem) p tid =
      (heldPermits p tid).count sem := by
  unfold holding heldPermits
  cases p.threads[tid]? with
  | none => simp
  | some th => rfl

theorem liveWorkers_le (hp : p.Reachable) {P : WorkerArgs → Bool} (sem : Semaphore)
    (hP : ∀ args, P args = true → sem ∈ workerPermits args) :
    liveWorkers p P ≤ setup.permits sem := by
  have hle : liveWorkers p P ≤ (permitAccounts M setup).total (fun held => held.count sem) p := by
    unfold liveWorkers
    rw [Finset.card_filter]
    apply Finset.sum_le_sum
    intro tid _
    split
    · rename_i hany
      cases hlive : liveWorker p tid with
      | none =>
        rw [hlive] at hany
        cases hany
      | some args =>
        rw [hlive] at hany
        have hheld : (heldPermits p tid).count sem = (workerPermits args).count sem := by
          rw [heldPermits_of_live hp hlive]
        have hone : 1 ≤ (workerPermits args).count sem :=
          Multiset.one_le_count_iff_mem.mpr (hP args hany)
        rw [holding_heldPermits, hheld]
        exact hone
    · exact Nat.zero_le _
  have hconserved := permits_conserved hp sem
  omega

/-- Over any store and in every interleaving, the live workers stay within the global limit, the
limit of their agent and the limit of their caller; a call that has returned holds no permit, and
once all calls and workers have ended every semaphore has its initial permits. -/
theorem quotas_respected (M : StoreMachine) (setup : CoreSetup) {p : Pool (coreService M setup)}
    (hp : p.Reachable) : Quotas p where
  global := liveWorkers_le hp .global (fun args _ => by simp [workerPermits])
  agent agent hagent := by
    have hmem : ∀ args : WorkerArgs, decide (args.agent.id = agent.id) = true →
        Semaphore.agent agent.id ∈ workerPermits args := by
      intro args hargs
      simp [workerPermits, of_decide_eq_true hargs]
    simpa [CoreSetup.permits, hagent] using liveWorkers_le hp (.agent agent.id) hmem
  caller caller := by
    have hmem : ∀ args : WorkerArgs, decide (args.caller = caller) = true →
        Semaphore.caller caller ∈ workerPermits args := by
      intro args hargs
      simp [workerPermits, of_decide_eq_true hargs]
    exact liveWorkers_le hp (.caller caller) hmem
  returned tid th caller request hth hentry hfinished := by
    exact heldPermits_of_finished hp hth hfinished
  restored hall := by
    funext sem
    have htotal : (permitAccounts M setup).total (fun held => held.count sem) p = 0 := by
      apply Finset.sum_eq_zero
      intro tid _
      rw [holding_heldPermits]
      cases hth : p.threads[tid]? with
      | none => simp [heldPermits, hth]
      | some th =>
        cases he : th.entry.holdsPermits with
        | true =>
          rw [heldPermits_of_finished hp hth (hall th (List.mem_of_getElem? hth) he)]
          exact Multiset.count_zero sem
        | false =>
          rw [heldPermits_of_other hp hth he]
          exact Multiset.count_zero sem
    have hconserved := permits_conserved hp sem
    omega

/-- The only slot is taken, and the call of another caller is rejected. -/
theorem quotas_respected_rejected :
    ∃ p : Pool (coreService contractMachine singleAgentSetup), p.Reachable ∧
      liveWorkers p (fun _ => true) = 1 ∧
      p.threads[2]?.any (fun th => th.prog.result?.any (fun r => !r.succeeds)) = true ∧
      Quotas p := by
  obtain ⟨p, hp, hlive, hrejected⟩ := Pool.exists_reachable rejectedOther
    (fun p => liveWorkers p (fun _ => true) = 1 ∧
      p.threads[2]?.any (fun th => th.prog.result?.any (fun r => !r.succeeds)) = true)
    (by decide +kernel)
  exact ⟨p, hp, hlive, hrejected, quotas_respected contractMachine singleAgentSetup hp⟩

end AgentConnector
