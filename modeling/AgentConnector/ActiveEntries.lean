import AgentConnector.TaskStages

/-!
# Entries of the active map

Calls that are rejected after the insertion of their entry, or whose acceptance fails, leave the
entry behind. In runs in which neither happens, the entries are those of the calls in progress and
of the live workers: each entry is accounted for by the one thread that is responsible for it.
-/

namespace AgentConnector

open Concurrent Accounting List

variable {setup : CoreSetup}

/-! ## The entries -/

variable (id : TaskId)

/-- The number of entries of a task, counted against the threads that are responsible for it. -/
def owedEntry (s : CoreState LogStore) : ℤ := if (s.active id).isSome then -1 else 0

variable (s : CoreState LogStore)

theorem active_dropActive_ne {id id' : TaskId} (h : id ≠ id') :
    (s.dropActive id').active id = s.active id := by
  unfold CoreState.dropActive
  split
  · exact Function.update_of_ne h _ _
  · rfl

theorem active_dropActive_self (id : TaskId) : (s.dropActive id).active id = none := by
  unfold CoreState.dropActive
  split
  · exact Function.update_self ..
  · assumption

theorem active_insertActive_ne {id id' : TaskId} (h : id ≠ id') :
    (s.insertActive id').active id = s.active id := by
  change Function.update (s.dropActive id').active id' _ id = _
  rw [Function.update_of_ne h]
  exact active_dropActive_ne s h

theorem active_insertActive_self (id : TaskId) : ((s.insertActive id).active id).isSome = true := by
  change (Function.update (s.dropActive id).active id _ id).isSome = true
  rw [Function.update_self]
  rfl

theorem coreExec_active {s s' : CoreState LogStore} (hinsert : ∀ id, o ≠ .activeInsert id)
    (hremove : ∀ id, o ≠ .activeRemove id) (hex : coreExec contractMachine tid s o c = some (s', r))
    :
    (s'.active id).isSome = (s.active id).isSome := by
  have hmove := coreMove_of_exec hex
  clear hex
  change CoreOp contractMachine.sig at o
  cases hmove with
  | inserted id => exact absurd rfl (hinsert id)
  | removed id => exact absurd rfl (hremove id)
  | sent id' e =>
    unfold CoreState.send
    split <;> rfl
  | cancelled id' =>
    unfold CoreState.cancelToken
    split
    · rename_i a ha
      by_cases hid : id = id'
      · subst hid
        simp [ha]
      · simp [Function.update_of_ne hid]
    · rfl
  | _ => rfl

theorem owedEntry_cases (s : CoreState LogStore) :
    ((s.active id).isSome = true ∧ owedEntry id s = -1) ∨
      ((s.active id).isSome = false ∧ owedEntry id s = 0) := by
  unfold owedEntry
  cases (s.active id).isSome <;> simp

theorem weight_nonneg (s : Stage) : 0 ≤ s.weight id := by
  unfold Stage.weight
  split <;> simp

section

variable {p : Pool (contractCore setup)} {id : TaskId}

theorem holding_nonneg (p : Pool (contractCore setup)) (tid : ℕ) :
    0 ≤ (stageAccounts setup).holding (Stage.weight id) p tid := by
  unfold holding
  split
  · exact weight_nonneg _ _
  · exact le_refl 0

theorem conserves_entries (hp : p.Reachable) (hc : ∀ st ∈ p.trace, CoreOp.Unhindered st.op st.reply)
    (ih : owedEntry id p.state + (stageAccounts setup).total (Stage.weight id) p = 0)
    (hth : p.threads[tid]? = some th)
    (hex : coreExec contractMachine tid p.state o c = some (s', r))
    (hallowed : (stageOf p th tid).Allows o) :
    owedEntry id s' + ((stageOf p th tid).record o r).weight id +
      (stageAccounts setup).forked (Stage.weight id) o =
        owedEntry id p.state + (stageOf p th tid).weight id := by
  have hsame : (∀ id, o ≠ .activeInsert id) → (∀ id, o ≠ .activeRemove id) →
      owedEntry id s' = owedEntry id p.state := by
    intro hinsert hremove
    unfold owedEntry
    rw [coreExec_active id hinsert hremove hex]
  cases o with
  | activeInsert id' =>
    rw [show stageOf p th tid = .created id' from hallowed]
    obtain ⟨rfl, _⟩ := Prod.mk.inj (Option.some.inj hex)
    have hnext : (Stage.created id').record (.activeInsert id') r = .inserted id' := if_pos rfl
    rw [hnext]
    by_cases hid : id = id'
    · subst hid
      have htotal : (stageAccounts setup).total (Stage.weight id) p = 0 := by
        apply Finset.sum_eq_zero
        intro j hj
        have hth' := getElem?_eq_getElem (Finset.mem_range.mp hj)
        rw [holding_eq _ hth']
        exact weight_of_created hp hc hth hallowed hth'
      rcases owedEntry_cases id p.state with ⟨_, howed⟩ | ⟨_, howed⟩
      · omega
      · rcases owedEntry_cases id (p.state.insertActive id) with ⟨_, howed'⟩ | ⟨hnone, _⟩
        · rw [howed, howed']
          simp [Stage.weight, forked]
        · rw [active_insertActive_self] at hnone
          cases hnone
    · unfold owedEntry
      rw [active_insertActive_ne _ hid]
      simp [Stage.weight, forked, Ne.symm hid]
  | activeRemove id' =>
    have hs : stageOf p th tid = .running id' := hallowed
    obtain ⟨rfl, _⟩ := Prod.mk.inj (Option.some.inj hex)
    have hnext : (Stage.running id').record (.activeRemove id') r = .removed := if_pos rfl
    by_cases hid : id = id'
    · subst hid
      have hone : (stageAccounts setup).holding (Stage.weight id) p tid = 1 := by
        rw [holding_eq _ hth]
        change (stageOf p th tid).weight id = 1
        rw [hs]
        simp [Stage.weight]
      have hle : 1 ≤ (stageAccounts setup).total (Stage.weight id) p := by
        rw [← hone]
        apply Finset.single_le_sum (fun j _ => holding_nonneg p j)
        exact Finset.mem_range.mpr (List.getElem?_eq_some_iff.mp hth).1
      rw [hs, hnext]
      rcases owedEntry_cases id p.state with ⟨_, howed⟩ | ⟨_, howed⟩
      · rw [howed, owedEntry, active_dropActive_self]
        simp [Stage.weight, forked]
      · omega
    · rw [hs, hnext]
      unfold owedEntry
      rw [active_dropActive_ne _ hid]
      simp [Stage.weight, forked, Ne.symm hid]
  | spawn args =>
    rw [show stageOf p th tid = .inserted args.taskId from hallowed,
      hsame (fun _ => by simp) (fun _ => by simp)]
    simp [Stage.record, Stage.spawn, Stage.weight, forked]
  | store o =>
    rw [hsame (fun _ => by simp) (fun _ => by simp)]
    cases o with
    | claim n =>
      rw [show stageOf p th tid = .idle from hallowed]
      cases r with
      | error e => exact add_zero _
      | ok claimed => cases claimed <;> exact add_zero _
    | _ => exact add_zero _
  | _ =>
    rw [hsame (fun _ => by simp) (fun _ => by simp)]
    exact add_zero _

theorem entries_accounted (hp : p.Reachable)
    (hc : ∀ st ∈ p.trace, CoreOp.Unhindered st.op st.reply) (id : TaskId) :
    owedEntry id p.state + (stageAccounts setup).total (Stage.weight id) p = 0 := by
  refine conservation (owedEntry id) follows_stages ?_ ?_ hp hc
  · intro e he
    cases e with
    | worker args => cases he
    | _ => rfl
  · intro p q a st th hp ha hw hc hth hallowed ih
    obtain ⟨_, c, hex⟩ := Pool.act_executed ha hw
    exact conserves_entries hp (fun st hst => hc st (Pool.trace_subset ha hst)) ih hth hex hallowed

/-- The invocation of the task has inserted its entry and has not returned. -/
def InvokeInProgress (p : Pool (contractCore setup)) (id : TaskId) : Prop :=
  ∃ tid th caller request, p.threads[tid]? = some th ∧
    th.entry = .dispatch caller (.invoke request) ∧ th.finished = false ∧
    ∃ st ∈ p.own tid, st.op = .activeInsert id

/-- The worker of the task has been spawned and has neither ended nor removed the entry. -/
def WorkerLive (p : Pool (contractCore setup)) (id : TaskId) : Prop :=
  ∃ tid th, p.threads[tid]? = some th ∧ th.entry.worker? = some id ∧ th.finished = false ∧
    ∀ st ∈ p.own tid, st.op ≠ .activeRemove id

/-- The append with which a call accepts its task. -/
def CoreOp.acceptsTask : CoreOp contractSig → Bool
  | .store (.append t) => t.nextState = .accepted
  | _ => false

/-- A call finds a permit of each semaphore it tries, and its acceptance passes the checks of the
store. -/
def CoreOp.StartsFreely : CoreOp contractSig → Prop
  | .tryAcquire sem => 0 < s.permits sem
  | .store (.append t) => t.nextState = .accepted → (s.db.check t).isOk = true
  | _ => True

instance (s : CoreState LogStore) (o : CoreOp contractSig) : Decidable (o.StartsFreely s) :=
  decidable_of_bool (match o with
    | .tryAcquire sem => 0 < s.permits sem
    | .store (.append t) => t.nextState = .accepted → (s.db.check t).isOk = true
    | _ => true) (by unfold CoreOp.StartsFreely; split <;> simp only [decide_eq_true_eq])

theorem unhindered_of_startsFreely (hp : p.Reachable) (hst : st ∈ p.trace)
    (hfault : st.op.acceptsTask = true → ¬ CoreOp.Fault st.op st.reply)
    (hstarts : st.op.StartsFreely st.pre) : CoreOp.Unhindered st.op st.reply := by
  obtain ⟨c, hex⟩ := hp.executed st hst
  obtain ⟨tid, o, r, pre, post, next⟩ := st
  cases o with
  | store o =>
    cases o with
    | append t =>
      intro hnext
      obtain ⟨db, hdb, _⟩ := coreExec_store hex
      rcases LogStore.exec_append hdb with ⟨cur, _, hr, _⟩ | ⟨e, hcheck, _⟩ | ⟨e, hr, he⟩
      · exact ⟨_, hr⟩
      · have hok : (pre.db.check t).isOk = true := hstarts hnext
        rw [hcheck] at hok
        cases hok
      · subst hr
        exact absurd he (hfault (decide_eq_true hnext))
    | _ => trivial
  | tryAcquire sem =>
    have hfree : 0 < pre.permits sem := hstarts
    simp only [coreExec, hfree, if_true] at hex
    exact (Prod.mk.inj (Option.some.inj hex)).2.symm
  | _ => trivial

theorem Stage.not_allows_handedOn (o : CoreOp contractSig) : ¬ Stage.handedOn.Allows o := by
  intro h
  cases o with
  | store o => cases o <;> first | cases h | exact h rfl
  | _ => first | cases h | exact h rfl

theorem Stage.weight_ne_zero {s : Stage} (h : s.weight id ≠ 0) :
    s = .inserted id ∨ s = .running id := by
  by_contra hne
  exact h (if_neg hne)

theorem in_progress_of_weight (hp : p.Reachable)
    (hc : ∀ st ∈ p.trace, CoreOp.Unhindered st.op st.reply) (hth : p.threads[tid]? = some th)
    (h : (stageOf p th tid).weight id ≠ 0) : InvokeInProgress p id ∨ WorkerLive p id := by
  have hstage := Stage.weight_ne_zero h
  have hrunning : th.finished = false := by
    by_contra hfinished
    obtain ⟨r, hr⟩ := Option.isSome_iff_exists.mp (Bool.not_eq_false _ ▸ hfinished)
    exact h (post_of_reachable follows_stages hp hc hth hr id)
  cases he : th.entry.worker? with
  | some id' =>
    refine Or.inr ⟨tid, th, hth, ?_⟩
    rw [stageOf_worker he] at hstage
    rcases stage_of_worker id' (p.own tid) with ⟨hs, hnone⟩ | ⟨hs, _⟩
    · rw [hs] at hstage
      have hid : id' = id := by simpa using hstage
      rw [← hid]
      exact ⟨he, hrunning, hnone⟩
    · rw [hs] at hstage
      simp at hstage
  | none =>
    refine Or.inl ?_
    have hcall := stage_of_call (p.own tid)
    rw [← stageOf_call he] at hcall
    rcases hstage with hs | hs
    · rw [hs] at hcall
      obtain ⟨_, st, hst, hop⟩ := hcall
      have hperforms := performs_of_own hp hth hst
      rw [hop] at hperforms
      obtain ⟨caller, request, hentry⟩ := hperforms
      exact ⟨tid, th, caller, request, hth, hentry, hrunning, st, hst, hop⟩
    · rw [hs] at hcall
      exact hcall.elim

theorem weight_of_in_progress (hp : p.Reachable)
    (hc : ∀ st ∈ p.trace, CoreOp.Unhindered st.op st.reply)
    (h : InvokeInProgress p id ∨ WorkerLive p id) :
    ∃ tid th, p.threads[tid]? = some th ∧ (stageOf p th tid).weight id = 1 := by
  rcases h with ⟨tid, th, caller, request, hth, hentry, hrunning, st, hst, hop⟩ |
    ⟨tid, th, hth, he, _, hnone⟩
  · refine ⟨tid, th, hth, ?_⟩
    obtain ⟨l, l', hown⟩ := append_of_mem hst
    have hcreated : stageAfter .idle l' = .created id := by
      have hallowed := allowed_of_own follows_stages hp hc hth hown
      rw [hop, hentry] at hallowed
      exact hallowed
    have hinserted : (Stage.created id).record st.op st.reply = .inserted id := by
      obtain ⟨tid, o, r, pre, post, next⟩ := st
      cases hop
      exact if_pos rfl
    have hstage : stageOf p th tid = stageAfter (.inserted id) l := by
      rw [stageOf_call (by rw [hentry]; rfl), hown, ← hinserted, ← hcreated]
      simp only [stageAfter, foldr_append, foldr_cons]
    rcases stage_of_inserted id l with hs | hs
    · rw [hstage, hs]
      simp [Stage.weight]
    · -- After the hand-over the call has nothing left to do.
      have hfollows := follows_of_reachable follows_stages hp hc hth
      cases hprog : th.prog with
      | pure r =>
        rw [Thread.finished, hprog] at hrunning
        cases hrunning
      | op o k =>
        rw [hprog] at hfollows
        have hallowed : (stageOf p th tid).Allows o := hfollows.1
        rw [hstage, hs] at hallowed
        exact absurd hallowed (Stage.not_allows_handedOn o)
  · refine ⟨tid, th, hth, ?_⟩
    rw [stageOf_worker he]
    rcases stage_of_worker id (p.own tid) with ⟨hs, _⟩ | ⟨_, st, hst, hop⟩
    · rw [hs]
      simp [Stage.weight]
    · exact absurd hop (hnone st hst)

end

end AgentConnector
