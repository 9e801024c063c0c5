import AgentConnector.LinearHistory

/-!
# Creation leaves other tasks alone

A creation is decided by the key, while tasks are kept under their identifiers. The SQL stores
refuse a new task whose identifier is taken. The in-memory store overwrites the task that is there.
-/

namespace AgentConnector

open Concurrent List Option

/-- A creation that has returned `r` has kept every task that was there, and has failed if it had to
create a task under an identifier that is taken. -/
structure StoreView.CreateFrame {D : Type} (V : StoreView D) (n : NewTask) (d d' : D)
    (r : Except StoreError CreateTaskResult) : Prop where
  kept : ∀ id, (V.row d id).isSome = true → V.SameTask id d d' ∧ V.lease d' id = V.lease d id
  clash : (V.row d n.taskId).isSome = true → V.owner d n.key = none → ∃ e, r = .error e

namespace DurableMachine

variable {M : DurableMachine} {db : M.Db} {strict : Prop} {p q : Pool (storeService M db)}
  {as : List (Action (storeService M db))} {tid : ℕ} {th : Thread (storeService M db)} {n : NewTask}

section

variable (hM : Obeys strict M) (hdb : M.Settled db) (hp : p.Reachable) (hrun : p.run as = some q)
  (hth : q.threads[tid]? = some th) (hentry : th.entry = .create n)

include hM hdb hp hrun hth hentry

theorem create_step (hst : st ∈ q.own tid) :
    M.view.Same st.pre st.post ∨
      (M.view.Creates n st.pre st.post ∧ (strict → M.view.row st.pre n.taskId = none)) := by
  obtain ⟨l, l', hown⟩ := append_of_mem hst
  have hguarantee := hM.kept_own hdb (hp.run hrun) hth hown
  rw [hentry] at hguarantee
  exact hguarantee.1

variable (hothers : ∀ st ∈ p.since q, st.tid ≠ tid → M.view.Same st.pre st.post)

include hothers

theorem create_keeps {K : M.Db → Prop} (hsame : ∀ d d', M.view.Same d d' → K d → K d')
    (hcreates : ∀ d d', M.view.Creates n d d' →
      (strict → M.view.row d n.taskId = none) → K d → K d')
    (hK : K p.state) : K q.state ∧ ∀ st ∈ p.since q, K st.pre := by
  refine Pool.run_keeps hrun (Pool.run_since hrun) (fun st hst hpre => ?_) hK
  by_cases htid : st.tid = tid
  · have hmem : st ∈ q.trace := by
      rw [Pool.run_since hrun]
      exact mem_append_left _ hst
    rcases create_step hM hdb hp hrun hth hentry (World.mem_own.mpr ⟨hmem, htid⟩) with
      h | ⟨h, hfree⟩
    · exact hsame _ _ h hpre
    · exact hcreates _ _ h hfree hpre
  · exact hsame _ _ (hothers st hst htid) hpre

/-- Every task is kept if the store checks identifiers, or the key is known, or the identifier is
free. -/
theorem create_kept
    (hsafe : strict ∨ M.view.owner p.state n.key ≠ none ∨ M.view.row p.state n.taskId = none)
    {id : TaskId} (hid : (M.view.row p.state id).isSome = true) :
    M.view.SameTask id p.state q.state ∧ M.view.lease q.state id = M.view.lease p.state id := by
  have hkept := create_keeps hM hdb hp hrun hth hentry hothers
    (K := fun d => M.view.SameTask id p.state d ∧ M.view.lease d id = M.view.lease p.state id ∧
      (M.view.owner p.state n.key ≠ none → M.view.owner d n.key ≠ none)) ?_ ?_
    ⟨.refl id _, rfl, fun h => h⟩
  · exact ⟨hkept.1.1, hkept.1.2.1⟩
  · rintro d d' hsame ⟨htask, hlease, howner⟩
    refine ⟨htask.trans (hsame.task id), (hsame.lease id).trans hlease, ?_⟩
    rw [hsame.owner]
    exact howner
  · rintro d d' hcreates hfree ⟨htask, hlease, howner⟩
    have hne : id ≠ n.taskId := by
      rintro rfl
      rcases hsafe with hstrict | hkey | hrow
      · rw [← htask.row, hfree hstrict] at hid
        cases hid
      · exact howner hkey hcreates.key
      · rw [hrow] at hid
        cases hid
    refine ⟨htask.trans (hcreates.others id hne), (hcreates.lease id).trans hlease, fun _ => ?_⟩
    rw [hcreates.owner]
    exact some_ne_none _

theorem create_clash (hnew : p.threads.length ≤ tid) (hr : th.prog.result? = some (.created r))
    (hsafe : strict ∨ M.view.owner p.state n.key ≠ none ∨ M.view.row p.state n.taskId = none)
    (hid : (M.view.row p.state n.taskId).isSome = true) (hkey : M.view.owner p.state n.key = none) :
    ∃ e, r = .error e := by
  have hstrict : strict := by
    rcases hsafe with hstrict | hknown | hrow
    · exact hstrict
    · exact absurd hkey hknown
    · rw [hrow] at hid
      cases hid
  obtain ⟨_, hkept⟩ := create_keeps hM hdb hp hrun hth hentry hothers
    (K := fun d => (M.view.row d n.taskId).isSome = true ∧ M.view.owner d n.key = none)
    (fun d d' hsame hd => by rw [(hsame.task _).row, hsame.owner]; exact hd)
    (fun d d' _ hfree hd => by
      rw [hfree hstrict] at hd
      cases hd.1) ⟨hid, hkey⟩
  have hpost := hM.post hdb (hp.run hrun) hth hr
  rw [hentry] at hpost
  cases r with
  | error e => exact ⟨e, rfl⟩
  | ok result =>
    cases result with
    | created s =>
      obtain ⟨⟨st, hst, hcreates⟩, _⟩ := hpost
      obtain ⟨hsince, _⟩ := hp.own_of_new hrun hnew hst
      rcases create_step hM hdb hp hrun hth hentry hst with hsame | ⟨_, hfree⟩
      · have howner := hcreates.owner
        rw [hsame.owner, hcreates.key] at howner
        cases howner
      · have hrow := (hkept st hsince).1
        rw [hfree hstrict] at hrow
        cases hrow
    | existing s =>
      obtain ⟨hall, st, hst, howner⟩ := hpost
      obtain ⟨hsince, _⟩ := hp.own_of_new hrun hnew hst
      rw [(hall st hst).owner, (hkept st hsince).2] at howner
      cases howner

end

end DurableMachine

theorem memory_create_step {p : Pool (storeService memoryMachine db)} (hp : p.Reachable)
    (hth : p.threads[tid]? = some th) (hentry : th.entry = .create n)
    (hr : th.prog.result? = some (.created r)) :
    ∃ st now, p.own tid = [st] ∧ st.pre.createOrGetIdempotent n now = (st.post, r) := by
  have hpost := Isolation.post_of_reachable (I := memoryIsolation db) (G := fun _ _ _ => True)
    (Q := fun c r _ l => ∀ n r', c = .create n → r = .created r' → ∃ st now, l = [st] ∧
      st.pre.createOrGetIdempotent n now = (st.post, r')) ?_ hp hth hr n r hentry rfl
  · exact hpost
  · intro tid c
    cases c with
    | create n =>
      intro s ch s' r next _ _ hex
      refine ⟨trivial, fun n' r' hn hr' => ?_⟩
      cases hn
      cases hr'
      cases hex
      exact ⟨_, ch.now, rfl, rfl⟩
    | _ =>
      intro s ch s' r next _ _ hex
      exact ⟨trivial, fun n' r' hn => by cases hn⟩

/-- Creation keeps every task and reports a clash of identifiers exactly if, in the in-memory store,
its key is known or its identifier is free. -/
theorem StoreKind.create_frame_iff (k : StoreKind)
    {p q : Pool (storeService k.machine k.machine.empty)}
    {as : List (Action (storeService k.machine k.machine.empty))} (hp : p.Reachable)
    (hrun : p.run as = some q) {tid : ℕ} (hnew : p.threads.length ≤ tid)
    {th : Thread (storeService k.machine k.machine.empty)} (hth : q.threads[tid]? = some th)
    {n : NewTask} (hentry : th.entry = .create n) {r : Except StoreError CreateTaskResult}
    (hr : th.prog.result? = some (.created r))
    (hothers : ∀ st ∈ p.since q, st.tid ≠ tid → k.machine.view.Same st.pre st.post) :
    k.machine.view.CreateFrame n p.state q.state r ↔
      (k = .memory → k.machine.view.owner p.state n.key ≠ none ∨
        k.machine.view.row p.state n.taskId = none) := by
  have hdb := k.settled_empty
  constructor
  · rintro hframe rfl
    by_contra hunsafe
    rw [not_or, not_not] at hunsafe
    obtain ⟨hkey, hrow⟩ := hunsafe
    obtain ⟨e, rfl⟩ := hframe.clash (isSome_iff_ne_none.mpr hrow) hkey
    -- The failed creation has changed nothing, so the key was still unknown when it was made.
    obtain ⟨st, now, hown, hstep⟩ := memory_create_step (hp.run hrun) hth hentry hr
    have hst : st ∈ q.own tid := by
      rw [hown]
      exact mem_singleton_self st
    obtain ⟨hsince, _⟩ := hp.own_of_new hrun hnew hst
    obtain ⟨id, hknown, hpost⟩ : ∃ id, st.pre.idempotency.get n.key = some id ∧
        st.post = st.pre := by
      rcases MemoryState.create_cases n now with
        ⟨_, _, _, _, heq⟩ | ⟨id, _, hknown, _, heq⟩ | ⟨_, heq⟩
      · cases congrArg Prod.snd (heq.symm.trans hstep)
      · exact ⟨id, hknown, (congrArg Prod.fst (heq.symm.trans hstep)).symm⟩
      · rw [hstep] at heq
        cases heq
    have hkeep : ∀ st' ∈ p.since q, memoryView.owner st'.pre n.key = none →
        memoryView.owner st'.post n.key = none := by
      intro st' hst' hpre
      by_cases htid : st'.tid = tid
      · have hmem : st' ∈ q.own tid := World.mem_own.mpr ⟨by
          rw [Pool.run_since hrun]
          exact mem_append_left _ hst', htid⟩
        rw [hown, mem_singleton] at hmem
        subst hmem
        rw [hpost]
        exact hpre
      · rw [(hothers st' hst' htid).owner]
        exact hpre
    have hnone := (Pool.run_keeps (K := fun d => memoryView.owner d n.key = none) hrun
      (Pool.run_since hrun) hkeep hkey).2 st hsince
    exact some_ne_none id (hknown.symm.trans hnone)
  · intro hsafe
    have hsafe' : k.Strict ∨ k.machine.view.owner p.state n.key ≠ none ∨
        k.machine.view.row p.state n.taskId = none := by
      cases k with
      | memory => exact .inr (hsafe rfl)
      | sqlite C | postgres J => exact .inl trivial
    exact ⟨fun id hid => DurableMachine.create_kept k.obeys hdb hp hrun hth hentry
      hothers hsafe' hid,
      DurableMachine.create_clash k.obeys hdb hp hrun hth hentry hothers hnew hr hsafe'⟩

/-- The same identifier under two keys: the in-memory store gives the task of the first caller to
the second one. -/
theorem memory_create_overwrites :
    ∃ p q : Pool (storeService memoryMachine MemoryState.empty), p.Reachable ∧
      p.run [.call (.create (.under "other" "key" 1)), .step 1 {}] = some q ∧
      q.threads[1]?.bind (fun th => th.prog.result?) =
        some (.created (.ok (.created (.fresh (.under "other" "key" 1) 0)))) ∧
      ¬ memoryView.CreateFrame (.under "other" "key" 1) p.state q.state
        (.ok (.created (.fresh (.under "other" "key" 1) 0))) := by
  obtain ⟨p, q, hp, hrun, hresult, hbefore, hafter⟩ := Pool.exists_reachable_run
    (S := storeService memoryMachine MemoryState.empty)
    [.call (.create (.under "caller" "key" 1)), .step 0 {}]
    [.call (.create (.under "other" "key" 1)), .step 1 {}]
    (fun p q => (q.threads[1]?.bind (fun th => th.prog.result?)).bind StoreResult.created? =
        some (.fresh (.under "other" "key" 1) 0) ∧
      p.state.tasks.find 1 = some (.fresh (.under "caller" "key" 1) 0) ∧
      q.state.tasks.find 1 = some (.fresh (.under "other" "key" 1) 0)) (by decide +kernel)
  refine ⟨p, q, hp, hrun, ?_, fun hframe => ?_⟩
  · obtain ⟨r, hr, hcreated⟩ := bind_eq_some_iff.mp hresult
    rw [hr, StoreResult.eq_of_created? hcreated]
  · have hrow := (hframe.kept 1 (by rw [show memoryView.row p.state 1 = _ from hbefore]; rfl)).1.row
    rw [show memoryView.row p.state 1 = _ from hbefore,
      show memoryView.row q.state 1 = _ from hafter] at hrow
    revert hrow
    decide +kernel

/-- A second task under a free identifier. -/
theorem create_frame_iff_of_second_task :
    ∃ p q : Pool (storeService memoryMachine MemoryState.empty), p.Reachable ∧
      (memoryView.row p.state 1).isSome = true ∧
      (memoryView.CreateFrame (.under "caller" "other" 2) p.state q.state
          (.ok (.created (.fresh (.under "caller" "other" 2) 0))) ↔
        (StoreKind.memory = .memory →
          memoryView.owner p.state (NewTask.under "caller" "other" 2).key ≠ none ∨
            memoryView.row p.state 2 = none)) := by
  obtain ⟨p, q, hp, hrun, hresult, hfirst, hthreads, hothers, hsome⟩ := Pool.exists_reachable_run
    (S := storeService memoryMachine MemoryState.empty)
    [.call (.create (.under "caller" "key" 1)), .step 0 {}]
    [.call (.create (.under "caller" "other" 2)), .step 1 {}]
    (fun p q => (q.threads[1]?.bind (fun th => th.prog.result?)).bind StoreResult.created? =
        some (.fresh (.under "caller" "other" 2) 0) ∧ p.threads.length ≤ 1 ∧
      q.threads[1]?.bind (fun th => th.entry.create?) = some (.under "caller" "other" 2) ∧
      (∀ st ∈ p.since q, st.tid = 1) ∧ (p.state.tasks.find 1).isSome = true) (by decide +kernel)
  refine ⟨p, q, hp, hsome, ?_⟩
  obtain ⟨th, hth, hentry⟩ := bind_eq_some_iff.mp hthreads
  rw [hth, bind_some] at hresult
  obtain ⟨r, hr, hcreated⟩ := bind_eq_some_iff.mp hresult
  rw [StoreResult.eq_of_created? hcreated] at hr
  exact StoreKind.create_frame_iff .memory hp hrun hfirst hth (StoreCall.eq_of_create? hentry) hr
    (fun st hst hne => absurd (hothers st hst) hne)

end AgentConnector
