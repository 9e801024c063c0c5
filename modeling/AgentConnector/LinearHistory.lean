import AgentConnector.MemorySteps
import AgentConnector.SqliteCalls
import AgentConnector.PostgresCalls

/-!
# The history of a task in a store

The steps that change a task are its appends taking effect. They form one sequence: the append at
position `i` expected revision `i`, its event has the number `i + 1` and stands at position `i` of
the event log. Calls that fail before a commit take no part in it.
-/

namespace AgentConnector

open Concurrent List

/-- The three stores. -/
inductive StoreKind where
  | memory
  | sqlite (C : Columns)
  | postgres (J : JsonColumn)

namespace StoreKind

abbrev machine : StoreKind → DurableMachine
  | memory => memoryMachine
  | sqlite C => sqliteMachine C
  | postgres J => postgresMachine J

def Strict : StoreKind → Prop
  | memory => False
  | _ => True

theorem obeys (k : StoreKind) : DurableMachine.Obeys k.Strict k.machine := by
  cases k with
  | memory => exact memory_obeys
  | sqlite C => exact sqlite_obeys C
  | postgres J => exact postgres_obeys J

theorem settled_empty (k : StoreKind) : k.machine.Settled k.machine.empty := by
  cases k with
  | memory => trivial
  | sqlite C => exact ⟨rfl, rfl, fun _ => rfl⟩
  | postgres J => exact ⟨fun _ => rfl, fun _ => rfl⟩

end StoreKind

/-- The task has no history, as after its creation. -/
structure StoreView.Fresh {D : Type} (V : StoreView D) (d : D) (id : TaskId) : Prop where
  counters : ∀ s, V.stored d id = some (.ok s) → s.revision = 0 ∧ s.lastSeq = 0
  log : V.log d id = []

/-- The calls that can change a task only by an append. -/
def StoreCall.Spares (id : TaskId) : StoreCall → Prop
  | .create n => n.taskId ≠ id
  | .cleanup _ => False
  | _ => True

namespace DurableMachine

variable {M : DurableMachine} {db : M.Db}

open Classical in
/-- The steps that have changed a task, in the order in which they were taken. -/
noncomputable def changes (id : TaskId) (trace : List (Step (storeService M db))) :
    List (Step (storeService M db)) :=
  trace.reverse.filter (fun st => ¬ M.view.SameTask id st.pre st.post)

variable {st : Step (storeService M db)}

variable {id : TaskId}

theorem changes_cons_same (h : M.view.SameTask id st.pre st.post)
    (l : List (Step (storeService M db))) :
    changes id (st :: l) = changes id l := by
  simp [changes, filter_append, h]

theorem changes_cons (h : ¬ M.view.SameTask id st.pre st.post)
    (l : List (Step (storeService M db))) :
    changes id (st :: l) = changes id l ++ [st] := by
  simp [changes, filter_append, h]

theorem mem_changes :
    st ∈ changes id l ↔ st ∈ l ∧ ¬ M.view.SameTask id st.pre st.post := by
  simp [changes]

/-- The step `st` is an append of the task that found revision and number `i`; its event now stands
at position `i` of the log. -/
structure IsAppend (p : Pool (storeService M db)) (id : TaskId) (i : ℕ)
    (st : Step (storeService M db)) (t : TaskTransition) (a : AppliedTransition) : Prop where
  call : ∃ th, p.threads[st.tid]? = some th ∧ th.entry = .append t
  task : t.taskId = id
  revision : t.expectedRevision = i
  seq : a.event.seq = i + 1
  applies : ∃ cur, M.view.AppliesTo t cur a st.pre st.post
  logged : ∃ row e, (M.view.log p.state id)[i]? = some row ∧ M.view.event id row = .ok e ∧
    e.seq = i + 1 ∧ e.kind = t.eventKind

/-- One sequence of appends, and what the results of the calls say about it. -/
structure LinearHistory (p : Pool (storeService M db)) (id : TaskId) : Prop where
  change : ∀ i st, (changes id p.trace)[i]? = some st → ∃ t a, IsAppend p id i st t a
  log : (M.view.log p.state id).length = (changes id p.trace).length
  once : ((changes id p.trace).map Step.tid).Nodup
  success : ∀ tid th t a, p.threads[tid]? = some th → th.entry = .append t → t.taskId = id →
    th.prog.result? = some (.applied (.ok a)) →
    ∃ i st, (changes id p.trace)[i]? = some st ∧ st.tid = tid ∧ IsAppend p id i st t a
  failure : ∀ tid th t e, p.threads[tid]? = some th → th.entry = .append t →
    th.prog.result? = some (.applied (.error e)) →
    (∀ st ∈ p.own tid, M.inDoubt st.op st.reply = false) → AllSame (p.own tid)

/-- What is counted on the way: the appends, the events, and the counters of the task. -/
structure Counts (p : Pool (storeService M db)) (id : TaskId) : Prop where
  change : ∀ i st, (changes id p.trace)[i]? = some st → ∃ t a, IsAppend p id i st t a
  log : (M.view.log p.state id).length = (changes id p.trace).length
  counters : ∀ s, M.view.stored p.state id = some (.ok s) →
    s.revision = (changes id p.trace).length ∧ s.lastSeq = (changes id p.trace).length

theorem Guarantee.change {strict : Prop} (h : Guarantee strict c l st) (hc : c.Spares id)
    (hst : ¬ M.view.SameTask id st.pre st.post) :
    ∃ t cur a, c = .append t ∧ t.taskId = id ∧ M.view.AppliesTo t cur a st.pre st.post := by
  cases StoreView.taskStep_of_stepOf h.1 id with
  | same hsame => exact absurd hsame hst
  | append hid happlies => exact ⟨_, _, _, rfl, hid, happlies⟩
  | create hid _ _ => exact absurd hid hc
  | clean _ _ | delete _ _ => exact hc.elim

section

variable {p q : Pool (storeService M db)} {id : TaskId}

/-- The threads of `p` go on in `q`. -/
def GoesOn (p q : Pool (storeService M db)) : Prop :=
  ∀ (tid : ℕ) (th : Thread (storeService M db)), p.threads[tid]? = some th →
    ∃ th', q.threads[tid]? = some th' ∧ th'.entry = th.entry

theorem IsAppend.mono (h : IsAppend p id i st t a) (hthreads : GoesOn p q)
    (hlog : M.view.log p.state id <+: M.view.log q.state id) : IsAppend q id i st t a where
  call := by
    obtain ⟨th, hth, hentry⟩ := h.call
    obtain ⟨th', hth', hentry'⟩ := hthreads _ th hth
    exact ⟨th', hth', hentry'.trans hentry⟩
  task := h.task
  revision := h.revision
  seq := h.seq
  applies := h.applies
  logged := by
    obtain ⟨row, e, hrow, hrest⟩ := h.logged
    obtain ⟨rest, hrest'⟩ := hlog
    refine ⟨row, e, ?_, hrest⟩
    rw [← hrest', List.getElem?_append_left (List.getElem?_eq_some_iff.mp hrow).1]
    exact hrow

theorem Counts.same (h : Counts p id) (hthreads : GoesOn p q)
    (hsame : M.view.SameTask id p.state q.state)
    (hchanges : changes id q.trace = changes id p.trace) : Counts q id where
  change i st hst := by
    rw [hchanges] at hst
    obtain ⟨t, a, happend⟩ := h.change i st hst
    exact ⟨t, a, happend.mono hthreads (by rw [hsame.log])⟩
  log := by
    rw [hsame.log, hchanges]
    exact h.log
  counters := by
    rw [hsame.stored_eq, hchanges]
    exact h.counters

theorem Counts.append (h : Counts p t.taskId) (hthreads : GoesOn p q) (hpre : st.pre = p.state)
    (hpost : st.post = q.state) (hth : q.threads[st.tid]? = some th) (hentry : th.entry = .append t)
    (happlies : M.view.AppliesTo t cur a st.pre st.post)
    (hsmall : cur.revision < 2 ^ 63 ∧ cur.lastSeq < 2 ^ 63)
    (hchanges : changes t.taskId q.trace = changes t.taskId p.trace ++ [st]) :
    Counts q t.taskId := by
  have hcurrent := happlies.current
  rw [hpre] at hcurrent
  obtain ⟨hrev, hseq⟩ := h.counters cur hcurrent
  obtain ⟨hnext, hnextSeq⟩ := happlies.counters hsmall.1 hsmall.2
  obtain ⟨row, e, hlog, hevent, _, heseq, hekind⟩ := happlies.logged
  rw [hpre, hpost] at hlog
  refine ⟨fun i st' hst' => ?_, ?_, fun s hs => ?_⟩
  · rw [hchanges] at hst'
    rcases Pool.getElem?_concat_cases hst' with hst' | ⟨hi', rfl⟩
    · obtain ⟨t', a', happend⟩ := h.change i st' hst'
      exact ⟨t', a', happend.mono hthreads (by rw [hlog]; exact prefix_append ..)⟩
    · refine ⟨t, a, ⟨th, hth, hentry⟩, rfl, ?_, ?_, ⟨cur, happlies⟩, row, e, ?_, hevent, ?_, hekind⟩
      · rw [← happlies.revision, hrev, hi']
      · rw [happlies.event.2.1, hseq, hi']
      · rw [hlog, hi', ← h.log]
        exact getElem?_concat_length ..
      · rw [heseq hsmall.2, hseq, hi']
  · rw [hlog, hchanges, length_append, length_append]
    exact congrArg (· + 1) h.log
  · rw [← hpost, happlies.stored] at hs
    cases hs
    rw [hchanges, length_append, length_singleton, hnext, hnextSeq, hrev, hseq]
    exact ⟨rfl, rfl⟩

end

section

variable {strict : Prop} {id : TaskId} {p : Pool (storeService M db)} (hM : Obeys strict M)
  (hdb : M.Settled db) (hp : p.Reachable) (hcalls : ∀ th ∈ p.threads, th.entry.Spares id)

include hM hdb hp hcalls

theorem counts_of_reachable (hfresh : M.view.Fresh db id)
    (hsmall : ∀ st ∈ p.trace, ∀ s, M.view.stored st.pre id = some (.ok s) →
      s.revision < 2 ^ 63 ∧ s.lastSeq < 2 ^ 63) : Counts p id := by
  induction hp with
  | start =>
    refine ⟨fun i st h => ?_, ?_, hfresh.counters⟩
    · simp [Pool.start, changes] at h
    · change (M.view.log db id).length = 0
      rw [hfresh.log]
      rfl
  | @act p q a hp ha ih =>
    have hthreads : GoesOn p q := fun _ _ hth => Pool.act_entry ha hth
    have hcounts : Counts p id := by
      refine ih (fun th hth => ?_) (fun st hst => hsmall st (Pool.trace_subset ha hst))
      obtain ⟨tid, hth⟩ := getElem?_of_mem hth
      obtain ⟨th', hth', hentry⟩ := hthreads tid th hth
      rw [← hentry]
      exact hcalls th' (mem_of_getElem? hth')
    rcases Pool.act_cases ha with ⟨e, _, rfl⟩ | ⟨tid, c, th, o, k, s, r, _, _, _, rfl⟩
    · exact hcounts.same hthreads (.refl id p.state) rfl
    · let st : Step (storeService M db) := ⟨tid, o, r, p.state, s, p.threads.length⟩
      have hst : st ∈ st :: p.trace := mem_cons_self ..
      by_cases hsame : M.view.SameTask id st.pre st.post
      · exact hcounts.same hthreads hsame (changes_cons_same hsame _)
      · obtain ⟨th', _, _, hth', _, hguarantee⟩ := hM.kept hdb (hp.act ha) hst
        obtain ⟨t, cur, a, hentry, rfl, happlies⟩ :=
          hguarantee.change (hcalls th' (mem_of_getElem? hth')) hsame
        exact hcounts.append hthreads rfl rfl hth' hentry happlies
          (hsmall st hst cur happlies.current) (changes_cons hsame _)

open Classical in
theorem nodup_changes : ((changes id p.trace).map Step.tid).Nodup := by
  have hnodup := World.nodup_tid (w := p.toWorld)
    (P := fun st => decide (¬ M.view.SameTask id st.pre st.post)) (fun tid => ?_)
  · rw [changes, filter_reverse, map_reverse, nodup_reverse]
    exact hnodup
  · apply countP_le_one
    intro l st l' hown hst st' hst'
    rw [decide_eq_true_eq] at hst
    have hmem : st ∈ p.own tid := by
      rw [hown]
      exact mem_append_right _ (mem_cons_self ..)
    obtain ⟨htrace, rfl⟩ := World.mem_own.mp hmem
    obtain ⟨th, hth⟩ := hp.exists_thread htrace
    have hspares := hcalls th (mem_of_getElem? hth)
    rcases (hM.kept_own hdb hp hth hown).2 with ⟨policy, hentry⟩ | hsame | hall
    · rw [hentry] at hspares
      exact hspares.elim
    · exact absurd (hsame.task id) hst
    · simp [(hall st' hst').task id]

end

theorem linearHistory {strict : Prop} {p : Pool (storeService M db)} (hM : Obeys strict M)
    (hdb : M.Settled db) (hp : p.Reachable) (hcalls : ∀ th ∈ p.threads, th.entry.Spares id)
    (hfresh : M.view.Fresh db id) (hsmall : ∀ st ∈ p.trace, ∀ s, M.view.stored st.pre id = some (.ok
      s) → s.revision < 2 ^ 63 ∧ s.lastSeq < 2 ^ 63) : LinearHistory p id := by
  have hcounts := counts_of_reachable hM hdb hp hcalls hfresh hsmall
  refine ⟨hcounts.change, hcounts.log, nodup_changes hM hdb hp hcalls, ?_, ?_⟩
  · intro tid th t a hth hentry htask hresult
    have hpost := hM.post hdb hp hth hresult
    rw [hentry] at hpost
    obtain ⟨st, hst, cur, happlies⟩ := hpost
    obtain ⟨htrace, rfl⟩ := World.mem_own.mp hst
    have hmem : st ∈ changes id p.trace :=
      mem_changes.mpr ⟨htrace, by rw [← htask]; exact happlies.changes⟩
    obtain ⟨i, hi⟩ := getElem?_of_mem hmem
    obtain ⟨t', a', happend⟩ := hcounts.change i st hi
    obtain ⟨th', hth', hentry'⟩ := happend.call
    rw [hth] at hth'
    cases hth'
    rw [hentry] at hentry'
    cases hentry'
    refine ⟨i, st, hi, rfl, happend.call, happend.task, happend.revision, ?_, ⟨cur, happlies⟩,
      happend.logged⟩
    obtain ⟨cur', happlies'⟩ := happend.applies
    have hcur := happlies.current
    rw [happlies'.current] at hcur
    cases hcur
    rw [happlies.event.2.1, ← happlies'.event.2.1]
    exact happend.seq
  · intro tid th t e hth hentry hresult hdoubt
    have hpost := hM.post hdb hp hth hresult
    rw [hentry] at hpost
    rcases hpost with hall | ⟨st, hst, hin⟩
    · exact hall
    · rw [hdoubt st hst] at hin
      cases hin

end DurableMachine

/-- In each of the stores the appends of a task form one history, for any interleaving of calls that
do not delete or recreate the task. -/
theorem StoreKind.append_history (k : StoreKind) {db : k.machine.Db} (hdb : k.machine.Settled db)
    {id : TaskId} (hfresh : k.machine.view.Fresh db id) {p : Pool (storeService k.machine db)}
    (hp : p.Reachable) (hcalls : ∀ th ∈ p.threads, th.entry.Spares id)
    (hsmall : ∀ st ∈ p.trace, ∀ s, k.machine.view.stored st.pre id = some (.ok s) →
      s.revision < 2 ^ 63 ∧ s.lastSeq < 2 ^ 63) : DurableMachine.LinearHistory p id :=
  DurableMachine.linearHistory k.obeys hdb hp hcalls hfresh hsmall

/-- Two calls that expect revision 0: the first is applied, the second fails. -/
theorem append_history_of_two_calls : ∃ p : Pool (storeService memoryMachine
        (MemoryState.empty.createOrGetIdempotent (.under "caller" "key" 1) 0).1),
      p.threads.map (fun th => th.prog.result?.map (fun r => r.error?.isSome)) =
        [some false, some true] ∧ DurableMachine.LinearHistory p 1 := by
  obtain ⟨p, hp, hresults, hcalls, hsmall⟩ := Pool.exists_reachable (S := storeService memoryMachine
      (MemoryState.empty.createOrGetIdempotent (.under "caller" "key" 1) 0).1)
    [.call (.append (.to 1 0 .accepted)), .call (.append (.to 1 0 .accepted)),
      .step 0 {}, .step 1 {}]
    (fun p => p.threads.map (fun th => th.prog.result?.map (fun r => r.error?.isSome)) =
        [some false, some true] ∧
      (∀ th ∈ p.threads, th.entry.append?.isSome = true) ∧
      ∀ st ∈ p.trace, (st.pre.tasks.find 1).all
        (fun s => s.revision < 2 ^ 63 ∧ s.lastSeq < 2 ^ 63) = true) (by decide +kernel)
  refine ⟨p, hresults, StoreKind.append_history .memory trivial ?_ hp (fun th hth => ?_)
    (fun st hst s hs => ?_)⟩
  · refine ⟨fun s hs => ?_, rfl⟩
    cases hs
    exact ⟨rfl, rfl⟩
  · have happend := hcalls th hth
    cases hentry : th.entry with
    | append t => trivial
    | _ => simp [hentry, StoreCall.append?] at happend
  · have hs' : st.pre.tasks.find 1 = some s := by
      obtain ⟨s', hfind, heq⟩ := Option.map_eq_some_iff.mp hs
      cases heq
      exact hfind
    have hbound := hsmall st hst
    rw [hs', Option.all_some, decide_eq_true_eq] at hbound
    exact hbound

end AgentConnector
