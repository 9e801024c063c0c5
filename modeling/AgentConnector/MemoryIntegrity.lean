import AgentConnector.CreateFrame
import AgentConnector.RetentionSafety

/-!
# References between the maps of the in-memory store

A key refers to a task, and the logs and leases are kept under the identifiers of tasks. Retention
looks for the key of a task under `memory:` and the identifier of the task, which is not the key the
task was created with: such a key is left behind, and the next call with it finds its task absent.
-/

namespace AgentConnector

open Concurrent Keyed List Option

namespace MemoryState

/-- Keys refer to tasks of their callers; logs belong to tasks, and so do leases, except for the
identifiers in `Loose`. -/
structure Intact (Loose : TaskId → Prop) (s : MemoryState) : Prop where
  key : ∀ key id, s.idempotency.get key = some id →
    ∃ snap, s.tasks.find id = some snap ∧ snap.callerId = key.1
  events : ∀ id, s.events.get id ≠ none → s.tasks.find id ≠ none
  lease : ∀ id, s.leases.get id ≠ none → s.tasks.find id ≠ none ∨ Loose id

variable {Loose : TaskId → Prop} {s : MemoryState}

theorem Intact.mono {Loose' : TaskId → Prop} (h : s.Intact Loose)
    (hle : ∀ id, Loose id → Loose' id) : s.Intact Loose' :=
  ⟨h.key, h.events, fun id hid => (h.lease id hid).imp_right (hle id)⟩

theorem intact_empty : MemoryState.empty.Intact Loose where
  key key id h := by cases h
  events id h := absurd rfl h
  lease id h := absurd rfl h

variable {id : TaskId}

theorem find_put_ne_none {t : Table TaskSnapshot.taskId} (snap : TaskSnapshot)
    (h : t.find id ≠ none) : (t.put snap).find id ≠ none := by
  by_cases hid : id = snap.taskId
  · rw [hid, Table.find_put_self]
    exact some_ne_none _
  · rw [Table.find_put_ne _ hid]
    exact h

theorem Intact.create (h : s.Intact Loose) (task : NewTask) (now : DateTime)
    (hfree : s.idempotency.get task.key ≠ none ∨ s.tasks.find task.taskId = none) :
    (s.createOrGetIdempotent task now).1.Intact Loose := by
  rcases create_cases task now with ⟨_, _, _, _, heq⟩ | ⟨_, _, _, _, heq⟩ | ⟨hkey, _⟩
  · rw [heq]
    exact h
  · rw [heq]
    exact h
  · have hfree := hfree.resolve_left (not_not_intro hkey)
    unfold createOrGetIdempotent
    rw [hkey]
    refine ⟨fun key id hid => ?_, fun id hid => ?_, fun id hid => ?_⟩
    · change Map.get (Map.set s.idempotency task.key task.taskId) key = some id at hid
      rw [Map.get_set] at hid
      by_cases hk : key = task.key
      · rw [if_pos hk, Option.some.injEq] at hid
        subst hid hk
        exact ⟨_, Table.find_put_self s.tasks (.fresh task now), rfl⟩
      · rw [if_neg hk] at hid
        obtain ⟨snap, hsnap, hcaller⟩ := h.key key id hid
        have hne : id ≠ task.taskId := by
          rintro rfl
          exact some_ne_none snap (hsnap.symm.trans hfree)
        exact ⟨snap, (Table.find_put_ne s.tasks hne).trans hsnap, hcaller⟩
    · change Map.get (Map.set s.events task.taskId []) id ≠ none at hid
      by_cases heq : id = task.taskId
      · rw [heq]
        intro hnone
        have hput := Table.find_put_self s.tasks (.fresh task now)
        exact some_ne_none _ (hput.symm.trans hnone)
      · rw [Map.get_set_ne _ _ heq] at hid
        exact find_put_ne_none _ (h.events id hid)
    · exact (h.lease id hid).imp_left (find_put_ne_none _)

theorem Intact.append (h : s.Intact Loose) (t : TaskTransition) (now : DateTime) :
    (s.appendEventAndTransition t now).1.Intact Loose := by
  unfold appendEventAndTransition
  cases htask : s.tasks.find t.taskId with
  | none => exact h
  | some cur =>
    dsimp only
    split
    · exact h
    · split
      · exact h
      · have hcur : cur.taskId = t.taskId := Table.key_of_find htask
        have hid : (cur.advance t.nextState now).taskId = t.taskId := hcur
        refine ⟨fun key id hkey => ?_, fun id hne => ?_, fun id hne => ?_⟩
        · obtain ⟨snap, hsnap, hcaller⟩ := h.key key id hkey
          by_cases heq : id = t.taskId
          · rw [heq, htask, Option.some.injEq] at hsnap
            refine ⟨cur.advance t.nextState now, ?_, ?_⟩
            · rw [heq, ← hid]
              exact Table.find_put_self ..
            · rw [← hcaller, ← hsnap]
              rfl
          · exact ⟨snap, (Table.find_put_ne _ (by rw [hid]; exact heq)).trans hsnap, hcaller⟩
        · change Map.get (Map.set s.events t.taskId _) id ≠ none at hne
          by_cases heq : id = t.taskId
          · refine find_put_ne_none _ ?_
            rw [heq, htask]
            exact some_ne_none _
          · rw [Map.get_set_ne _ _ heq] at hne
            exact find_put_ne_none _ (h.events id hne)
        · exact (h.lease id hne).imp_left (find_put_ne_none _)

theorem Intact.leaseOf (h : s.Intact Loose) (hlease : LeaseOf s s' id)
    (hid : s.tasks.find id ≠ none ∨ Loose id) : s'.Intact Loose := by
  rcases hlease with rfl | ⟨record, rfl⟩
  · exact h
  · refine ⟨h.key, h.events, fun id' hne => ?_⟩
    by_cases heq : id' = id
    · rw [heq]
      exact hid
    · change Map.get (Map.set s.leases id record) id' ≠ none at hne
      rw [Map.get_set_ne _ _ heq] at hne
      exact h.lease id' hne

theorem Intact.renewLease (h : s.Intact Loose) (lease : Lease) (now expiresAt : DateTime) :
    (s.renewLease lease now expiresAt).1.Intact Loose := by
  cases hlease : s.leases.get lease.taskId with
  | none =>
    unfold MemoryState.renewLease
    rw [hlease]
    exact h
  | some record =>
    refine h.leaseOf (renewLease_leaseOf lease now expiresAt) (h.lease _ ?_)
    rw [hlease]
    exact some_ne_none record

def FindsKey (s : MemoryState) (id : TaskId) : Prop :=
  ∀ key, s.idempotency.get key = some id → key.2 = "memory:" ++ id.display

theorem find_removeTask (s : MemoryState) (id id' : TaskId) :
    (s.removeTask id).tasks.find id' = if id' = id then none else s.tasks.find id' := by
  by_cases hid : id' = id
  · rw [if_pos hid, hid]
    unfold removeTask
    cases htask : s.tasks.find id with
    | none => exact htask
    | some snap =>
      rw [Table.find_filter, htask]
      simp [Option.filter, Table.key_of_find htask]
  · rw [if_neg hid]
    have hnot : id' ∉ [id] := by simpa using hid
    exact find_removeTasks hnot s

variable {key : IdempotencyKey}

theorem get_removeTask_of_some (h : (s.removeTask id).idempotency.get key = some id') :
    s.idempotency.get key = some id' := by
  unfold removeTask at h
  cases htask : s.tasks.find id with
  | none =>
    rw [htask] at h
    exact h
  | some snap =>
    rw [htask] at h
    rw [Map.get_remove] at h
    split at h
    · cases h
    · exact h

variable {taken : List TaskId}

theorem get_removeTasks_of_some (h : (taken.foldl removeTask s).idempotency.get key = some id) :
    s.idempotency.get key = some id := by
  induction taken generalizing s with
  | nil => exact h
  | cons taskId taken ih => exact get_removeTask_of_some (ih h)

theorem Intact.removeTask (h : s.Intact Loose) (hfinds : s.FindsKey id) :
    (s.removeTask id).Intact Loose := by
  have hfind := s.find_removeTask id
  cases htask : s.tasks.find id with
  | none =>
    unfold MemoryState.removeTask
    rw [htask]
    exact h
  | some snap =>
    refine ⟨fun key id' hkey => ?_, fun id' hne => ?_, fun id' hne => ?_⟩
    · obtain ⟨snap', hsnap', hcaller⟩ := h.key key id' (get_removeTask_of_some hkey)
      refine ⟨snap', ?_, hcaller⟩
      rw [hfind, if_neg ?_, hsnap']
      -- The key of the removed task is the one that is removed with it.
      rintro rfl
      have heq : key = (snap.callerId, "memory:" ++ id'.display) := by
        rw [htask, Option.some.injEq] at hsnap'
        rw [hsnap', hcaller, ← hfinds key (get_removeTask_of_some hkey)]
      unfold MemoryState.removeTask at hkey
      rw [htask] at hkey
      rw [Map.get_remove, if_pos heq] at hkey
      cases hkey
    · unfold MemoryState.removeTask at hne
      rw [htask] at hne
      rw [Map.get_remove] at hne
      by_cases heq : id' = id
      · rw [if_pos heq] at hne
        exact absurd rfl hne
      · rw [if_neg heq] at hne
        rw [hfind, if_neg heq]
        exact h.events id' hne
    · unfold MemoryState.removeTask at hne
      rw [htask] at hne
      rw [Map.get_remove] at hne
      by_cases heq : id' = id
      · rw [if_pos heq] at hne
        exact absurd rfl hne
      · rw [if_neg heq] at hne
        rw [hfind, if_neg heq]
        exact h.lease id' hne

theorem Intact.removeTasks (h : s.Intact Loose) (hfinds : ∀ id ∈ taken, s.FindsKey id) :
    (taken.foldl MemoryState.removeTask s).Intact Loose := by
  induction taken generalizing s with
  | nil => exact h
  | cons id taken ih =>
    rw [foldl_cons]
    refine ih (h.removeTask (hfinds id (mem_cons_self ..))) (fun id' hid' key hkey => ?_)
    exact hfinds id' (mem_cons_of_mem _ hid') key (get_removeTask_of_some hkey)

theorem Intact.cleanup (h : s.Intact Loose) (hfinds : ∀ id ∈ taken, s.FindsKey id)
    (cutoff : DateTime) :
    (s.cleanup taken cutoff).1.Intact Loose := by
  have hremoved := h.removeTasks hfinds
  refine ⟨hremoved.key, fun id hne => hremoved.events id ?_, hremoved.lease⟩
  change Map.get (Map.mapValues (taken.foldl MemoryState.removeTask s).events _) id ≠ none at hne
  rw [Map.get_mapValues] at hne
  exact fun hnone => hne (by rw [hnone]; rfl)

/-- The tasks that a retention run may remove at the time `now`. -/
def Expired (s : MemoryState) (policy : RetentionPolicy) (now : DateTime) (id : TaskId) : Prop :=
  ∃ snap at_, s.tasks.find id = some snap ∧ snap.terminalAt = some at_ ∧ at_ < now - policy.taskTtl

theorem expired_of_taken (htask : retentionCutoff now policy.taskTtl = some (.ok taskCutoff))
    (htaken : s.Taken taskCutoff policy.cleanupBatchSize taken) (hid : id ∈ taken) :
    s.Expired policy now id := by
  obtain ⟨snap, hsnap, rfl⟩ := mem_map.mp (htaken.2.1 hid)
  obtain ⟨hin, hold⟩ := mem_filter.mp hsnap
  obtain ⟨at_, hat, hlt⟩ := (Option.any_eq_true ..).mp hold
  rw [decide_eq_true_eq, retentionCutoff_eq_ok htask] at hlt
  exact ⟨snap, at_, Table.find_key hin, hat, hlt⟩

end MemoryState

/-- An operation that keeps the references of the state before it: a creation under a known key or a
free identifier, a retention run that finds the keys of the expired tasks, or any other one. -/
def MemoryOp.KeepsReferences : (o : MemoryOp) → o.Reply → MemoryState → Prop
  | .create task, _, s => s.idempotency.get task.key ≠ none ∨ s.tasks.find task.taskId = none
  | .cleanup policy, r, s => ∀ id, s.Expired policy r.1 id → s.FindsKey id
  | _, _, _ => True

def MemoryOp.LeasesAbsent (o : MemoryOp) (s : MemoryState) (id : TaskId) : Prop :=
  ∃ lease, o = .acquireLease lease ∧ lease.taskId = id ∧ s.tasks.find id = none

theorem MemoryState.Intact.exec {Loose : TaskId → Prop} {o : MemoryOp} {r : o.Reply}
    (h : s.Intact Loose) (hex : s.exec o c = some (s', r)) (hkeeps : o.KeepsReferences r s) :
    s'.Intact (fun id => Loose id ∨ o.LeasesAbsent s id) := by
  have hmono : s.Intact (fun id => Loose id ∨ o.LeasesAbsent s id) := h.mono (fun _ => .inl)
  cases o with
  | create task =>
    cases hex
    exact hmono.create task c.now hkeeps
  | get id | eventsAfter id afterSeq limit =>
    cases hex
    exact hmono
  | append t =>
    cases hex
    exact hmono.append t c.now
  | acquireLease lease =>
    rcases withExpiry_cases hex with ⟨rfl, _⟩ | ⟨expiresAt, _, rfl, _⟩
    · exact hmono
    · refine hmono.leaseOf (acquireLease_leaseOf lease c.now expiresAt) ?_
      by_cases hnone : s.tasks.find lease.taskId = none
      · exact .inr (.inr ⟨lease, rfl, rfl, hnone⟩)
      · exact .inl hnone
  | renewLease lease =>
    rcases withExpiry_cases hex with ⟨rfl, _⟩ | ⟨expiresAt, _, rfl, _⟩
    · exact hmono
    · exact hmono.renewLease lease c.now expiresAt
  | cleanup policy =>
    obtain ⟨hnow, rfl | ⟨taskCutoff, eventCutoff, htask, _, htaken, rfl⟩⟩ := execCleanup_cases hex
    · exact hmono
    · refine hmono.cleanup (fun id hid => hkeeps id ?_) eventCutoff
      rw [hnow]
      exact expired_of_taken htask htaken hid

theorem MemoryState.get_of_exec {s s' : MemoryState} (hex : s.exec o c = some (s', r)) {id : TaskId}
    (hkey : s'.idempotency.get key = some id) :
    s.idempotency.get key = some id ∨ s.idempotency.get key = none := by
  have hlease : ∀ {id'}, LeaseOf s s' id' → s.idempotency.get key = some id := by
    rintro _ (rfl | ⟨_, rfl⟩)
    · exact hkey
    · exact hkey
  cases o with
  | create task =>
    cases hex
    rcases create_cases task c.now with ⟨_, _, _, _, heq⟩ | ⟨_, _, _, _, heq⟩ | ⟨hnone, _⟩
    · rw [heq] at hkey
      exact .inl hkey
    · rw [heq] at hkey
      exact .inl hkey
    · by_cases heq : key = task.key
      · rw [heq]
        exact .inr hnone
      · exact .inl (((creates task c.now hnone).owners key heq).symm.trans hkey)
  | get id' | eventsAfter id' afterSeq limit =>
    cases hex
    exact .inl hkey
  | append t =>
    cases hex
    rcases append_cases t c.now with ⟨_, heq⟩ | ⟨cur, a, _, happlies⟩
    · rw [heq] at hkey
      exact .inl hkey
    · exact .inl ((happlies.owner key).symm.trans hkey)
  | acquireLease lease =>
    rcases withExpiry_cases hex with ⟨rfl, _⟩ | ⟨expiresAt, _, rfl, _⟩
    · exact .inl hkey
    · exact .inl (hlease (acquireLease_leaseOf lease c.now expiresAt))
  | renewLease lease =>
    rcases withExpiry_cases hex with ⟨rfl, _⟩ | ⟨expiresAt, _, rfl, _⟩
    · exact .inl hkey
    · exact .inl (hlease (renewLease_leaseOf lease c.now expiresAt))
  | cleanup policy =>
    obtain ⟨_, rfl | ⟨_, eventCutoff, _, _, _, rfl⟩⟩ := execCleanup_cases hex
    · exact .inl hkey
    · exact .inl (get_removeTasks_of_some hkey)

/-- A lease was taken for the identifier while there was no such task. -/
def LeasedAbsent (l : List (Step (storeService memoryMachine MemoryState.empty))) (id : TaskId) :
    Prop :=
  ∃ st ∈ l, st.op.LeasesAbsent st.pre id

section

variable {p : Pool (storeService memoryMachine MemoryState.empty)}

theorem intact_of_reachable (hp : p.Reachable)
    (hsteps : ∀ st ∈ p.trace, st.op.KeepsReferences st.reply st.pre) :
    p.state.Intact (LeasedAbsent p.trace) := by
  refine hp.trace_induction (K := fun l s => s.Intact (LeasedAbsent l)) MemoryState.intact_empty
    (fun l st l' htrace hpre => ?_)
  have hst : st ∈ p.trace := by
    rw [htrace]
    exact mem_append_right _ (mem_cons_self ..)
  obtain ⟨c, hex⟩ := hp.executed st hst
  refine (hpre.exec hex (hsteps st hst)).mono (fun id hid => ?_)
  rcases hid with ⟨st', hst', habsent⟩ | habsent
  · exact ⟨st', mem_cons_of_mem _ hst', habsent⟩
  · exact ⟨st, mem_cons_self .., habsent⟩

theorem intact_of_mem_trace (hp : p.Reachable)
    (hsteps : ∀ st ∈ p.trace, st.op.KeepsReferences st.reply st.pre)
    {st : Step (storeService memoryMachine MemoryState.empty)} (hst : st ∈ p.trace) :
    (∃ Loose, st.pre.Intact Loose) ∧ ∃ Loose, st.post.Intact Loose := by
  obtain ⟨l, l', htrace⟩ := append_of_mem hst
  obtain ⟨q, hq, hqtrace, hqstate⟩ := hp.exists_before htrace
  have hpre := intact_of_reachable hq (fun st' hst' => hsteps st' (by
    rw [htrace, ← hqtrace]
    exact mem_append_right _ (mem_cons_of_mem _ hst')))
  rw [hqstate] at hpre
  obtain ⟨c, hex⟩ := hp.executed st hst
  exact ⟨⟨_, hpre⟩, _, hpre.exec hex (hsteps st hst)⟩

/-- If every retention run finds the keys of the expired tasks and no creation takes an identifier
over, references are kept in all states, no creation finds a key without its task, and the key of a
removed task creates a new one. -/
theorem memory_references (hp : p.Reachable)
    (hsteps : ∀ st ∈ p.trace, st.op.KeepsReferences st.reply st.pre) :
    p.state.Intact (LeasedAbsent p.trace) ∧
      (∀ (tid : ℕ) (th : Thread (storeService memoryMachine MemoryState.empty)) n r,
        p.threads[tid]? = some th → th.entry = .create n → th.prog.result? = some (.created r) →
        ∃ result, r = .ok result) ∧
      ∀ st ∈ p.trace, ∀ id, st.pre.tasks.find id ≠ none → st.post.tasks.find id = none →
        ∀ n now, st.pre.idempotency.get n.key = some id →
          (st.post.createOrGetIdempotent n now).2 = .ok (.created (.fresh n now)) := by
  refine ⟨intact_of_reachable hp hsteps, fun tid th n r hth hentry hr => ?_,
    fun st hst id hpre hpost n now hkey => ?_⟩
  · obtain ⟨st, now, hown, hcreate⟩ := memory_create_step hp hth hentry hr
    have hst : st ∈ p.trace := (World.mem_own.mp (by rw [hown]; exact mem_singleton_self st)).1
    obtain ⟨⟨_, hintact⟩, _⟩ := intact_of_mem_trace hp hsteps hst
    rcases MemoryState.create_cases n now with ⟨_, snap, _, _, heq⟩ |
      ⟨id, _, hkey, hnone, _⟩ | ⟨_, heq⟩
    · exact ⟨_, (congrArg Prod.snd (hcreate.symm.trans heq))⟩
    · obtain ⟨snap, hsnap, _⟩ := hintact.key _ _ hkey
      exact absurd (hsnap.symm.trans hnone) (some_ne_none snap)
    · rw [hcreate] at heq
      exact ⟨_, heq⟩
  · obtain ⟨c, hex⟩ := hp.executed st hst
    obtain ⟨_, _, hintact⟩ := intact_of_mem_trace hp hsteps hst
    have hnone : st.post.idempotency.get n.key = none := by
      cases hget : st.post.idempotency.get n.key with
      | none => rfl
      | some id' =>
        obtain ⟨snap, hsnap, _⟩ := hintact.key _ _ hget
        rcases MemoryState.get_of_exec hex hget with hsame | hnew
        · rw [← Option.some.inj (hkey.symm.trans hsame), hpost] at hsnap
          cases hsnap
        · exact absurd (hkey.symm.trans hnew) (some_ne_none id)
    rcases MemoryState.create_cases n now with ⟨_, _, hsome, _⟩ | ⟨_, _, hsome, _⟩ | ⟨_, heq⟩
    · cases hnone.symm.trans hsome
    · cases hnone.symm.trans hsome
    · exact heq

/-- A task ends, retention removes it, and the next call with its key finds the key without a task.
-/
theorem memory_cleanup_leaves_key : ∃ (p : Pool (storeService memoryMachine MemoryState.empty))
      (th : Thread (storeService memoryMachine MemoryState.empty)), p.Reachable ∧
      p.threads[3]? = some th ∧
      (th.prog.result?.bind StoreResult.error?).map StoreError.display =
        some "storage corruption: idempotency references absent task" ∧
      ¬ p.state.Intact (LeasedAbsent p.trace) := by
  obtain ⟨p, hp, hresult, hkey, hnone⟩ := Pool.exists_reachable
    (S := storeService memoryMachine MemoryState.empty)
    (cleanupLater .completed [1] ++ [.call (.create (.under "caller" "key" 2)), .step 3 {}])
    (fun p => (p.threads[3]?.bind (fun th => th.prog.result?.bind StoreResult.error?)).map
        StoreError.display = some "storage corruption: idempotency references absent task" ∧
      p.state.idempotency.get (⟨"caller"⟩, "key") = some 1 ∧
      (p.state.tasks.find 1).isNone = true) (by decide +kernel)
  obtain ⟨e, he, hdisplay⟩ := map_eq_some_iff.mp hresult
  obtain ⟨th, hth, herror⟩ := bind_eq_some_iff.mp he
  refine ⟨p, th, hp, hth, by rw [herror, map_some, hdisplay], fun hintact => ?_⟩
  obtain ⟨snap, hsnap, _⟩ := hintact.key _ _ hkey
  rw [hsnap] at hnone
  cases hnone

/-- A task whose key is the one that retention looks for is removed with its key. -/
theorem memory_references_of_found_key :
    ∃ p : Pool (storeService memoryMachine MemoryState.empty), p.Reachable ∧
      (∃ st ∈ p.trace, st.pre.tasks.find 1 ≠ none ∧ st.post.tasks.find 1 = none) ∧
      p.state.Intact (LeasedAbsent p.trace) := by
  let key : IdempotencyKey := (⟨"caller"⟩, "memory:" ++ Uuid.display 1)
  obtain ⟨p, hp, hkeys, hcreate, st, hst, hpre, hpost⟩ := Pool.exists_reachable
    (S := storeService memoryMachine MemoryState.empty)
    [.call (.create (.under "caller" ("memory:" ++ Uuid.display 1) 1)), .step 0 {},
      .call (.append (.to 1 0 .completed)), .step 1 {}, .call (.cleanup {}),
      .step 2 { now := 8 * 24 * 3600 * 10 ^ 9, taken := [1] }]
    (fun p => p.trace.flatMap (fun st => st.pre.idempotency.rows) = List.replicate 2 (key, 1) ∧
      (∀ st ∈ p.trace, (match st.op with
        | .create task => (st.pre.tasks.find task.taskId).isNone
        | _ => true) = true) ∧
      ∃ st ∈ p.trace, (st.pre.tasks.find 1).isSome = true ∧ (st.post.tasks.find 1).isNone = true)
    ⟨_, rfl, rfl, by decide +kernel, by decide +kernel⟩
  refine ⟨p, hp, ⟨st, hst, isSome_iff_ne_none.mp hpre, isNone_iff_eq_none.mp hpost⟩,
    (memory_references hp (fun st hst => ?_)).1⟩
  have hfinds : ∀ id, st.pre.FindsKey id := by
    intro id key' hkey'
    have hrow : (key', id) ∈ p.trace.flatMap (fun st => st.pre.idempotency.rows) :=
      mem_flatMap.mpr ⟨st, hst, Map.get_eq_some_iff.mp hkey'⟩
    rw [hkeys] at hrow
    cases eq_of_mem_replicate hrow
    rfl
  obtain ⟨tid, o, r, pre, post, next⟩ := st
  have hfree := hcreate _ hst
  cases o with
  | create task => exact .inr (isNone_iff_eq_none.mp hfree)
  | cleanup policy => exact fun id _ => hfinds id
  | _ => trivial

end

end AgentConnector
