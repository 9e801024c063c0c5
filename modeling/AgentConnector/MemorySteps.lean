import AgentConnector.MemoryTaskStore
import AgentConnector.StoreEffects

/-!
# The steps of the in-memory store

Each method is a single step, so all that has to be shown is what that step does to the tasks, the
events, the keys and the leases.
-/

namespace AgentConnector

open Concurrent Keyed List

namespace MemoryState

variable {s : MemoryState}

theorem sameTask_put {id : TaskId} (snap : TaskSnapshot) (hid : snap.taskId ≠ id)
    (l : List CoreEvent) (idempotency : Map IdempotencyKey TaskId) :
    memoryView.SameTask id s
      { s with
        tasks := s.tasks.put snap
        events := s.events.set snap.taskId l
        idempotency := idempotency } where
  row := Table.find_put_ne _ (Ne.symm hid)
  log := by
    change (Map.get (Map.set s.events snap.taskId l) id).getD [] = _
    rw [Map.get_set_ne _ _ (Ne.symm hid)]
    rfl

theorem creates (task : NewTask) (now : DateTime) (hkey : s.idempotency.get task.key = none) :
    memoryView.Creates task s (s.createOrGetIdempotent task now).1 := by
  unfold createOrGetIdempotent
  rw [hkey]
  exact
    { key := hkey
      owner := Map.get_set_self ..
      stored := ⟨.fresh task now, by
        rw [StoreView.stored]
        exact congrArg _ (Table.find_put_self s.tasks (.fresh task now)), rfl, rfl, rfl, rfl, rfl⟩
      log := by
        change (Map.get (Map.set s.events task.taskId []) task.taskId).getD [] = []
        rw [Map.get_set_self]
        rfl
      others := fun id hid => sameTask_put (.fresh task now) (Ne.symm hid) [] _
      owners := fun key h => Map.get_set_ne _ _ h
      lease := fun _ => rfl }

theorem create_cases (task : NewTask) (now : DateTime) :
    (∃ id s', s.idempotency.get task.key = some id ∧ s.tasks.find id = some s' ∧
      s.createOrGetIdempotent task now = (s, .ok (.existing s'))) ∨
    (∃ id e, s.idempotency.get task.key = some id ∧ s.tasks.find id = none ∧
      s.createOrGetIdempotent task now = (s, .error e)) ∨
    (s.idempotency.get task.key = none ∧
      (s.createOrGetIdempotent task now).2 = .ok (.created (.fresh task now))) := by
  unfold createOrGetIdempotent
  cases hkey : s.idempotency.get task.key with
  | none => exact .inr (.inr ⟨rfl, rfl⟩)
  | some id =>
    cases htask : s.tasks.find id with
    | none => exact .inr (.inl ⟨id, .corrupt "idempotency references absent task", rfl, htask,
      by simp [htask]⟩)
    | some s' => exact .inl ⟨id, s', rfl, htask, by simp [htask]⟩

theorem append_cases (t : TaskTransition) (now : DateTime) :
    (∃ e, s.appendEventAndTransition t now = (s, .error e)) ∨
    ∃ cur a, (s.appendEventAndTransition t now).2 = .ok a ∧
      memoryView.AppliesTo t cur a s (s.appendEventAndTransition t now).1 := by
  unfold appendEventAndTransition
  cases htask : s.tasks.find t.taskId with
  | none => exact .inl ⟨_, rfl⟩
  | some cur =>
    simp only
    by_cases hrev : cur.revision = t.expectedRevision
    · rw [if_neg (by simpa using hrev)]
      by_cases hstate : cur.state ∈ t.allowedStates
      · rw [if_neg (by simpa using hstate)]
        have hid : cur.taskId = t.taskId := Table.key_of_find htask
        refine .inr ⟨cur, _, rfl, ?_⟩
        exact
          { current := by rw [StoreView.stored]; exact congrArg _ htask
            revision := hrev
            allowed := hstate
            stored := by
              rw [StoreView.stored, ← hid]
              exact congrArg _ (Table.find_put_self s.tasks (cur.advance t.nextState now))
            state := rfl
            counters := fun _ _ => ⟨rfl, rfl⟩
            event := ⟨rfl, rfl, rfl⟩
            logged := by
              refine ⟨⟨t.taskId, cur.lastSeq + 1, now, t.eventKind⟩, _, ?_, rfl, rfl,
                fun _ => rfl, rfl⟩
              change (Map.get (Map.set s.events t.taskId _) t.taskId).getD [] = _
              rw [Map.get_set_self]
              rfl
            others := fun id hne => by
              rw [← hid]
              exact sameTask_put (cur.advance t.nextState now)
                (by rw [show (cur.advance t.nextState now).taskId = t.taskId from hid]
                    exact Ne.symm hne) _ _
            owner := fun _ => rfl
            lease := fun _ => rfl }
      · rw [if_pos (by simpa using hstate)]
        exact .inl ⟨_, rfl⟩
    · rw [if_pos (by simpa using hrev)]
      exact .inl ⟨_, rfl⟩

theorem removeTask_cases (s : MemoryState) (id id' : TaskId) :
    memoryView.SameTask id' s (s.removeTask id) ∨
      ((s.removeTask id).tasks.find id' = none ∧ (s.removeTask id).log id' = []) := by
  unfold removeTask
  cases htask : s.tasks.find id with
  | none => exact .inl (.refl id' s)
  | some snap =>
    by_cases hid : id' = id
    · subst hid
      refine .inr ⟨?_, ?_⟩
      · rw [Table.find_filter, htask]
        simp [Option.filter, Table.key_of_find htask]
      · simp [log, Map.get_remove]
    · refine .inl ⟨?_, ?_⟩
      · change (s.tasks.filter _).find id' = s.tasks.find id'
        rw [Table.find_filter]
        cases h : s.tasks.find id' with
        | none => rfl
        | some snap' => simp [Option.filter, Table.key_of_find h, hid]
      · simp [log, Map.get_remove, hid]

theorem removeTasks_cases (taken : List TaskId) (s : MemoryState) (id : TaskId) :
    memoryView.SameTask id s (taken.foldl removeTask s) ∨
      ((taken.foldl removeTask s).tasks.find id = none ∧
        (taken.foldl removeTask s).log id = []) := by
  induction taken generalizing s with
  | nil => exact .inl (.refl id s)
  | cons taskId taken ih =>
    rw [foldl_cons]
    rcases ih (s.removeTask taskId) with hsame | hgone
    · rcases s.removeTask_cases taskId id with hfirst | ⟨hrow, hlog⟩
      · exact .inl (hfirst.trans hsame)
      · exact .inr ⟨hsame.row.trans hrow, hsame.log.trans hlog⟩
    · exact .inr hgone

theorem log_retainEvents (s : MemoryState) (cutoff : DateTime) (id : TaskId) :
    (s.retainEvents cutoff).log id = (s.log id).filter (fun e => cutoff ≤ e.at_) := by
  rw [log, retainEvents, Map.get_mapValues, log]
  cases s.events.get id <;> rfl

theorem cleans (s : MemoryState) (taken : List TaskId) (cutoff : DateTime) :
    memoryView.Cleans s (s.cleanup taken cutoff).1 where
  task id := by
    change (((taken.foldl removeTask s).retainEvents cutoff).tasks.find id = s.tasks.find id ∧
      (((taken.foldl removeTask s).retainEvents cutoff).log id).Sublist (s.log id)) ∨
      (((taken.foldl removeTask s).retainEvents cutoff).tasks.find id = none ∧
        ((taken.foldl removeTask s).retainEvents cutoff).log id = [])
    rw [log_retainEvents]
    rcases removeTasks_cases taken s id with hsame | ⟨hrow, hlog⟩
    · refine .inl ⟨hsame.row, ?_⟩
      rw [← show (taken.foldl removeTask s).log id = s.log id from hsame.log]
      exact filter_sublist
    · exact .inr ⟨hrow, by rw [hlog]; rfl⟩

variable {s' : MemoryState}

theorem execCleanup_cases (h : s.execCleanup policy c = some (s', r)) :
    r.1 = c.now ∧ (s' = s ∨ ∃ taskCutoff eventCutoff,
      retentionCutoff c.now policy.taskTtl = some (.ok taskCutoff) ∧
      retentionCutoff c.now policy.eventTtl = some (.ok eventCutoff) ∧
      s.Taken taskCutoff policy.cleanupBatchSize c.taken ∧
      s' = (s.cleanup c.taken eventCutoff).1) := by
  unfold execCleanup at h
  split at h
  · cases h
  · cases h
    exact ⟨rfl, .inl rfl⟩
  · rename_i taskCutoff htask
    split at h
    · cases h
    · cases h
      exact ⟨rfl, .inl rfl⟩
    · rename_i eventCutoff hevent
      split at h
      · rename_i htaken
        cases h
        exact ⟨rfl, .inr ⟨taskCutoff, eventCutoff, htask, hevent, htaken, rfl⟩⟩
      · cases h

theorem withExpiry_cases {f : DateTime → MemoryState × Bool}
    (h : s.withExpiry lease now f = some (s', r)) :
    (s' = s ∧ ∃ e, r.2 = .error e) ∨ ∃ expiresAt, leaseExpiry now lease = some (.ok expiresAt) ∧
      s' = (f expiresAt).1 ∧ r = (now, .ok (f expiresAt).2) := by
  unfold withExpiry at h
  split at h
  · cases h
  · cases h
    exact .inl ⟨rfl, _, rfl⟩
  · rename_i expiresAt hexpiry
    cases h
    exact .inr ⟨expiresAt, hexpiry, rfl, rfl⟩

/-- The state of a lease method: unchanged, or with a new lease of the task. -/
def LeaseOf (s s' : MemoryState) (id : TaskId) : Prop :=
  s' = s ∨ ∃ record, s' = { s with leases := s.leases.set id record }

theorem acquireLease_leaseOf (lease : Lease) (now expiresAt : DateTime) :
    LeaseOf s (s.acquireLease lease now expiresAt).1 lease.taskId := by
  unfold acquireLease
  split
  · split
    · exact .inl rfl
    · exact .inr ⟨_, rfl⟩
  · exact .inr ⟨_, rfl⟩

theorem renewLease_leaseOf (lease : Lease) (now expiresAt : DateTime) :
    LeaseOf s (s.renewLease lease now expiresAt).1 lease.taskId := by
  unfold renewLease
  split
  · split
    · exact .inr ⟨_, rfl⟩
    · exact .inl rfl
  · exact .inl rfl

theorem LeaseOf.step {id : TaskId} (h : LeaseOf s s' id) :
    memoryView.LeasesOf id s s' := by
  rcases h with rfl | ⟨record, rfl⟩
  · exact ⟨.refl _, fun _ _ => rfl⟩
  · exact ⟨⟨fun id => ⟨rfl, rfl⟩, fun _ => rfl⟩, fun id' hid => Map.get_set_ne _ _ hid⟩

end MemoryState

def memoryIsolation (db : MemoryState) : Isolation (storeService memoryMachine db) where
  inv _ := True
  Local := Unit
  loc _ _ := ()
  idle := ()
  inv_init := trivial
  loc_init _ := rfl
  inv_exec _ _ := trivial
  loc_exec _ _ _ := rfl

open StoreView DurableMachine in
theorem MemoryState.safe_create (db : MemoryState) (tid : ℕ) (n : NewTask) :
    (memoryIsolation db).Safe tid (Guarantee False (.create n))
      (fun r _ l => Post (.create n) (.created r) l) (MemoryTaskStore.store.createOrGetIdempotent n)
      () [] := by
  intro s c s' r next _ _ hex
  cases hex
  rcases create_cases (s := s) n c.now with ⟨id, snap, hkey, htask, heq⟩ | ⟨_, _, _, _, heq⟩ |
    ⟨hkey, hr⟩
  · refine ⟨guarantee_first (Same.stepOf (by simp only [heq]; exact .refl _) _), ?_⟩
    simp only [heq]
    exact ⟨allSame_singleton (.refl s), _, mem_singleton_self _,
      hkey.trans (by rw [Table.key_of_find htask])⟩
  · refine ⟨guarantee_first (Same.stepOf (by simp only [heq]; exact .refl _) _), ?_⟩
    simp only [heq]
    trivial
  · have hcreates := creates n c.now hkey
    refine ⟨guarantee_first (.inr ⟨hcreates, fun h => h.elim⟩), ?_⟩
    simp only [hr]
    exact ⟨⟨_, mem_singleton_self _, hcreates⟩, _, mem_singleton_self _, hcreates.owner⟩

open StoreView DurableMachine in
theorem MemoryState.safe_append (db : MemoryState) (tid : ℕ) (t : TaskTransition) :
    (memoryIsolation db).Safe tid (Guarantee False (.append t))
      (fun r _ l => Post (.append t) (.applied r) l)
      (MemoryTaskStore.store.appendEventAndTransition t) () [] := by
  intro s c s' r next _ _ hex
  cases hex
  rcases append_cases (s := s) t c.now with ⟨e, heq⟩ | ⟨cur, a, hr, happlies⟩
  · refine ⟨guarantee_first (Same.stepOf (by simp only [heq]; exact .refl _) _), ?_⟩
    simp only [heq]
    exact .inl (allSame_singleton (.refl s))
  · refine ⟨guarantee_first (.inr ⟨cur, a, happlies⟩), ?_⟩
    simp only [hr]
    exact ⟨_, mem_singleton_self _, cur, happlies⟩

open MemoryState StoreView DurableMachine in
theorem memory_obeys : DurableMachine.Obeys False memoryMachine := by
  intro db _
  refine ⟨memoryIsolation db, fun tid c => ?_⟩
  -- Every program is one operation followed by its result.
  cases c with
  | create task => exact Isolation.safe_bind (safe_create db tid task)
  | getSnapshot id | eventsAfter id afterSeq limit =>
    intro s ch s' r next _ _ hex
    cases hex
    exact ⟨guarantee_first (Same.stepOf (.refl s) _), trivial⟩
  | append t => exact Isolation.safe_bind (safe_append db tid t)
  | acquireLease lease =>
    intro s ch s' r next _ _ hex
    refine ⟨guarantee_first ?_, trivial⟩
    rcases withExpiry_cases hex with ⟨rfl, _⟩ | ⟨expiresAt, _, rfl, _⟩
    · exact Same.stepOf (.refl _) _
    · exact (acquireLease_leaseOf lease ch.now expiresAt).step
  | renewLease lease =>
    intro s ch s' r next _ _ hex
    refine ⟨guarantee_first ?_, trivial⟩
    rcases withExpiry_cases hex with ⟨rfl, _⟩ | ⟨expiresAt, _, rfl, _⟩
    · exact Same.stepOf (.refl _) _
    · exact (renewLease_leaseOf lease ch.now expiresAt).step
  | cleanup policy =>
    intro s ch s' r next _ _ hex
    refine ⟨guarantee_first ?_, trivial⟩
    rcases (execCleanup_cases hex).2 with rfl | ⟨taskCutoff, eventCutoff, _, _, _, rfl⟩
    · exact Same.stepOf (.refl _) _
    · exact cleans s ch.taken eventCutoff

end AgentConnector
