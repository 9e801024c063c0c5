import AgentConnector.ExceptResults
import AgentConnector.SqlStatements
import AgentConnector.StoreEffects

/-!
# What the statements do to the tables

The rows, events, keys and leases after each statement, and from them the effect of the statement
sequences of the methods: an update with an event is an applied transition, an inserted row is a
created task, deletions clean up. `TaskRow.Holds` is what decoding a row amounts to.
-/

namespace AgentConnector

open Keyed TaskRow List

variable {C : Columns}

theorem parseOption_eq_ok_iff {α β : Type} {f : α → Except String β} {g : String → StoreError}
    {o : Option α} {r : Option β} :
    parseOption (fun v => (f v).mapError g) o = .ok r ↔ o.map f = r.map .ok := by
  cases o with
  | none => cases r <;> simp [parseOption]
  | some v =>
    cases hv : f v with
    | error e | ok b => cases r <;> simp [parseOption, hv, Except.mapError, Except.map]

structure TaskRow.Holds (row : TaskRow C) (s : TaskSnapshot) : Prop where
  taskId : C.parseId row.taskId = .ok s.taskId
  sessionId : row.sessionId.map C.parseId = s.sessionId.map .ok
  agentId : s.agentId = ⟨row.agentId⟩
  callerId : s.callerId = ⟨row.callerId⟩
  state : TaskState.ofDb row.state = some s.state
  revision : s.revision = asU64 row.revision
  lastSeq : s.lastSeq = asU64 row.lastSeq
  createdAt : C.parseTime row.createdAt = .ok s.createdAt
  updatedAt : C.parseTime row.updatedAt = .ok s.updatedAt
  terminalAt : row.terminalAt.map C.parseTime = s.terminalAt.map .ok

variable {errors : RowErrors}

theorem parseState_eq_ok_iff {state : TaskState} :
    parseState errors value = .ok state ↔ TaskState.ofDb value = some state := by
  unfold parseState
  cases TaskState.ofDb value <;> simp

variable {row : TaskRow C} {s : TaskSnapshot}

theorem TaskRow.decode_eq_ok_iff :
    row.decode errors = .ok s ↔ row.Holds s := by
  unfold decode
  simp only [except_bind_eq_ok_iff, mapError_eq_ok_iff, parseOption_eq_ok_iff,
    parseState_eq_ok_iff]
  constructor
  · rintro ⟨taskId, hid, sessionId, hsession, state, hstate, createdAt, hcreated, updatedAt,
      hupdated, terminalAt, hterminal, hs⟩
    cases hs
    exact ⟨hid, hsession, rfl, rfl, hstate, rfl, rfl, hcreated, hupdated, hterminal⟩
  · intro h
    refine ⟨_, h.taskId, _, h.sessionId, _, h.state, _, h.createdAt, _, h.updatedAt, _,
      h.terminalAt, ?_⟩
    rw [← h.agentId, ← h.callerId, ← h.revision, ← h.lastSeq]
    rfl

def TaskSnapshot.inserted (C : Columns) (n : NewTask) (now : DateTime) : TaskSnapshot :=
  .fresh n (C.round now)

theorem TaskRow.holds_new (n : NewTask) (now : DateTime) :
    (new n now : TaskRow C).Holds (.inserted C n now) where
  taskId := C.parseId_id n.taskId
  sessionId := by
    change (n.sessionId.map C.id).map C.parseId = n.sessionId.map .ok
    cases n.sessionId with
    | none => rfl
    | some u => simp [C.parseId_id]
  agentId := rfl
  callerId := rfl
  state := rfl
  revision := rfl
  lastSeq := rfl
  createdAt := C.parseTime_time now
  updatedAt := C.parseTime_time now
  terminalAt := rfl

def TaskSnapshot.updated (C : Columns) (s : TaskSnapshot) (t : TaskTransition) (now : DateTime) :
    TaskSnapshot :=
  { s with
    state := t.nextState
    revision := asU64 (asI64 (s.revision + 1))
    lastSeq := asU64 (asI64 (s.lastSeq + 1))
    updatedAt := C.round now
    terminalAt := s.terminalAt.or (if t.nextState.terminal then some (C.round now) else none) }

theorem TaskRow.Holds.update (h : row.Holds s) (t : TaskTransition) (now : DateTime) :
    (row.update (t.update s now)).Holds (s.updated C t now) where
  taskId := h.taskId
  sessionId := h.sessionId
  agentId := h.agentId
  callerId := h.callerId
  state := TaskState.ofDb_toDb t.nextState
  revision := rfl
  lastSeq := rfl
  createdAt := h.createdAt
  updatedAt := C.parseTime_time now
  terminalAt := by
    have hterminal := h.terminalAt
    change (row.terminalAt.or (if t.nextState.terminal then some (C.time now) else none)).map
      C.parseTime = (s.terminalAt.or _).map .ok
    cases hrow : row.terminalAt with
    | some at_ =>
      cases hs : s.terminalAt with
      | none => simp [hrow, hs] at hterminal
      | some at' => simpa [hrow, hs] using hterminal
    | none =>
      cases hs : s.terminalAt with
      | some at' => simp [hrow, hs] at hterminal
      | none =>
        by_cases hnext : t.nextState.terminal = true
        · simp [hnext, C.parseTime_time]
        · simp [hnext]

variable {t : TaskTransition}

theorem EventRow.decode_eventRow (h : C.parseJson j = .ok t.eventKind) (now : DateTime) :
    (t.eventRow cur j now).decode errors t.taskId =
      .ok ⟨t.taskId, asU64 (asI64 (cur.lastSeq + 1)), C.round now, t.eventKind⟩ := by
  rw [EventRow.decode, except_bind_eq_ok_iff]
  refine ⟨t.eventKind, mapError_eq_ok_iff.mpr h, ?_⟩
  rw [except_bind_eq_ok_iff]
  exact ⟨C.round now, mapError_eq_ok_iff.mpr (C.parseTime_time now), rfl⟩

theorem EventRow.decode_eq_ok {id : TaskId} {row : EventRow C} (h : row.decode errors id = .ok e) :
    e.taskId = id ∧ e.seq = asU64 row.seq ∧
      C.parseTime row.createdAt = .ok e.at_ ∧ C.parseJson row.kind = .ok e.kind := by
  rw [EventRow.decode, except_bind_eq_ok_iff] at h
  obtain ⟨kind, hkind, h⟩ := h
  rw [except_bind_eq_ok_iff] at h
  obtain ⟨at_, hat, h⟩ := h
  cases h
  exact ⟨rfl, rfl, mapError_eq_ok_iff.mp hat, mapError_eq_ok_iff.mp hkind⟩

theorem TaskTransition.eventRow_taskId (t : TaskTransition) (cur : TaskSnapshot) (j : C.Json)
    (now : DateTime) : (t.eventRow cur j now).taskId = C.id t.taskId := rfl

theorem TaskRow.new_key (n : NewTask) (now : DateTime) : (new n now : TaskRow C).key = n.key :=
  rfl

theorem checkTransition_eq_ok_iff :
    checkTransition t s = .ok () ↔ s.revision = t.expectedRevision ∧ s.state ∈ t.allowedStates := by
  unfold checkTransition
  by_cases hrev : s.revision = t.expectedRevision
  · by_cases hstate : s.state ∈ t.allowedStates
    · simp [hrev, hstate]
    · simp [hrev, hstate]
  · simp [hrev]

theorem TaskRow.taskId_ite (row : TaskRow C) (u : TaskUpdate C) (id : C.Id) :
    (if row.taskId = id then row.update u else row).taskId = row.taskId := by
  split <;> rfl

namespace Tables

variable {d d' : Tables C}

variable {row : TaskRow C}

theorem insertTask_eq_some (h : d.insertTask row = some d') :
    ∃ (hid : row.taskId ∉ d.tasks.rows.map taskId)
      (hkey : row.key ∉ d.byKey.rows.map key),
      d'.tasks = d.tasks.insert row hid ∧ d'.byKey = d.byKey.insert row hkey ∧
        d'.events = d.events ∧ d'.leases = d.leases := by
  unfold insertTask at h
  split at h
  · rename_i hfree
    cases h
    exact ⟨hfree.1, hfree.2, rfl, rfl, rfl, rfl⟩
  · cases h

theorem insertEvent_eq_some {row : EventRow C} (h : d.insertEvent row = some d') :
    row.key ∉ d.events.rows.map EventRow.key ∧ d'.events.rows = d.events.rows ++ [row] ∧
      d'.tasks = d.tasks ∧ d'.leases = d.leases := by
  unfold insertEvent at h
  split at h
  · rename_i hfree
    cases h
    exact ⟨hfree.1, rfl, rfl, rfl⟩
  · cases h

theorem eventRows_insertEvent {row : EventRow C} (h : d.insertEvent row = some d') (id : C.Id) :
    d'.eventRows id = d.eventRows id ++ if row.taskId = id then [row] else [] := by
  obtain ⟨_, hrows, _, _⟩ := insertEvent_eq_some h
  rw [eventRows, hrows, filter_append, eventRows]
  by_cases hid : row.taskId = id
  · simp [hid]
  · simp [hid]

variable {u : TaskUpdate C}

theorem selectTask_modifyTask_self :
    (d.modifyTask u).selectTask u.taskId = (d.selectTask u.taskId).map (fun row => row.update u) :=
  Table.find_modify_self _ _ _ (fun row => row.update_taskId u)

theorem selectTask_modifyTask_ne {id : C.Id} (h : id ≠ u.taskId) :
    (d.modifyTask u).selectTask id = d.selectTask id :=
  Table.find_modify_ne _ _ (fun row => row.update_taskId u) h

theorem selectTaskByKey_modifyTask (u : TaskUpdate C) (key : IdempotencyKey) :
    (d.modifyTask u).selectTaskByKey key = (d.selectTaskByKey key).map
      (fun row => if row.taskId = u.taskId then row.update u else row) := by
  refine Table.find_map d.byKey (fun row => ?_) key
  split <;> rfl

theorem updateTask_cases (d : Tables C) (u : TaskUpdate C) :
    (∃ row, d.selectTask u.taskId = some row ∧ row.revision = u.current ∧
      d.updateTask u = (d.modifyTask u, 1)) ∨ d.updateTask u = (d, 0) := by
  unfold updateTask
  cases h : d.selectTask u.taskId with
  | none => exact .inr rfl
  | some row =>
    by_cases hrev : row.revision = u.current
    · exact .inl ⟨row, rfl, hrev, if_pos hrev⟩
    · exact .inr (if_neg hrev)

theorem updateTask_eq_one (h : (d.updateTask u).2 = 1) :
    ∃ row, d.selectTask u.taskId = some row ∧ (d.updateTask u).1 = d.modifyTask u := by
  rcases d.updateTask_cases u with ⟨row, hrow, _, heq⟩ | heq
  · exact ⟨row, hrow, by rw [heq]⟩
  · rw [heq] at h
    cases h

theorem eventRows_eq_nil (h : id' ∉ d.tasks.rows.map taskId) : d.eventRows id' = [] := by
  rw [eventRows, filter_eq_nil_iff]
  intro e he hid
  rw [decide_eq_true_eq] at hid
  subst hid
  exact h (d.eventTask e he)

variable {errors : RowErrors}

theorem stored_eq (d : Tables C) (id : TaskId) :
    (sqlView errors).stored d id = (d.selectTask (C.id id)).map (decode errors) := rfl

theorem owner_eq_of_taskId {key : IdempotencyKey}
    (h : (d'.selectTaskByKey key).map taskId = (d.selectTaskByKey key).map taskId) :
    (sqlView errors).owner d' key = (sqlView errors).owner d key := by
  change (d'.selectTaskByKey key).bind _ = (d.selectTaskByKey key).bind _
  cases h' : d'.selectTaskByKey key with
  | none =>
    cases hd : d.selectTaskByKey key with
    | none => rfl
    | some row => simp [h', hd] at h
  | some row' =>
    cases hd : d.selectTaskByKey key with
    | none => simp [h', hd] at h
    | some row =>
      simp only [h', hd, Option.map_some, Option.some.injEq] at h
      simp [h]

variable {id : TaskId}

theorem eq_of_stored (hstored : (sqlView errors).stored d id = some (.ok s))
    (hrow : fetchOne (d.selectTask (C.id id)) = .ok row) (hs : row.decode errors = .ok s') :
    s' = s := by
  rw [stored_eq] at hstored
  cases hfind : d.selectTask (C.id id) with
  | none =>
    rw [hfind] at hrow
    cases hrow
  | some row' =>
    rw [hfind] at hrow hstored
    cases hrow
    have heq : row.decode errors = .ok s := Option.some.inj hstored
    rw [hs] at heq
    exact Except.ok.inj heq

theorem applies (hrow : d.selectTask (C.id t.taskId) = some row)
    (hcur : row.decode errors = .ok cur) (hcheck : checkTransition t cur = .ok ())
    (hupdate : d₁ = d.modifyTask (t.update cur now)) (hjson : C.json t.eventKind = .ok j)
    (hevent : d₁.insertEvent (t.eventRow cur j now) = some d₂) :
    (sqlView errors).AppliesTo t cur
      ⟨cur.updated C t now, ⟨t.taskId, cur.lastSeq + 1, now, t.eventKind⟩⟩ d d₂ := by
  have hholds := decode_eq_ok_iff.mp hcur
  obtain ⟨hrev, hstate⟩ := checkTransition_eq_ok_iff.mp hcheck
  obtain ⟨_, _, htasks, hleases⟩ := insertEvent_eq_some hevent
  have htask : ∀ id, d₂.selectTask id = d₁.selectTask id := fun id => by
    rw [selectTask, htasks, selectTask]
  have hself : d₂.selectTask (C.id t.taskId) = some (row.update (t.update cur now)) := by
    rw [htask, hupdate]
    exact selectTask_modifyTask_self.trans (by
      rw [show (t.update cur now : TaskUpdate C).taskId = C.id t.taskId from rfl, hrow]
      rfl)
  exact
    { current := by rw [stored_eq, hrow]; exact congrArg some hcur
      revision := hrev
      allowed := hstate
      stored := by
        rw [stored_eq, hself]
        exact congrArg some (decode_eq_ok_iff.mpr (hholds.update t now))
      state := rfl
      counters := fun hr hs => ⟨asU64_asI64 (by omega), asU64_asI64 (by omega)⟩
      event := ⟨rfl, rfl, rfl⟩
      logged := by
        obtain ⟨j', hj', hparse⟩ := C.parseJson_json t.eventKind
        rw [hjson] at hj'
        cases hj'
        refine ⟨t.eventRow cur j now, _, ?_, EventRow.decode_eventRow hparse now,
          rfl, fun hs => asU64_asI64 (by omega), rfl⟩
        change d₂.eventRows _ = d.eventRows _ ++ _
        rw [eventRows_insertEvent hevent, if_pos (t.eventRow_taskId cur j now), hupdate]
        rfl
      others := fun id hid => by
        have hne : C.id id ≠ C.id t.taskId := fun h => hid (C.id_injective h)
        refine ⟨?_, ?_⟩
        · change d₂.selectTask (C.id id) = d.selectTask (C.id id)
          rw [htask, hupdate]
          exact selectTask_modifyTask_ne hne
        · change d₂.eventRows (C.id id) = d.eventRows (C.id id)
          rw [eventRows_insertEvent hevent, t.eventRow_taskId, if_neg (Ne.symm hne),
            append_nil,
            hupdate]
          rfl
      owner := fun key => by
        apply owner_eq_of_taskId
        have hkey : d₂.selectTaskByKey key = d₁.selectTaskByKey key := by
          simp only [selectTaskByKey, byKey, htasks]
        rw [hkey, hupdate, selectTaskByKey_modifyTask, Option.map_map]
        congr 1
        funext row
        exact row.taskId_ite _ _
      lease := fun id => by
        change d₂.leases.find _ = d.leases.find _
        rw [hleases, hupdate]
        rfl }

theorem creates (h : d.insertTask (.new n now) = some d') :
    (sqlView errors).Creates n d d' ∧ (sqlView errors).row d n.taskId = none := by
  obtain ⟨hid, hkey, htasks, hbyKey, hevents, hleases⟩ := insertTask_eq_some h
  have hnone : d.selectTask (C.id n.taskId) = none := Table.find_eq_none_iff.mpr hid
  have hself : d'.selectTask (C.id n.taskId) = some (.new n now) := by
    rw [selectTask, htasks]
    exact Table.find_insert_self _ _ hid
  refine ⟨?_, hnone⟩
  exact
    { key := by
        change (d.byKey.find n.key).bind _ = none
        rw [← new_key n now, Table.find_eq_none_iff.mpr hkey]
        rfl
      owner := by
        change (d'.byKey.find n.key).bind _ = _
        rw [hbyKey, ← new_key n now, Table.find_insert_self]
        simp [new, C.parseId_id, Except.toOption]
      stored := ⟨.inserted C n now, by
        rw [stored_eq, hself]
        exact congrArg some (decode_eq_ok_iff.mpr (holds_new n now)),
        rfl, rfl, rfl, rfl, rfl⟩
      log := by
        change d'.events.rows.filter _ = []
        rw [hevents]
        exact eventRows_eq_nil hid
      others := fun id hne => by
        have hne' : C.id id ≠ (new n now : TaskRow C).taskId :=
          fun h => hne (C.id_injective h)
        refine ⟨?_, ?_⟩
        · change d'.tasks.find _ = d.tasks.find _
          rw [htasks, Table.find_insert_ne _ _ hne']
        · change d'.events.rows.filter _ = d.events.rows.filter _
          rw [hevents]
      owners := fun key hne => by
        change (d'.byKey.find key).bind _ = (d.byKey.find key).bind _
        rw [hbyKey, Table.find_insert_ne _ hkey hne]
      lease := fun id => by
        change d'.leases.find _ = d.leases.find _
        rw [hleases] }

/-- Deleting tasks takes their events with them and leaves the other tasks alone. -/
theorem deleteTasks_cases (d : Tables C) (picked : List C.Id) (id : C.Id) :
    (id ∈ picked ∧ (d.deleteTasks picked).selectTask id = none ∧
      (d.deleteTasks picked).eventRows id = []) ∨
    (id ∉ picked ∧ (d.deleteTasks picked).selectTask id = d.selectTask id ∧
      (d.deleteTasks picked).eventRows id = d.eventRows id) := by
  have hrow : (d.deleteTasks picked).selectTask id =
      (d.selectTask id).filter (fun row => row.taskId ∉ picked) := Table.find_filter ..
  have hlog : (d.deleteTasks picked).eventRows id =
      (d.eventRows id).filter (fun e => e.taskId ∉ picked) := by
    simp only [eventRows, deleteTasks, Table.filter, filter_filter, Bool.and_comm]
  have hkey : ∀ e ∈ d.eventRows id, e.taskId = id := fun e he => by simpa using (mem_filter.mp he).2
  rw [hrow, hlog]
  by_cases hid : id ∈ picked
  · refine .inl ⟨hid, ?_, filter_eq_nil_iff.mpr fun e he => by simp [hkey e he, hid]⟩
    cases h : d.selectTask id with
    | none => rfl
    | some row => simp [Option.filter, show row.taskId = id from Table.key_of_find h, hid]
  · refine .inr ⟨hid, ?_, filter_eq_self.mpr fun e he => by simp [hkey e he, hid]⟩
    cases h : d.selectTask id with
    | none => rfl
    | some row => simp [Option.filter, show row.taskId = id from Table.key_of_find h, hid]

theorem find_modifyLease_ne {id id' : C.Id} {f : LeaseRow C → LeaseRow C}
    {hf : ∀ l, (f l).taskId = l.taskId} (h : id' ≠ id) :
    (d.modifyLease id f hf).leases.find id' = d.leases.find id' :=
  Table.find_modify_ne _ f hf h

theorem upsertLease_cases {row : LeaseRow C} (h : d.upsertLease row now = some (d', n)) :
    d'.tasks = d.tasks ∧ d'.events = d.events ∧
      ∀ id, id ≠ row.taskId → d'.leases.find id = d.leases.find id := by
  unfold upsertLease at h
  split at h
  · split at h
    · cases h
      exact ⟨rfl, rfl, fun id hid => find_modifyLease_ne hid⟩
    · cases h
      exact ⟨rfl, rfl, fun _ _ => rfl⟩
  · split at h
    · rename_i hfree
      cases h
      exact ⟨rfl, rfl, fun id hid => Table.find_insert_ne _ hfree.1 hid⟩
    · cases h

theorem updateLease_cases (d : Tables C) (row : LeaseRow C) (now : C.Time) :
    (d.updateLease row now).1.tasks = d.tasks ∧ (d.updateLease row now).1.events = d.events ∧
      ∀ id, id ≠ row.taskId → (d.updateLease row now).1.leases.find id = d.leases.find id := by
  unfold updateLease
  split
  · split
    · exact ⟨rfl, rfl, fun id hid => find_modifyLease_ne hid⟩
    · exact ⟨rfl, rfl, fun _ _ => rfl⟩
  · exact ⟨rfl, rfl, fun _ _ => rfl⟩

theorem sameTasks_of_eq (htasks : d'.tasks = d.tasks) (hevents : d'.events = d.events) :
    (sqlView errors).SameTasks d d' where
  task id := by
    refine ⟨?_, ?_⟩
    · change d'.tasks.find _ = d.tasks.find _
      rw [htasks]
    · change d'.events.rows.filter _ = d.events.rows.filter _
      rw [hevents]
  owner key := by
    apply owner_eq_of_taskId
    simp only [selectTaskByKey, byKey, htasks]

theorem leasesOf_upsertLease
    (h : d.upsertLease ⟨C.id id, owner, expires, updated⟩ now = some (d', n)) :
    (sqlView errors).LeasesOf id d d' := by
  obtain ⟨htasks, hevents, hleases⟩ := upsertLease_cases h
  exact ⟨sameTasks_of_eq htasks hevents, fun id' hne =>
    hleases _ (fun heq => hne (C.id_injective heq))⟩

theorem leasesOf_updateLease (h : d.updateLease ⟨C.id id, owner, expires, updated⟩ now = (d', n)) :
    (sqlView errors).LeasesOf id d d' := by
  obtain ⟨htasks, hevents, hleases⟩ :=
    d.updateLease_cases ⟨C.id id, owner, expires, updated⟩ now
  rw [h] at htasks hevents hleases
  exact ⟨sameTasks_of_eq htasks hevents, fun id' hne =>
    hleases _ (fun heq => hne (C.id_injective heq))⟩

variable (cutoff : C.Time)

/-- The retention statements: some of the rows older than the cutoff are deleted. -/
def DeletesEvents (d d' : Tables C) : Prop :=
  ∃ picked ⊆ d.expiredEvents cutoff, d' = d.deleteEvents picked

def DeletesTasks (d d' : Tables C) : Prop :=
  ∃ picked ⊆ d.expiredTasks cutoff, d' = d.deleteTasks picked

def DeletesBatch (limit : ℕ) (d d' : Tables C) : Prop :=
  ∃ picked, Picks (d.expiredEvents cutoff) limit picked ∧ d' = d.deleteEvents picked

theorem DeletesBatch.deletesEvents {cutoff : C.Time} (h : DeletesBatch cutoff limit d d') :
    DeletesEvents cutoff d d' := by
  obtain ⟨picked, hpicks, heq⟩ := h
  exact ⟨picked, hpicks.2.1, heq⟩

theorem DeletesBatch.cleans {cutoff : C.Time} (h : DeletesBatch cutoff limit d d') :
    (sqlView errors).Cleans d d' := by
  obtain ⟨picked, -, rfl⟩ := h
  exact ⟨fun id => .inl ⟨rfl, filter_sublist.filter _⟩⟩

theorem DeletesTasks.cleans {cutoff : C.Time} (h : DeletesTasks cutoff d d') :
    (sqlView errors).Cleans d d' := by
  obtain ⟨picked, -, rfl⟩ := h
  refine ⟨fun id => ?_⟩
  rcases d.deleteTasks_cases picked (C.id id) with ⟨-, hrow, hlog⟩ | ⟨-, hrow, hlog⟩
  · exact .inr ⟨hrow, hlog⟩
  · refine .inl ⟨hrow, ?_⟩
    change eventRows _ _ <+ _
    rw [hlog]

def KeysKept (d d' : Tables C) : Prop :=
  ∀ key row, d.selectTaskByKey key = some row →
    ∃ row', d'.selectTaskByKey key = some row' ∧ row'.taskId = row.taskId

theorem KeysKept.refl (d : Tables C) : KeysKept d d := fun _ row h => ⟨row, h, rfl⟩

theorem KeysKept.trans (h : KeysKept d d') (h' : KeysKept d' d'') :
    KeysKept d d'' := by
  intro key row hrow
  obtain ⟨row', hrow', hid'⟩ := h key row hrow
  obtain ⟨row'', hrow'', hid''⟩ := h' key row' hrow'
  exact ⟨row'', hrow'', hid''.trans hid'⟩

theorem KeysKept.owner (h : KeysKept d d') {key : IdempotencyKey}
    (hid : (sqlView errors).owner d key = some id) : (sqlView errors).owner d' key = some id := by
  obtain ⟨row, hrow, hparse⟩ := Option.bind_eq_some_iff.mp hid
  obtain ⟨row', hrow', hid'⟩ := h key row hrow
  change (d'.selectTaskByKey key).bind _ = _
  rw [hrow', Option.bind_some, hid']
  exact hparse

theorem keysKept_of_tasks (h : d'.tasks = d.tasks) : KeysKept d d' := by
  intro key row hrow
  refine ⟨row, ?_, rfl⟩
  rw [selectTaskByKey, byKey] at *
  rw [← hrow]
  simp only [h]

theorem keysKept_insertTask (h : d.insertTask row = some d') : KeysKept d d' := by
  obtain ⟨_, hkey, _, hbyKey, _, _⟩ := insertTask_eq_some h
  intro key row' hrow'
  refine ⟨row', ?_, rfl⟩
  have hne : key ≠ row.key := by
    rintro rfl
    rw [selectTaskByKey, Table.find_eq_none_iff.mpr hkey] at hrow'
    cases hrow'
  rw [selectTaskByKey, hbyKey, Table.find_insert_ne _ _ hne]
  exact hrow'

theorem keysKept_modifyTask (u : TaskUpdate C) : KeysKept d (d.modifyTask u) := by
  intro key row hrow
  exact ⟨_, by rw [selectTaskByKey_modifyTask, hrow]; rfl, row.taskId_ite u _⟩

theorem keysKept_updateTask (u : TaskUpdate C) : KeysKept d (d.updateTask u).1 := by
  rcases d.updateTask_cases u with ⟨_, _, _, hu⟩ | hu
  · rw [hu]
    exact keysKept_modifyTask u
  · rw [hu]
    exact .refl d

end Tables

variable (d : Tables C)

theorem Statement.attempt_cases (picked : Picked C) (s : Statement C) (message : String) :
    (∃ d' rep, s.run d picked = some (d', rep) ∧ s.attempt d picked message = (d', .ok rep)) ∨
      s.attempt d picked message = (d, .error (dbError message)) := by
  unfold attempt
  cases s.run d picked with
  | none => exact .inr rfl
  | some r => exact .inl ⟨r.1, r.2, rfl, rfl⟩

theorem Statement.run_of_read {d d' : Tables C} {s : Statement C} {rep : s.Reply}
    (hs : s.writes = false)
    (h : s.run d picked = some (d', rep)) : d' = d := by
  cases s with
  | selectTask id | selectTaskByKey key | selectEvents id afterSeq limit => cases h; rfl
  | _ => cases hs

theorem Statement.runInsertOrIgnore_cases {d d' : Tables C}
    (h : runInsertOrIgnore d row = some (d', n)) :
    (d' = d ∧ n = 0) ∨ (d.insertTask row = some d' ∧ n = 1) := by
  unfold runInsertOrIgnore at h
  split at h
  · cases h
    exact .inl ⟨rfl, rfl⟩
  · obtain ⟨_, hinsert, heq⟩ := Option.map_eq_some_iff.mp h
    cases heq
    exact .inr ⟨hinsert, rfl⟩

theorem Query.attempt_cases (q : Query C) (message : String) :
    (∃ d' rep, q.run d = some (d', rep) ∧ q.attempt d message = (d', .ok rep)) ∨
      q.attempt d message = (d, .error (dbError message)) := by
  unfold attempt
  cases q.run d with
  | none => exact .inr rfl
  | some r => exact .inl ⟨r.1, r.2, rfl, rfl⟩

theorem Query.run_of_read {q : Query C} (hq : q.writes = false) :
    ∃ rep, q.run d = some (d, rep) := by
  cases q with
  | selectTask id | selectTaskByKey key => exact ⟨_, rfl⟩
  | _ => cases hq

theorem Query.keysKept_attempt (q : Query C) (message : String) :
    d.KeysKept (q.attempt d message).1 := by
  unfold attempt
  cases h : q.run d with
  | none => exact .refl d
  | some r =>
    obtain ⟨d', reply⟩ := r
    cases q with
    | selectTask id | selectTaskByKey key => cases h; exact .refl d
    | insertTask row =>
      obtain ⟨d'', hd'', heq⟩ := Option.map_eq_some_iff.mp h
      cases heq
      exact Tables.keysKept_insertTask hd''
    | updateTask u =>
      have heq : d' = (d.updateTask u).1 := congrArg Prod.fst (Option.some.inj h).symm
      exact heq ▸ Tables.keysKept_updateTask u
    | insertEvent row =>
      obtain ⟨d'', hd'', heq⟩ := Option.map_eq_some_iff.mp h
      cases heq
      exact Tables.keysKept_of_tasks (Tables.insertEvent_eq_some hd'').2.2.1

end AgentConnector
