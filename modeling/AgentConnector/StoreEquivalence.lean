import AgentConnector.EventsAfter
import AgentConnector.SoloCalls

/-!
# The in-memory store and the SQLite store agree

One relation between the maps of the in-memory store and the tables of SQLite is kept by every
creation, reading and append, and in related states these calls return the same. Appends leave
terminal states alone, so that it makes no difference that SQLite keeps the first end time of a task
and the in-memory store the last one.
-/

namespace AgentConnector

open Concurrent Keyed StoreMachine Tables TaskRow List Option

variable {C : Columns}

variable {s : MemoryState}

variable {cur : TaskSnapshot}

theorem MemoryState.append_eq (hcur : s.tasks.find t.taskId = some cur) (now : DateTime) :
    s.appendEventAndTransition t now = match checkTransition t cur with
      | .error e => (s, .error e)
      | .ok () =>
        ({ s with
            tasks := s.tasks.put (cur.advance t.nextState now)
            events := s.events.set t.taskId
              (s.log t.taskId ++ [⟨t.taskId, cur.lastSeq + 1, now, t.eventKind⟩]) },
          .ok (LogStore.applied cur t now)) := by
  unfold appendEventAndTransition checkTransition
  rw [hcur]
  dsimp only
  by_cases hrev : cur.revision = t.expectedRevision
  · rw [if_neg (not_not_intro hrev), if_neg (not_not_intro hrev)]
    by_cases hstate : cur.state ∈ t.allowedStates
    · rw [if_neg (not_not_intro hstate), if_neg (not_not_intro hstate)]
      rfl
    · rw [if_pos hstate, if_pos hstate]
  · rw [if_pos hrev, if_pos hrev]

/-- The tables stand for the maps; no counter exceeds `n`. -/
structure Represents (s : MemoryState) (d : Tables C) (n : ℕ) : Prop where
  stored : ∀ id, (sqlView SqliteTaskStore.errors).stored d id = (s.tasks.find id).map .ok
  log : ∀ id, (sqlView SqliteTaskStore.errors).Decodes d id (s.log id)
  owner : ∀ key, (sqlView SqliteTaskStore.errors).owner d key = s.idempotency.get key
  ids : ∀ row ∈ d.tasks.rows, ∃ u, row.taskId = C.id u
  counters : ∀ id snap, s.tasks.find id = some snap → snap.revision ≤ n ∧ snap.lastSeq ≤ n
  ended : ∀ id snap, s.tasks.find id = some snap → snap.terminalAt ≠ none →
    snap.state.terminal = true
  numbered : ∀ id snap, s.tasks.find id = some snap →
    ((s.log id).map CoreEvent.seq).Pairwise (· < ·) ∧ ∀ e ∈ s.log id, e.seq ≤ snap.lastSeq

namespace Represents

variable {s : MemoryState} {d : Tables C} {n : ℕ}

theorem empty : Represents MemoryState.empty (empty : Tables C) 0 where
  stored _ := rfl
  log _ := rfl
  owner _ := rfl
  ids _ h := by cases h
  counters _ _ h := by cases h
  ended _ _ h := by cases h
  numbered _ _ h := by cases h

theorem mono (h : Represents s d n) (hle : n ≤ m) : Represents s d m :=
  { h with
    counters := fun id snap hsnap =>
      ⟨(h.counters id snap hsnap).1.trans hle, (h.counters id snap hsnap).2.trans hle⟩ }

variable {id : TaskId}

theorem row_of_find (h : Represents s d n) (hsnap : s.tasks.find id = some snap) :
    ∃ row, d.selectTask (C.id id) = some row ∧ SqliteTaskStore.snapshot row = .ok snap := by
  have hstored := h.stored id
  rw [hsnap] at hstored
  exact StoreView.stored_eq_ok_iff.mp hstored

theorem row_none (h : Represents s d n) (hnone : s.tasks.find id = none) :
    d.selectTask (C.id id) = none := by
  have hstored := h.stored id
  rw [hnone] at hstored
  exact map_eq_none_iff.mp hstored

variable {key : IdempotencyKey}

theorem taskId_of_key (h : Represents s d n) (hrow : d.selectTaskByKey key = some row) :
    ∃ id, s.idempotency.get key = some id ∧ d.selectTask (C.id id) = some row := by
  have hmem : row ∈ d.tasks.rows := (Table.find_eq_some_iff.mp hrow).1
  obtain ⟨u, hu⟩ := h.ids row hmem
  refine ⟨u, ?_, ?_⟩
  · rw [← h.owner key]
    change (d.selectTaskByKey key).bind _ = some u
    rw [hrow, bind_some, hu, C.parseId_id]
    rfl
  · rw [← hu]
    exact Table.find_key hmem

theorem key_none (h : Represents s d n) (hnone : s.idempotency.get key = none) :
    d.selectTaskByKey key = none := by
  cases hrow : d.selectTaskByKey key with
  | none => rfl
  | some row =>
    obtain ⟨id, hid, _⟩ := h.taskId_of_key hrow
    rw [hnone] at hid
    cases hid

theorem key_some (h : Represents s d n) (hkey : s.idempotency.get key = some id) :
    ∃ row snap, d.selectTaskByKey key = some row ∧ SqliteTaskStore.snapshot row = .ok snap ∧
      s.tasks.find id = some snap := by
  have howner := h.owner key
  rw [hkey] at howner
  obtain ⟨row, hrow, _⟩ := bind_eq_some_iff.mp howner
  obtain ⟨id', hid', hselect⟩ := h.taskId_of_key hrow
  cases hkey.symm.trans hid'
  have hstored := h.stored id
  rw [stored_eq, hselect] at hstored
  obtain ⟨snap, hsnap, hok⟩ := map_eq_some_iff.mp hstored.symm
  exact ⟨row, snap, hrow, hok.symm, hsnap⟩

/-- A step that changes one task keeps the relation if the new state of that task is represented. -/
theorem update (h : Represents s d n) (hm : n ≤ m)
    (hothers : ∀ id', id' ≠ id → (sqlView SqliteTaskStore.errors).SameTask id' d d' ∧
      memoryView.SameTask id' s s')
    (howner : ∀ key, (sqlView SqliteTaskStore.errors).owner d' key = s'.idempotency.get key)
    (hids : ∀ row ∈ d'.tasks.rows, ∃ u, row.taskId = C.id u) (new : TaskSnapshot)
    (hnew : s'.tasks.find id = some new)
    (hstored : (sqlView SqliteTaskStore.errors).stored d' id = some (.ok new))
    (hlog : (sqlView SqliteTaskStore.errors).Decodes d' id (s'.log id))
    (hcounters : new.revision ≤ m ∧ new.lastSeq ≤ m)
    (hended : new.terminalAt ≠ none → new.state.terminal = true)
    (hnumbered : ((s'.log id).map CoreEvent.seq).Pairwise (· < ·) ∧ ∀ e ∈ s'.log id,
      e.seq ≤ new.lastSeq) :
    Represents s' d' m := by
  have hold : ∀ {id'}, id' ≠ id → s'.tasks.find id' = s.tasks.find id' ∧ s'.log id' = s.log id' :=
    fun hne => ⟨(hothers _ hne).2.row, (hothers _ hne).2.log⟩
  refine ⟨fun id' => ?_, fun id' => ?_, howner, hids, fun id' snap hsnap => ?_,
    fun id' snap hsnap hne => ?_, fun id' snap hsnap => ?_⟩ <;> by_cases heq : id' = id
  · rw [heq, hstored, hnew]
    rfl
  · rw [(hothers id' heq).1.stored_eq, h.stored, (hold heq).1]
  · rw [heq]
    exact hlog
  · rw [StoreView.Decodes, (hothers id' heq).1.log, (hold heq).2]
    exact h.log id'
  · rw [heq, hnew, Option.some.injEq] at hsnap
    rw [← hsnap]
    exact hcounters
  · obtain ⟨hrev, hlast⟩ := h.counters id' snap ((hold heq).1 ▸ hsnap)
    exact ⟨hrev.trans hm, hlast.trans hm⟩
  · rw [heq, hnew, Option.some.injEq] at hsnap
    rw [← hsnap] at hne ⊢
    exact hended hne
  · exact h.ended id' snap ((hold heq).1 ▸ hsnap) hne
  · rw [heq, hnew, Option.some.injEq] at hsnap
    rw [heq, ← hsnap]
    exact hnumbered
  · rw [(hold heq).2]
    exact h.numbered id' snap ((hold heq).1 ▸ hsnap)

theorem create (h : Represents s d n) (hround : ∀ t, C.round t = t)
    (hkey : s.idempotency.get task.key = none) (hinsert : d.insertTask (.new task now) = some d') :
    Represents (s.createOrGetIdempotent task now).1 d' n := by
  have hcreates : (sqlView SqliteTaskStore.errors).Creates task d d' := (creates hinsert).1
  obtain ⟨hid, _, htasks, _, _, _⟩ := insertTask_eq_some hinsert
  have hmemory := MemoryState.creates task now hkey
  have hlog : (s.createOrGetIdempotent task now).1.log task.taskId = [] := hmemory.log
  have hself : d'.selectTask (C.id task.taskId) = some (.new task now) := by
    rw [selectTask, htasks]
    exact Table.find_insert_self _ _ hid
  have hfind : (s.createOrGetIdempotent task now).1.tasks = s.tasks.put (.fresh task now) := by
    unfold MemoryState.createOrGetIdempotent
    rw [hkey]
  refine h.update le_rfl (fun id hne => ⟨hcreates.others id hne, hmemory.others id hne⟩)
    (fun key => ?_) (fun row hrow => ?_) (.fresh task now) ?_ ?_ ?_
    ⟨Nat.zero_le n, Nat.zero_le n⟩ (fun hended => absurd rfl hended) ?_
  · by_cases heq : key = task.key
    · rw [heq, hcreates.owner]
      exact hmemory.owner.symm
    · rw [hcreates.owners key heq, h.owner key]
      exact (hmemory.owners key heq).symm
  · rw [htasks, Table.rows_insert] at hrow
    rcases mem_append.mp hrow with hold | hnew
    · exact h.ids row hold
    · rw [mem_singleton.mp hnew]
      exact ⟨task.taskId, rfl⟩
  · rw [hfind]
    exact Table.find_put_self s.tasks (.fresh task now)
  · have hdecode : (new task now : TaskRow C).decode SqliteTaskStore.errors =
        .ok (.inserted C task now) :=
      decode_eq_ok_iff.mpr (holds_new task now)
    rw [stored_eq, hself, map_some, hdecode, TaskSnapshot.inserted, hround]
  · rw [StoreView.Decodes, hcreates.log, hlog]
    rfl
  · rw [hlog]
    exact ⟨List.Pairwise.nil, fun e he => by cases he⟩

theorem append (h : Represents s d n) (hround : ∀ t, C.round t = t) (hn : n + 1 < 2 ^ 63)
    (hcur : s.tasks.find t.taskId = some cur) (hrow : d.selectTask (C.id t.taskId) = some row)
    (hdecode : SqliteTaskStore.snapshot row = .ok cur) (hactive : cur.state.terminal = false)
    (hcheck : checkTransition t cur = .ok ()) (hjson : C.json t.eventKind = .ok j)
    (hevent : (d.modifyTask (t.update cur now)).insertEvent (t.eventRow cur j now) = some d₂) :
    cur.updated C t now = cur.advance t.nextState now ∧
      Represents (s.appendEventAndTransition t now).1 d₂ (n + 1) := by
  obtain ⟨hrev, hlast⟩ := h.counters _ _ hcur
  have hterminal : cur.terminalAt = none := by
    by_contra hne
    rw [h.ended _ _ hcur hne] at hactive
    cases hactive
  have hupdated : cur.updated C t now = cur.advance t.nextState now := by
    unfold TaskSnapshot.updated TaskSnapshot.advance
    rw [asU64_asI64 (by omega), asU64_asI64 (by omega), hround, hterminal, none_or]
  refine ⟨hupdated, ?_⟩
  let event : CoreEvent := ⟨t.taskId, cur.lastSeq + 1, now, t.eventKind⟩
  have happlies : (sqlView SqliteTaskStore.errors).AppliesTo t cur
      ⟨cur.updated C t now, event⟩ d d₂ :=
    applies hrow hdecode hcheck rfl hjson hevent
  have hid : cur.taskId = t.taskId := Table.key_of_find hcur
  have hmemory : (s.appendEventAndTransition t now).1 = { s with
        tasks := s.tasks.put (cur.advance t.nextState now)
        events := s.events.set t.taskId (s.log t.taskId ++ [event]) } := by
    rw [MemoryState.append_eq hcur, hcheck]
  have hlog : (s.appendEventAndTransition t now).1.log t.taskId = s.log t.taskId ++ [event] := by
    rw [hmemory]
    change (Map.get (Map.set s.events t.taskId _) t.taskId).getD [] = _
    rw [Map.get_set, if_pos rfl]
    rfl
  refine h.update (Nat.le_succ n) (fun id (hne : id ≠ t.taskId) => ⟨happlies.others id hne, ?_⟩)
    (fun key => ?_) (fun row' hrow' => ?_) (cur.advance t.nextState now) ?_ ?_ ?_
    ⟨Nat.succ_le_succ hrev, Nat.succ_le_succ hlast⟩ (fun hended => ?_) ?_
  · rw [hmemory]
    exact ⟨Table.find_put_ne _ (by rw [← hid] at hne; exact hne),
      congrArg (Option.getD · []) (Map.get_set_ne _ _ hne)⟩
  · rw [happlies.owner key, h.owner key, hmemory]
  · have htasks := (insertEvent_eq_some hevent).2.2.1
    have hmem : row'.taskId ∈ d.tasks.rows.map taskId := by
      rw [← Table.map_rows_modify d.tasks (t.update cur now : TaskUpdate C).taskId
        (fun row => row.update_taskId (t.update cur now)) (fun row => row.update_taskId _)]
      rw [htasks] at hrow'
      exact mem_map_of_mem hrow'
    obtain ⟨old, hold, heq⟩ := mem_map.mp hmem
    rw [← heq]
    exact h.ids old hold
  · rw [hmemory, ← hid]
    exact Table.find_put_self s.tasks (cur.advance t.nextState now)
  · rw [happlies.stored, hupdated]
  · obtain ⟨j', hj', hparse⟩ := C.parseJson_json t.eventKind
    cases hjson.symm.trans hj'
    have hdecoded : (t.eventRow cur j now).decode SqliteTaskStore.errors t.taskId = .ok event := by
      rw [EventRow.decode_eventRow hparse now, asU64_asI64 (by omega), hround]
    have hrows : (d.eventRows (C.id t.taskId)).map
        (fun row => row.decode SqliteTaskStore.errors t.taskId) = (s.log t.taskId).map .ok :=
      h.log t.taskId
    rw [StoreView.Decodes, hlog]
    change (d₂.eventRows _).map (fun row => row.decode SqliteTaskStore.errors t.taskId) = _
    rw [eventRows_insertEvent hevent, t.eventRow_taskId, if_pos rfl, map_append,
      map_append]
    exact congrArg₂ _ hrows (congrArg (fun x => [x]) hdecoded)
  · by_contra hnot
    change ¬ t.nextState.terminal = true at hnot
    refine hended ?_
    change (if t.nextState.terminal = true then some now else cur.terminalAt) = none
    rw [if_neg hnot, hterminal]
  · obtain ⟨hsorted, hbound⟩ := h.numbered _ _ hcur
    rw [hlog]
    refine ⟨?_, fun e he => ?_⟩
    · rw [map_append, pairwise_append]
      refine ⟨hsorted, pairwise_singleton _ _, fun a ha b hb => ?_⟩
      obtain ⟨e, he, rfl⟩ := mem_map.mp ha
      rw [map_singleton, mem_singleton] at hb
      rw [hb]
      exact Nat.lt_succ_of_le (hbound e he)
    · rcases mem_append.mp he with hold | hnew
      · exact (hbound e hold).trans (Nat.le_succ _)
      · rw [mem_singleton.mp hnew]
        exact le_rfl

end Represents

namespace SqliteTaskStore

variable {s : MemoryState} {db : SqliteDb C} {n : ℕ} {now : DateTime}

variable {task : NewTask}

theorem create_existing (hdb : (sqliteMachine C).Settled db)
    (hrow : db.committed.selectTaskByKey task.key = some row) (hdecode : snapshot row = .ok snap) :
    Answers now 0 db (createOrGetIdempotent task) (.ok (.existing snap)) db.committed := by
  refine answers_transaction now hdb ?_
  refine finishes_read rfl (congrArg Except.ok hrow) ?_
  exact finishes_ofExcept hdecode finishes_commit

theorem create_new (hdb : (sqliteMachine C).Settled db) (hround : ∀ t, C.round t = t)
    (hkey : db.committed.selectTaskByKey task.key = none)
    (hinsert : db.committed.insertTask (.new task now) = some d') :
    Answers now 0 db (createOrGetIdempotent task) (.ok (.created (.fresh task now))) d' := by
  obtain ⟨hid, _, htasks, _⟩ := insertTask_eq_some hinsert
  have hself : d'.selectTask (C.id task.taskId) = some (.new task now) := by
    rw [selectTask, htasks]
    exact Table.find_insert_self _ _ hid
  have hdecode : snapshot (C := C) (.new task now) = .ok (.fresh task now) := by
    rw [snapshot, decode_eq_ok_iff.mpr (holds_new task now), TaskSnapshot.inserted, hround]
  have hinserted : Query.attempt db.committed (.insertTask (.new task now)) "" = (d', .ok ()) := by
    simp only [Query.attempt, Query.run, hinsert, map_some]
  refine answers_transaction now hdb ?_
  refine finishes_read rfl (congrArg Except.ok hkey) ?_
  refine finishes_utcNow ?_
  refine finishes_write rfl hinserted ?_
  refine finishes_read rfl (congrArg Except.ok hself) ?_
  refine finishes_ofExcept rfl ?_
  exact finishes_ofExcept hdecode finishes_commit

theorem solo_create (now : DateTime) (h : Represents s db.committed n)
    (hdb : (sqliteMachine C).Settled db) (hround : ∀ t, C.round t = t)
    (hfree : s.idempotency.get task.key ≠ none ∨ s.tasks.find task.taskId = none) :
    ∃ db', (sqliteMachine C).solo 0 { now := now } db (createOrGetIdempotent task) =
        some (db', (s.createOrGetIdempotent task now).2) ∧ (sqliteMachine C).Settled db' ∧
      Represents (s.createOrGetIdempotent task now).1 db'.committed n := by
  cases hkey : s.idempotency.get task.key with
  | some id =>
    obtain ⟨row, snap, hrow, hdecode, hsnap⟩ := h.key_some hkey
    have hmemory : s.createOrGetIdempotent task now = (s, .ok (.existing snap)) := by
      unfold MemoryState.createOrGetIdempotent
      simp [hkey, hsnap]
    obtain ⟨db', hrun, hsettled, hcommitted⟩ := create_existing hdb hrow hdecode
    rw [hmemory]
    exact ⟨db', hrun, hsettled, by rw [hcommitted]; exact h⟩
  | none =>
    have hid := h.row_none (hfree.resolve_left (not_not_intro hkey))
    have hbyKey := h.key_none hkey
    obtain ⟨d', hinsert⟩ : ∃ d', db.committed.insertTask (.new task now) = some d' :=
      ⟨_, dif_pos ⟨Table.find_eq_none_iff.mp hid, (Table.find_eq_none_iff).mp hbyKey⟩⟩
    obtain ⟨db', hrun, hsettled, rfl⟩ := create_new hdb hround hbyKey hinsert
    have hmemory : (s.createOrGetIdempotent task now).2 = .ok (.created (.fresh task now)) := by
      unfold MemoryState.createOrGetIdempotent
      rw [hkey]
    rw [hmemory]
    exact ⟨db', hrun, hsettled, h.create hround hkey hinsert⟩

variable {t : TaskTransition}

theorem append_notFound (hdb : (sqliteMachine C).Settled db)
    (hrow : db.committed.selectTask (C.id t.taskId) = none) :
    Answers now 0 db (appendEventAndTransition t) (.error (.notFound t.taskId)) db.committed := by
  refine answers_transaction now hdb ?_
  refine finishes_read rfl (congrArg Except.ok hrow) ?_
  exact fun s₁ hs₁ => ⟨s₁, rfl, none, hs₁, rfl⟩

section

variable {t : TaskTransition} {row : TaskRow C} {cur : TaskSnapshot}
  (hdb : (sqliteMachine C).Settled db) (hrow : db.committed.selectTask (C.id t.taskId) = some row)
  (hdecode : snapshot row = .ok cur)

include hdb hrow hdecode

theorem append_rejected (hcheck : checkTransition t cur = .error e) :
    Answers now 0 db (appendEventAndTransition t) (.error e) db.committed := by
  refine answers_transaction now hdb ?_
  refine finishes_read rfl (congrArg Except.ok hrow) ?_
  refine finishes_ofExcept hdecode ?_
  rw [hcheck]
  exact fun s₁ hs₁ => ⟨s₁, solo_try_error rfl, none, hs₁, rfl⟩

theorem append_applied (hcheck : checkTransition t cur = .ok ())
    (hjson : C.json t.eventKind = .ok j)
    (hevent : (db.committed.modifyTask (t.update cur now)).insertEvent
      (t.eventRow cur j now) = some d₂) :
    Answers now 0 db (appendEventAndTransition t)
      (.ok ⟨cur.updated C t now, ⟨t.taskId, cur.lastSeq + 1, now, t.eventKind⟩⟩) d₂ := by
  have hholds := decode_eq_ok_iff.mp hdecode
  have hself : d₂.selectTask (C.id t.taskId) = some (row.update (t.update cur now)) := by
    have htasks := (insertEvent_eq_some hevent).2.2.1
    rw [selectTask, htasks]
    exact selectTask_modifyTask_self.trans (by
      rw [show (t.update cur now : TaskUpdate C).taskId = C.id t.taskId from rfl, hrow]
      rfl)
  have hdecode' : snapshot (row.update (t.update cur now)) = .ok (cur.updated C t now) :=
    decode_eq_ok_iff.mpr (hholds.update t now)
  have hupdated : Query.attempt db.committed (.updateTask (t.update cur now)) "" =
      (db.committed.modifyTask (t.update cur now), .ok 1) := by
    have hrevision : row.revision = (t.update cur now : TaskUpdate C).current := by
      change row.revision = asI64 cur.revision
      rw [hholds.revision, asI64_asU64]
    have heq : db.committed.updateTask (t.update cur now) =
        (db.committed.modifyTask (t.update cur now), 1) := by
      unfold updateTask
      rw [show (t.update cur now : TaskUpdate C).taskId = C.id t.taskId from rfl, hrow]
      exact if_pos hrevision
    simp only [Query.attempt, Query.run, heq]
  have hinserted : Query.attempt (db.committed.modifyTask (t.update cur now))
      (.insertEvent (t.eventRow cur j now)) "" = (d₂, .ok ()) := by
    simp only [Query.attempt, Query.run, hevent, map_some]
  refine answers_transaction now hdb ?_
  refine finishes_read rfl (congrArg Except.ok hrow) ?_
  refine finishes_ofExcept hdecode ?_
  refine finishes_ofExcept hcheck ?_
  refine finishes_utcNow ?_
  refine finishes_write rfl hupdated ?_
  rw [if_neg (not_not_intro rfl)]
  refine finishes_ofExcept (mapError_eq_ok_iff.mpr hjson) ?_
  refine finishes_write rfl hinserted ?_
  refine finishes_read rfl (congrArg Except.ok hself) ?_
  refine finishes_ofExcept rfl ?_
  exact finishes_ofExcept hdecode' finishes_commit

end

theorem insertEvent_of_represents (now : DateTime) (h : Represents s db.committed n)
    (hn : n + 1 < 2 ^ 63) (j : C.Json) (hcur : s.tasks.find t.taskId = some cur)
    (hrow : db.committed.selectTask (C.id t.taskId) = some row) :
    ∃ d₂, (db.committed.modifyTask (t.update cur now)).insertEvent (t.eventRow cur j now) =
      some d₂ := by
  refine ⟨_, dif_pos ⟨fun hmem => ?_, ?_⟩⟩
  · obtain ⟨old, hold, hkey⟩ := mem_map.mp hmem
    obtain ⟨hid, hseq⟩ := Prod.mk.inj hkey
    have hrows : old ∈ db.committed.eventRows (C.id t.taskId) :=
      mem_filter.mpr ⟨hold, decide_eq_true hid⟩
    have hdecoded : old.decode errors t.taskId ∈ (s.log t.taskId).map Except.ok := by
      rw [← show _ = _ from h.log t.taskId]
      exact mem_map_of_mem hrows
    obtain ⟨e, he, heq⟩ := mem_map.mp hdecoded
    have hbound := (h.numbered _ _ hcur).2 e he
    have hlast := (h.counters _ _ hcur).2
    rw [(EventRow.decode_eq_ok heq.symm).2.1, hseq, TaskTransition.eventRow,
      asU64_asI64 (by omega)] at hbound
    omega
  · have hmem : C.id t.taskId ∈ db.committed.tasks.rows.map taskId :=
      Table.find_isSome_iff.mp (by rw [show db.committed.tasks.find _ = _ from hrow]; rfl)
    rw [show (db.committed.modifyTask (t.update cur now)).tasks.rows.map taskId = _ from
      Table.map_rows_modify _ _ (fun row => row.update_taskId (t.update cur now))
        (fun row => row.update_taskId (t.update cur now))]
    exact hmem

theorem solo_append (now : DateTime) (h : Represents s db.committed n)
    (hdb : (sqliteMachine C).Settled db) (hround : ∀ t, C.round t = t) (hn : n + 1 < 2 ^ 63)
    (hallowed : ∀ state ∈ t.allowedStates, state.terminal = false) :
    ∃ db', (sqliteMachine C).solo 0 { now := now } db (appendEventAndTransition t) =
        some (db', (s.appendEventAndTransition t now).2) ∧ (sqliteMachine C).Settled db' ∧
      Represents (s.appendEventAndTransition t now).1 db'.committed (n + 1) := by
  have hfail : ∀ {e}, s.appendEventAndTransition t now = (s, .error e) →
      Answers now 0 db (appendEventAndTransition t) (.error e) db.committed →
      ∃ db', (sqliteMachine C).solo 0 { now := now } db (appendEventAndTransition t) =
          some (db', (s.appendEventAndTransition t now).2) ∧ (sqliteMachine C).Settled db' ∧
        Represents (s.appendEventAndTransition t now).1 db'.committed (n + 1) := by
    rintro e hmemory ⟨db', hrun, hsettled, hcommitted⟩
    rw [hmemory]
    exact ⟨db', hrun, hsettled, by rw [hcommitted]; exact h.mono (Nat.le_succ n)⟩
  cases hcur : s.tasks.find t.taskId with
  | none =>
    refine hfail ?_ (append_notFound hdb (h.row_none hcur))
    unfold MemoryState.appendEventAndTransition
    rw [hcur]
  | some cur =>
    obtain ⟨row, hrow, hdecode⟩ := h.row_of_find hcur
    cases hcheck : checkTransition t cur with
    | error e =>
      refine hfail ?_ (append_rejected hdb hrow hdecode hcheck)
      rw [MemoryState.append_eq hcur, hcheck]
    | ok u =>
      obtain ⟨j, hjson, _⟩ := C.parseJson_json t.eventKind
      obtain ⟨d₂, hevent⟩ := insertEvent_of_represents now h hn j hcur hrow
      obtain ⟨db', hrun, hsettled, rfl⟩ := append_applied hdb hrow hdecode hcheck hjson hevent
      obtain ⟨hupdated, hrepresents⟩ := h.append hround hn hcur hrow hdecode
        (hallowed _ (checkTransition_eq_ok_iff.mp hcheck).2) hcheck hjson hevent
      refine ⟨db', ?_, hsettled, hrepresents⟩
      rw [hrun, hupdated, MemoryState.append_eq hcur, hcheck]
      rfl

theorem solo_getSnapshot (h : Represents s db.committed n) (now : DateTime) (id : TaskId) :
    (sqliteMachine C).solo 0 { now := now } db (getSnapshot id) =
      some (db, .ok (s.tasks.find id)) := by
  have hselect : (sqliteMachine C).solo 0 { now := now } db (execute (.selectTask (C.id id))).run =
    some (db, .ok (db.committed.selectTask (C.id id))) := rfl
  cases hfind : s.tasks.find id with
  | none =>
    rw [h.row_none hfind] at hselect
    exact solo_try_ok hselect
  | some snap =>
    obtain ⟨row, hrow, hdecode⟩ := h.row_of_find hfind
    rw [hrow] at hselect
    exact (solo_try_ok hselect).trans (solo_try_ok (congrArg (fun r => some (db, r)) hdecode))

end SqliteTaskStore

/-- The calls that the stores are compared on: creations under a known key or a free identifier,
readings, appends that leave terminal states alone, and events of existing tasks with a cursor and a
page that SQLite does not cut. -/
def StoreCall.Comparable (s : MemoryState) : StoreCall → Prop
  | .create task => s.idempotency.get task.key ≠ none ∨ s.tasks.find task.taskId = none
  | .getSnapshot _ => True
  | .append t => ∀ state ∈ t.allowedStates, state.terminal = false
  | .eventsAfter id afterSeq limit => s.tasks.find id ≠ none ∧ afterSeq < 2 ^ 63 ∧ limit ≤ 10000
  | _ => False

/-- Each of the calls is comparable in the state in which it is made. -/
def ComparableCalls : MemoryState → List (DateTime × StoreCall) → Prop
  | _, [] => True
  | s, (now, c) :: cs => c.Comparable s ∧
    ∀ s' r, memoryMachine.call 0 now s c = some (s', r) → ComparableCalls s' cs

theorem call_simulates (h : Represents s db.committed n) (hdb : (sqliteMachine C).Settled db)
    (hround : ∀ t, C.round t = t) (hn : n + 1 < 2 ^ 63) (hc : c.Comparable s) (now : DateTime) :
    ∃ s' db' r, memoryMachine.call 0 now s c = some (s', r) ∧
      (sqliteMachine C).call 0 now db c = some (db', r) ∧ (sqliteMachine C).Settled db' ∧
      Represents s' db'.committed (n + 1) := by
  cases c with
  | create task =>
    obtain ⟨db', hrun, hsettled, hrepresents⟩ :=
      SqliteTaskStore.solo_create now h hdb hround hc
    exact ⟨_, db', _, rfl, solo_map_iff.mpr ⟨_, hrun, rfl⟩, hsettled,
      hrepresents.mono (Nat.le_succ n)⟩
  | getSnapshot id =>
    have hrun := SqliteTaskStore.solo_getSnapshot h now id
    exact ⟨s, db, _, rfl, solo_map_iff.mpr ⟨_, hrun, rfl⟩, hdb, h.mono (Nat.le_succ n)⟩
  | append t =>
    obtain ⟨db', hrun, hsettled, hrepresents⟩ :=
      SqliteTaskStore.solo_append now h hdb hround hn hc
    exact ⟨_, db', _, rfl, solo_map_iff.mpr ⟨_, hrun, rfl⟩, hsettled, hrepresents⟩
  | eventsAfter id afterSeq limit =>
    obtain ⟨htask, hafter, hlimit⟩ := hc
    obtain ⟨snap, hsnap⟩ := ne_none_iff_exists'.mp htask
    obtain ⟨row, hrow, _⟩ := h.row_of_find hsnap
    obtain ⟨hsorted, hbound⟩ := h.numbered id snap hsnap
    have hsmall : ∀ e ∈ s.log id, e.seq < 2 ^ 63 := by
      intro e he
      have hseq := hbound e he
      have hlast := (h.counters id snap hsnap).2
      omega
    have hpresent : (memoryView.row s id).isSome = true := by
      rw [show memoryView.row s id = _ from hsnap]
      rfl
    have hpresent' : ((sqliteMachine C).view.row db id).isSome = true := by
      rw [show (sqliteMachine C).view.row db id = _ from hrow]
      rfl
    have hmemory := StoreKind.memory.call_eventsAfter hpresent rfl hsorted hsmall 0 now afterSeq
      limit
    have hsqlite := (StoreKind.sqlite C).call_eventsAfter hpresent' (h.log id) hsorted hsmall 0 now
      afterSeq limit
    rw [StoreKind.cursor_of_lt _ (Or.inr hafter), StoreKind.page_of_le _ hlimit] at hmemory hsqlite
    exact ⟨s, db, _, hmemory, hsqlite, hdb, h.mono (Nat.le_succ n)⟩
  | _ => exact hc.elim

theorem calls_simulate (h : Represents s db.committed n) (hdb : (sqliteMachine C).Settled db)
    (hround : ∀ t, C.round t = t) (hn : n + cs.length < 2 ^ 63) (hcs : ComparableCalls s cs) :
    ∃ s' db' rs, memoryMachine.calls s cs = some (s', rs) ∧
      (sqliteMachine C).calls db cs = some (db', rs) := by
  induction cs generalizing s db n with
  | nil => exact ⟨s, db, [], rfl, rfl⟩
  | cons x cs ih =>
    obtain ⟨now, c⟩ := x
    rw [length_cons] at hn
    obtain ⟨s₁, db₁, r, hmemory, hsqlite, hsettled, hrepresents⟩ :=
      call_simulates h hdb hround (by omega) hcs.1 now
    obtain ⟨s', db', rs, hrest, hrest'⟩ := ih hrepresents hsettled (by omega) (hcs.2 s₁ r hmemory)
    refine ⟨s', db', r :: rs, ?_, ?_⟩
    · rw [DurableMachine.calls, hmemory]
      simp only [hrest, map_some]
    · rw [DurableMachine.calls, hsqlite]
      simp only [hrest', map_some]

/-- From empty stores, with the same readings of the clock, both stores return the same results. -/
theorem memory_sqlite_agree (hround : ∀ t, C.round t = t) {cs : List (DateTime × StoreCall)}
    (hlen : cs.length < 2 ^ 63) (hcs : ComparableCalls MemoryState.empty cs) :
    ∃ s db rs, memoryMachine.calls MemoryState.empty cs = some (s, rs) ∧
      (sqliteMachine C).calls SqliteDb.empty cs = some (db, rs) :=
  calls_simulate .empty ⟨rfl, rfl, fun _ => rfl⟩ hround (by omega) hcs

/-- Columns that hold values as they are. -/
def Columns.plain : Columns where
  Id := Uuid
  Time := ℤ
  Json := CoreEventKind
  idEq := inferInstance
  id u := u
  parseId := .ok
  time t := t
  parseTime := .ok
  before a b := a < b
  json := .ok
  parseJson := .ok
  round t := t
  parseId_id := (Postgres.columns .plain).parseId_id
  parseTime_time _ := rfl
  parseJson_json := JsonColumn.plain.parseJson_json

/-- A task with one event. -/
theorem memory_sqlite_agree_of_one_event : ∃ s db rs,
      memoryMachine.calls MemoryState.empty [(0, .create (.under "caller" "key" 1)),
        (1, .append (.to 1 0 .running)), (2, .eventsAfter 1 0 10)] = some (s, rs) ∧
      (sqliteMachine .plain).calls SqliteDb.empty [(0, .create (.under "caller" "key" 1)),
        (1, .append (.to 1 0 .running)), (2, .eventsAfter 1 0 10)] = some (db, rs) := by
  refine memory_sqlite_agree (fun _ => rfl) (by decide) ⟨Or.inr rfl, ?_⟩
  rintro _ _ ⟨⟩
  refine ⟨fun state hstate => by revert state; decide, ?_⟩
  rintro _ _ ⟨⟩
  refine ⟨⟨some_ne_none _, by decide, by decide⟩, ?_⟩
  rintro _ _ ⟨⟩
  trivial

end AgentConnector
