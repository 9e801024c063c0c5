import AgentConnector.EntryOps
import AgentConnector.LinearHistory

/-!
# Keys of tasks in the three stores

What a core relies on when it invokes an agent under an idempotency key: none of the operations it
issues takes a task away from its key, a creation tells which task is under its key, and an append
returns a snapshot of its own task.
-/

namespace AgentConnector

open Concurrent Keyed Isolation PostgresTaskStore Tables

variable (t : TaskTransition)

/-- The operations in `spares` are those a core may issue; in states that satisfy `inv` they leave
the tasks under their keys. -/
structure DurableMachine.ServesKeys (M : DurableMachine) (db : M.Db)
    (I : Isolation (storeService M db)) (spares : M.sig.Op → Prop) : Prop where
  within : M.store.Within (fun _ o => spares o)
  kept : ∀ {tid s o c s' r key id}, I.inv s → spares o → M.exec tid s o c = some (s', r) →
    M.view.owner s key = some id → M.view.owner s' key = some id
  created : ∀ tid n, I.Safe tid (fun _ _ => True)
    (fun r _ l => DurableMachine.Post (.create n) (.created r) l) (M.store.createOrGetIdempotent n)
    I.idle []
  applied : ∀ tid t x, I.Safe tid (fun _ _ => True)
    (fun r _ l => DurableMachine.Post (.append t) (.applied r) l)
    (M.store.appendEventAndTransition t) x []
  stored : ∀ {d id s}, M.view.stored d id = some (.ok s) → s.taskId = id

section Memory

def MemoryOp.spares : MemoryOp → Prop
  | .cleanup _ => False
  | _ => True

theorem MemoryState.owner_exec {s s' : MemoryState} (ho : o.spares)
    (hex : s.exec o c = some (s', r)) {id : TaskId} (hid : s.idempotency.get key = some id) :
    s'.idempotency.get key = some id := by
  cases o with
  | create n =>
    cases hex
    rcases create_cases n c.now with ⟨_, _, _, _, heq⟩ | ⟨_, _, _, _, heq⟩ | ⟨hkey, _⟩
    · rw [heq]
      exact hid
    · rw [heq]
      exact hid
    · have hne : key ≠ n.key := by
        rintro rfl
        rw [hkey] at hid
        cases hid
      exact ((creates n c.now hkey).owners key hne).trans hid
  | get id | eventsAfter id afterSeq limit =>
    cases hex
    exact hid
  | append t =>
    cases hex
    rcases append_cases t c.now with ⟨e, heq⟩ | ⟨cur, a, _, happlies⟩
    · rw [heq]
      exact hid
    · exact (happlies.owner key).trans hid
  | acquireLease lease =>
    rcases withExpiry_cases hex with ⟨rfl, _⟩ | ⟨expiresAt, _, rfl, _⟩
    · exact hid
    · exact ((acquireLease_leaseOf lease c.now expiresAt).step.owner key).trans hid
  | renewLease lease =>
    rcases withExpiry_cases hex with ⟨rfl, _⟩ | ⟨expiresAt, _, rfl, _⟩
    · exact hid
    · exact ((renewLease_leaseOf lease c.now expiresAt).step.owner key).trans hid
  | cleanup policy => exact ho.elim

theorem memory_servesKeys (db : MemoryState) :
    memoryMachine.ServesKeys db (memoryIsolation db) MemoryOp.spares where
  within :=
    { create := fun _ _ _ _ _ => ⟨trivial, fun _ => trivial⟩
      get := fun _ _ => ⟨trivial, fun _ => trivial⟩
      append := fun _ _ _ => ⟨trivial, fun _ => trivial⟩
      events := fun _ _ _ _ => ⟨trivial, fun _ => trivial⟩
      abandon := fun _ => trivial }
  kept _ ho hex hid := MemoryState.owner_exec ho hex hid
  created tid n := (MemoryState.safe_create db tid n).weaken (fun _ _ _ => trivial)
  applied tid t _ := (MemoryState.safe_append db tid t).weaken (fun _ _ _ => trivial)
  stored h := by
    obtain ⟨row, hrow, hdecode⟩ := Option.map_eq_some_iff.mp h
    cases hdecode
    exact Table.key_of_find hrow

end Memory

section Sql

variable {C : Columns}

def Statement.spares : Statement C → Prop
  | .deleteTasks _ _ => False
  | _ => True

theorem Statement.keysKept_run {s : Statement C} {rep : s.Reply} (hs : s.spares)
    (h : s.run d picked = some (d', rep)) : d.KeysKept d' := by
  cases s with
  | insertTaskOrIgnore row =>
    rcases runInsertOrIgnore_cases h with ⟨rfl, _⟩ | ⟨hinsert, _⟩
    · exact .refl _
    · exact keysKept_insertTask hinsert
  | upsertLease row now => exact keysKept_of_tasks (upsertLease_cases h).1
  | updateLease row now =>
    have heq : d' = (d.updateLease row now).1 := congrArg Prod.fst (Option.some.inj h).symm
    exact keysKept_of_tasks (heq ▸ (d.updateLease_cases row now).1)
  | deleteEvents cutoff limit =>
    cases h
    exact keysKept_of_tasks rfl
  | deleteTasks cutoff limit => exact hs.elim
  | _ =>
    cases h
    exact .refl _

theorem taskId_of_stored {d : Tables C} {errors : RowErrors} {id : TaskId}
    (h : (sqlView errors).stored d id = some (.ok s)) : s.taskId = id := by
  obtain ⟨row, hrow, hs⟩ := Option.map_eq_some_iff.mp h
  have hid := (TaskRow.decode_eq_ok_iff.mp hs).taskId
  rw [show row.taskId = C.id id from Table.key_of_find hrow, C.parseId_id] at hid
  exact (Except.ok.inj hid).symm

end Sql

section Sqlite

variable {C : Columns}

def SqliteOp.spares : SqliteOp C → Prop
  | .execute s => s.spares
  | _ => True

theorem SqliteDb.Inv.keysKept_exec {db db' : SqliteDb C} (hinv : db.Inv) (ho : o.spares)
    (hex : db.exec tid o c = some (db', r)) : db.committed.KeysKept db'.committed := by
  by_cases hquiet : quiet o = true
  · rw [committed_of_quiet hquiet hex]
    exact .refl _
  · cases o with
    | commit =>
      cases exec_move hex with
      | idle hcommitted _ _ _ =>
        rw [hcommitted]
        exact .refl _
      | closed =>
        unfold SqliteDb.close
        split
        · rename_i base work htx
          obtain ⟨_, hbase, hkept⟩ := hinv.writing htx
          rw [← hbase]
          exact hkept
        · exact .refl _
    | execute s =>
      rcases (execute_cases tid hex).2 with ⟨hcommitted, _⟩ | ⟨_, rep, hrun, _⟩
      · rw [hcommitted]
        exact .refl _
      · exact Statement.keysKept_run ho hrun
    | _ => exact absurd rfl hquiet

namespace SqliteTaskStore

open Prog

theorem everywhere_guarded {α : Type} {body : SqliteM C α}
    (h : body.run.Everywhere SqliteOp.spares) :
    (guarded (inTransaction body)).Everywhere SqliteOp.spares := by
  have hbody : (inTransaction body).run.Everywhere SqliteOp.spares := by
    refine everywhere_bind (everywhere_perform trivial) (fun begun => ?_)
    cases begun with
    | error e => trivial
    | ok u =>
      refine everywhere_bind h (fun r => ?_)
      cases r with
      | ok a => trivial
      | error e => exact ⟨trivial, fun _ => trivial⟩
  exact everywhere_bind (everywhere_perform trivial)
    (fun _ => everywhere_bind hbody (fun _ => ⟨trivial, fun _ => trivial⟩))

theorem everywhere_query : (query q).run.Everywhere SqliteOp.spares :=
  everywhere_perform trivial

theorem everywhere_create (n : NewTask) :
    (createOrGetIdempotent n).Everywhere (SqliteOp.spares (C := C)) := by
  apply everywhere_guarded
  refine everywhere_try everywhere_query (fun found => ?_)
  cases found with
  | some row =>
    refine everywhere_try trivial (fun s => ?_)
    exact everywhere_try (everywhere_perform trivial) (fun _ => trivial)
  | none =>
    refine everywhere_try (everywhere_bind (everywhere_perform trivial) (fun _ => trivial))
      (fun now => ?_)
    refine everywhere_try everywhere_query (fun _ => ?_)
    refine everywhere_try everywhere_query (fun found => ?_)
    refine everywhere_try trivial (fun row => ?_)
    refine everywhere_try trivial (fun s => ?_)
    exact everywhere_try (everywhere_perform trivial) (fun _ => trivial)

theorem everywhere_append : (appendEventAndTransition t).Everywhere (SqliteOp.spares (C := C)) := by
  apply everywhere_guarded
  refine everywhere_try everywhere_query (fun found => ?_)
  cases found with
  | none => trivial
  | some row =>
    refine everywhere_try trivial (fun current => ?_)
    refine everywhere_try trivial (fun _ => ?_)
    refine everywhere_try (everywhere_bind (everywhere_perform trivial) (fun _ => trivial))
      (fun now => ?_)
    refine everywhere_try everywhere_query (fun changed => ?_)
    split
    · trivial
    · refine everywhere_try trivial (fun kind => ?_)
      refine everywhere_try everywhere_query (fun _ => ?_)
      refine everywhere_try everywhere_query (fun found => ?_)
      refine everywhere_try trivial (fun row => ?_)
      refine everywhere_try trivial (fun s => ?_)
      exact everywhere_try (everywhere_perform trivial) (fun _ => trivial)

end SqliteTaskStore

theorem sqlite_servesKeys (db : SqliteDb C) (h : (sqliteMachine C).Settled db) :
    (sqliteMachine C).ServesKeys db (sqliteIsolation db h) SqliteOp.spares where
  within :=
    { create := fun _ _ n _ _ => SqliteTaskStore.everywhere_create n
      get := fun _ _ => SqliteTaskStore.everywhere_getSnapshot trivial
      append := fun _ t _ => SqliteTaskStore.everywhere_append t
      events := fun _ _ _ _ =>
        Prog.everywhere_try (Prog.everywhere_perform trivial) (fun _ => trivial)
      abandon := fun _ => ⟨trivial, fun _ => ⟨trivial, fun _ => trivial⟩⟩ }
  kept {tid s o c s' r key id} hinv ho hex hid := by
    have howner : (sqlView SqliteTaskStore.errors).owner s.committed key = some id := hid
    exact (SqliteDb.Inv.keysKept_exec hinv ho hex).owner howner
  created tid n := (SqliteTaskStore.safe_create n).weaken (fun _ _ _ => trivial)
  applied tid t _ := (SqliteTaskStore.safe_append t).weaken (fun _ _ _ => trivial)
  stored h := taskId_of_stored h

end Sqlite

section Postgres

variable {C : Columns}

def PostgresOp.spares : PostgresOp C → Prop
  | .execute s => s.spares
  | _ => True

theorem Write.keysKept_apply (d : Tables C) (w : Write C) : d.KeysKept (w.apply d) := by
  cases w with
  | update u => exact keysKept_updateTask u
  | event row =>
    cases h : d.insertEvent row with
    | none =>
      rw [Write.apply, h]
      exact .refl d
    | some d' =>
      rw [Write.apply, h]
      exact keysKept_of_tasks (insertEvent_eq_some h).2.2.1

theorem PostgresDb.keysKept_seen (db : PostgresDb C) (tid : ℕ) :
    db.committed.KeysKept (db.seen tid) := by
  unfold PostgresDb.seen
  generalize (db.tx tid).getD [] = ws
  generalize db.committed = d
  induction ws generalizing d with
  | nil => exact .refl d
  | cons w ws ih => exact (w.keysKept_apply d).trans (ih _)

theorem PostgresDb.keysKept_exec {db db' : PostgresDb C} (ho : o.spares)
    (hex : db.exec tid o c = some (db', r)) : db.committed.KeysKept db'.committed := by
  cases exec_move hex with
  | installed => exact db.keysKept_seen tid
  | executed _ hrun => exact Statement.keysKept_run ho hrun
  | _ => exact .refl _

namespace PostgresTaskStore

open Prog

theorem everywhere_create (n : NewTask) :
    (createOrGetIdempotent n).Everywhere (PostgresOp.spares (C := C)) := by
  refine everywhere_try (everywhere_bind (everywhere_perform trivial) (fun _ => trivial))
    (fun now => ?_)
  refine everywhere_try (everywhere_perform trivial) (fun inserted => ?_)
  refine everywhere_try (everywhere_perform trivial) (fun found => ?_)
  refine everywhere_try trivial (fun row => ?_)
  exact everywhere_try trivial (fun s => trivial)

theorem everywhere_inTransaction {α : Type} {body : PostgresM C α}
    (h : body.run.Everywhere PostgresOp.spares) :
    (inTransaction body).Everywhere PostgresOp.spares := by
  refine everywhere_bind (everywhere_perform trivial) (fun begun => ?_)
  cases begun with
  | error e => trivial
  | ok u =>
    refine everywhere_bind h (fun r => ?_)
    cases r with
    | ok a => trivial
    | error e => exact ⟨trivial, fun _ => trivial⟩

theorem everywhere_append :
    (appendEventAndTransition t).Everywhere (PostgresOp.spares (C := C)) := by
  apply everywhere_inTransaction
  refine everywhere_try (everywhere_perform trivial) (fun found => ?_)
  cases found with
  | none => trivial
  | some row =>
    refine everywhere_try trivial (fun current => ?_)
    refine everywhere_try trivial (fun _ => ?_)
    refine everywhere_try (everywhere_bind (everywhere_perform trivial) (fun _ => trivial))
      (fun now => ?_)
    refine everywhere_try (everywhere_perform trivial) (fun changed => ?_)
    split
    · trivial
    · refine everywhere_try trivial (fun payload => ?_)
      refine everywhere_try (everywhere_perform trivial) (fun _ => ?_)
      refine everywhere_try (everywhere_perform trivial) (fun found => ?_)
      refine everywhere_try trivial (fun row => ?_)
      refine everywhere_try trivial (fun s => ?_)
      exact everywhere_try (everywhere_perform trivial) (fun _ => trivial)

end PostgresTaskStore

theorem postgres_servesKeys (db : PostgresDb (Postgres.columns J))
    (h : (postgresMachine J).Settled db) :
    (postgresMachine J).ServesKeys db (postgresIsolation db h) PostgresOp.spares where
  within :=
    { create := fun _ _ n _ _ => everywhere_create n
      get := fun _ _ => everywhere_getSnapshot trivial
      append := fun _ t _ => everywhere_append t
      events := fun _ _ _ _ =>
        Prog.everywhere_try (Prog.everywhere_perform trivial) (fun _ => trivial)
      abandon := fun _ => ⟨trivial, fun _ => trivial⟩ }
  kept {tid s o c s' r key id} _ ho hex hid := by
    have howner : (sqlView errors).owner s.committed key = some id := hid
    exact (PostgresDb.keysKept_exec ho hex).owner howner
  created tid n := (safe_create n).weaken (fun _ _ _ => trivial)
  applied tid t _ := (safe_append t).weaken (fun _ _ _ => trivial)
  stored h := taskId_of_stored h

end Postgres

/-- The states a store may be in when a core is started on it: an empty memory, or tables that no
call is working on. -/
def StoreKind.Starts : (k : StoreKind) → k.machine.Db → Prop
  | .memory => fun db => db = .empty
  | .sqlite C => (sqliteMachine C).Settled
  | .postgres J => (postgresMachine J).Settled

theorem StoreKind.servesKeys (k : StoreKind) {db : k.machine.Db} (hdb : k.Starts db) :
    ∃ I spares, k.machine.ServesKeys db I spares := by
  cases k with
  | memory => exact ⟨_, _, memory_servesKeys db⟩
  | sqlite C => exact ⟨_, _, sqlite_servesKeys db hdb⟩
  | postgres J => exact ⟨_, _, postgres_servesKeys db hdb⟩

end AgentConnector
