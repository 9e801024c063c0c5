import AgentConnector.SqlStatements

/-!
# The Postgres store

The methods of `PostgresTaskStore` statement by statement. Statements of a transaction see the
committed tables together with the writes of the transaction; `SELECT .. FOR UPDATE` and every write
lock the row of the task, and a statement that needs a row locked by another transaction waits.
Statements outside transactions commit on their own; one that fails, like a commit that fails, may
have taken effect. Identifiers are native; times are whole microseconds.
-/

namespace AgentConnector

open Concurrent

/-- A `JSONB` column, as far as event kinds are concerned. -/
structure JsonColumn where
  Json : Type
  json : CoreEventKind → Except String Json
  parseJson : Json → Except String CoreEventKind
  parseJson_json : ∀ k, ∃ j, json k = .ok j ∧ parseJson j = .ok k

/-- A column that holds event kinds as they are. -/
def JsonColumn.plain : JsonColumn where
  Json := CoreEventKind
  json := .ok
  parseJson := .ok
  parseJson_json k := ⟨k, rfl, rfl⟩

namespace Postgres

/-- 2000-01-01, from which `TIMESTAMPTZ` counts, in nanoseconds since the Unix epoch. -/
def epoch : DateTime := 946684800 * 10 ^ 9

/-- A timestamp in microseconds since `epoch`, as a time. -/
def ofMicros (t : ℤ) : DateTime := epoch + t * 1000

/-- `sqlx` truncates the distance to `epoch`. -/
def toMicros (t : DateTime) : ℤ := (t - epoch).tdiv 1000

def columns (J : JsonColumn) : Columns where
  Id := Uuid
  Time := ℤ
  Json := J.Json
  idEq := inferInstance
  id u := u
  parseId := .ok
  time := toMicros
  parseTime t := .ok (ofMicros t)
  before a b := a < b
  json := J.json
  parseJson := J.parseJson
  round t := ofMicros (toMicros t)
  parseId_id _ := rfl
  parseTime_time _ := rfl
  parseJson_json := J.parseJson_json

/-- `now + seconds * INTERVAL '1 second'`. -/
def addSeconds (now seconds : ℤ) : Except String ℤ :=
  if (seconds * 10 ^ 6).natAbs ≥ 2 ^ 63 then
    .error "error returned from database: interval out of range"
  else if now + seconds * 10 ^ 6 < -211813488000000000 ∨
      9223371331200000000 ≤ now + seconds * 10 ^ 6 then
    .error "error returned from database: timestamp out of range"
  else .ok (now + seconds * 10 ^ 6)

/-- `Duration::as_secs() as i64`. -/
def asSecs (nanos : ℕ) : ℤ := (asI64 (nanos / 10 ^ 9)).toInt

end Postgres

variable {C : Columns}

inductive Write (C : Columns) where
  | update (u : TaskUpdate C)
  | event (row : EventRow C)

namespace Write

def taskId : Write C → C.Id
  | update u => u.taskId
  | event row => row.taskId

def apply (d : Tables C) : Write C → Tables C
  | update u => (d.updateTask u).1
  | event row => (d.insertEvent row).getD d

end Write

structure PostgresDb (C : Columns) where
  committed : Tables C
  /-- The transactions that hold the locks on task rows. -/
  locks : C.Id → Option ℕ
  /-- The writes of the open transactions. -/
  tx : ℕ → Option (List (Write C))

inductive PostgresOp (C : Columns) where
  | utcNow
  | serverNow
  | begin
  | selectForUpdate (id : C.Id)
  | selectTask (id : C.Id)
  | updateTask (u : TaskUpdate C)
  | insertEvent (row : EventRow C)
  | commit
  | rollback
  | execute (s : Statement C)

abbrev PostgresOp.Reply : PostgresOp C → Type
  | .utcNow => DateTime
  | .serverNow => ℤ
  | .begin => Except StoreError Unit
  | .selectForUpdate _ => Except StoreError (Option (TaskRow C))
  | .selectTask _ => Except StoreError (Option (TaskRow C))
  | .updateTask _ => Except StoreError ℕ
  | .insertEvent _ => Except StoreError Unit
  | .commit => Except StoreError Unit
  | .rollback => Unit
  | .execute s => Except StoreError s.Reply

abbrev postgresSig (C : Columns) : Signature := ⟨PostgresOp C, PostgresOp.Reply⟩

structure PostgresChoice (C : Columns) where
  now : DateTime := 0
  /-- The statement fails for a reason of its own. -/
  fault : Option String := none
  /-- A commit, or a statement outside a transaction, that fails has taken effect. -/
  tookEffect : Bool := false
  /-- The text of the error for a violated constraint. -/
  message : String := ""
  picked : Picked C := {}

namespace PostgresDb

def empty : PostgresDb C := ⟨.empty, fun _ => none, fun _ => none⟩

variable (db : PostgresDb C) (tid : ℕ)

/-- The tables as the transaction of `tid` sees them. -/
def seen : Tables C := ((db.tx tid).getD []).foldl Write.apply db.committed

variable (id : C.Id)

def lockedByOther : Bool := (db.locks id).any (fun j => j ≠ tid)

def lock : PostgresDb C := { db with locks := Function.update db.locks id (some tid) }

def push (w : Write C) : PostgresDb C :=
  { db.lock tid w.taskId with
    tx := Function.update db.tx tid (some ((db.tx tid).getD [] ++ [w])) }

def release : PostgresDb C :=
  { db with
    locks := fun id => if db.locks id = some tid then none else db.locks id
    tx := Function.update db.tx tid none }

def install : PostgresDb C := { db.release tid with committed := db.seen tid }

/-- A statement outside a transaction waits for a row lock: for the rows it deletes and for the
task that a new lease refers to. -/
def Waits (picked : Picked C) : Statement C → Prop
  | .upsertLease row _ => (db.committed.leases.find row.taskId).isNone ∧
    (db.locks row.taskId).isSome
  | .deleteTasks _ _ => ∃ id ∈ picked.tasks, (db.locks id).isSome
  | _ => False

instance (picked : Picked C) (s : Statement C) : Decidable (db.Waits picked s) :=
  decidable_of_bool (match s with
    | .upsertLease row _ => (db.committed.leases.find row.taskId).isNone ∧
      (db.locks row.taskId).isSome
    | .deleteTasks _ _ => ∃ id ∈ picked.tasks, (db.locks id).isSome
    | _ => false) (by cases s <;> simp [Waits])

def runStatement (s : Statement C) (c : PostgresChoice C) :
    Option (PostgresDb C × Except StoreError s.Reply) :=
  if db.Waits c.picked s ∨ ¬ s.Admits db.committed c.picked then none
  else
    let r := s.attempt db.committed c.picked c.message
    match c.fault with
    | some m =>
      some (if c.tookEffect then { db with committed := r.1 } else db, .error (dbError m))
    | none => some ({ db with committed := r.1 }, r.2)

/-- A statement of an open transaction on the row `id`. -/
def onRow {α : Type} (c : PostgresChoice C) (run : PostgresDb C × Except StoreError α) :
    Option (PostgresDb C × Except StoreError α) :=
  match c.fault with
  | some m => some (db, .error (dbError m))
  | none =>
    if (db.tx tid).isNone ∨ db.lockedByOther tid id then none else some run

def runSelectForUpdate : PostgresDb C × Except StoreError (Option (TaskRow C)) :=
  match (db.seen tid).selectTask id with
  | none => (db, .ok none)
  | some row => (db.lock tid id, .ok (some row))

def runUpdateTask (u : TaskUpdate C) : PostgresDb C × Except StoreError ℕ :=
  if ((db.seen tid).updateTask u).2 = 1 then
    (db.push tid (.update u), .ok ((db.seen tid).updateTask u).2)
  else (db, .ok ((db.seen tid).updateTask u).2)

def runInsertEvent (row : EventRow C) (message : String) : PostgresDb C × Except StoreError Unit :=
  match (db.seen tid).insertEvent row with
  | none => (db, .error (dbError message))
  | some _ => (db.push tid (.event row), .ok ())

def exec (o : PostgresOp C) (c : PostgresChoice C) : Option (PostgresDb C × o.Reply) :=
  match o with
  | .utcNow => some (db, c.now)
  | .serverNow => some (db, Postgres.toMicros c.now)
  | .begin => match c.fault with
    | some m => some (db, .error (dbError m))
    | none => match db.tx tid with
      | none => some ({ db with tx := Function.update db.tx tid (some []) }, .ok ())
      | some _ => none
  | .selectForUpdate id => db.onRow tid id c (db.runSelectForUpdate tid id)
  | .selectTask id => match c.fault with
    | some m => some (db, .error (dbError m))
    | none => some (db, .ok ((db.seen tid).selectTask id))
  | .updateTask u => db.onRow tid u.taskId c (db.runUpdateTask tid u)
  | .insertEvent row => db.onRow tid row.taskId c (db.runInsertEvent tid row c.message)
  | .commit => match c.fault with
    | some m => some (if c.tookEffect then db.install tid else db, .error (dbError m))
    | none => some (db.install tid, .ok ())
  | .rollback => some (db.release tid, ())
  | .execute s => db.runStatement s c

end PostgresDb

namespace PostgresTaskStore

variable {J : JsonColumn}

abbrev PostgresM (C : Columns) := ExceptT StoreError (Prog (postgresSig C))

def perform (o : PostgresOp C) : Prog (postgresSig C) o.Reply := Prog.perform (σ := postgresSig C) o

variable {α : Type}

def attempt (p : Prog (postgresSig C) (Except StoreError α)) : PostgresM C α :=
  ExceptT.mk p

def execute (s : Statement C) : PostgresM C s.Reply := ExceptT.mk (perform (.execute s))

def utcNow : PostgresM C DateTime := ExceptT.lift (perform .utcNow)

/-- `NOW()`. -/
def serverNow : PostgresM C ℤ := ExceptT.lift (perform .serverNow)

def ofExcept (r : Except StoreError α) : PostgresM C α := ExceptT.mk (.pure r)

/-- A transaction that is dropped before it is committed is rolled back. -/
def endTransaction : Except StoreError α → Prog (postgresSig C) (Except StoreError α)
  | .ok a => return .ok a
  | .error e => do
    perform .rollback
    return .error e

/-- `let mut tx = self.pool.begin().await?`. -/
def inTransaction (body : PostgresM C α) : Prog (postgresSig C) (Except StoreError α) := do
  match ← perform .begin with
  | .error e => return .error e
  | .ok () => body.run >>= endTransaction

def errors : RowErrors where
  id e := dbError e
  session e := dbError e
  time e := dbError e
  state value := .corrupt ("unknown state: " ++ value)

def snapshot (row : TaskRow C) : Except StoreError TaskSnapshot := row.decode errors

def createOrGetIdempotent (task : NewTask) :
    Prog (postgresSig C) (Except StoreError CreateTaskResult) :=
  (do
    let now ← utcNow
    let inserted ← execute (.insertTaskOrIgnore (.new task now))
    let found ← execute (.selectTaskByKey task.key)
    let row ← ofExcept (fetchOne found)
    let s ← ofExcept (snapshot row)
    return if inserted = 1 then .created s else .existing s : PostgresM C CreateTaskResult).run

def getSnapshot (id : TaskId) : Prog (postgresSig C) (Except StoreError (Option TaskSnapshot)) :=
  (do
    match ← execute (.selectTask (C.id id)) with
    | some row => do
      let s ← ofExcept (snapshot row)
      return some s
    | none => return none : PostgresM C (Option TaskSnapshot)).run

def appendEventAndTransition (t : TaskTransition) :
    Prog (postgresSig C) (Except StoreError AppliedTransition) :=
  inTransaction (do
    match ← attempt (perform (.selectForUpdate (C.id t.taskId))) with
    | none => throw (.notFound t.taskId)
    | some row => do
      let current ← ofExcept (snapshot row)
      ofExcept (checkTransition t current)
      let now ← utcNow
      let updated ← attempt (perform (.updateTask (t.update current now)))
      if updated ≠ 1 then throw .conflict
      else do
        let payload ← ofExcept ((C.json t.eventKind).mapError StoreError.internal)
        attempt (perform (.insertEvent (t.eventRow current payload now)))
        let found ← attempt (perform (.selectTask (C.id t.taskId)))
        let row ← ofExcept (fetchOne found)
        let s ← ofExcept (snapshot row)
        attempt (perform .commit)
        return ⟨s, ⟨t.taskId, current.lastSeq + 1, now, t.eventKind⟩⟩)

def eventsAfter (id : TaskId) (afterSeq limit : ℕ) :
    Prog (postgresSig C) (Except StoreError (List CoreEvent)) :=
  (do
    let rows ← execute (.selectEvents (C.id id) (asI64 afterSeq) (min limit 10000))
    ofExcept (decodeEvents errors id rows) : PostgresM C (List CoreEvent)).run

def acquireLease (lease : Lease) :
    Prog (postgresSig (Postgres.columns J)) (Except StoreError Bool) :=
  (do
    let now ← serverNow
    let expires ← ofExcept
      ((Postgres.addSeconds now (Postgres.asSecs lease.expiresIn)).mapError dbError)
    let changed ← execute (.upsertLease ⟨lease.taskId, lease.ownerId, expires, now⟩ now)
    return changed = 1 : PostgresM (Postgres.columns J) Bool).run

def renewLease (lease : Lease) : Prog (postgresSig (Postgres.columns J)) (Except StoreError Bool) :=
  (do
    let now ← serverNow
    let expires ← ofExcept
      ((Postgres.addSeconds now (Postgres.asSecs lease.expiresIn)).mapError dbError)
    let changed ← execute (.updateLease ⟨lease.taskId, lease.ownerId, expires, now⟩ now)
    return changed = 1 : PostgresM (Postgres.columns J) Bool).run

def cleanup (policy : RetentionPolicy) :
    Prog (postgresSig (Postgres.columns J)) (Except StoreError CleanupReport) :=
  (do
    let now ← serverNow
    let eventCutoff ← ofExcept
      ((Postgres.addSeconds now (-Postgres.asSecs policy.eventTtl)).mapError dbError)
    let events ← execute (.deleteEvents eventCutoff policy.cleanupBatchSize)
    let now ← serverNow
    let taskCutoff ← ofExcept
      ((Postgres.addSeconds now (-Postgres.asSecs policy.taskTtl)).mapError dbError)
    let tasks ← execute (.deleteTasks taskCutoff policy.cleanupBatchSize)
    return ⟨tasks, events, tasks⟩ : PostgresM (Postgres.columns J) CleanupReport).run

variable (C) in
def store : TaskStore (postgresSig C) where
  createOrGetIdempotent := createOrGetIdempotent
  getSnapshot := getSnapshot
  appendEventAndTransition := appendEventAndTransition
  eventsAfter := eventsAfter
  abandon := perform .rollback

def clock : (o : PostgresOp C) → o.Reply → Option DateTime
  | .utcNow, now => some now
  | .serverNow, now => some (Postgres.ofMicros now)
  | _, _ => none

def inDoubt : (o : PostgresOp C) → o.Reply → Bool
  | .commit, .error _ => true
  | .execute _, .error _ => true
  | _, _ => false

end PostgresTaskStore

abbrev postgresMachine (J : JsonColumn) : DurableMachine where
  sig := postgresSig (Postgres.columns J)
  Db := PostgresDb (Postgres.columns J)
  Choice := PostgresChoice (Postgres.columns J)
  empty := .empty
  exec tid db := db.exec tid
  store := PostgresTaskStore.store (Postgres.columns J)
  acquireLease := PostgresTaskStore.acquireLease
  renewLease := PostgresTaskStore.renewLease
  cleanup := PostgresTaskStore.cleanup
  calm now := { now := now }
  clock := PostgresTaskStore.clock
  inDoubt := PostgresTaskStore.inDoubt
  Settled db := (∀ id, db.locks id = none) ∧ ∀ tid, db.tx tid = none
  view := (sqlView PostgresTaskStore.errors).comap PostgresDb.committed

end AgentConnector
