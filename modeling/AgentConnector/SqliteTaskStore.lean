import AgentConnector.SqlStatements

/-!
# The SQLite store

The methods of `SqliteTaskStore` statement by statement. Writers first take the `write_guard` mutex.
A transaction is deferred: its first statement fixes the snapshot it reads, its first write needs
the write lock of the database and a snapshot that is still current, and its changes are seen by
others when it commits. Any statement may fail; a commit that fails may have taken effect. Dropping
a transaction rolls it back, and dropping a call releases the mutex as well.
-/

namespace AgentConnector

open Concurrent

variable {C : Columns}

/-- A transaction: begun, reading a snapshot of the given version, or writing to a copy of the
tables it started from. -/
inductive SqliteTx (C : Columns) where
  | deferred
  | reading (base : Tables C) (version : ℕ)
  | writing (base work : Tables C)

structure SqliteDb (C : Columns) where
  committed : Tables C
  version : ℕ
  /-- The holder of `write_guard`. -/
  guard : Option ℕ
  /-- The holder of the write lock of the database. -/
  writer : Option ℕ
  tx : ℕ → Option (SqliteTx C)

inductive SqliteOp (C : Columns) where
  | lock
  | unlock
  | utcNow
  | panicked
  | begin
  | query (q : Query C)
  | commit
  | rollback
  | execute (s : Statement C)

abbrev SqliteOp.Reply : SqliteOp C → Type
  | .utcNow => DateTime
  | .begin => Except StoreError Unit
  | .query q => Except StoreError q.Reply
  | .commit => Except StoreError Unit
  | .execute s => Except StoreError s.Reply
  | _ => Unit

abbrev sqliteSig (C : Columns) : Signature := ⟨SqliteOp C, SqliteOp.Reply⟩

structure SqliteChoice (C : Columns) where
  now : DateTime := 0
  /-- The statement fails for a reason of its own. -/
  fault : Option String := none
  /-- A commit that fails has taken effect. -/
  tookEffect : Bool := false
  /-- The text of the error for a violated constraint or a lock that is held. -/
  message : String := ""
  picked : Picked C := {}

namespace SqliteDb

def empty : SqliteDb C := ⟨.empty, 0, none, none, fun _ => none⟩

variable (db : SqliteDb C) (tid : ℕ)

def setTx (tx : Option (SqliteTx C)) : SqliteDb C := { db with tx := Function.update db.tx tid tx }

def snapshotTx : Option (SqliteTx C) :=
  match db.tx tid with
  | some .deferred => some (.reading db.committed db.version)
  | tx => tx

def runQuery (q : Query C) (message : String) : Option (SqliteDb C × Except StoreError q.Reply) :=
  match db.snapshotTx tid with
  | some (.reading base version) =>
    if q.writes then
      if db.writer = none ∧ version = db.version then
        some ({ db.setTx tid (some (.writing base (q.attempt base message).1)) with
          writer := some tid }, (q.attempt base message).2)
      else some (db.setTx tid (some (.reading base version)), .error (dbError message))
    else some (db.setTx tid (some (.reading base version)), (q.attempt base message).2)
  | some (.writing base work) =>
    some (db.setTx tid (some (.writing base (q.attempt work message).1)),
      (q.attempt work message).2)
  | _ => none

/-- What `COMMIT` does. -/
def close : SqliteDb C :=
  match db.tx tid with
  | some (.writing _ work) =>
    { db.setTx tid none with committed := work, version := db.version + 1, writer := none }
  | _ => db.setTx tid none

def abort : SqliteDb C :=
  { db.setTx tid none with writer := if db.writer = some tid then none else db.writer }

def runStatement (s : Statement C) (c : SqliteChoice C) :
    Option (SqliteDb C × Except StoreError s.Reply) :=
  if s.writes then
    if db.writer = none then
      if s.Admits db.committed c.picked then
        some ({ db with
            committed := (s.attempt db.committed c.picked c.message).1
            version := db.version + 1 },
          (s.attempt db.committed c.picked c.message).2)
      else none
    else some (db, .error (dbError c.message))
  else some (db, (s.attempt db.committed c.picked c.message).2)

def exec (o : SqliteOp C) (c : SqliteChoice C) : Option (SqliteDb C × o.Reply) :=
  match o with
  | .lock => if db.guard = none then some ({ db with guard := some tid }, ()) else none
  | .unlock => some (if db.guard = some tid then { db with guard := none } else db, ())
  | .utcNow => some (db, c.now)
  | .panicked => none
  | .begin => match c.fault with
    | some m => some (db, .error (dbError m))
    | none => match db.tx tid with
      | none => some (db.setTx tid (some .deferred), .ok ())
      | some _ => none
  | .query q => match c.fault with
    | some m => some (db, .error (dbError m))
    | none => db.runQuery tid q c.message
  | .commit => match c.fault with
    | some m => some (if c.tookEffect then db.close tid else db, .error (dbError m))
    | none => some (db.close tid, .ok ())
  | .rollback => some (db.abort tid, ())
  | .execute s => match c.fault with
    | some m => some (db, .error (dbError m))
    | none => db.runStatement s c

end SqliteDb

namespace SqliteTaskStore

abbrev SqliteM (C : Columns) := ExceptT StoreError (Prog (sqliteSig C))

def perform (o : SqliteOp C) : Prog (sqliteSig C) o.Reply := Prog.perform (σ := sqliteSig C) o

def query (q : Query C) : SqliteM C q.Reply := ExceptT.mk (perform (.query q))

def execute (s : Statement C) : SqliteM C s.Reply := ExceptT.mk (perform (.execute s))

def commit : SqliteM C Unit := ExceptT.mk (perform .commit)

def utcNow : SqliteM C DateTime := ExceptT.lift (perform .utcNow)

variable {α : Type}

def ofExcept (r : Except StoreError α) : SqliteM C α := ExceptT.mk (.pure r)

def panicked {α : Type} : SqliteM C α :=
  ExceptT.mk (do
    perform .unlock
    perform .panicked
    return .error .conflict)

def release (r : Except StoreError α) : Prog (sqliteSig C) (Except StoreError α) := do
  perform .unlock
  return r

/-- `let _guard = self.write_guard.lock().await`, held until the method returns. -/
def guarded (body : SqliteM C α) : Prog (sqliteSig C) (Except StoreError α) := do
  perform .lock
  body.run >>= release

/-- A transaction that is dropped before it is committed is rolled back. -/
def endTransaction : Except StoreError α → Prog (sqliteSig C) (Except StoreError α)
  | .ok a => return .ok a
  | .error e => do
    perform .rollback
    return .error e

/-- `let mut tx = self.pool.begin().await?`. -/
def inTransaction (body : SqliteM C α) : SqliteM C α :=
  ExceptT.mk (do
    match ← perform .begin with
    | .error e => return .error e
    | .ok () => body.run >>= endTransaction)

def errors : RowErrors where
  id e := .corrupt ("id:" ++ e)
  session e := .corrupt ("session:" ++ e)
  time e := .corrupt ("time: " ++ e)
  state value := .corrupt ("state=" ++ value)

def snapshot (row : TaskRow C) : Except StoreError TaskSnapshot := row.decode errors

def createOrGetIdempotent (task : NewTask) : Prog (sqliteSig C)
    (Except StoreError CreateTaskResult) :=
  guarded (inTransaction (do
    match ← query (.selectTaskByKey task.key) with
    | some row => do
      let s ← ofExcept (snapshot row)
      commit
      return .existing s
    | none => do
      let now ← utcNow
      query (.insertTask (.new task now))
      let found ← query (.selectTask (C.id task.taskId))
      let row ← ofExcept (fetchOne found)
      let s ← ofExcept (snapshot row)
      commit
      return .created s))

def getSnapshot (id : TaskId) : Prog (sqliteSig C) (Except StoreError (Option TaskSnapshot)) :=
  (do
    match ← execute (.selectTask (C.id id)) with
    | some row => do
      let s ← ofExcept (snapshot row)
      return some s
    | none => return none : SqliteM C (Option TaskSnapshot)).run

def appendEventAndTransition (t : TaskTransition) :
    Prog (sqliteSig C) (Except StoreError AppliedTransition) :=
  guarded (inTransaction (do
    match ← query (.selectTask (C.id t.taskId)) with
    | none => throw (.notFound t.taskId)
    | some row => do
      let current ← ofExcept (snapshot row)
      ofExcept (checkTransition t current)
      let now ← utcNow
      let changed ← query (.updateTask (t.update current now))
      if changed ≠ 1 then throw .conflict
      else do
        let kind ← ofExcept ((C.json t.eventKind).mapError StoreError.internal)
        query (.insertEvent (t.eventRow current kind now))
        let found ← query (.selectTask (C.id t.taskId))
        let row ← ofExcept (fetchOne found)
        let s ← ofExcept (snapshot row)
        commit
        return ⟨s, ⟨t.taskId, current.lastSeq + 1, now, t.eventKind⟩⟩))

def eventsAfter (id : TaskId) (afterSeq limit : ℕ) :
    Prog (sqliteSig C) (Except StoreError (List CoreEvent)) :=
  (do
    let rows ← execute (.selectEvents (C.id id) (asI64 afterSeq) (min limit 10000))
    ofExcept (decodeEvents errors id rows) : SqliteM C (List CoreEvent)).run

/-- `now + Duration::from_std(d)?`. -/
def addStd (now : DateTime) (d : ℕ) : SqliteM C DateTime :=
  match durationFromStd d with
  | none => throw .outOfRange
  | some d => match chronoAdd now d with
    | none => panicked
    | some t => return t

/-- `now - Duration::from_std(d)?`. -/
def subStd (now : DateTime) (d : ℕ) : SqliteM C DateTime :=
  match durationFromStd d with
  | none => throw .outOfRange
  | some d => match chronoAdd now (-d) with
    | none => panicked
    | some t => return t

def acquireLease (lease : Lease) : Prog (sqliteSig C) (Except StoreError Bool) :=
  guarded (do
    let now ← utcNow
    let expires ← addStd now lease.expiresIn
    let changed ← execute (.upsertLease
      ⟨C.id lease.taskId, lease.ownerId, C.time expires, C.time now⟩ (C.time now))
    return changed = 1)

def renewLease (lease : Lease) : Prog (sqliteSig C) (Except StoreError Bool) :=
  guarded (do
    let now ← utcNow
    let expires ← addStd now lease.expiresIn
    let changed ← execute (.updateLease
      ⟨C.id lease.taskId, lease.ownerId, C.time expires, C.time now⟩ (C.time now))
    return changed = 1)

def cleanup (policy : RetentionPolicy) : Prog (sqliteSig C) (Except StoreError CleanupReport) :=
  guarded (do
    let now ← utcNow
    let taskCutoff ← subStd now policy.taskTtl
    let eventCutoff ← subStd now policy.eventTtl
    let events ← execute (.deleteEvents (C.time eventCutoff) policy.cleanupBatchSize)
    let tasks ← execute (.deleteTasks (C.time taskCutoff) policy.cleanupBatchSize)
    return ⟨tasks, events, tasks⟩)

variable (C) in
def store : TaskStore (sqliteSig C) where
  createOrGetIdempotent := createOrGetIdempotent
  getSnapshot := getSnapshot
  appendEventAndTransition := appendEventAndTransition
  eventsAfter := eventsAfter
  abandon := do
    perform .rollback
    perform .unlock

def clock : (o : SqliteOp C) → o.Reply → Option DateTime
  | .utcNow, now => some now
  | _, _ => none

def inDoubt : (o : SqliteOp C) → o.Reply → Bool
  | .commit, .error _ => true
  | _, _ => false

end SqliteTaskStore

abbrev sqliteMachine (C : Columns) : DurableMachine where
  sig := sqliteSig C
  Db := SqliteDb C
  Choice := SqliteChoice C
  empty := .empty
  exec tid db := db.exec tid
  store := SqliteTaskStore.store C
  acquireLease := SqliteTaskStore.acquireLease
  renewLease := SqliteTaskStore.renewLease
  cleanup := SqliteTaskStore.cleanup
  calm now := { now := now }
  clock := SqliteTaskStore.clock
  inDoubt := SqliteTaskStore.inDoubt
  Settled db := db.guard = none ∧ db.writer = none ∧ ∀ tid, db.tx tid = none
  view := (sqlView SqliteTaskStore.errors).comap SqliteDb.committed

end AgentConnector
