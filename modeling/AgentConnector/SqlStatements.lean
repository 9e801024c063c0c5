import AgentConnector.SqlTables

/-!
# The statements of the SQL stores

The statements that the stores issue inside and outside transactions as data, with what each does to
the tables and replies, and the parts of the methods that both stores share: the checks of a
transition, the update it makes and the decoding of fetched rows.
-/

namespace AgentConnector

variable {C : Columns}

/-- `db_error`. -/
def dbError (message : String) : StoreError := .unavailable message

/-- `sqlx::Error::RowNotFound`, the error of `fetch_one`. -/
def rowNotFound : StoreError :=
  dbError "no rows returned by a query that expected to return at least one row"

inductive Query (C : Columns) where
  | selectTask (id : C.Id)
  | selectTaskByKey (key : IdempotencyKey)
  | insertTask (row : TaskRow C)
  | updateTask (u : TaskUpdate C)
  | insertEvent (row : EventRow C)

namespace Query

abbrev Reply : Query C → Type
  | selectTask _ => Option (TaskRow C)
  | selectTaskByKey _ => Option (TaskRow C)
  | insertTask _ => Unit
  | updateTask _ => ℕ
  | insertEvent _ => Unit

def writes : Query C → Bool
  | selectTask _ => false
  | selectTaskByKey _ => false
  | _ => true

/-- The result of a statement, `none` if it violates a constraint. -/
def run (d : Tables C) : (q : Query C) → Option (Tables C × q.Reply)
  | selectTask id => some (d, d.selectTask id)
  | selectTaskByKey key => some (d, d.selectTaskByKey key)
  | insertTask row => (d.insertTask row).map (fun d' => (d', ()))
  | updateTask u => some (d.updateTask u)
  | insertEvent row => (d.insertEvent row).map (fun d' => (d', ()))

/-- The tables after a statement and its reply, with the message for a violated constraint. -/
def attempt (d : Tables C) (q : Query C) (message : String) :
    Tables C × Except StoreError q.Reply :=
  match q.run d with
  | some (d', r) => (d', .ok r)
  | none => (d, .error (dbError message))

end Query

inductive Statement (C : Columns) where
  | selectTask (id : C.Id)
  | selectTaskByKey (key : IdempotencyKey)
  | insertTaskOrIgnore (row : TaskRow C)
  | selectEvents (id : C.Id) (afterSeq : I64) (limit : ℕ)
  | upsertLease (row : LeaseRow C) (now : C.Time)
  | updateLease (row : LeaseRow C) (now : C.Time)
  | deleteEvents (cutoff : C.Time) (limit : ℕ)
  | deleteTasks (cutoff : C.Time) (limit : ℕ)

structure Picked (C : Columns) where
  events : List (C.Id × I64) := []
  tasks : List C.Id := []

namespace Statement

abbrev Reply : Statement C → Type
  | selectTask _ => Option (TaskRow C)
  | selectTaskByKey _ => Option (TaskRow C)
  | selectEvents _ _ _ => List (EventRow C)
  | _ => ℕ

def writes : Statement C → Bool
  | selectTask _ => false
  | selectTaskByKey _ => false
  | selectEvents _ _ _ => false
  | _ => true

variable (d : Tables C) (picked : Picked C)

def Admits : Statement C → Prop
  | deleteEvents cutoff limit => Picks (d.expiredEvents cutoff) limit picked.events
  | deleteTasks cutoff limit => Picks (d.expiredTasks cutoff) limit picked.tasks
  | _ => True

instance (d : Tables C) (picked : Picked C) (s : Statement C) : Decidable (s.Admits d picked) := by
  cases s <;> unfold Admits <;> infer_instance

/-- `INSERT INTO tasks .. ON CONFLICT(caller_id,idempotency_key) DO NOTHING`. -/
def runInsertOrIgnore (row : TaskRow C) : Option (Tables C × ℕ) :=
  match d.selectTaskByKey row.key with
  | some _ => some (d, 0)
  | none => (d.insertTask row).map (fun d' => (d', 1))

/-- The result of a statement, `none` if it violates a constraint. -/
def run : (s : Statement C) → Option (Tables C × s.Reply)
  | selectTask id => some (d, d.selectTask id)
  | selectTaskByKey key => some (d, d.selectTaskByKey key)
  | insertTaskOrIgnore row => runInsertOrIgnore d row
  | selectEvents id afterSeq limit => some (d, d.selectEvents id afterSeq limit)
  | upsertLease row now => d.upsertLease row now
  | updateLease row now => some (d.updateLease row now)
  | deleteEvents _ _ => some (d.deleteEvents picked.events, picked.events.length)
  | deleteTasks _ _ => some (d.deleteTasks picked.tasks, picked.tasks.length)

def attempt (s : Statement C) (message : String) : Tables C × Except StoreError s.Reply :=
  match s.run d picked with
  | some (d', r) => (d', .ok r)
  | none => (d, .error (dbError message))

end Statement

/-- `fetch_one`. -/
def fetchOne {α : Type} : Option α → Except StoreError α
  | some a => .ok a
  | none => .error rowNotFound

variable (t : TaskTransition) (current : TaskSnapshot)

def checkTransition : Except StoreError Unit :=
  if current.revision ≠ t.expectedRevision then .error .conflict
  else if current.state ∉ t.allowedStates then
    .error (.invalidTransition ("current=" ++ current.state.debug))
  else .ok ()

def TaskTransition.update (now : DateTime) : TaskUpdate C where
  state := t.nextState.toDb
  revision := asI64 (current.revision + 1)
  lastSeq := asI64 (current.lastSeq + 1)
  updatedAt := C.time now
  terminalAt := if t.nextState.terminal then some (C.time now) else none
  taskId := C.id t.taskId
  current := asI64 current.revision

def TaskTransition.eventRow (kind : C.Json) (now : DateTime) : EventRow C :=
  ⟨C.id t.taskId, asI64 (current.lastSeq + 1), kind, C.time now⟩

def decodeEvents (errors : RowErrors) (id : TaskId) (rows : List (EventRow C)) : Except StoreError
    (List CoreEvent) :=
  rows.mapM (fun row => row.decode errors id)

end AgentConnector
