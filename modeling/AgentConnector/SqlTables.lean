import AgentConnector.StoreCalls
import AgentConnector.KeyedTable

/-!
# The tables of the SQL stores

The schema both SQL stores create: `tasks`, `task_events` and `task_leases`, with the primary keys,
the unique pair of caller and idempotency key and the foreign keys as part of the value. Each
statement of the stores is a function of the tables, `none` where a constraint is violated. How
identifiers, times and event kinds are written into columns and read back is a parameter, `Columns`,
with what the libraries document about it; integer columns are 64 bits wide and compared as signed.
-/

namespace AgentConnector

open Keyed List

structure Columns where
  Id : Type
  Time : Type
  Json : Type
  idEq : DecidableEq Id
  id : Uuid → Id
  parseId : Id → Except String Uuid
  time : DateTime → Time
  parseTime : Time → Except String DateTime
  /-- The comparison that the database makes between two times. -/
  before : Time → Time → Bool
  json : CoreEventKind → Except String Json
  parseJson : Json → Except String CoreEventKind
  /-- What a time is read back as. -/
  round : DateTime → DateTime
  parseId_id : ∀ u, parseId (id u) = .ok u
  parseTime_time : ∀ t, parseTime (time t) = .ok (round t)
  parseJson_json : ∀ k, ∃ j, json k = .ok j ∧ parseJson j = .ok k

instance (C : Columns) : DecidableEq C.Id := C.idEq

theorem Columns.id_injective (C : Columns) : Function.Injective C.id := by
  intro u v h
  have hu := C.parseId_id u
  rw [h, C.parseId_id v] at hu
  exact (Except.ok.inj hu).symm

def InYears (t : DateTime) : Prop := -62167219200 * 10 ^ 9 ≤ t ∧ t < 253402300800 * 10 ^ 9

/-- Times as texts written by `to_rfc3339`: they keep nanoseconds, and in the years 0 to 9999 the
texts compare like the times. -/
structure Columns.Rfc3339 (C : Columns) : Prop where
  exact : ∀ t, C.round t = t
  written : ∀ text, ∃ t, text = C.time t
  before_iff : ∀ {a b}, InYears a → InYears b → (C.before (C.time a) (C.time b) = true ↔ a < b)

theorem Columns.Rfc3339.eq_time {C : Columns} (h : C.Rfc3339) {text : C.Time}
    (ht : C.parseTime text = .ok t) : text = C.time t := by
  obtain ⟨t', rfl⟩ := h.written text
  rw [C.parseTime_time, h.exact] at ht
  rw [Except.ok.inj ht]

theorem Columns.Rfc3339.lt_of_before {C : Columns} (h : C.Rfc3339) {text : C.Time}
    (ht : C.parseTime text = .ok t) (hbefore : C.before text (C.time b) = true) (hyears : InYears t)
    (hb : InYears b) : t < b := by
  rw [h.eq_time ht] at hbefore
  exact (h.before_iff hyears hb).mp hbefore

abbrev I64 := BitVec 64

/-- `as i64`. -/
def asI64 (n : ℕ) : I64 := BitVec.ofNat 64 n

/-- `as u64`. -/
def asU64 (n : I64) : ℕ := n.toNat

@[simp] theorem asI64_asU64 (n : I64) : asI64 (asU64 n) = n := by
  simp [asI64, asU64]

theorem asU64_asI64 (h : n < 2 ^ 64) : asU64 (asI64 n) = n := by
  rw [asU64, asI64, BitVec.toNat_ofNat, Nat.mod_eq_of_lt h]

namespace TaskState

/-- `state_db`, `db_state`. -/
def toDb : TaskState → String
  | created => "created"
  | accepted => "accepted"
  | running => "running"
  | waitingForInput => "waiting_for_input"
  | cancelRequested => "cancel_requested"
  | completed => "completed"
  | failed => "failed"
  | cancelled => "cancelled"

def ofDb (value : String) : Option TaskState :=
  match value with
  | "created" => some created
  | "accepted" => some accepted
  | "running" => some running
  | "waiting_for_input" => some waitingForInput
  | "cancel_requested" => some cancelRequested
  | "completed" => some completed
  | "failed" => some failed
  | "cancelled" => some cancelled
  | _ => none

@[simp] theorem ofDb_toDb (s : TaskState) : ofDb s.toDb = some s := by
  cases s <;> rfl

end TaskState

variable {C : Columns}

structure TaskRow (C : Columns) where
  taskId : C.Id
  sessionId : Option C.Id
  agentId : String
  callerId : String
  idempotencyKey : String
  state : String
  revision : I64
  lastSeq : I64
  deadlineAt : Option C.Time
  createdAt : C.Time
  updatedAt : C.Time
  terminalAt : Option C.Time

structure EventRow (C : Columns) where
  taskId : C.Id
  seq : I64
  kind : C.Json
  createdAt : C.Time

structure LeaseRow (C : Columns) where
  taskId : C.Id
  ownerId : String
  expiresAt : C.Time
  updatedAt : C.Time

variable (row : TaskRow C)

def TaskRow.key : IdempotencyKey := (⟨row.callerId⟩, row.idempotencyKey)

def EventRow.key (row : EventRow C) : C.Id × I64 := (row.taskId, row.seq)

/-- The row that `create_or_get_idempotent` inserts. -/
def TaskRow.new (task : NewTask) (now : DateTime) : TaskRow C where
  taskId := C.id task.taskId
  sessionId := task.sessionId.map C.id
  agentId := task.agentId.name
  callerId := task.callerId.name
  idempotencyKey := task.idempotencyKey
  state := "created"
  revision := 0
  lastSeq := 0
  deadlineAt := task.deadlineAt.map C.time
  createdAt := C.time now
  updatedAt := C.time now
  terminalAt := none

/-- `UPDATE tasks SET .. WHERE task_id=? AND revision=?`. -/
structure TaskUpdate (C : Columns) where
  state : String
  revision : I64
  lastSeq : I64
  updatedAt : C.Time
  terminalAt : Option C.Time
  taskId : C.Id
  current : I64

variable (u : TaskUpdate C)

/-- The columns that an update sets; `terminal_at` is set once. -/
def TaskRow.update : TaskRow C :=
  { row with
    state := u.state
    revision := u.revision
    lastSeq := u.lastSeq
    updatedAt := u.updatedAt
    terminalAt := row.terminalAt.or u.terminalAt }

@[simp] theorem TaskRow.update_taskId : (row.update u).taskId = row.taskId := rfl

@[simp] theorem TaskRow.update_key : (row.update u).key = row.key := rfl

structure RowErrors where
  id : String → StoreError
  session : String → StoreError
  time : String → StoreError
  state : String → StoreError

def parseOption {α β : Type} (parse : α → Except StoreError β) :
    Option α → Except StoreError (Option β)
  | none => .ok none
  | some a => (parse a).map some

variable (errors : RowErrors)

/-- `state`. -/
def parseState (value : String) : Except StoreError TaskState :=
  match TaskState.ofDb value with
  | some state => .ok state
  | none => .error (errors.state value)

def TaskRow.decode (row : TaskRow C) : Except StoreError TaskSnapshot := do
  let taskId ← (C.parseId row.taskId).mapError errors.id
  let sessionId ← parseOption (fun v => (C.parseId v).mapError errors.session) row.sessionId
  let state ← parseState errors row.state
  let createdAt ← (C.parseTime row.createdAt).mapError errors.time
  let updatedAt ← (C.parseTime row.updatedAt).mapError errors.time
  let terminalAt ← parseOption (fun v => (C.parseTime v).mapError errors.time) row.terminalAt
  return { taskId := taskId
           sessionId := sessionId
           agentId := ⟨row.agentId⟩
           callerId := ⟨row.callerId⟩
           state := state
           revision := asU64 row.revision
           lastSeq := asU64 row.lastSeq
           createdAt := createdAt
           updatedAt := updatedAt
           terminalAt := terminalAt }

/-- An event row of the task `id`. -/
def EventRow.decode (id : TaskId) (row : EventRow C) : Except StoreError CoreEvent := do
  let kind ← (C.parseJson row.kind).mapError StoreError.corrupt
  let at_ ← (C.parseTime row.createdAt).mapError errors.time
  return ⟨id, asU64 row.seq, at_, kind⟩

structure Tables (C : Columns) where
  tasks : Table (TaskRow.taskId (C := C))
  events : Table (EventRow.key (C := C))
  leases : Table (LeaseRow.taskId (C := C))
  unique : (tasks.rows.map TaskRow.key).Nodup
  eventTask : ∀ e ∈ events.rows, e.taskId ∈ tasks.rows.map TaskRow.taskId
  leaseTask : ∀ l ∈ leases.rows, l.taskId ∈ tasks.rows.map TaskRow.taskId

namespace Tables

def empty : Tables C where
  tasks := .empty
  events := .empty
  leases := .empty
  unique := nodup_nil
  eventTask _ h := by cases h
  leaseTask _ h := by cases h

variable (d : Tables C)

variable (id : C.Id)

/-- `SELECT * FROM tasks WHERE task_id=?`. -/
def selectTask : Option (TaskRow C) := d.tasks.find id

def byKey : Table (TaskRow.key (C := C)) := ⟨d.tasks.rows, d.unique⟩

/-- `SELECT * FROM tasks WHERE caller_id=? AND idempotency_key=?`. -/
def selectTaskByKey (key : IdempotencyKey) : Option (TaskRow C) := d.byKey.find key

/-- `INSERT INTO tasks`. -/
def insertTask : Option (Tables C) :=
  if h : row.taskId ∉ d.tasks.rows.map TaskRow.taskId ∧ row.key ∉ d.tasks.rows.map TaskRow.key then
    some { d with
        tasks := d.tasks.insert row h.1
        unique := by
          rw [Table.rows_insert, map_append, map_singleton]
          exact List.Nodup.append d.unique (nodup_singleton _) (by simpa using h.2)
        eventTask := fun e he => by
          rw [Table.rows_insert, map_append]
          exact mem_append_left _ (d.eventTask e he)
        leaseTask := fun l hl => by
          rw [Table.rows_insert, map_append]
          exact mem_append_left _ (d.leaseTask l hl) }
  else none

def modifyTask : Tables C :=
  { d with
    tasks := d.tasks.modify u.taskId (fun row => row.update u) (fun row => row.update_taskId u)
    unique := by
      rw [Table.map_rows_modify _ _ _ (fun row => row.update_key u)]
      exact d.unique
    eventTask := fun e he => by
      rw [Table.map_rows_modify _ _ _ (fun row => row.update_taskId u)]
      exact d.eventTask e he
    leaseTask := fun l hl => by
      rw [Table.map_rows_modify _ _ _ (fun row => row.update_taskId u)]
      exact d.leaseTask l hl }

/-- `UPDATE tasks`, with the number of rows affected. -/
def updateTask : Tables C × ℕ :=
  match d.selectTask u.taskId with
  | some row => if row.revision = u.current then (d.modifyTask u, 1) else (d, 0)
  | none => (d, 0)

/-- `INSERT INTO task_events`. -/
def insertEvent (row : EventRow C) : Option (Tables C) :=
  if h : row.key ∉ d.events.rows.map EventRow.key ∧
      row.taskId ∈ d.tasks.rows.map TaskRow.taskId then
    some { d with
        events := d.events.insert row h.1
        eventTask := fun e he => by
          rw [Table.rows_insert] at he
          rcases mem_append.mp he with he | he
          · exact d.eventTask e he
          · rw [mem_singleton] at he
            rw [he]
            exact h.2 }
  else none

def eventRows : List (EventRow C) := d.events.rows.filter (fun e => e.taskId = id)

/-- `SELECT .. FROM task_events WHERE task_id=? AND seq>? ORDER BY seq LIMIT ?`. -/
def selectEvents (afterSeq : I64) (limit : ℕ) : List (EventRow C) :=
  (((d.eventRows id).filter (fun e => afterSeq.slt e.seq)).insertionSort
    (fun a b => a.seq.toInt ≤ b.seq.toInt)).take limit

def insertLease (row : LeaseRow C) (h : row.taskId ∉ d.leases.rows.map LeaseRow.taskId)
    (htask : row.taskId ∈ d.tasks.rows.map TaskRow.taskId) : Tables C :=
  { d with
    leases := d.leases.insert row h
    leaseTask := fun l hl => by
      rw [Table.rows_insert] at hl
      rcases mem_append.mp hl with hl | hl
      · exact d.leaseTask l hl
      · rw [mem_singleton] at hl
        rw [hl]
        exact htask }

def modifyLease (f : LeaseRow C → LeaseRow C) (hf : ∀ l, (f l).taskId = l.taskId) : Tables C :=
  { d with
    leases := d.leases.modify id f hf
    leaseTask := fun l hl => by
      obtain ⟨l', hl', rfl⟩ := mem_map.mp hl
      split
      · rw [hf]
        exact d.leaseTask l' hl'
      · exact d.leaseTask l' hl' }

/-- `INSERT INTO task_leases .. ON CONFLICT(task_id) DO UPDATE .. WHERE expires_at<? OR
owner_id=excluded.owner_id`, with the number of rows affected. -/
def upsertLease (row : LeaseRow C) (now : C.Time) : Option (Tables C × ℕ) :=
  match d.leases.find row.taskId with
  | some old =>
    if C.before old.expiresAt now ∨ old.ownerId = row.ownerId then
      some (d.modifyLease row.taskId (fun l => { row with taskId := l.taskId }) (fun _ => rfl), 1)
    else some (d, 0)
  | none =>
    if h : row.taskId ∉ d.leases.rows.map LeaseRow.taskId ∧
        row.taskId ∈ d.tasks.rows.map TaskRow.taskId then
      some (d.insertLease row h.1 h.2, 1)
    else none

/-- `UPDATE task_leases SET expires_at=?,updated_at=? WHERE task_id=? AND owner_id=? AND
expires_at>=?`, with the number of rows affected. -/
def updateLease (row : LeaseRow C) (now : C.Time) : Tables C × ℕ :=
  match d.leases.find row.taskId with
  | some old =>
    if old.ownerId = row.ownerId ∧ C.before old.expiresAt now = false then
      (d.modifyLease row.taskId
        (fun l => { l with expiresAt := row.expiresAt, updatedAt := row.updatedAt })
        (fun _ => rfl), 1)
    else (d, 0)
  | none => (d, 0)

/-- The events a retention run may delete: those created before the cutoff. -/
def expiredEvents (cutoff : C.Time) : List (C.Id × I64) :=
  (d.events.rows.filter (fun e => C.before e.createdAt cutoff)).map EventRow.key

/-- `terminal_at IS NOT NULL AND terminal_at<?`. -/
def expiredTasks (cutoff : C.Time) : List C.Id :=
  (d.tasks.rows.filter (fun row => row.terminalAt.any (fun at_ => C.before at_ cutoff))).map
    TaskRow.taskId

def deleteEvents (picked : List (C.Id × I64)) : Tables C :=
  { d with
    events := d.events.filter (fun e => e.key ∉ picked)
    eventTask := fun e he => d.eventTask e (mem_filter.mp he).1 }

def deleteTasks (picked : List C.Id) : Tables C where
  tasks := d.tasks.filter (fun row => row.taskId ∉ picked)
  events := d.events.filter (fun e => e.taskId ∉ picked)
  leases := d.leases.filter (fun l => l.taskId ∉ picked)
  unique := d.unique.sublist (filter_sublist.map _)
  eventTask e he := by
    obtain ⟨he, hpicked⟩ := mem_filter.mp he
    obtain ⟨row, hrow, hid⟩ := mem_map.mp (d.eventTask e he)
    exact mem_map.mpr ⟨row, mem_filter.mpr ⟨hrow, by rw [hid]; exact hpicked⟩, hid⟩
  leaseTask l hl := by
    obtain ⟨hl, hpicked⟩ := mem_filter.mp hl
    obtain ⟨row, hrow, hid⟩ := mem_map.mp (d.leaseTask l hl)
    exact mem_map.mpr ⟨row, mem_filter.mpr ⟨hrow, by rw [hid]; exact hpicked⟩, hid⟩

end Tables

abbrev sqlView : StoreView (Tables C) where
  Row := TaskRow C
  EventRow := EventRow C
  LeaseRow := LeaseRow C
  row d id := d.selectTask (C.id id)
  log d id := d.eventRows (C.id id)
  lease d id := d.leases.find (C.id id)
  owner d key := (d.selectTaskByKey key).bind (fun row => (C.parseId row.taskId).toOption)
  snapshot := TaskRow.decode errors
  event id row := row.decode errors id

/-- A possible outcome of `SELECT .. LIMIT` without an order. -/
def Picks {α : Type} (candidates : List α) (limit : ℕ) (picked : List α) : Prop :=
  picked.Nodup ∧ picked ⊆ candidates ∧ picked.length = min limit candidates.length

instance {α : Type} [DecidableEq α] (candidates : List α) (limit : ℕ) (picked : List α) :
    Decidable (Picks candidates limit picked) := by
  unfold Picks
  infer_instance

end AgentConnector
