import AgentConnector.AdapterCore

/-!
# The whole store trait

`DurableMachine` adds to a store the methods the runtime does not call (leases and retention) and,
as a `StoreView`, how its state is read. `storeService` runs any number of concurrent calls of the
trait over one store; `DurableMachine.call` runs one call alone, with one reading of the clock.
-/

namespace AgentConnector

open Concurrent

structure Lease where
  taskId : TaskId
  ownerId : String
  /-- A `Duration`, in nanoseconds. -/
  expiresIn : ℕ

structure RetentionPolicy where
  taskTtl : ℕ := 7 * 24 * 3600 * 10 ^ 9
  eventTtl : ℕ := 7 * 24 * 3600 * 10 ^ 9
  idempotencyTtl : ℕ := 24 * 3600 * 10 ^ 9
  cleanupBatchSize : ℕ := 1000
  deriving DecidableEq

structure CleanupReport where
  tasksDeleted : ℕ := 0
  eventsDeleted : ℕ := 0
  idempotencyDeleted : ℕ := 0

/-- The error of `chrono::Duration::from_std`. -/
def StoreError.outOfRange : StoreError :=
  .internal "Source duration value is out of range for the target type"

/-- `DateTime + Duration`; `none` is the panic on leaving the range of `DateTime<Utc>`, the years
from -262143 to 262142. -/
def chronoAdd (t d : ℤ) : Option DateTime :=
  if -8334601228800 * 10 ^ 9 ≤ t + d ∧ t + d < 8210266876800 * 10 ^ 9 then some (t + d) else none

theorem chronoAdd_eq_some (h : chronoAdd t d = some u) : u = t + d := by
  unfold chronoAdd at h
  split at h
  · exact (Option.some.inj h).symm
  · cases h

theorem durationFromStd_eq_some (h : durationFromStd nanos = some d) :
    d = nanos := by
  unfold durationFromStd at h
  split at h
  · exact (Option.some.inj h).symm
  · cases h

/-- How a state is read: the row, the event rows and the lease of a task, the task under a key, and
how rows are decoded. -/
structure StoreView (D : Type) where
  Row : Type
  EventRow : Type
  LeaseRow : Type
  row : D → TaskId → Option Row
  log : D → TaskId → List EventRow
  lease : D → TaskId → Option LeaseRow
  owner : D → IdempotencyKey → Option TaskId
  snapshot : Row → Except StoreError TaskSnapshot
  event : TaskId → EventRow → Except StoreError CoreEvent

abbrev StoreView.comap {D E : Type} (V : StoreView D) (f : E → D) : StoreView E where
  Row := V.Row
  EventRow := V.EventRow
  LeaseRow := V.LeaseRow
  row db := V.row (f db)
  log db := V.log (f db)
  lease db := V.lease (f db)
  owner db := V.owner (f db)
  snapshot := V.snapshot
  event := V.event

structure DurableMachine extends StoreMachine where
  acquireLease : Lease → Prog sig (Except StoreError Bool)
  renewLease : Lease → Prog sig (Except StoreError Bool)
  cleanup : RetentionPolicy → Prog sig (Except StoreError CleanupReport)
  /-- Nothing fails and the clock shows the given time. -/
  calm : DateTime → Choice
  /-- The reading of the clock that an operation has made. -/
  clock : (o : sig.Op) → sig.Reply o → Option DateTime
  /-- The operation has failed in a way that does not tell whether it took effect. -/
  inDoubt : (o : sig.Op) → sig.Reply o → Bool
  /-- No call is in progress. -/
  Settled : Db → Prop
  view : StoreView Db

inductive StoreCall where
  | create (task : NewTask)
  | getSnapshot (id : TaskId)
  | append (transition : TaskTransition)
  | eventsAfter (id : TaskId) (afterSeq limit : ℕ)
  | acquireLease (lease : Lease)
  | renewLease (lease : Lease)
  | cleanup (policy : RetentionPolicy)

def StoreCall.create? : StoreCall → Option NewTask
  | .create n => some n
  | _ => none

theorem StoreCall.eq_of_create? {c : StoreCall} (h : c.create? = some n) :
    c = .create n := by
  cases c with
  | create n' =>
    cases h
    rfl
  | _ => cases h

def StoreCall.append? : StoreCall → Option TaskTransition
  | .append t => some t
  | _ => none

def StoreCall.cleanup? : StoreCall → Option RetentionPolicy
  | .cleanup policy => some policy
  | _ => none

theorem StoreCall.eq_of_cleanup? {c : StoreCall} (h : c.cleanup? = some policy) :
    c = .cleanup policy := by
  cases c with
  | cleanup policy' =>
    cases h
    rfl
  | _ => cases h

inductive StoreResult where
  | created (r : Except StoreError CreateTaskResult)
  | snapshot (r : Except StoreError (Option TaskSnapshot))
  | applied (r : Except StoreError AppliedTransition)
  | events (r : Except StoreError (List CoreEvent))
  | leased (r : Except StoreError Bool)
  | cleaned (r : Except StoreError CleanupReport)

/-- The error that a call has returned. -/
def StoreResult.error? : StoreResult → Option StoreError
  | .created (.error e) => some e
  | .snapshot (.error e) => some e
  | .applied (.error e) => some e
  | .events (.error e) => some e
  | .leased (.error e) => some e
  | .cleaned (.error e) => some e
  | _ => none

def StoreResult.created? : StoreResult → Option TaskSnapshot
  | .created (.ok (.created s)) => some s
  | _ => none

theorem StoreResult.eq_of_created? {r : StoreResult} (h : r.created? = some s) :
    r = .created (.ok (.created s)) := by
  unfold StoreResult.created? at h
  split at h
  · cases h
    rfl
  · cases h

def StoreResult.events? : StoreResult → Option (List CoreEvent)
  | .events (.ok es) => some es
  | _ => none

/-- A task without session or deadline. -/
def NewTask.under (caller key : String) (id : TaskId) : NewTask :=
  ⟨id, none, ⟨"agent"⟩, ⟨caller⟩, key, none⟩

/-- A transition out of any state that is not terminal. -/
def TaskTransition.to (id : TaskId) (expectedRevision : ℕ) (next : TaskState) : TaskTransition :=
  ⟨id, expectedRevision, [.created, .accepted, .running, .waitingForInput, .cancelRequested], next,
    .accepted false⟩

def StoreMachine.solo (M : StoreMachine) (tid : ℕ) (c : M.Choice) {α : Type} :
    M.Db → Prog M.sig α → Option (M.Db × α)
  | db, .pure a => some (db, a)
  | db, .op o k => match M.exec tid db o c with
    | none => none
    | some (db', r) => solo M tid c db' (k r)

theorem StoreMachine.solo_bind (M : StoreMachine) (tid : ℕ) (c : M.Choice) {α β : Type}
    (db : M.Db) (p : Prog M.sig α) (f : α → Prog M.sig β) :
    M.solo tid c db (p.bind f) = (M.solo tid c db p).bind (fun r => M.solo tid c r.1 (f r.2)) := by
  induction p generalizing db with
  | pure a => rfl
  | op o k ih =>
    simp only [Prog.op_bind, solo]
    cases M.exec tid db o c with
    | none => rfl
    | some r => exact ih r.2 r.1

theorem StoreMachine.solo_map_iff {M : StoreMachine} {c : M.Choice} {α β : Type} {db db' : M.Db}
    {p : Prog M.sig α} {f : α → β} {b : β} :
    M.solo tid c db (p.bind fun a => .pure (f a)) = some (db', b) ↔
      ∃ a, M.solo tid c db p = some (db', a) ∧ f a = b := by
  rw [M.solo_bind, Option.bind_eq_some_iff]
  constructor
  · rintro ⟨⟨_, a⟩, ha, ⟨⟩⟩
    exact ⟨a, ha, rfl⟩
  · rintro ⟨a, ha, rfl⟩
    exact ⟨_, ha, rfl⟩

namespace DurableMachine

variable (M : DurableMachine)

def program : StoreCall → Prog M.sig StoreResult
  | .create task => (M.store.createOrGetIdempotent task).bind (fun r => .pure (.created r))
  | .getSnapshot id => (M.store.getSnapshot id).bind (fun r => .pure (.snapshot r))
  | .append t => (M.store.appendEventAndTransition t).bind (fun r => .pure (.applied r))
  | .eventsAfter id afterSeq limit =>
    (M.store.eventsAfter id afterSeq limit).bind (fun r => .pure (.events r))
  | .acquireLease lease => (M.acquireLease lease).bind (fun r => .pure (.leased r))
  | .renewLease lease => (M.renewLease lease).bind (fun r => .pure (.leased r))
  | .cleanup policy => (M.cleanup policy).bind (fun r => .pure (.cleaned r))

/-- One call alone, at the time `now`. -/
def call (tid : ℕ) (now : DateTime) (db : M.Db) (c : StoreCall) : Option (M.Db × StoreResult) :=
  M.solo tid (M.calm now) db (M.program c)

/-- Calls one after the other, with the time of each. -/
def calls : M.Db → List (DateTime × StoreCall) → Option (M.Db × List StoreResult)
  | db, [] => some (db, [])
  | db, (now, c) :: cs => match M.call 0 now db c with
    | none => none
    | some (db', r) => (calls db' cs).map (fun p => (p.1, r :: p.2))

end DurableMachine

abbrev storeService (M : DurableMachine) (db : M.Db) : Service M.sig where
  State := M.Db
  Choice := M.Choice
  Entry := StoreCall
  Result := StoreResult
  init := db
  exec := M.exec
  program := M.program
  external _ := true
  fork _ := none

end AgentConnector
