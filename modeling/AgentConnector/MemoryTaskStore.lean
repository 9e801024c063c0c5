import AgentConnector.StoreCalls
import AgentConnector.KeyedTable

/-!
# The in-memory store

`MemoryTaskStore` keeps its four maps behind one mutex and never awaits while it holds it, so each
method is one atomic operation. The reading of the clock that a method makes is part of the reply.
The order in which a hash map is traversed decides which expired tasks `cleanup` takes first; that
choice is left to the environment.
-/

namespace AgentConnector

open Concurrent Keyed

structure LeaseRecord where
  ownerId : String
  expiresAt : DateTime
  deriving DecidableEq

/-- The maps of the store; a snapshot is always kept under its own identifier. -/
structure MemoryState where
  tasks : Table TaskSnapshot.taskId
  events : Map TaskId (List CoreEvent)
  idempotency : Map IdempotencyKey TaskId
  leases : Map TaskId LeaseRecord

namespace MemoryState

def empty : MemoryState := ⟨.empty, .empty, .empty, .empty⟩

variable (s : MemoryState)

def log (id : TaskId) : List CoreEvent := (s.events.get id).getD []

def createOrGetIdempotent (task : NewTask) (now : DateTime) :
    MemoryState × Except StoreError CreateTaskResult :=
  match s.idempotency.get task.key with
  | some id => match s.tasks.find id with
    | some existing => (s, .ok (.existing existing))
    | none => (s, .error (.corrupt "idempotency references absent task"))
  | none =>
    ({ s with
        idempotency := s.idempotency.set task.key task.taskId
        tasks := s.tasks.put (.fresh task now)
        events := s.events.set task.taskId [] },
      .ok (.created (.fresh task now)))

def appendEventAndTransition (t : TaskTransition) (now : DateTime) :
    MemoryState × Except StoreError AppliedTransition :=
  match s.tasks.find t.taskId with
  | none => (s, .error (.notFound t.taskId))
  | some snapshot =>
    if snapshot.revision ≠ t.expectedRevision then (s, .error .conflict)
    else if snapshot.state ∉ t.allowedStates then
      (s, .error (.invalidTransition ("current=" ++ snapshot.state.debug)))
    else
      let next := snapshot.advance t.nextState now
      let event : CoreEvent := ⟨t.taskId, next.lastSeq, now, t.eventKind⟩
      ({ s with
          tasks := s.tasks.put next
          events := s.events.set t.taskId (s.log t.taskId ++ [event]) },
        .ok ⟨next, event⟩)

def eventsAfter (id : TaskId) (afterSeq limit : ℕ) : Except StoreError (List CoreEvent) :=
  match s.tasks.find id with
  | none => .error (.notFound id)
  | some _ => .ok (((s.log id).filter (fun e => afterSeq < e.seq)).take limit)

/-- The expiry of a lease taken now; the result is `none` on a panic. -/
def leaseExpiry (now : DateTime) (lease : Lease) : Option (Except StoreError DateTime) :=
  match durationFromStd lease.expiresIn with
  | none => some (.error .outOfRange)
  | some d => (chronoAdd now d).map .ok

def acquireLease (lease : Lease) (now expiresAt : DateTime) : MemoryState × Bool :=
  let granted := ({ s with leases := s.leases.set lease.taskId ⟨lease.ownerId, expiresAt⟩ }, true)
  match s.leases.get lease.taskId with
  | some existing =>
    if now < existing.expiresAt ∧ existing.ownerId ≠ lease.ownerId then (s, false) else granted
  | none => granted

def renewLease (lease : Lease) (now expiresAt : DateTime) : MemoryState × Bool :=
  match s.leases.get lease.taskId with
  | some existing =>
    if existing.ownerId = lease.ownerId ∧ now ≤ existing.expiresAt then
      ({ s with leases := s.leases.set lease.taskId { existing with expiresAt := expiresAt } },
        true)
    else (s, false)
  | none => (s, false)

/-- The time before which something is too old; the result is `none` on a panic. -/
def retentionCutoff (now : DateTime) (ttl : ℕ) : Option (Except StoreError DateTime) :=
  match durationFromStd ttl with
  | none => some (.error .outOfRange)
  | some d => (chronoAdd now (-d)).map .ok

def expiredTasks (taskCutoff : DateTime) : List TaskId :=
  (s.tasks.rows.filter (fun snapshot => snapshot.terminalAt.any (· < taskCutoff))).map
    TaskSnapshot.taskId

def removeTask (id : TaskId) : MemoryState :=
  match s.tasks.find id with
  | none => s
  | some snapshot =>
    { tasks := s.tasks.filter (fun snapshot => snapshot.taskId ≠ id)
      idempotency := s.idempotency.remove (snapshot.callerId, "memory:" ++ id.display)
      events := s.events.remove id
      leases := s.leases.remove id }

def retainEvents (eventCutoff : DateTime) : MemoryState :=
  { s with events := s.events.mapValues (fun l => l.filter (fun e => eventCutoff ≤ e.at_)) }

def eventCount : ℕ := (s.events.rows.map (fun e => e.2.length)).sum

/-- The deletions of `cleanup`, with the expired tasks in the order in which they are found. -/
def cleanup (taken : List TaskId) (eventCutoff : DateTime) : MemoryState × CleanupReport :=
  let removed := taken.foldl removeTask s
  let retained := removed.retainEvents eventCutoff
  (retained, { tasksDeleted := taken.length
               eventsDeleted := removed.eventCount - retained.eventCount })

def Taken (taskCutoff : DateTime) (batch : ℕ) (taken : List TaskId) : Prop :=
  taken.Nodup ∧ taken ⊆ s.expiredTasks taskCutoff ∧
    taken.length = min batch (s.expiredTasks taskCutoff).length

instance (s : MemoryState) (taskCutoff : DateTime) (batch : ℕ) (taken : List TaskId) :
    Decidable (s.Taken taskCutoff batch taken) := by
  unfold Taken
  infer_instance

end MemoryState

inductive MemoryOp where
  | create (task : NewTask)
  | get (id : TaskId)
  | append (t : TaskTransition)
  | eventsAfter (id : TaskId) (afterSeq limit : ℕ)
  | acquireLease (lease : Lease)
  | renewLease (lease : Lease)
  | cleanup (policy : RetentionPolicy)

abbrev MemoryOp.Reply : MemoryOp → Type
  | .create _ => DateTime × Except StoreError CreateTaskResult
  | .get _ => Option TaskSnapshot
  | .append _ => DateTime × Except StoreError AppliedTransition
  | .eventsAfter _ _ _ => Except StoreError (List CoreEvent)
  | .acquireLease _ => DateTime × Except StoreError Bool
  | .renewLease _ => DateTime × Except StoreError Bool
  | .cleanup _ => DateTime × Except StoreError CleanupReport

abbrev memorySig : Signature := ⟨MemoryOp, MemoryOp.Reply⟩

structure MemoryChoice where
  now : DateTime := 0
  /-- The expired tasks that `cleanup` comes across, up to its batch size. -/
  taken : List TaskId := []

namespace MemoryState

variable (s : MemoryState)

/-- A lease method: the expiry is computed first, then the record is looked at. -/
def withExpiry (lease : Lease) (now : DateTime) (f : DateTime → MemoryState × Bool) :
    Option (MemoryState × DateTime × Except StoreError Bool) :=
  match leaseExpiry now lease with
  | none => none
  | some (.error e) => some (s, now, .error e)
  | some (.ok expiresAt) => some ((f expiresAt).1, now, .ok (f expiresAt).2)

def execCleanup (policy : RetentionPolicy) (c : MemoryChoice) :
    Option (MemoryState × DateTime × Except StoreError CleanupReport) :=
  match retentionCutoff c.now policy.taskTtl with
  | none => none
  | some (.error e) => some (s, c.now, .error e)
  | some (.ok taskCutoff) => match retentionCutoff c.now policy.eventTtl with
    | none => none
    | some (.error e) => some (s, c.now, .error e)
    | some (.ok eventCutoff) =>
      if s.Taken taskCutoff policy.cleanupBatchSize c.taken then
        some ((s.cleanup c.taken eventCutoff).1, c.now, .ok (s.cleanup c.taken eventCutoff).2)
      else none

def exec (o : MemoryOp) (c : MemoryChoice) : Option (MemoryState × o.Reply) :=
  match o with
  | .create task =>
    some ((s.createOrGetIdempotent task c.now).1, c.now, (s.createOrGetIdempotent task c.now).2)
  | .get id => some (s, s.tasks.find id)
  | .append t =>
    some ((s.appendEventAndTransition t c.now).1, c.now, (s.appendEventAndTransition t c.now).2)
  | .eventsAfter id afterSeq limit => some (s, s.eventsAfter id afterSeq limit)
  | .acquireLease lease => s.withExpiry lease c.now (s.acquireLease lease c.now)
  | .renewLease lease => s.withExpiry lease c.now (s.renewLease lease c.now)
  | .cleanup policy => s.execCleanup policy c

end MemoryState

namespace MemoryTaskStore

/-- One operation under the mutex, and what the method returns of its reply. -/
def locked {α : Type} (o : MemoryOp) (result : o.Reply → α) : Prog memorySig α :=
  .op (σ := memorySig) o (fun r => .pure (result r))

def store : TaskStore memorySig where
  createOrGetIdempotent task := locked (.create task) Prod.snd
  getSnapshot id := locked (.get id) Except.ok
  appendEventAndTransition t := locked (.append t) Prod.snd
  eventsAfter id afterSeq limit := locked (.eventsAfter id afterSeq limit) (fun r => r)
  abandon := .pure ()

def clock : (o : MemoryOp) → o.Reply → Option DateTime
  | .create _, r => some r.1
  | .append _, r => some r.1
  | .acquireLease _, r => some r.1
  | .renewLease _, r => some r.1
  | .cleanup _, r => some r.1
  | _, _ => none

end MemoryTaskStore

abbrev memoryView : StoreView MemoryState where
  Row := TaskSnapshot
  EventRow := CoreEvent
  LeaseRow := LeaseRecord
  row s id := s.tasks.find id
  log := MemoryState.log
  lease s id := s.leases.get id
  owner s key := s.idempotency.get key
  snapshot := .ok
  event _ := .ok

abbrev memoryMachine : DurableMachine where
  sig := memorySig
  Db := MemoryState
  Choice := MemoryChoice
  empty := .empty
  exec _ := MemoryState.exec
  store := MemoryTaskStore.store
  acquireLease lease := MemoryTaskStore.locked (.acquireLease lease) Prod.snd
  renewLease lease := MemoryTaskStore.locked (.renewLease lease) Prod.snd
  cleanup policy := MemoryTaskStore.locked (.cleanup policy) Prod.snd
  calm now := { now := now }
  clock := MemoryTaskStore.clock
  inDoubt _ _ := false
  Settled _ := True
  view := memoryView

end AgentConnector
