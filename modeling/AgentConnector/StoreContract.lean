import AgentConnector.TaskModel
import AgentConnector.ConcurrentPool

/-!
# The task store contract

`TaskStore` is the trait every store implements, as programs over the store's own atomic
operations. `LogStore` is the contract itself: per task a snapshot and a log of events, a
revision-checked append that adds one event and moves the snapshot, and one task per caller and
idempotency key. The contract store performs each call in one atomic operation, except that
creation claims the key and then reads the row, which covers stores that do so in two statements.
Any operation may instead fail, before or after it has taken effect.
-/

namespace AgentConnector

open Concurrent

inductive StoreError where
  | notFound (taskId : TaskId)
  | conflict
  | invalidTransition (message : String)
  | unavailable (message : String)
  | corrupt (message : String)
  | internal (message : String)

namespace StoreError

def display : StoreError → String
  | notFound id => "task not found: " ++ id.display
  | conflict => "concurrent mutation conflict"
  | invalidTransition m => "invalid task transition: " ++ m
  | unavailable m => "storage unavailable: " ++ m
  | corrupt m => "storage corruption: " ++ m
  | internal m => "storage internal error: " ++ m

def fault : StoreError → Bool
  | unavailable _ | corrupt _ | internal _ => true
  | _ => false

end StoreError

/-- The methods of the store trait that the runtime calls; `abandon` is what dropping a call in
progress does. -/
structure TaskStore (τ : Signature) where
  createOrGetIdempotent : NewTask → Prog τ (Except StoreError CreateTaskResult)
  getSnapshot : TaskId → Prog τ (Except StoreError (Option TaskSnapshot))
  appendEventAndTransition : TaskTransition → Prog τ (Except StoreError AppliedTransition)
  eventsAfter : TaskId → ℕ → ℕ → Prog τ (Except StoreError (List CoreEvent))
  abandon : Prog τ Unit

/-- A store together with the state its operations act on. -/
structure StoreMachine where
  sig : Signature
  Db : Type
  Choice : Type
  empty : Db
  exec : ℕ → Db → (o : sig.Op) → Choice → Option (Db × sig.Reply o)
  store : TaskStore sig

def TaskSnapshot.fresh (n : NewTask) (now : DateTime) : TaskSnapshot where
  taskId := n.taskId
  sessionId := n.sessionId
  agentId := n.agentId
  callerId := n.callerId
  state := .created
  revision := 0
  lastSeq := 0
  createdAt := now
  updatedAt := now
  terminalAt := none

def TaskSnapshot.advance (s : TaskSnapshot) (next : TaskState) (now : DateTime) : TaskSnapshot :=
  { s with
    state := next
    revision := s.revision + 1
    lastSeq := s.lastSeq + 1
    updatedAt := now
    terminalAt := if next.terminal then some now else s.terminalAt }

abbrev IdempotencyKey := CallerId × String

def NewTask.key (n : NewTask) : IdempotencyKey := (n.callerId, n.idempotencyKey)

structure LogStore where
  tasks : TaskId → Option TaskSnapshot
  events : TaskId → List CoreEvent
  keys : IdempotencyKey → Option TaskId

namespace LogStore

def empty : LogStore := ⟨fun _ => none, fun _ => [], fun _ => none⟩

variable (db : LogStore)

def insert (n : NewTask) (now : DateTime) : LogStore where
  tasks := Function.update db.tasks n.taskId (some (.fresh n now))
  events := Function.update db.events n.taskId []
  keys := Function.update db.keys n.key (some n.taskId)

def applied (cur : TaskSnapshot) (t : TaskTransition) (now : DateTime) : AppliedTransition where
  snapshot := cur.advance t.nextState now
  event := ⟨t.taskId, cur.lastSeq + 1, now, t.eventKind⟩

def record (a : AppliedTransition) : LogStore :=
  { db with
    tasks := Function.update db.tasks a.event.taskId (some a.snapshot)
    events := Function.update db.events a.event.taskId (db.events a.event.taskId ++ [a.event]) }

/-- The checks of an append: the task exists, its revision is the expected one and its state is
among the allowed ones. -/
def check (t : TaskTransition) : Except StoreError TaskSnapshot :=
  match db.tasks t.taskId with
  | none => .error (.notFound t.taskId)
  | some cur =>
    if cur.revision ≠ t.expectedRevision then .error .conflict
    else if cur.state ∉ t.allowedStates then
      .error (.invalidTransition ("current=" ++ cur.state.debug))
    else .ok cur

theorem check_eq_ok_iff (t : TaskTransition) (cur : TaskSnapshot) :
    db.check t = .ok cur ↔ db.tasks t.taskId = some cur ∧
      cur.revision = t.expectedRevision ∧ cur.state ∈ t.allowedStates := by
  unfold check
  cases h : db.tasks t.taskId with
  | none => simp
  | some c =>
    by_cases hr : c.revision = t.expectedRevision
    · by_cases hs : c.state ∈ t.allowedStates
      · simp only [hr, hs, ne_eq, not_true_eq_false, if_false, Except.ok.injEq, Option.some.injEq]
        exact ⟨fun h => h ▸ ⟨rfl, hr, hs⟩, fun h => h.1⟩
      · simp only [hr, hs, ne_eq, not_true_eq_false, if_false, not_false_eq_true, if_true,
          Option.some.injEq, reduceCtorEq, false_iff]
        rintro ⟨rfl, _, h⟩
        exact hs h
    · simp only [hr, ne_eq, not_false_eq_true, if_true, Option.some.injEq, reduceCtorEq, false_iff]
      rintro ⟨rfl, h, _⟩
      exact hr h

/-- The first `limit` events of the task after `afterSeq`, in log order. -/
def page (id : TaskId) (afterSeq : ℕ) (limit : ℕ) : List CoreEvent :=
  ((db.events id).filter (fun e => afterSeq < e.seq)).take limit

end LogStore

inductive ContractOp where
  | claim (n : NewTask)
  | row (key : IdempotencyKey)
  | get (id : TaskId)
  | append (t : TaskTransition)
  | eventsAfter (id : TaskId) (afterSeq : ℕ) (limit : ℕ)

abbrev ContractOp.Reply : ContractOp → Type
  | .claim _ => Except StoreError Bool
  | .row _ => Except StoreError TaskSnapshot
  | .get _ => Except StoreError (Option TaskSnapshot)
  | .append _ => Except StoreError AppliedTransition
  | .eventsAfter _ _ _ => Except StoreError (List CoreEvent)

abbrev contractSig : Signature := ⟨ContractOp, ContractOp.Reply⟩

/-- What the storage decides: the clock, whether the operation fails (and whether it had taken
effect by then), and how the log of an unknown task is reported. -/
structure ContractChoice where
  now : DateTime := 0
  fault : Option StoreError := none
  tookEffect : Bool := false
  unknownAsEmpty : Bool := false

namespace LogStore

/-- The reply and the state after an operation that would give `(db', r)`. -/
def settle {α : Type} (db : LogStore) (c : ContractChoice) (db' : LogStore)
    (r : Except StoreError α) : Option (LogStore × Except StoreError α) :=
  match c.fault with
  | none => some (db', r)
  | some e =>
    if e.fault then some (if c.tookEffect then db' else db, .error e) else none

def exec (db : LogStore) (o : ContractOp) (c : ContractChoice) : Option (LogStore × o.Reply) :=
  match o with
  | .claim n => match db.keys n.key with
    | some _ => db.settle c db (.ok false)
    -- Task identifiers are fresh: a claim with an identifier in use does not happen.
    | none => if (db.tasks n.taskId).isSome then none
        else db.settle c (db.insert n c.now) (.ok true)
  | .row key => match (db.keys key).bind db.tasks with
    | some s => db.settle c db (.ok s)
    | none => db.settle c db (.error (.corrupt "idempotency references absent task"))
  | .get id => db.settle c db (.ok (db.tasks id))
  | .append t => match db.check t with
    | .error e => db.settle c db (.error e)
    | .ok cur => db.settle c (db.record (applied cur t c.now)) (.ok (applied cur t c.now))
  | .eventsAfter id afterSeq limit =>
    if (db.tasks id).isNone ∧ c.unknownAsEmpty = false then
      db.settle c db (.error (.notFound id))
    else db.settle c db (.ok (db.page id afterSeq limit))

end LogStore

def contractRow (key : IdempotencyKey) (inserted : Bool) :
    Prog contractSig (Except StoreError CreateTaskResult) := do
  match ← Prog.perform (σ := contractSig) (.row key) with
  | .error e => return .error e
  | .ok s => return .ok (if inserted then .created s else .existing s)

def contractStore : TaskStore contractSig where
  createOrGetIdempotent n := do
    match ← Prog.perform (σ := contractSig) (.claim n) with
    | .error e => return .error e
    | .ok inserted => contractRow n.key inserted
  getSnapshot id := Prog.perform (σ := contractSig) (.get id)
  appendEventAndTransition t := Prog.perform (σ := contractSig) (.append t)
  eventsAfter id afterSeq limit := Prog.perform (σ := contractSig) (.eventsAfter id afterSeq limit)
  abandon := pure ()

abbrev contractMachine : StoreMachine where
  sig := contractSig
  Db := LogStore
  Choice := ContractChoice
  empty := .empty
  exec _ := LogStore.exec
  store := contractStore

end AgentConnector
