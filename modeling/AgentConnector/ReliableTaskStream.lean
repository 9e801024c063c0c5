import AgentConnector.AdapterCore
import AgentConnector.OrderedMap

/-!
# The reliable task stream

`ReliableTaskStream` over any source of history. `nextLoop` is the loop of `next`, with a bound on
its iterations; a loop that reaches its bound has not returned yet. `session` is a consumer: it
subscribes, calls `next` once for each bound in its list, and hands on what each call returns.
-/

namespace AgentConnector

open Concurrent

variable {τ : Signature}

/-- `EventHistorySource::history`. -/
abbrev EventHistorySource (τ : Signature) := TaskId → ℕ → CoreM τ (List CoreEvent)

structure ReliableTaskStream where
  taskId : TaskId
  lastSeq : ℕ
  pending : List CoreEvent
  receiver : Receiver
  terminal : Bool

namespace ReliableTaskStream

def new (id : TaskId) (afterSeq : ℕ) (subscription : TaskSubscription) : ReliableTaskStream where
  taskId := id
  lastSeq := afterSeq
  pending := subscription.history.filter (fun e => afterSeq < e.seq)
  receiver := subscription.receiver
  terminal := false

def deliver (s : ReliableTaskStream) (event : CoreEvent) : ReliableTaskStream :=
  { s with lastSeq := event.seq, terminal := s.terminal || event.kind.isTerminal }

/-- The map `catch_up` builds from the events read and the event that revealed the gap. -/
def merge (lastSeq : ℕ) (events : List CoreEvent) (trailing : Option CoreEvent) :
    List (ℕ × CoreEvent) :=
  let merged := events.foldl
    (fun m e => if lastSeq < e.seq then OrderedMap.insert e.seq e m else m) []
  match trailing with
  | some e => if lastSeq < e.seq then OrderedMap.orInsert e.seq e merged else merged
  | none => merged

variable (source : EventHistorySource τ)

def catchUp (s : ReliableTaskStream) (trailing : Option CoreEvent) :
    CoreM τ ReliableTaskStream := do
  let events ← source s.taskId s.lastSeq
  return { s with pending := OrderedMap.values (merge s.lastSeq events trailing) }

/-- What one call of `next` has returned, if it has, and the stream afterwards. -/
abbrev Polled := Option (Except CoreError (Option CoreEvent)) × ReliableTaskStream

/-- `self.catch_up(trailing).await?`, then the rest of the loop's body. -/
def recover (s : ReliableTaskStream) (trailing : Option CoreEvent)
    (rest : ReliableTaskStream → Prog (coreSig τ) Polled) : Prog (coreSig τ) Polled := do
  match ← (catchUp source s trailing).run with
  | .error e => pure (some (.error e), s)
  | .ok s => rest s

/-- Reading the history is one operation. -/
theorem recover_eq {source : EventHistorySource τ} {s : ReliableTaskStream} {o : CoreOp τ}
    {g : o.Reply → Except CoreError (List CoreEvent)}
    (h : (source s.taskId s.lastSeq).run = .op o (fun r => .pure (g r))) :
    recover source s trailing rest = .op o fun r => match g r with
      | .error e => .pure (some (.error e), s)
      | .ok page =>
        rest { s with pending := OrderedMap.values (merge s.lastSeq page trailing) } := by
  change ((source s.taskId s.lastSeq).run.bind _).bind _ = _
  rw [h]
  refine congrArg (Prog.op _) (funext fun r => ?_)
  change Prog.bind (ExceptT.bindCont _ (g r)) _ = _
  cases g r with
  | error e | ok page => rfl

/-- The loop's body after `recv` has answered; `loop` is the next iteration. -/
def onRecv (loop : ReliableTaskStream → Prog (coreSig τ) Polled) (s : ReliableTaskStream) :
    Broadcast.Recv CoreEvent → Prog (coreSig τ) Polled
  | .value event =>
    if event.seq ≤ s.lastSeq then loop s
    else if event.seq = s.lastSeq + 1 then pure (some (.ok (some event)), deliver s event)
    else recover source s (some event) loop
  | .lagged _ => recover source s none loop
  | .closed => recover source s none (fun s =>
      if s.pending.isEmpty then pure (some (.ok none), { s with terminal := true }) else loop s)

def nextLoop (source : EventHistorySource τ) : ℕ → ReliableTaskStream → Prog (coreSig τ) Polled
  | 0, s => pure (none, s)
  | fuel + 1, s =>
    if s.terminal then pure (some (.ok none), s)
    else match s.pending with
      | event :: rest => pure (some (.ok (some event)), deliver { s with pending := rest } event)
      | [] => do
        let got ← perform (.recv s.taskId s.receiver s.lastSeq)
        onRecv source (nextLoop source fuel) { s with receiver := got.2 } got.1

section

variable {source : EventHistorySource τ} {s : ReliableTaskStream}

theorem nextLoop_of_terminal (fuel : ℕ) (h : s.terminal = true) :
    nextLoop source (fuel + 1) s = pure (some (.ok none), s) := by
  rw [nextLoop, if_pos h]

theorem nextLoop_of_pending (fuel : ℕ) (hopen : s.terminal = false) (h : s.pending = event :: rest)
    :
    nextLoop source (fuel + 1) s =
      pure (some (.ok (some event)), deliver { s with pending := rest } event) := by
  rw [nextLoop, if_neg (by simp [hopen])]
  simp only [h]

theorem nextLoop_of_empty (fuel : ℕ) (hopen : s.terminal = false) (h : s.pending = []) :
    nextLoop source (fuel + 1) s = (perform (.recv s.taskId s.receiver s.lastSeq)).bind
      (fun got => onRecv source (nextLoop source fuel) { s with receiver := got.2 } got.1) := by
  rw [nextLoop, if_neg (by simp [hopen])]
  obtain ⟨id, lastSeq, pending, receiver, terminal⟩ := s
  cases h
  rfl

end

def consume (source : EventHistorySource τ) (afterSeq : ℕ) :
    List ℕ → ReliableTaskStream → Prog (coreSig τ) Unit
  | [], _ => pure ()
  | fuel :: rest, s => do
    match ← nextLoop source fuel s with
    | (none, _) => pure ()
    | (some r, s) => do
      perform (.emit s.taskId afterSeq r)
      consume source afterSeq rest s

/-- Calls `next` once for each bound in the list and collects what the calls return; a call that has
not returned is the last one. -/
def calls (source : EventHistorySource τ) : List ℕ → ReliableTaskStream →
    Prog (coreSig τ) (List (Except CoreError (Option CoreEvent)) × ReliableTaskStream)
  | [], s => pure ([], s)
  | fuel :: rest, s => do
    match ← nextLoop source fuel s with
    | (none, s) => pure ([], s)
    | (some r, s) => do
      let (rs, s) ← calls source rest s
      pure (r :: rs, s)

/-- A consumer of `ReliableTaskStream::subscribe(core, id, after_seq)`. -/
def session (core : CoreConfig τ) (id : TaskId) (afterSeq : ℕ) (fuels : List ℕ) :
    Prog (coreSig τ) Unit := do
  match ← (AdapterCore.subscribe core id afterSeq).run with
  | .error _ => pure ()
  | .ok subscription =>
    consume (AdapterCore.history core) afterSeq fuels (new id afterSeq subscription)

end ReliableTaskStream

/-- The event handed over with a result of `next`. -/
def handed : Except CoreError (Option CoreEvent) → List CoreEvent
  | .ok (some e) => [e]
  | _ => []

namespace ReliableTaskStream

/-- The events handed over with a list of results of `next`. -/
def returned (rs : List (Except CoreError (Option CoreEvent))) : List CoreEvent :=
  rs.flatMap handed

/-- The results of the calls that have not failed. -/
def succeeded (rs : List (Except CoreError (Option CoreEvent))) : List (Option CoreEvent) :=
  rs.filterMap Except.toOption

/-- The results are the events of the list, one after the other, and the end after them. -/
def Exhausts (l : List CoreEvent) (results : List (Option CoreEvent)) : Prop :=
  results = (l.map some ++ List.replicate results.length none).take results.length

end ReliableTaskStream

end AgentConnector
