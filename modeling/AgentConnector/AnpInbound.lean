import AgentConnector.AnpMessages

/-!
# Events from an ANP peer

`forward_events` takes the events of an inbound stream one after the other, checks each by itself
and forwards its translation, until the stream ends, an event fails or the consumer is gone. It
keeps nothing of the events before, so that a stream is forwarded in order if and only if it comes
in order.
-/

namespace AgentConnector

open List

namespace Anp

def lastSegment (uri : String) : String := (uri.splitOn "/").getLastD "artifact"

def translateEvent : TaskEvent → Option DriverEvent
  | .taskAccepted _ => none
  | .taskStatus e => match e.state with
    | .completed => some (.completed [])
    | .failed => some (.failed ⟨"anp.task_failed", "remote task failed", false⟩)
    | .cancelled => some .cancelled
  | .taskInputRequired e => some (.inputRequired ⟨e.prompt, none⟩)
  | .taskProgress e => some (.progress ((e.payload.getStr "message").getD "progress") none)
  | .taskArtifact e => some (.artifact ⟨e.artifact.uri, lastSegment e.artifact.uri,
      e.artifact.mimeType.getD "application/octet-stream", 0, some e.artifact.uri⟩)
  | .taskCompleted e => some (.completed (e.artifacts.map (fun a => .fileRef a.uri a.mimeType)))
  | .taskFailed e => some (.failed ⟨"anp.task_failed", e.error, false⟩)
  | .taskCancelled _ => some .cancelled
  | .taskInvoke _ | .taskCancel _ | .taskGetStatus _ | .taskEvents _ | .taskProvideInput _ => none

/-- The events that the loop of `forward_events` has passed, and what it returns. -/
structure Forwarding where
  passed : List TaskEvent
  result : Except AnpClientError Unit

def Forwarding.pass (ev : TaskEvent) (f : Forwarding) : Forwarding := ⟨ev :: f.passed, f.result⟩

def Forwarding.forwarded (f : Forwarding) : List DriverEvent := f.passed.filterMap translateEvent

/-- `forward_events` on a stream. The consumer takes `room` events and then goes away, or stays. -/
def forwardEvents : List (Except AnpClientError TaskEvent) → Option ℕ → Forwarding
  | [], _ => ⟨[], .ok ()⟩
  | .error e :: _, _ => ⟨[], .error e⟩
  | .ok ev :: rest, room =>
    match validateEvent ev with
    | .error e => ⟨[], .error (.profile e)⟩
    | .ok _ => match translateEvent ev, room with
      | none, room => (forwardEvents rest room).pass ev
      | some _, none => (forwardEvents rest none).pass ev
      | some _, some 0 => ⟨[], .ok ()⟩
      | some _, some (n + 1) => (forwardEvents rest (some n)).pass ev

def validPrefix : List (Except AnpClientError TaskEvent) → List TaskEvent
  | .ok ev :: rest => if validateEvent ev = .ok () then ev :: validPrefix rest else []
  | _ => []

def untilGone : Option ℕ → List TaskEvent → List TaskEvent
  | _, [] => []
  | room, ev :: rest => match translateEvent ev, room with
    | none, room => ev :: untilGone room rest
    | some _, none => ev :: untilGone none rest
    | some _, some 0 => [ev]
    | some _, some (n + 1) => ev :: untilGone (some n) rest

/-- The events that the loop gets to see and finds valid. -/
def reached (events : List (Except AnpClientError TaskEvent)) (room : Option ℕ) : List TaskEvent :=
  untilGone room (validPrefix events)

/-- How the loop ends: with the stream, at a failure, or at an event that it cannot deliver. -/
inductive Stopped (events : List (Except AnpClientError TaskEvent)) (f : Forwarding)
    (seen : List TaskEvent) : Prop where
  | ended : events = f.passed.map .ok → seen = f.passed → Stopped events f seen
  | failed {e : AnpClientError} {rest : List (Except AnpClientError TaskEvent)} :
      events = f.passed.map .ok ++ rest → f.result = .error e → seen = f.passed →
      Stopped events f seen
  | undelivered {ev : TaskEvent} {rest : List (Except AnpClientError TaskEvent)} :
      events = f.passed.map .ok ++ .ok ev :: rest → f.result = .ok () → seen = f.passed ++ [ev] →
      Stopped events f seen

theorem Stopped.pass (h : Stopped events f seen) (ev : TaskEvent) :
    Stopped (.ok ev :: events) (f.pass ev) (ev :: seen) := by
  cases h with
  | ended hevents hseen => exact .ended (congrArg _ hevents) (congrArg _ hseen)
  | failed hevents hresult hseen => exact .failed (congrArg _ hevents) hresult (congrArg _ hseen)
  | undelivered hevents hresult hseen =>
    exact .undelivered (congrArg _ hevents) hresult (congrArg _ hseen)

theorem stopped_forwardEvents (events : List (Except AnpClientError TaskEvent)) (room : Option ℕ) :
    Stopped events (forwardEvents events room) (reached events room) := by
  induction events generalizing room with
  | nil => exact .ended rfl rfl
  | cons item rest ih =>
    cases item with
    | error e => exact .failed rfl rfl rfl
    | ok ev =>
      unfold forwardEvents reached validPrefix
      cases hvalid : validateEvent ev with
      | error e => exact .failed rfl rfl rfl
      | ok u =>
        rw [if_pos rfl]
        unfold untilGone
        cases translateEvent ev with
        | none => exact (ih room).pass ev
        | some e =>
          match room with
          | none => exact (ih none).pass ev
          | some 0 => exact .undelivered rfl rfl rfl
          | some (n + 1) => exact (ih (some n)).pass ev

/-! ### Events in order -/

/-- The events after which there is nothing to say about a task. -/
def TaskEvent.ends : TaskEvent → Bool
  | .taskStatus _ => true
  | e => e.isTerminal

/-- The numbers increase, and nothing follows an event that ends the task. -/
def InOrder (evs : List TaskEvent) : Prop :=
  (evs.filterMap TaskEvent.seq).Pairwise (· < ·) ∧ evs.Pairwise (fun e _ => e.ends = false)

instance (evs : List TaskEvent) : Decidable (InOrder evs) :=
  inferInstanceAs (Decidable (_ ∧ _))

theorem InOrder.of_append (h : InOrder (evs ++ evs')) :
    InOrder evs := by
  refine ⟨?_, (pairwise_append.mp h.2).1⟩
  have hseq := h.1
  rw [filterMap_append] at hseq
  exact (pairwise_append.mp hseq).1

/-- Only the first events of the stream are passed, in order, and the first event out of order makes
the loop fail. -/
structure Orderly (events : List (Except AnpClientError TaskEvent)) (f : Forwarding) : Prop where
  first : f.passed.map .ok <+: events
  passed : InOrder f.passed
  rejected : ∀ ev, events[f.passed.length]? = some (.ok ev) → ¬ InOrder (f.passed ++ [ev]) →
    f.result ≠ .ok ()

theorem Stopped.orderly_iff (h : Stopped events f seen) : Orderly events f ↔ InOrder seen := by
  cases h with
  | ended hevents hseen =>
    rw [hseen]
    refine ⟨Orderly.passed, fun hseen => ⟨⟨[], ?_⟩, hseen, fun ev hev => ?_⟩⟩
    · rw [hevents, append_nil]
    rw [hevents, getElem?_eq_none (by simp)] at hev
    cases hev
  | failed hevents hresult hseen =>
    rw [hseen]
    refine ⟨Orderly.passed, fun hseen => ⟨⟨_, hevents.symm⟩, hseen, fun ev _ _ hok => ?_⟩⟩
    rw [hresult] at hok
    cases hok
  | @undelivered ev rest hevents hresult hseen =>
    have hnext : events[f.passed.length]? = some (.ok ev) := by
      rw [hevents]
      simp
    rw [hseen]
    refine ⟨fun horderly => ?_,
      fun hseen => ⟨⟨_, hevents.symm⟩, hseen.of_append, fun ev' hev' hbad => ?_⟩⟩
    · by_contra hbad
      exact horderly.rejected ev hnext hbad hresult
    · rw [hnext] at hev'
      cases hev'
      exact absurd hseen hbad

/-- The events are forwarded in order, and the first event out of order is rejected, if and only if
there is no such event among those that the loop finds valid. -/
theorem forwarded_in_order_iff (events : List (Except AnpClientError TaskEvent)) (room : Option ℕ) :
    Orderly events (forwardEvents events room) ↔ InOrder (reached events room) :=
  (stopped_forwardEvents events room).orderly_iff

def exampleProgress (seq : UInt64) : TaskEvent :=
  .taskProgress ⟨.new "t-1" "op-1" "m-1", seq, .object []⟩

def exampleStatus (seq : UInt64) : TaskEvent :=
  .taskStatus ⟨.new "t-1" "op-1" "m-2", seq, .completed, .object []⟩

/-- A repeated number and an event after the final status are forwarded. -/
theorem forwarded_out_of_order :
    (forwardEvents [.ok (exampleProgress 2), .ok (exampleProgress 2)] none).passed.length = 2 ∧
    (forwardEvents [.ok (exampleProgress 2), .ok (exampleProgress 2)] none).result = .ok () ∧
    ¬ InOrder [exampleProgress 2, exampleProgress 2] ∧
    (forwardEvents [.ok (exampleStatus 1), .ok (exampleProgress 2)] none).passed.length = 2 ∧
    (forwardEvents [.ok (exampleStatus 1), .ok (exampleProgress 2)] none).result = .ok () ∧
    ¬ InOrder [exampleStatus 1, exampleProgress 2] :=
  ⟨rfl, rfl, by decide, rfl, rfl, by decide⟩

end Anp

end AgentConnector
