import AgentConnector.A2aSteps

/-!
# Cancelling a task of the A2A client

`cancel` asks for the remote task before it cancels the token, and the remote task is known only
once the message has been answered, when the token no longer matters. A call of `cancel` is followed
by the end of the task only if the message was answered with that end by itself.
-/

namespace AgentConnector

namespace A2aClient

open Steps Option

variable {s s' : State} {i : Input} {v v' : Invocation}

def State.ofTask (s : State) (task : TaskId) (p : Invocation → Bool) : Bool :=
  s.invocations.all (fun v => v.task ≠ task || p v)

/-- All answers are conclusive; a call of `cancel` comes to look for the remote task once the
message was answered, and returns once that answer was reported. -/
def timely (s : State) : Input → Bool
  | .turn _ (.answer r) => conclusive r
  | .runCancel c => (s.cancels[c]?).all (fun call => match call.phase with
    | .looking => s.ofTask call.task (fun v => !v.pending &&
        ((s.remoteTaskIds call.task).isSome || !v.holding))
    | _ => true)
  | .answerCancel c _ => (s.cancels[c]?).all (fun call => s.ofTask call.task (fun v => !v.holding))
  | _ => true

/-- What a call of `cancel` in a phase has found of an invocation of its task. -/
def CancelPhase.Reached (v : Invocation) : CancelPhase → Prop
  | looking => True
  | signalling _ | awaiting => v.pending = false
  | clearingRemote _ | clearingToken _ | returned _ => v.ended = true

structure Timely (s : State) : Prop where
  sound : ∀ (k : ℕ) (v : Invocation), s.invocations[k]? = some v → v.Sound
  since : ∀ (c : ℕ) (call : CancelCall), s.cancels[c]? = some call →
    call.since ≤ s.invocations.length
  reached : ∀ (c : ℕ) (call : CancelCall), s.cancels[c]? = some call →
    ∀ (k : ℕ) (v : Invocation), k < call.since → s.invocations[k]? = some v →
      v.task = call.task → call.phase.Reached v

theorem State.ofTask_of_getElem? {p : Invocation → Bool} {k : ℕ} (h : s.ofTask task p = true)
    (hv : s.invocations[k]? = some v) (ht : v.task = task) :
    p v = true := by
  have hall := List.all_eq_true.mp h v (List.mem_of_getElem? hv)
  rw [Bool.or_eq_true, decide_eq_true_eq] at hall
  exact hall.resolve_left (fun hne => hne ht)

theorem CancelPhase.Reached.evolves {p : CancelPhase} (h : p.Reached v) (hv : Evolves s i k v v') :
    p.Reached v' := by
  cases p with
  | looking => trivial
  | signalling _ | awaiting => exact hv.pending h
  | clearingRemote _ | clearingToken _ | returned _ => exact hv.ended h

theorem Timely.move (h : Timely s) (hC : timely s i = true) {call : CancelCall}
    (hc : s.cancels[c]? = some call) (hmove : CancelMove s c call i p) (hk : k < call.since)
    (hv : s.invocations[k]? = some v) (ht : v.task = call.task) :
    p.Reached v := by
  have hreached := h.reached c call hc k v hk hv ht
  have hsound := h.sound k v hv
  have hlook : i = .runCancel c → call.phase = .looking → (!v.pending &&
      ((s.remoteTaskIds call.task).isSome || !v.holding)) = true := by
    rintro rfl hp
    unfold timely at hC
    dsimp only at hC
    rw [hc, all_some, hp] at hC
    exact State.ofTask_of_getElem? hC hv ht
  cases hmove with
  | unknown hp hnone =>
    have hidle := hlook rfl hp
    rw [hnone] at hidle
    simp only [isSome_none, Bool.false_or, Bool.and_eq_true, Bool.not_eq_true'] at hidle
    exact hsound.ended_of_idle hidle.1 hidle.2
  | found hp hsome =>
    have hidle := hlook rfl hp
    rw [Bool.and_eq_true, Bool.not_eq_true'] at hidle
    exact hidle.1
  | signal hp | clearRemote hp | clearToken hp =>
    rw [hp] at hreached
    exact hreached
  | answered hp =>
    rw [hp] at hreached
    unfold timely at hC
    dsimp only at hC
    rw [hc, all_some] at hC
    have hidle := State.ofTask_of_getElem? hC hv ht
    rw [Bool.not_eq_true'] at hidle
    exact hsound.ended_of_idle hreached hidle

theorem Timely.step (h : Timely s) (hC : timely s i = true) (hstep : step s i = some s') :
    Timely s' := by
  have hanswer : ∀ k r, i = .turn k (.answer r) → conclusive r = true := by
    rintro k r rfl
    exact hC
  have hlength := step_length hstep
  refine ⟨fun k v' hv' => ?_, fun c call' hc' => ?_, fun c call' hc' k v' hk hv' ht => ?_⟩
  · obtain ⟨v, hv, hevolves⟩ | ⟨-, task, request, -, rfl⟩ := step_invocation hstep hv'
    · exact hevolves.sound (h.sound k v hv) hanswer
    · exact rfl
  · obtain hc | ⟨call, p, hc, -, rfl⟩ | ⟨task, -, rfl⟩ := step_cancel hstep hc'
    · exact (h.since c call' hc).trans hlength
    · exact (h.since c call hc).trans hlength
    · exact hlength
  · obtain hc | ⟨call, p, hc, hmove, rfl⟩ | ⟨task, -, rfl⟩ := step_cancel hstep hc'
    · have hsince := h.since c call' hc
      obtain ⟨v, hv, hevolves⟩ | ⟨hnew, -⟩ := step_invocation hstep hv'
      · rw [hevolves.task] at ht
        exact (h.reached c call' hc k v hk hv ht).evolves hevolves
      · omega
    · have hsince := h.since c call hc
      have hk' : k < call.since := hk
      obtain ⟨v, hv, hevolves⟩ | ⟨hnew, -⟩ := step_invocation hstep hv'
      · rw [hevolves.task] at ht
        exact (h.move hC hc hmove hk hv ht).evolves hevolves
      · omega
    · trivial

theorem timely_start : Timely start where
  sound k v hv := by cases hv
  since c call hc := by cases hc
  reached c call hc := by cases hc

/-- A request, and an answer that leaves the task open. -/
def exampleRequest : InvokeRequest := ⟨none, none, none, "key", none, [], .null, none⟩

def askingTask : NormalizedTask := ⟨"remote", none, .inputRequired, none, []⟩

def completedTask : NormalizedTask := ⟨"remote", none, .completed, none, []⟩

end A2aClient

end AgentConnector
