import AgentConnector.A2aClientDriver

/-!
# Steps of the A2A client driver

What a turn of an invocation can be, what it means for what the invocation has sent, and how the
invocations and the calls of `cancel` change in a step of the driver.
-/

namespace AgentConnector

namespace A2aClient

open Steps List Option

open Concurrent.Pool (getElem?_concat_cases)

/-- A terminal event has been sent. -/
def Invocation.ended (v : Invocation) : Bool := v.sent.any DriverEvent.ends

def InvokePhase.holding : InvokePhase → Bool
  | answered _ | reporting _ | failing _ | cancelling => true
  | _ => false

def Invocation.holding (v : Invocation) : Bool := v.phase.holding

def conclusive : Answer → Bool
  | .ok task => isTerminal task.state
  | .error _ => true

variable {s s' : State} {i : Input} {v v' : Invocation} {t : Turn}

inductive Advance (v : Invocation) : Turn → Invocation → Prop where
  | accept : v.phase = .starting →
      Advance v .run { v with phase := .selecting, sent := v.sent ++ [.accepted] }
  | store {task : NormalizedTask} : v.phase = .answered task →
      Advance v .run { v with phase := .reporting task }
  | report {task : NormalizedTask} : v.phase = .reporting task → Advance v .run { v with
        phase := if isTerminal task.state then .clearingRemote else .finished
        sent := v.sent ++ [taskToTerminal task] }
  | fail {error : A2aClientError} : v.phase = .failing error →
      Advance v .run { v with phase := .clearingToken, sent := v.sent ++ [sendFailure error] }
  | confirm : v.phase = .cancelling →
      Advance v .run { v with phase := .clearingRemote, sent := v.sent ++ [.cancelled] }
  | clearRemote : v.phase = .clearingRemote → Advance v .run { v with phase := .clearingToken }
  | clearToken : v.phase = .clearingToken → Advance v .run { v with phase := .finished }
  | succeeded {task : NormalizedTask} : v.phase = .selecting →
      Advance v (.answer (.ok task)) { v with phase := .answered task }
  | failed {error : A2aClientError} : v.phase = .selecting →
      Advance v (.answer (.error error)) { v with phase := .failing error }
  | notice : v.phase = .selecting → v.cancelled = true →
      Advance v .notice { v with phase := .cancelling }

theorem advance_of_turn (h : v.turn t = some v') : Advance v t v' := by
  unfold Invocation.turn at h
  cases t with
  | run =>
    dsimp only at h
    split at h
    · cases h
      exact .accept ‹_›
    · cases h
      exact .store ‹_›
    · cases h
      exact .report ‹_›
    · cases h
      exact .fail ‹_›
    · cases h
      exact .confirm ‹_›
    · cases h
      exact .clearRemote ‹_›
    · cases h
      exact .clearToken ‹_›
    · cases h
    · cases h
  | answer r =>
    dsimp only at h
    split at h
    · cases h
      cases r with
      | ok task => exact .succeeded ‹_›
      | error error => exact .failed ‹_›
    · cases h
  | notice =>
    dsimp only at h
    split at h
    · split at h
      · cases h
        exact .notice ‹_› ‹_›
      · cases h
    · cases h

theorem ends_taskToTerminal (h : isTerminal task.state = true) :
    (taskToTerminal task).ends = true := by
  unfold taskToTerminal
  cases hs : task.state <;> rw [hs] at h <;> first | rfl | cases h

def InvokePhase.Sound (sent : List DriverEvent) : InvokePhase → Prop
  | starting => sent = []
  | selecting | failing _ | cancelling => sent = [.accepted]
  | answered task | reporting task => sent = [.accepted] ∧ isTerminal task.state = true
  | clearingRemote | clearingToken | finished =>
    ∃ e, DriverEvent.ends e = true ∧ sent = [.accepted, e]

def Invocation.Sound (v : Invocation) : Prop := v.phase.Sound v.sent

theorem Invocation.Sound.advance (h : v.Sound) (ht : Advance v t v')
    (hanswer : ∀ r, t = .answer r → conclusive r = true) : v'.Sound := by
  unfold Sound at h
  cases ht with
  | accept hp =>
    rw [hp] at h
    exact congrArg (· ++ [DriverEvent.accepted]) h
  | store hp | clearRemote hp | clearToken hp | failed hp | notice hp _ =>
    rw [hp] at h
    exact h
  | @report task hp =>
    rw [hp] at h
    unfold Sound
    rw [if_pos h.2]
    exact ⟨_, ends_taskToTerminal h.2, congrArg (· ++ [taskToTerminal task]) h.1⟩
  | @fail error hp =>
    rw [hp] at h
    exact ⟨_, rfl, congrArg (· ++ [sendFailure error]) h⟩
  | confirm hp =>
    rw [hp] at h
    exact ⟨_, rfl, congrArg (· ++ [DriverEvent.cancelled]) h⟩
  | @succeeded task hp =>
    rw [hp] at h
    exact ⟨h, hanswer _ rfl⟩

theorem Invocation.Sound.ended_of_idle (h : v.Sound) (hpending : v.pending = false)
    (hholding : v.holding = false) : v.ended = true := by
  have hsent : ∃ e, DriverEvent.ends e = true ∧ v.sent = [.accepted, e] := by
    unfold Sound at h
    unfold pending at hpending
    unfold holding at hholding
    cases hp : v.phase with
    | clearingRemote | clearingToken | finished => rw [hp] at h; exact h
    | starting | selecting => rw [hp] at hpending; cases hpending
    | answered _ | reporting _ | failing _ | cancelling => rw [hp] at hholding; cases hholding
  obtain ⟨e, he, hsent⟩ := hsent
  rw [ended, hsent, any_cons, any_cons, he]
  rfl

/-- How one invocation changes in a step: not at all, by a turn of its own, or in that a call of
`cancel` cancels its token. -/
inductive Evolves (s : State) (i : Input) (k : ℕ) (v : Invocation) : Invocation → Prop where
  | same : Evolves s i k v v
  | turned {t : Turn} {v' : Invocation} : i = .turn k t → Advance v t v' → Evolves s i k v v'
  | flagged {c : ℕ} {call : CancelCall} {remoteId : String} : s.cancels[c]? = some call →
      call.phase = .signalling remoteId → s.cancellationTokens call.task = some k →
      Evolves s i k v { v with cancelled := true, signalled := v.signalled || v.pending }

theorem Advance.task (h : Advance v t v') : v'.task = v.task := by
  cases h <;> rfl

theorem Advance.ended (h : Advance v t v') (hv : v.ended = true) : v'.ended = true := by
  have hgrow : ∀ l : List DriverEvent, (v.sent ++ l).any DriverEvent.ends = true := by
    intro l
    rw [any_append, Bool.or_eq_true]
    exact .inl hv
  cases h <;> first | exact hv | exact hgrow _

theorem Advance.pending (h : Advance v t v') (hv : v.pending = false) : v'.pending = false := by
  have hnot : ∀ p : InvokePhase, p.pending = true → v.phase ≠ p := by
    intro p hp heq
    rw [Invocation.pending, heq, hp] at hv
    cases hv
  cases h with
  | accept hp | succeeded hp | failed hp | notice hp _ => exact absurd hp (hnot _ rfl)
  | @report task hp =>
    unfold Invocation.pending
    cases isTerminal task.state <;> rfl
  | _ => rfl

variable {k : ℕ}

theorem Evolves.task (h : Evolves s i k v v') : v'.task = v.task := by
  cases h with
  | same => rfl
  | turned _ h => exact h.task
  | flagged _ _ _ => rfl

theorem Evolves.ended (h : Evolves s i k v v') (hv : v.ended = true) : v'.ended = true := by
  cases h with
  | same => exact hv
  | turned _ h => exact h.ended hv
  | flagged _ _ _ => exact hv

theorem Evolves.pending (h : Evolves s i k v v') (hv : v.pending = false) : v'.pending = false := by
  cases h with
  | same => exact hv
  | turned _ h => exact h.pending hv
  | flagged _ _ _ => exact hv

theorem Evolves.sound (h : Evolves s i k v v') (hv : v.Sound)
    (hanswer : ∀ k r, i = .turn k (.answer r) → conclusive r = true) : v'.Sound := by
  cases h with
  | same => exact hv
  | turned hi h => exact hv.advance h (fun r hr => hanswer k r (by rw [hi, hr]))
  | flagged _ _ _ => exact hv

/-- How a call of `cancel` changes in its own steps. -/
inductive CancelMove (s : State) (c : ℕ) (call : CancelCall) : Input → CancelPhase → Prop where
  | unknown : call.phase = .looking → s.remoteTaskIds call.task = none →
      CancelMove s c call (.runCancel c) (.returned (.error (noActiveTask call.task)))
  | found {remoteId : String} : call.phase = .looking → s.remoteTaskIds call.task = some remoteId →
      CancelMove s c call (.runCancel c) (.signalling remoteId)
  | signal {remoteId : String} : call.phase = .signalling remoteId →
      CancelMove s c call (.runCancel c) .awaiting
  | answered {r : Answer} {result : Except CoreError Unit} : call.phase = .awaiting →
      CancelMove s c call (.answerCancel c r) (.clearingRemote result)
  | clearRemote {result : Except CoreError Unit} : call.phase = .clearingRemote result →
      CancelMove s c call (.runCancel c) (.clearingToken result)
  | clearToken {result : Except CoreError Unit} : call.phase = .clearingToken result →
      CancelMove s c call (.runCancel c) (.returned result)

inductive Move (s : State) : Input → State → Prop where
  | invoked (task : TaskId) (request : InvokeRequest) : Move s (.invoke task request) { s with
        cancellationTokens := Function.update s.cancellationTokens task (some s.invocations.length)
        invocations := s.invocations ++ [⟨task, request, .starting, false, [], false⟩] }
  | turned {k : ℕ} {v v' : Invocation} {t : Turn} : s.invocations[k]? = some v → Advance v t v' →
      Move s (.turn k t) { s.touch v with invocations := s.invocations.set k v' }
  | called (task : TaskId) : Move s (.cancel task)
      { s with cancels := s.cancels ++ [⟨task, s.invocations.length, .looking⟩] }
  | advanced {i : Input} {c : ℕ} {call : CancelCall} {p : CancelPhase} :
      s.cancels[c]? = some call → CancelMove s c call i p → Move s i (s.setCancel c call p)
  | signalled {c k : ℕ} {call : CancelCall} {remoteId : String} : s.cancels[c]? = some call →
      call.phase = .signalling remoteId → s.cancellationTokens call.task = some k →
      Move s (.runCancel c) { (s.signal k).setCancel c call .awaiting with
        posted := .cancelTask remoteId :: s.posted }
  | unsignalled {c : ℕ} {call : CancelCall} {remoteId : String} : s.cancels[c]? = some call →
      call.phase = .signalling remoteId → Move s (.runCancel c)
        { s.setCancel c call .awaiting with posted := .cancelTask remoteId :: s.posted }
  | clearedRemote {c : ℕ} {call : CancelCall} {result : Except CoreError Unit} :
      s.cancels[c]? = some call → call.phase = .clearingRemote result → Move s (.runCancel c)
        { s.setCancel c call (.clearingToken result) with
          remoteTaskIds := Function.update s.remoteTaskIds call.task none }
  | clearedToken {c : ℕ} {call : CancelCall} {result : Except CoreError Unit} :
      s.cancels[c]? = some call → call.phase = .clearingToken result → Move s (.runCancel c)
        { s.setCancel c call (.returned result) with
          cancellationTokens := Function.update s.cancellationTokens call.task none }
  | provided (task : TaskId) (input : List Part) : Move s (.provideInput task input)
      { s with inputs := s.inputs ++ [⟨task, input, .looking⟩] }
  | continued {c : ℕ} {call : InputCall} {p : InputPhase} {posted : List A2aOperation} :
      s.inputs[c]? = some call → (∀ r, p ≠ .answered r) →
      Move s (.runInput c) { s.setInput c call p with posted := posted }
  | replied {c : ℕ} {call : InputCall} {r : Answer} : s.inputs[c]? = some call →
      call.phase = .awaiting → Move s (.answerInput c r) (s.setInput c call (.answered r))

theorem runCancel_move (hc : s.cancels[c]? = some call) (h : s.runCancel c call = some s') :
    Move s (.runCancel c) s' := by
  unfold State.runCancel at h
  split at h
  · split at h
    · cases h
      exact .advanced hc (.unknown ‹_› ‹_›)
    · cases h
      exact .advanced hc (.found ‹_› ‹_›)
  · rename_i remoteId hp
    cases htoken : s.cancellationTokens call.task with
    | none =>
      rw [htoken] at h
      cases h
      exact .unsignalled hc hp
    | some k =>
      rw [htoken] at h
      cases h
      exact .signalled hc hp htoken
  · cases h
    exact .clearedRemote hc ‹_›
  · cases h
    exact .clearedToken hc ‹_›
  · cases h
  · cases h

theorem move_of_step (h : step s i = some s') : Move s i s' := by
  cases i with
  | invoke task request =>
    cases h
    exact .invoked task request
  | turn k t =>
    obtain ⟨v, hv, hturn⟩ := bind_eq_some_iff.mp h
    obtain ⟨v', hv', rfl⟩ := map_eq_some_iff.mp hturn
    exact .turned hv (advance_of_turn hv')
  | cancel task =>
    cases h
    exact .called task
  | runCancel c =>
    obtain ⟨call, hc, hrun⟩ := bind_eq_some_iff.mp h
    exact runCancel_move hc hrun
  | answerCancel c r =>
    obtain ⟨call, hc, hrun⟩ := bind_eq_some_iff.mp h
    split at hrun
    · cases hrun
      exact .advanced hc (.answered ‹_›)
    · cases hrun
  | provideInput task input =>
    cases h
    exact .provided task input
  | runInput c =>
    obtain ⟨call, hc, hrun⟩ := bind_eq_some_iff.mp h
    unfold State.runInput at hrun
    split at hrun
    · split at hrun
      · cases hrun
        exact .continued hc (fun _ h => by cases h)
      · cases hrun
        exact .continued hc (fun _ h => by cases h)
    · cases hrun
  | answerInput c r =>
    obtain ⟨call, hc, hrun⟩ := bind_eq_some_iff.mp h
    split at hrun
    · cases hrun
      exact .replied hc ‹_›
    · cases hrun

@[simp] theorem touch_cancels (s : State) (v : Invocation) : (s.touch v).cancels = s.cancels := by
  unfold State.touch
  split <;> rfl

theorem step_invocation (h : step s i = some s') (hv : s'.invocations[k]? = some v') :
    (∃ v, s.invocations[k]? = some v ∧ Evolves s i k v v') ∨
      (k = s.invocations.length ∧ ∃ task request, i = .invoke task request ∧
        v' = ⟨task, request, .starting, false, [], false⟩) := by
  cases move_of_step h with
  | invoked task request =>
    obtain hold | ⟨rfl, rfl⟩ := getElem?_concat_cases hv
    · exact .inl ⟨v', hold, .same⟩
    · exact .inr ⟨rfl, task, request, rfl, rfl⟩
  | @turned j v v₁ t hvj hadvance =>
    obtain ⟨rfl, rfl⟩ | hv := getElem?_set_cases hv
    · exact .inl ⟨v, hvj, .turned rfl hadvance⟩
    · exact .inl ⟨v', hv, .same⟩
  | @signalled c j call remoteId hcall hp htoken =>
    obtain ⟨v, hvk, rfl⟩ := exists_of_modify hv
    refine .inl ⟨v, hvk, ?_⟩
    by_cases hj : j = k
    · rw [if_pos hj]
      exact .flagged hcall hp (hj ▸ htoken)
    · rw [if_neg hj]
      exact .same
  | _ => exact .inl ⟨v', hv, .same⟩

theorem step_length (h : step s i = some s') : s.invocations.length ≤ s'.invocations.length := by
  cases move_of_step h with
  | invoked task request =>
    rw [length_append]
    exact Nat.le_add_right _ _
  | turned hv hadvance => rw [length_set]
  | @signalled c k call remoteId hcall hp htoken =>
    change _ ≤ (s.signal k).invocations.length
    rw [State.signal, length_modify]
  | _ => exact le_refl _

theorem step_cancel (h : step s i = some s') (hc : s'.cancels[c]? = some call') :
    s.cancels[c]? = some call' ∨ (∃ call p, s.cancels[c]? = some call ∧ CancelMove s c call i p ∧
        call' = { call with phase := p }) ∨
      ∃ task, i = .cancel task ∧ call' = ⟨task, s.invocations.length, .looking⟩ := by
  have hmoved : ∀ {d : ℕ} {call : CancelCall} {p : CancelPhase}, s.cancels[d]? = some call →
      CancelMove s d call i p → (s.cancels.set d { call with phase := p })[c]? = some call' →
      s.cancels[c]? = some call' ∨ (∃ call p, s.cancels[c]? = some call ∧
        CancelMove s c call i p ∧ call' = { call with phase := p }) ∨
        ∃ task, i = .cancel task ∧ call' = ⟨task, s.invocations.length, .looking⟩ := by
    intro d call p hcall hmove hset
    obtain ⟨rfl, rfl⟩ | hset := getElem?_set_cases hset
    · exact .inr (.inl ⟨call, p, hcall, hmove, rfl⟩)
    · exact .inl hset
  cases move_of_step h with
  | called task =>
    obtain hold | ⟨-, rfl⟩ := getElem?_concat_cases hc
    · exact .inl hold
    · exact .inr (.inr ⟨task, rfl, rfl⟩)
  | turned hv hadvance =>
    rw [touch_cancels] at hc
    exact .inl hc
  | advanced hcall hmove => exact hmoved hcall hmove hc
  | signalled hcall hp _ | unsignalled hcall hp => exact hmoved hcall (.signal hp) hc
  | clearedRemote hcall hp => exact hmoved hcall (.clearRemote hp) hc
  | clearedToken hcall hp => exact hmoved hcall (.clearToken hp) hc
  | _ => exact .inl hc

end A2aClient

end AgentConnector
