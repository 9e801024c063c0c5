import AgentConnector.StdioDriver

/-!
# Work accepted without a reader

The reader drains the map of registered tasks once, when its loop ends. A task registered later has
nobody who would report on it, and nothing keeps `invoke` from registering one: it only looks at the
slot of the process.
-/

namespace AgentConnector.Stdio

open Steps

variable {cfg : Config} {s s' : State} {i : Input}

/-- No task is registered after the reader has drained the map. -/
def Undrained (s : State) : Input → Prop
  | .register _ => s.reader.runs = true
  | _ => True

instance decidableUndrained (s : State) : (i : Input) → Decidable (Undrained s i)
  | .register _ => inferInstanceAs (Decidable (s.reader.runs = true))
  | .spawn | .startFailed | .started | .line _ | .eof | .deliver | .drain | .written
  | .writeFailed | .take _ => isTrue trivial

def State.Attended (s : State) : Prop := s.reader.runs = false → s.pending = ∅

theorem attended_of_runs (h : s.reader.runs = true) : s.Attended := by
  intro hdead
  rw [h] at hdead
  cases hdead

theorem erase_empty (task : TaskId) : (∅ : AList fun _ : TaskId => ℕ).erase task = ∅ := rfl

theorem State.Attended.move (h : s.Attended) (hu : Undrained s i) (hm : Move cfg s i s') :
    s'.Attended := by
  cases hm with
  | spawn | startFailed | drain => exact fun _ => rfl
  | started | written | take => exact h
  | skip hreading | greet hreading | unknown hreading =>
    exact attended_of_runs (congrArg Reader.runs hreading)
  | route | eof | lost | deliver => exact attended_of_runs rfl
  | register => exact attended_of_runs hu
  | writeFailed =>
    intro hdead
    simp only [h hdead, erase_empty]

theorem attended_of_run (hrun : run (step cfg) .start is = some s)
    (hu : Along (step cfg) Undrained .start is) : s.Attended :=
  run_invariant (fun h hu hstep => h.move hu (move_of_step hstep)) hrun hu (fun _ => rfl)

/-- If no task is registered after the reader has drained the map, then the channel of an accepted
task is closed or its sender is with a reader that runs; and a reader whose loop has ended drains
the map, which closes the channels that are left. -/
theorem accepted_task_attended (cfg : Config) {is : List Input}
    (hrun : run (step cfg) .start is = some s) (hu : Along (step cfg) Undrained .start is) :
    (∀ k c, s.channels[k]? = some c → c.call = .accepted →
      s.holds k ∧ s.reader.runs = true ∨ ¬ s.holds k) ∧
    (s.reader = .closing → step cfg s .drain = some s.drain ∧ ∀ k, ¬ s.drain.holds k) := by
  refine ⟨fun k c _ _ => ?_, fun hclosing => ⟨?_, fun k => ?_⟩⟩
  · by_cases hholds : s.holds k
    · refine .inl ⟨hholds, ?_⟩
      rcases hholds with ⟨task, htask⟩ | ⟨e, he⟩
      · by_contra hdead
        rw [attended_of_run hrun hu (Bool.eq_false_iff.mpr hdead)] at htask
        cases htask
      · rw [he]
        rfl
    · exact .inr hholds
  · simp only [step, hclosing]
  · rintro (⟨task, htask⟩ | ⟨e, he⟩)
    · cases htask
    · cases he

/-- Every line is the first message of an agent. -/
def greeting : Config where
  maxLineBytes := 1024
  decode _ := some ⟨"uaic/1", "initialized", none, none, none, none, none, none, none, none, none⟩

/-- The agent starts, a task is accepted, and the output ends. -/
def acceptedThenClosed : List Input :=
  [.spawn, .line [], .started, .register 1, .written, .eof, .drain]

theorem accepted_task_attended_closed :
    ∃ s, run (step greeting) .start acceptedThenClosed = some s ∧
      ∀ k c, s.channels[k]? = some c → c.call = .accepted →
        s.holds k ∧ s.reader.runs = true ∨ ¬ s.holds k := by
  have hclosed : ∃ s, run (step greeting) .start acceptedThenClosed = some s := ⟨_, rfl⟩
  obtain ⟨s, hrun⟩ := hclosed
  have hu : Along (step greeting) Undrained .start acceptedThenClosed := by decide
  exact ⟨s, hrun, (accepted_task_attended greeting hrun hu).1⟩

/-- The output ends first, and the task is accepted afterwards. -/
def closedThenAccepted : List Input :=
  [.spawn, .line [], .started, .eof, .drain, .register 1, .written]

/-- The task is accepted, its channel has a sender and no event, and no reader runs. -/
theorem accepted_without_reader :
    ∃ s c, run (step greeting) .start closedThenAccepted = some s ∧ s.channels = [c] ∧
      c.call = .accepted ∧ c.sent = [] ∧ s.pending.lookup 1 = some 0 ∧ s.reader = .drained :=
  ⟨_, _, rfl, rfl, rfl, rfl, rfl, rfl⟩

end AgentConnector.Stdio
