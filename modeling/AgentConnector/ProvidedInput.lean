import AgentConnector.CallSteps
import AgentConnector.TaskLifecycle

/-!
# The steps of a call that provides input

`provideInput` reads the task, hands the input to the driver if the task waits for one, and records
the transition afterwards. The call of the driver comes between the check and the append, so what
the task has become meanwhile decides what the call reports.
-/

namespace AgentConnector

open Concurrent AdapterCore Replays

variable {setup : CoreSetup} {l : List (Step (contractCore setup))} {id : TaskId}
  {input : List Part}

/-- The task whose driver an operation hands an input. -/
def CoreOp.inputFor? : CoreOp contractSig → Option TaskId
  | .driverProvideInput _ id _ => some id
  | _ => none

def inputRecord (s : TaskSnapshot) : TaskTransition :=
  ⟨s.taskId, s.revision, [.waitingForInput], .running, .progress "input accepted" none⟩

theorem tasks_of_read {p : Pool (contractCore setup)} (hp : p.Reachable) (hmem : got ∈ p.trace)
    (hgot : got.Did (.store (.get id)) (.ok (some s))) : got.pre.db.tasks id = some s := by
  obtain ⟨c, hex⟩ := hgot.executed hp hmem
  obtain ⟨db, hdb, _⟩ := coreExec_store hex
  rcases (LogStore.exec_get hdb).2 with hr | ⟨e, hr, _⟩
  · exact (Except.ok.inj hr).symm
  · cases hr

theorem replays_provideInput
    (h : Replays (S := contractCore setup) (provideInput setup.contract id input).run l (.pure x)) :
    ∃ got : Step (contractCore setup),
      ((∃ r, got.Did (.store (.get id)) r) ∧ l = [got] ∧ ∃ e, x = .error e) ∨
      ∃ (s : TaskSnapshot) (agent : AgentId) (called : Step (contractCore setup)),
        got.Did (.store (.get id)) (.ok (some s)) ∧ s.state = .waitingForInput ∧
        ((∃ e, called.Did (.driverProvideInput agent id input) (.error e) ∧ l = [called, got] ∧
            x = .error e) ∨
          called.Did (.driverProvideInput agent id input) (.ok ()) ∧
          ∃ (entered appended : Step (contractCore setup))
              (r : Except StoreError AppliedTransition),
            entered.Did (.enter .provideInput) () ∧
            appended.Did (.store (.append (inputRecord s))) r ∧
            match r with
            | .error e => l = [appended, entered, called, got] ∧ x = .error (.store e)
            | .ok a => ∃ sent, sent.Did (.activeSend s.taskId a.event) () ∧
                l = [sent, appended, entered, called, got] ∧
                x = .ok (.inputAccepted a.snapshot)) := by
  obtain ⟨l', got, r, rfl, hgot, ⟨rfl, _, hx⟩ | ⟨s, rfl, h⟩⟩ := replays_read h
  · exact ⟨got, .inl ⟨⟨r, hgot⟩, rfl, hx⟩⟩
  refine ⟨got, ?_⟩
  have hthrow : ∀ e : CoreError, Replays (S := contractCore setup)
      (throw e : CoreM contractSig DispatchResult).run l' (.pure x) →
      l' ++ [got] = [got] ∧ ∃ e, x = .error e := by
    intro e hend
    obtain ⟨rfl, hx⟩ := replays_done hend
    exact ⟨rfl, e, hx⟩
  split at h
  · exact .inl ⟨⟨_, hgot⟩, hthrow _ h⟩
  rename_i hwaiting
  split at h
  · exact .inl ⟨⟨_, hgot⟩, hthrow _ h⟩
  rename_i agent _
  split at h
  · exact .inl ⟨⟨_, hgot⟩, hthrow _ h⟩
  obtain ⟨_, called, r, rfl, hcalled, h⟩ := op_pure (S := contractCore setup) h
  refine .inr ⟨s, agent.id, called, hgot, not_not.mp hwaiting, ?_⟩
  cases r with
  | error e =>
    obtain ⟨rfl, hx⟩ := replays_done h
    exact .inl ⟨e, hcalled, rfl, hx⟩
  | ok _ =>
    obtain ⟨_, entered, appended, r, rfl, hentered, happended, h⟩ := replays_transition h
    refine .inr ⟨hcalled, entered, appended, r, hentered, happended, ?_⟩
    cases r with
    | error e =>
      obtain ⟨rfl, hx⟩ := h
      exact ⟨rfl, hx⟩
    | ok a =>
      obtain ⟨_, sent, rfl, hsent, h⟩ := h
      obtain ⟨rfl, hx⟩ := replays_done h
      exact ⟨sent, hsent, rfl, hx⟩

theorem replays_input_call {k : o.Reply → Prog (coreSig contractSig) CoreOutcome}
    (ho : o.inputFor? = some id)
    (h : Replays (S := contractCore setup)
      ((contractCore setup).program (.dispatch caller (.provideInput id input))) l (.op o k)) :
    ∃ (got : Step (contractCore setup)) (s : TaskSnapshot), l = [got] ∧
      got.Did (.store (.get id)) (.ok (some s)) ∧ s.state = .waitingForInput := by
  -- No other part of the call performs such an operation.
  have hnever : ∀ {α : Type} {p : Prog (coreSig contractSig) α}
      {l : List (Step (contractCore setup))} {k : o.Reply → Prog (coreSig contractSig) α},
      p.Everywhere (fun o : CoreOp contractSig => o.inputFor? = none) →
      ¬ Replays (S := contractCore setup) p l (.op o k) := by
    intro α p l k hp hl
    cases ho.symm.trans (hl.everywhere hp).1.1
  obtain ⟨k₁, hdispatch⟩ := map_op (S := contractCore setup) (f := CoreOutcome.dispatched) h
  rcases try_op hdispatch with ⟨_, hpolicy⟩ | ⟨_, l₁, l₂, rfl, hpolicy, hmethod⟩
  · exact absurd hpolicy (hnever trivial)
  obtain ⟨rfl, _⟩ := replays_done hpolicy
  rw [List.append_nil]
  rcases try_op hmethod with ⟨_, hread⟩ | ⟨s, l₃, l₄, rfl, hread, hrest⟩
  · refine absurd hread (hnever ?_)
    apply everywhere_snapshot_of
    exact ⟨rfl, fun _ => trivial⟩
  obtain ⟨got, rfl, hgot⟩ := replays_snapshot_ok hread
  split at hrest
  · exact absurd hrest (hnever trivial)
  rename_i hwaiting
  split at hrest
  · exact absurd hrest (hnever trivial)
  split at hrest
  · exact absurd hrest (hnever trivial)
  rcases try_op hrest with ⟨_, hcall⟩ | ⟨_, l₅, l₆, _, _, hrecord⟩
  · rcases exists_first (S := contractCore setup) hcall with ⟨rfl, _⟩ | ⟨_, _, r, _, _, hend⟩
    · exact ⟨got, s, rfl, hgot, not_not.mp hwaiting⟩
    · cases (eq_pure (S := contractCore setup) (a := r) hend).2
  · refine absurd hrecord (hnever ?_)
    apply Prog.everywhere_try
    · exact everywhere_transition_of rfl ⟨rfl, fun _ => trivial⟩ (fun _ => rfl)
    · exact fun _ => trivial

end AgentConnector
