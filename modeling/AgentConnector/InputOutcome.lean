import AgentConnector.InputDelivery

/-!
# What a call that provides input reports

The driver is handed the input before the transition is recorded, so the task may change in between.
A call whose append finds the revision it was decided on reports truthfully; one whose append comes
too late fails although the driver has the input, and an event of the driver that is applied before
the transition is recorded may end the task.
-/

namespace AgentConnector

open Concurrent AdapterCore List

variable {setup : CoreSetup} {p : Pool (contractCore setup)} {id : TaskId} {tid : ℕ}

/-- The task whose driver has accepted an input by this operation. -/
def CoreOp.acceptedInput? : (o : CoreOp contractSig) → o.Reply → Option TaskId
  | .driverProvideInput _ id _, .ok _ => some id
  | _, _ => none

def CoreOp.appends? : CoreOp contractSig → Option TaskId
  | .store (.append t) => some t.taskId
  | _ => none

/-- An append finds the revision it was decided on. -/
def CoreOp.Timely (s : CoreState LogStore) : CoreOp contractSig → Prop
  | .store (.append t) => (s.db.tasks t.taskId).map TaskSnapshot.revision = some t.expectedRevision
  | _ => True

instance (s : CoreState LogStore) (o : CoreOp contractSig) : Decidable (o.Timely s) :=
  decidable_of_bool (match o with
    | .store (.append t) =>
      (s.db.tasks t.taskId).map TaskSnapshot.revision = some t.expectedRevision
    | _ => true) (by unfold CoreOp.Timely; split <;> simp)

/-- The append is refused by the checks of the store. -/
def CoreOp.refused : (o : CoreOp contractSig) → o.Reply → Bool
  | .store (.append _), .error e => !e.fault
  | _, _ => false

/-- By these steps the driver has accepted an input for the task, and the call that handed it over
has not appended. -/
def InputUnrecorded (id : TaskId) (l : List (Step (contractCore setup))) : Prop :=
  ∃ st ∈ l, CoreOp.acceptedInput? st.op st.reply = some id ∧
    ∀ st' ∈ l, st'.tid = st.tid → st'.op.appends? = none

instance (l : List (Step (contractCore setup))) : Decidable (InputUnrecorded id l) := by
  unfold InputUnrecorded
  infer_instance

/-- The thread is the worker of the task. -/
abbrev worksOn (p : Pool (contractCore setup)) (id : TaskId) (tid : ℕ) : Prop :=
  p.threads[tid]?.bind (fun th => th.entry.worker?) = some id

/-- The steps before the last read of the task by the thread. -/
def beforeRead (tid : ℕ) (id : TaskId) (l : List (Step (contractCore setup))) :
    List (Step (contractCore setup)) :=
  (l.dropWhile (fun st => ¬ (st.tid = tid ∧ st.op.gets? = some id))).tail

/-- The call has recorded, by its only append, that the task has left `WaitingForInput` for
`Running`. -/
def RecordedInput (p : Pool (contractCore setup)) (id : TaskId) (tid : ℕ) : Prop :=
  ∃ st t a, (p.own tid).filter (fun st => st.op.appends?.isSome) = [st] ∧
    st.Did (.store (.append t)) (.ok a) ∧
    (st.pre.db.tasks id).map TaskSnapshot.state = some .waitingForInput ∧
    a.snapshot.state = .running ∧ a.event ∈ p.state.db.events id

structure InputTruthful (p : Pool (contractCore setup)) (id : TaskId) : Prop where
  failed : ∀ tid th r, p.threads[tid]? = some th → th.entry.input? = some id →
    th.prog.result? = some r → r.succeeds = false →
    ∀ st ∈ p.own tid, CoreOp.acceptedInput? st.op st.reply = none
  succeeded : ∀ tid th r, p.threads[tid]? = some th → th.entry.input? = some id →
    th.prog.result? = some r → r.succeeds = true →
    (∃ st ∈ p.own tid, CoreOp.acceptedInput? st.op st.reply = some id) ∧ RecordedInput p id tid
  /-- An event of the driver that the store refuses (which ends the run of the driver, and the
  worker fails the task) was not decided while an accepted input was unrecorded. -/
  events : ∀ l st older, p.trace = l ++ st :: older → worksOn p id st.tid →
    st.pre.sites st.tid = some .driverEvent → CoreOp.refused st.op st.reply = true →
    ¬ InputUnrecorded id (beforeRead st.tid id older)

/-- The append of an accepted input is applied to the task that was read, or it is late or the
storage has failed. -/
theorem record_cases (hp : p.Reachable) (hown : p.own tid = l ++ appended :: l') (hmem : got ∈ l')
    (hgot : got.Did (.store (.get id)) (.ok (some s))) (hwaiting : s.state = .waitingForInput)
    (happended : appended.Did (.store (.append (inputRecord s))) r) :
    (∃ a, r = .ok a ∧ a.snapshot.state = .running ∧ appended.pre.db.tasks id = some s ∧
        a.event ∈ appended.post.db.events id) ∨
      CoreOp.Fault appended.op appended.reply ∨ ¬ appended.op.Timely appended.pre := by
  have hgottrace : got ∈ p.trace :=
    (World.mem_own.mp (show got ∈ p.own tid by simp [hown, hmem])).1
  have happendedtrace : appended ∈ p.trace :=
    (World.mem_own.mp (show appended ∈ p.own tid by simp [hown])).1
  obtain ⟨hwf, hstep, _⟩ := extends_of_mem_trace hp hgottrace
  obtain ⟨hid, hknown⟩ := hwf.known (tasks_of_read hp hgottrace hgot)
  have hlater : appended.pre.Known s :=
    (hknown.extends hstep).extends (extends_between hp hown hmem)
  obtain ⟨cur, hcur, hsucc⟩ := hlater
  obtain ⟨c, hex⟩ := happended.executed hp happendedtrace
  obtain ⟨db, hdb, hpost⟩ := coreExec_store hex
  rcases LogStore.exec_append hdb with ⟨cur', hcheck, rfl, hdb'⟩ | ⟨e, hcheck, _⟩ | ⟨e, rfl, he⟩
  · obtain ⟨hcur', hrev, _⟩ := (LogStore.check_eq_ok_iff _ _ _).mp hcheck
    have hsame : appended.pre.db.tasks s.taskId = some cur' := hcur'
    rw [hcur] at hsame
    cases hsame
    have heq : cur = s := hsucc.same hrev
    subst heq
    refine .inl ⟨_, rfl, rfl, hid ▸ hcur, ?_⟩
    rw [hpost, hdb', ← hid]
    exact LogStore.mem_events_record _ _ _ _
  · refine .inr (.inr ?_)
    rw [happended.op_eq]
    intro htimely
    have hrev : (appended.pre.db.tasks s.taskId).map TaskSnapshot.revision = some
      s.revision := htimely
    rw [hcur, Option.map_some] at hrev
    have heq : cur = s := hsucc.same (Option.some.inj hrev)
    subst heq
    have hok := (LogStore.check_eq_ok_iff appended.pre.db (inputRecord cur) cur).mpr
      ⟨hcur, rfl, by simp [inputRecord, hwaiting]⟩
    rw [hok] at hcheck
    cases hcheck
  · refine .inr (.inl ?_)
    rw [happended]
    exact he

/-- A finished call has failed and its input was not accepted, or it has recorded an accepted one.
-/
theorem provide_input_cases (hp : p.Reachable) (hth : p.threads[tid]? = some th)
    (hentry : th.entry.input? = some id) (hres : th.prog.result? = some r)
    (hfault : ∀ st ∈ p.own tid, ¬ CoreOp.Fault st.op st.reply)
    (htimely : ∀ st ∈ p.own tid, st.op.Timely st.pre) :
    (r.succeeds = false ∧ ∀ st ∈ p.own tid, CoreOp.acceptedInput? st.op st.reply = none) ∨
      (r.succeeds = true ∧ (∃ st ∈ p.own tid, CoreOp.acceptedInput? st.op st.reply = some id) ∧
        RecordedInput p id tid) := by
  obtain ⟨caller, input, hdispatch⟩ := CoreEntry.exists_input hentry
  obtain ⟨x, rfl, hx⟩ := replays_dispatched hp hth hdispatch hres
  rcases replays_dispatch hx with ⟨e, _, hown, rfl⟩ | ⟨_, hmethod⟩
  · exact .inl ⟨rfl, by simp [hown]⟩
  have haccepted := fun {st : Step (contractCore setup)} {o : CoreOp contractSig} {r : o.Reply}
    (h : st.Did o r) => h.apply_eq (fun o r => CoreOp.acceptedInput? o r)
  obtain ⟨got, ⟨⟨read, hgot⟩, hown, e, rfl⟩ | ⟨s, agent, called, hgot, hwaiting, hcalled⟩⟩ :=
    replays_provideInput hmethod
  · refine .inl ⟨rfl, fun st hst => ?_⟩
    rw [hown, mem_singleton] at hst
    rw [hst, haccepted hgot]
    rfl
  rcases hcalled with ⟨e, hcalled, hown, rfl⟩ | ⟨hcalled, entered, appended, r, hentered, happended,
    hend⟩
  · refine .inl ⟨rfl, fun st hst => ?_⟩
    simp only [hown, mem_cons, not_mem_nil, or_false] at hst
    rcases hst with rfl | rfl
    · rw [haccepted hcalled]
      rfl
    · rw [haccepted hgot]
      rfl
  -- The driver has accepted the input: the append is applied.
  have happlied : ∀ {l}, p.own tid = l ++ [appended, entered, called, got] → ∃ a, r = .ok a ∧
      a.snapshot.state = .running ∧ appended.pre.db.tasks id = some s ∧
      a.event ∈ appended.post.db.events id := by
    intro l hown
    have hmem : appended ∈ p.own tid := by simp [hown]
    rcases record_cases hp hown (by simp) hgot hwaiting happended with ha | hf | hl
    · exact ha
    · exact absurd hf (hfault appended hmem)
    · exact absurd (htimely appended hmem) hl
  cases r with
  | error e =>
    obtain ⟨a, hr, _⟩ := happlied (l := []) hend.1
    cases hr
  | ok a =>
    obtain ⟨sent, hsent, hown, rfl⟩ := hend
    obtain ⟨a', hr, hrunning, hs, hlog⟩ := happlied (l := [sent]) hown
    cases hr
    refine .inr ⟨rfl, ⟨called, by simp [hown], haccepted hcalled⟩, ?_⟩
    refine ⟨appended, _, a, ?_, happended, by simp [hs, hwaiting], hrunning, ?_⟩
    · simp [hown, hgot.op_eq, hcalled.op_eq, hentered.op_eq, happended.op_eq, hsent.op_eq,
        CoreOp.appends?]
    · have hmem : appended ∈ p.trace :=
        (World.mem_own.mp (show appended ∈ p.own tid by simp [hown])).1
      exact ((extends_of_mem_trace hp hmem).2.2.db.events id).subset hlog

theorem exists_read {l : List (Step (contractCore setup))}
    (h : InputUnrecorded id (beforeRead tid id l)) :
    ∃ l₁ st l₂, l = l₁ ++ st :: l₂ ∧ st.tid = tid ∧ st.op.gets? = some id ∧
      InputUnrecorded id l₂ := by
  induction l with
  | nil =>
    obtain ⟨st, hst, _⟩ := h
    cases hst
  | cons st l ih =>
    by_cases hst : st.tid = tid ∧ st.op.gets? = some id
    · rw [beforeRead, dropWhile_cons_of_neg (by simp [hst])] at h
      exact ⟨[], st, l, rfl, hst.1, hst.2, h⟩
    · rw [beforeRead, dropWhile_cons_of_pos (by rw [decide_eq_true_eq]; exact hst)] at h
      obtain ⟨l₁, read, l₂, rfl, hread⟩ := ih h
      exact ⟨st :: l₁, read, l₂, rfl, hread⟩

/-- The driver asks a question and reports as soon as it has the answer. -/
def reportingDriver (tid : ℕ) : Action (contractCore singleAgentSetup) :=
  .step tid { calm with stream := .ok [.inputRequired ⟨"which one?", none⟩,
    .progress "working" none, .completed []] }

end AgentConnector
