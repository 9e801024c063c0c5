import AgentConnector.AcpRuntime
import AgentConnector.SkippedEvents

/-!
# What `session/update` shows of a log

Every request for a task is answered with the events from the start of its log, and the core reads
at most 500 of them: the parameters of the request do not say where to start. So a log is shown as a
whole if and only if it has at most 500 events.
-/

namespace AgentConnector.Acp

open Concurrent List

variable {setup : CoreSetup} {parse : String → Option Uuid} {s s' : CoreState LogStore}
  {id : TaskId} {params : Json} {tid next : ℕ}

theorem methodSessionUpdate_eq (h : taskIdParam parse params = some id) :
    methodSessionUpdate parse setup.contract params =
      .op (.store (.eventsAfter id 0 500))
        (fun r => .pure (updateResponse (r.mapError CoreError.store))) := by
  simp only [methodSessionUpdate, h]
  rfl

/-- A request for the task, made in the state `s`, can be answered with these events. -/
def Answers (setup : CoreSetup) (parse : String → Option Uuid) (s : CoreState LogStore)
    (id : TaskId) (events : List Json) : Prop :=
  ∃ params, taskIdParam parse params = some id ∧ ∃ tid next l s',
    Solo (contractCore setup) tid next s
      (methodSessionUpdate parse setup.contract params) l s'
      (.pure (.ok (.object [("events", .array events)])))

/-- An event of the log of the task is among the events of some answer. -/
def Exposed (setup : CoreSetup) (parse : String → Option Uuid) (s : CoreState LogStore)
    (id : TaskId) (e : CoreEvent) : Prop :=
  ∃ events, Answers setup parse s id events ∧ eventToJson e ∈ events

theorem updateResponse_events (h : updateResponse r = .ok (.object [("events", .array events)])) :
    ∃ page, r = .ok page ∧ events = page.map eventToJson := by
  cases r with
  | error e => cases h
  | ok page =>
    cases h
    exact ⟨page, rfl, rfl⟩

theorem answers_eq (h : Answers setup parse s id events) :
    events = (s.db.page id 0 500).map eventToJson := by
  obtain ⟨params, hparams, tid, next, l, s', hsolo⟩ := h
  rw [methodSessionUpdate_eq hparams] at hsolo
  obtain ⟨c, s₁, r, l', hex, hrest⟩ := hsolo.first
  obtain ⟨page, hpage, rfl⟩ := updateResponse_events hrest.eq_of_pure
  cases r with
  | error e => cases hpage
  | ok page' =>
    cases hpage
    obtain ⟨db, hdb, -⟩ := coreExec_store hex
    rw [LogStore.exec_eventsAfter_ok hdb]

theorem exists_answer (hparse : parse id.display = some id)
    (htask : (s.db.tasks id).isSome = true) :
    Answers setup parse s id ((s.db.page id 0 500).map eventToJson) := by
  have hparams : taskIdParam parse (.object [("taskId", .string id.display)]) = some id := hparse
  refine ⟨_, hparams, 0, 0, ?_⟩
  rw [methodSessionUpdate_eq hparams]
  have hex : coreExec contractMachine 0 s (.store (.eventsAfter id 0 500)) { store := {} } =
      some (s, .ok (s.db.page id 0 500)) := by
    simp [coreExec, LogStore.exec, LogStore.settle, Option.isSome_iff_ne_none.mp htask]
  have hsolo : ∃ l, Solo (contractCore setup) 0 0 s (.op (.store (.eventsAfter id 0 500))
        (fun r => .pure (updateResponse (r.mapError CoreError.store)))) l s
      (.pure (.ok (.object [("events", .array ((s.db.page id 0 500).map eventToJson))]))) :=
    Solo.exists_op hex rfl ⟨[], .refl _ _⟩
  obtain ⟨l, hl⟩ := hsolo
  exact ⟨l, s, hl⟩

theorem seq_of_eventToJson (h : eventToJson e = eventToJson e') :
    e.seq = e'.seq := by
  have hseq : (eventToJson e).get "seq" = (eventToJson e').get "seq" := by rw [h]
  have hint : some (Json.int e.seq) = some (Json.int e'.seq) := hseq
  injection hint with hint
  injection hint with hint
  exact Int.ofNat.inj hint

theorem exposed_iff (hwf : s.db.WF) (hparse : parse id.display = some id) (he : e ∈ s.db.events id)
    : Exposed setup parse s id e ↔ e.seq ≤ 500 := by
  have hpage : s.db.page id 0 500 = (s.db.events id).take 500 := by
    rw [hwf.page_eq, drop_zero]
  constructor
  · rintro ⟨events, hanswers, hmem⟩
    rw [answers_eq hanswers, hpage] at hmem
    obtain ⟨e', he', heq⟩ := mem_map.mp hmem
    have hbounds := ((hwf.numbered id).take 500).mem_bounds he'
    rw [← seq_of_eventToJson heq]
    rw [length_take] at hbounds
    omega
  · intro hseq
    have htask : (s.db.tasks id).isSome = true := by
      cases htask : s.db.tasks id with
      | some snap => rfl
      | none =>
        rw [hwf.unknown htask] at he
        cases he
    refine ⟨_, exists_answer hparse htask, ?_⟩
    rw [hpage]
    refine mem_map_of_mem ?_
    have hpos := (hwf.numbered id).getElem?_of_mem he
    have hbounds := (hwf.numbered id).mem_bounds he
    refine mem_of_getElem? (i := e.seq - 1) ?_
    rw [getElem?_take_of_lt (by omega)]
    exact hpos

/-- The requests for a task show its whole log if and only if the log has at most 500 events. -/
theorem log_exposed_iff (setup : CoreSetup) (s : CoreState LogStore) (hwf : s.db.WF) (id : TaskId)
    (hparse : parse id.display = some id) :
    (∀ e ∈ s.db.events id, Exposed setup parse s id e) ↔ (s.db.events id).length ≤ 500 := by
  have hlog := hwf.numbered id
  constructor
  · intro hall
    by_contra hlong
    obtain ⟨e, he, hseq⟩ := hlog.exists_mem (n := 501) (by omega) (by omega)
    have hle := (exposed_iff hwf hparse he).mp (hall e he)
    omega
  · intro hshort e he
    have hbounds := hlog.mem_bounds he
    exact (exposed_iff hwf hparse he).mpr (by omega)

/-- Reads the identifier of the first task. -/
def parseFirst (text : String) : Option Uuid :=
  if text = Uuid.display 1 then some 1 else none

/-- A task with one event is shown as a whole. -/
theorem log_exposed_accepted : ∃ p : Pool (contractCore singleAgentSetup), p.Reachable ∧
      (p.state.db.events 1).map CoreEvent.seq = [1] ∧
      ((∀ e ∈ p.state.db.events 1, Exposed singleAgentSetup parseFirst p.state 1 e) ↔
        (p.state.db.events 1).length ≤ 500) := by
  obtain ⟨p, t, e, f, g, snap, hp, hthreads, hreporting, hseq⟩ := exists_reporting []
  have hwf := (wf_of_reachable hp).db
  have hlength : (p.state.db.events 1).length = 1 := by
    rw [← (hwf.log hreporting.task).lastSeq, hseq]
  have hnumbered := hwf.numbered 1
  rw [Numbered, hlength] at hnumbered
  exact ⟨p, hp, hnumbered, log_exposed_iff singleAgentSetup p.state hwf 1 (if_pos rfl)⟩

def completion (snap : TaskSnapshot) : TaskTransition :=
  ⟨snap.taskId, snap.revision, [.accepted, .running, .waitingForInput], .completed, .completed []⟩

theorem solo_complete (h : Reporting id i snap s) (setup : CoreSetup) (tid next : ℕ) :
    ∃ l s' p, Solo (contractCore setup) tid next s
      (AdapterCore.drainStream setup.contract id [.completed []]).run l s' p ∧
      s'.db = s.db.record (LogStore.applied snap (completion snap) 0) := by
  have hget : coreExec contractMachine tid s (.store (.get id)) calm =
      some (s, .ok (some snap)) := by
    simp only [coreExec, LogStore.exec, LogStore.settle, calm, h.task]
  have hcheck : s.db.check (completion snap) = .ok snap := by
    rw [LogStore.check_eq_ok_iff]
    refine ⟨?_, rfl, ?_⟩
    · rw [completion, h.taskId]
      exact h.task
    · rcases h.state with hs | hs <;> simp [completion, hs]
  have happend : coreExec contractMachine tid
      { s with sites := Function.update s.sites tid (some .driverEvent) }
      (.store (.append (completion snap))) calm =
      some ({ s with
        sites := Function.update s.sites tid (some .driverEvent)
        db := s.db.record (LogStore.applied snap (completion snap) 0) },
        .ok (LogStore.applied snap (completion snap) 0)) := by
    simp only [coreExec, LogStore.exec, hcheck, LogStore.settle]
    rfl
  have hsolo : ∃ l p, Solo (contractCore setup) tid next s
      (AdapterCore.drainStream setup.contract id [.completed []]).run l
      { s with
        sites := Function.update s.sites tid (some .driverEvent)
        db := s.db.record (LogStore.applied snap (completion snap) 0) } p := by
    refine Solo.exists_op_some (c := calm) rfl rfl ?_
    refine Solo.exists_op_some (c := calm) hget rfl ?_
    refine Solo.exists_op_some (c := calm) rfl rfl ?_
    refine Solo.exists_op_some happend rfl ?_
    exact ⟨[], _, .refl _ _⟩
  obtain ⟨l, p, hl⟩ := hsolo
  exact ⟨l, _, p, hl, rfl⟩

/-- A task with 502 events is completed, and no answer shows its completion. -/
theorem completion_not_exposed :
    ∃ (p : Pool (contractCore singleAgentSetup)) (snap : TaskSnapshot) (e : CoreEvent),
      p.Reachable ∧ p.state.db.tasks 1 = some snap ∧ snap.state = .completed ∧
      (p.state.db.events 1).length = 502 ∧ e ∈ p.state.db.events 1 ∧ e.kind = .completed [] ∧
      ¬ Exposed singleAgentSetup parseFirst p.state 1 e := by
  obtain ⟨p, t, e, f, g, snap, hp, hthreads, hreporting, hseq⟩ :=
    exists_reporting (List.replicate 500 (.progress "" none) ++ [.completed []])
  obtain ⟨l, s₁, snap₁, hprogress, hreporting₁, hseq₁⟩ := hreporting.solo_replicate
    singleAgentSetup 1 p.threads.length 500 [.completed []]
  obtain ⟨l', s₂, rest, hcomplete, hdb⟩ :=
    solo_complete hreporting₁ singleAgentSetup 1 p.threads.length
  obtain ⟨l'', hsolo⟩ := solo_withTimeout (singleAgentSetup.over contractMachine)
    (hprogress.trans hcomplete)
  obtain ⟨q, hq, hqstate, -, -⟩ := hp.solo (by rw [hthreads]; rfl) ((hsolo.bind f).bind g)
  have hwf := (wf_of_reachable hq).db
  have htask : (LogStore.applied snap₁ (completion snap₁) 0).event.taskId = 1 := hreporting₁.taskId
  have hsnap : q.state.db.tasks 1 = some (snap₁.advance .completed 0) := by
    rw [hqstate, hdb]
    simp only [LogStore.record, htask, Function.update_self]
    rfl
  have he : (LogStore.applied snap₁ (completion snap₁) 0).event ∈ q.state.db.events 1 := by
    rw [hqstate, hdb]
    simp [LogStore.record, htask]
  have hlast : (LogStore.applied snap₁ (completion snap₁) 0).event.seq = 502 := by
    change snap₁.lastSeq + 1 = 502
    omega
  have hlength : (q.state.db.events 1).length = 502 := by
    have hend := ((hwf.log hsnap).of_terminal_event he rfl).2
    rw [← (hwf.log hsnap).lastSeq, hend, hlast]
  refine ⟨q, _, _, hq, hsnap, rfl, hlength, he, rfl, fun hexposed => ?_⟩
  have hle := (exposed_iff hwf (if_pos rfl) he).mp hexposed
  omega

end AgentConnector.Acp
