import AgentConnector.EventsAfter
import AgentConnector.AcpRuntime
import AgentConnector.CoreService
import AgentConnector.SoloRun

/-!
# Tasks that were never created

The memory store answers `events_after` of a task it does not have with a not-found error. The SQL
stores select from the events alone, so for them such a task has an empty log. What the core and the
ACP runtime say about an unknown task is what its store says.
-/

namespace AgentConnector

open Concurrent AdapterCore List

namespace StoreKind

variable {k : StoreKind}

/-- There has been no row of the task at any time of the run. -/
def NeverCreated (p : Pool (storeService k.machine k.machine.empty)) (id : TaskId) : Prop :=
  ∀ st ∈ p.trace, k.machine.view.row st.post id = none

theorem NeverCreated.absent {id : TaskId} (hp : p.Reachable) (hnever : NeverCreated p id) :
    k.machine.view.row p.state id = none ∧ k.machine.view.log p.state id = [] := by
  refine hp.trace_induction (K := fun _ d => k.machine.view.row d id = none ∧
    k.machine.view.log d id = []) (k.empty_view id) (fun l st l' htrace hpre => ?_)
  have hmem : st ∈ p.trace := by
    rw [htrace]
    exact mem_append_right _ (mem_cons_self ..)
  refine ⟨hnever st hmem, ?_⟩
  obtain ⟨th, _, hstep⟩ := DurableMachine.taskStep_of_mem k.obeys k.settled_empty hp hmem id
  generalize th.entry = c at hstep
  cases hstep with
  | same hsame => exact hsame.log.trans hpre.2
  | append hid happlies =>
    -- An append finds the row of its task.
    have hcurrent := happlies.current
    rw [hid, StoreView.stored, hpre.1] at hcurrent
    cases hcurrent
  | create hid hcreates _ => exact hid ▸ hcreates.log
  | clean _ hlog => exact sublist_nil.mp (hpre.2 ▸ hlog)
  | delete _ hlog => exact hlog

/-- What the layers say about the task `id`, by themselves and whatever the clock and the database
do: not found, and never an empty history. -/
structure ReportsUnknown (k : StoreKind) (setup : CoreSetup) (parse : String → Option Uuid)
    (s : CoreState k.machine.Db) (id : TaskId) : Prop where
  history : ∀ tid afterSeq, Completes (coreService k.machine.toStoreMachine setup) tid
    (fun _ => True) (fun r _ => r = .error (.store (.notFound id)))
    (history (setup.over k.machine.toStoreMachine) id afterSeq).run s
  subscribe : ∀ tid afterSeq, Completes (coreService k.machine.toStoreMachine setup) tid
    (fun _ => True) (fun r _ => r = .error (.store (.notFound id)))
    (subscribe (setup.over k.machine.toStoreMachine) id afterSeq).run s
  sessionUpdate : ∀ tid params, Acp.taskIdParam parse params = some id →
    Completes (coreService k.machine.toStoreMachine setup) tid (fun _ => True)
      (fun r _ => r = .error (Acp.coreError (.store (.notFound id))))
      (Acp.methodSessionUpdate parse (setup.over k.machine.toStoreMachine) params) s

variable {setup : CoreSetup} {parse : String → Option Uuid} {id : TaskId}

theorem memory_history (hrow : memory.machine.view.row s.db id = none) (tid afterSeq : ℕ) :
    Completes (coreService memory.machine.toStoreMachine setup) tid (fun _ => True)
      (fun r _ => r = .error (.store (.notFound id)))
      (history (setup.over memory.machine.toStoreMachine) id afterSeq).run s := by
  intro c _
  refine ⟨s, MemoryState.eventsAfter s.db id afterSeq 500, rfl, ?_⟩
  rw [MemoryState.eventsAfter, show s.db.tasks.find id = none from hrow]
  rfl

theorem memory_reportsUnknown (hrow : memory.machine.view.row s.db id = none) :
    ReportsUnknown memory setup parse s id where
  history := memory_history hrow
  subscribe tid afterSeq := by
    refine completes_bind ((memory_history hrow tid afterSeq).mono ?_)
    intro r s' hr
    subst hr
    rfl
  sessionUpdate tid params hparams := by
    rw [Acp.methodSessionUpdate, hparams]
    refine completes_bind ((memory_history hrow tid 0).mono ?_)
    intro r s' hr
    subst hr
    rfl

theorem decode_selectEvents_nil {d : Tables C} (hlog : (sqlView errors).log d id = [])
    (cursor : I64) (limit : ℕ) :
    decodeEvents errors id (d.selectEvents (C.id id) cursor limit) = .ok [] := by
  have hdecodes : (sqlView errors).Decodes d id [] := congrArg (List.map _) hlog
  rw [decode_selectEvents hdecodes List.Pairwise.nil (fun _ he => absurd he not_mem_nil),
    filter_nil, take_nil]

theorem sql_history (hk : k ≠ .memory) (hlog : k.machine.view.log s.db id = [])
    {Q : Except CoreError (List CoreEvent) → CoreState k.machine.Db → Prop}
    (h : Completes (coreService k.machine.toStoreMachine setup) tid (fun _ => True) Q
      (history (setup.over k.machine.toStoreMachine) id afterSeq).run s) :
    Q (.ok []) s := by
  cases k with
  | memory => exact absurd rfl hk
  | sqlite C =>
    obtain ⟨s', r, hex, hrest⟩ := h { store := (sqliteMachine C).calm 0 } trivial
    cases hex
    have hrest' : Q ((decodeEvents _ id (s.db.committed.selectEvents (C.id id) (asI64 afterSeq)
      (min 500 10000))).mapError CoreError.store) s := hrest
    rwa [decode_selectEvents_nil hlog] at hrest'
  | postgres J =>
    obtain ⟨s', r, hex, hrest⟩ := h { store := (postgresMachine J).calm 0 } trivial
    cases hex
    have hrest' : Q ((decodeEvents _ id (s.db.committed.selectEvents ((Postgres.columns J).id id)
      (asI64 afterSeq) (min 500 10000))).mapError CoreError.store) s := hrest
    rwa [decode_selectEvents_nil hlog] at hrest'

/-- An unknown task is reported as such exactly over the memory store. -/
theorem reportsUnknown_iff {p : Pool (storeService k.machine k.machine.empty)} (hp : p.Reachable)
    (hnever : NeverCreated p id) {s : CoreState k.machine.Db} (hs : s.db = p.state) :
    ReportsUnknown k setup parse s id ↔ k = .memory := by
  have habsent := hnever.absent hp
  rw [← hs] at habsent
  constructor
  · intro hreports
    by_contra hk
    have hok : (.ok [] : Except CoreError (List CoreEvent)) = .error (.store (.notFound id)) :=
      sql_history hk habsent.2 (hreports.history 0 0)
    cases hok
  · intro hk
    subst hk
    exact memory_reportsUnknown habsent.1

theorem reportsUnknown_memory_empty : ReportsUnknown memory singleAgentSetup (fun _ => none)
      (coreService memory.machine.toStoreMachine singleAgentSetup).init 7 :=
  (reportsUnknown_iff .start (fun _ hst => absurd hst not_mem_nil) rfl).mpr rfl

/-- Over an empty database, a task that nobody has created has an empty history. -/
theorem empty_history_of_unknown :
    let S := coreService (postgres .plain).machine.toStoreMachine singleAgentSetup
    Completes S 0 (fun c => c = { store := (postgresMachine .plain).calm 0 })
        (fun r _ => r = .ok [])
        (history (singleAgentSetup.over (postgresMachine .plain).toStoreMachine) 7 0).run
        S.init ∧
      ¬ ReportsUnknown (postgres .plain) singleAgentSetup (fun _ => none) S.init 7 := by
  constructor
  · rintro c rfl
    exact ⟨_, _, rfl, rfl⟩
  · intro hreports
    have hok : (.ok [] : Except CoreError (List CoreEvent)) = .error (.store (.notFound 7)) :=
      sql_history (by simp) rfl (hreports.history 0 0)
    cases hok

end StoreKind

end AgentConnector
