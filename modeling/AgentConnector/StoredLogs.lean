import AgentConnector.LinearHistory

/-!
# What is stored can be read

In every state of a run all rows decode, the counters of a task do not exceed the number of steps,
its event log is numbered in ascending order up to the last number of its row, and every event has
been appended under its number. Retention may leave gaps in the log.
-/

namespace AgentConnector

open Concurrent StoreView List

namespace StoreView

variable {D : Type} (V : StoreView D)

/-- The event rows of a task decode to the events `es`. -/
def Decodes (d : D) (id : TaskId) (es : List CoreEvent) : Prop :=
  (V.log d id).map (V.event id) = es.map .ok

structure ReadableTask (id : TaskId) (d : D) : Prop where
  row : ∀ r, V.row d id = some r → ∃ s, V.snapshot r = .ok s
  log : ∃ es, V.Decodes d id es
  absent : V.row d id = none → V.log d id = []

/-- The counters of a task are at most `n`, and its log is numbered up to the last number. -/
structure NumberedTask (id : TaskId) (d : D) (n : ℕ) : Prop where
  counters : ∀ s, V.stored d id = some (.ok s) → s.revision ≤ n ∧ s.lastSeq ≤ n
  log : ∀ es, V.Decodes d id es → (es.map CoreEvent.seq).Pairwise (· < ·) ∧
    ∀ e ∈ es, ∀ s, V.stored d id = some (.ok s) → e.seq ≤ s.lastSeq

variable {V} {id : TaskId} {d d' : D} {n : ℕ}

theorem stored_eq_ok_iff :
    V.stored d id = some (.ok s) ↔ ∃ r, V.row d id = some r ∧ V.snapshot r = .ok s := by
  rw [stored, Option.map_eq_some_iff]

theorem Decodes.unique (h : V.Decodes d id es) (h' : V.Decodes d id es') :
    es' = es := by
  rw [Decodes] at h h'
  rw [h] at h'
  exact (map_injective_iff.mpr (fun _ _ => Except.ok.inj) h').symm

theorem decodes_nil (h : V.log d id = []) : V.Decodes d id [] := by
  rw [Decodes, h]
  rfl

theorem readableTask_nil (hrow : V.row d id = some r) (hs : V.snapshot r = .ok s)
    (hlog : V.log d id = []) : V.ReadableTask id d where
  row r' hr' := by
    rw [hrow] at hr'
    cases hr'
    exact ⟨s, hs⟩
  log := ⟨[], decodes_nil hlog⟩
  absent _ := hlog

theorem readableTask_absent (hrow : V.row d id = none) (hlog : V.log d id = []) :
    V.ReadableTask id d where
  row r hr := by
    rw [hrow] at hr
    cases hr
  log := ⟨[], decodes_nil hlog⟩
  absent _ := hlog

theorem ReadableTask.step {strict : Prop} (h : V.ReadableTask id d)
    (hstep : V.TaskStep strict id d d' c) : V.ReadableTask id d' := by
  cases hstep with
  | same hsame =>
    refine ⟨fun r hr => ?_, ?_, fun hnone => ?_⟩
    · rw [hsame.row] at hr
      exact h.row r hr
    · obtain ⟨es, hes⟩ := h.log
      exact ⟨es, by rw [Decodes, hsame.log]; exact hes⟩
    · rw [hsame.row] at hnone
      rw [hsame.log]
      exact h.absent hnone
  | append hid happlies =>
    subst hid
    obtain ⟨r', hr', hs'⟩ := stored_eq_ok_iff.mp happlies.stored
    refine ⟨fun r hr => ?_, ?_, fun hnone => ?_⟩
    · rw [hr'] at hr
      cases hr
      exact ⟨_, hs'⟩
    · obtain ⟨es, hes⟩ := h.log
      obtain ⟨row, e, hlog, hevent, _⟩ := happlies.logged
      refine ⟨es ++ [e], ?_⟩
      rw [Decodes] at hes
      rw [Decodes, hlog, map_append, map_append, hes, map_singleton, hevent]
      rfl
    · rw [hr'] at hnone
      cases hnone
  | create hid hcreates _ =>
    subst hid
    obtain ⟨s, hs, _⟩ := hcreates.stored
    obtain ⟨r, hr, hsnap⟩ := stored_eq_ok_iff.mp hs
    exact readableTask_nil hr hsnap hcreates.log
  | clean hrow hlog =>
    refine ⟨fun r hr => ?_, ?_, fun hnone => ?_⟩
    · rw [hrow] at hr
      exact h.row r hr
    · obtain ⟨es, hes⟩ := h.log
      have hsub := hlog.map (V.event id)
      rw [show (V.log d id).map (V.event id) = es.map .ok from hes] at hsub
      obtain ⟨es', _, heq⟩ := sublist_map_iff.mp hsub
      exact ⟨es', heq⟩
    · rw [hrow] at hnone
      rw [h.absent hnone] at hlog
      exact sublist_nil.mp hlog
  | delete hrow hlog => exact readableTask_absent hrow hlog

theorem numberedTask_nil (hlog : V.log d id = [])
    (h : ∀ s, V.stored d id = some (.ok s) → s.revision ≤ n ∧ s.lastSeq ≤ n) :
    V.NumberedTask id d n where
  counters := h
  log es hes := by
    rw [(decodes_nil hlog).unique hes]
    exact ⟨List.Pairwise.nil, fun e he => by cases he⟩

theorem NumberedTask.step {strict : Prop} (h : V.NumberedTask id d n)
    (hreadable : V.ReadableTask id d) (hn : n < 2 ^ 63) (hstep : V.TaskStep strict id d d' c) :
    V.NumberedTask id d' (n + 1) := by
  obtain ⟨es, hes⟩ := hreadable.log
  obtain ⟨hsorted, hlast⟩ := h.log es hes
  have hcounters : ∀ s, V.stored d id = some (.ok s) → s.revision ≤ n + 1 ∧ s.lastSeq ≤ n + 1 :=
    fun s hs => ⟨Nat.le_succ_of_le (h.counters s hs).1, Nat.le_succ_of_le (h.counters s hs).2⟩
  cases hstep with
  | same hsame =>
    refine ⟨by rw [hsame.stored_eq]; exact hcounters, ?_⟩
    rw [hsame.stored_eq]
    intro es' hes'
    rw [Decodes, hsame.log] at hes'
    rw [hes.unique hes']
    exact ⟨hsorted, hlast⟩
  | append hid happlies =>
    subst hid
    rename_i t cur a
    obtain ⟨hrev, hseq⟩ := h.counters cur happlies.current
    obtain ⟨hnext, hnextSeq⟩ := happlies.counters (by omega) (by omega)
    obtain ⟨row, e, hlog, hevent, _, heseq, _⟩ := happlies.logged
    have heseq' := heseq (by omega)
    have hle : ∀ e' ∈ es, e'.seq ≤ cur.lastSeq := fun e' he' => hlast e' he' cur happlies.current
    refine ⟨fun s hs => ?_, fun es' hes' => ?_⟩
    · rw [happlies.stored] at hs
      cases hs
      omega
    have hes₁ : V.Decodes d' t.taskId (es ++ [e]) := by
      rw [Decodes] at hes
      rw [Decodes, hlog, map_append, map_append, hes, map_singleton, hevent]
      rfl
    rw [hes₁.unique hes']
    refine ⟨?_, fun e' he' s hs => ?_⟩
    · rw [map_append, pairwise_append]
      refine ⟨hsorted, pairwise_singleton .., fun i hi j hj => ?_⟩
      obtain ⟨e', he', rfl⟩ := mem_map.mp hi
      rw [map_singleton, mem_singleton] at hj
      have := hle e' he'
      omega
    · rw [happlies.stored] at hs
      cases hs
      rcases mem_append.mp he' with he' | he'
      · have := hle e' he'
        omega
      · rw [mem_singleton.mp he']
        omega
  | create hid hcreates _ =>
    subst hid
    refine numberedTask_nil hcreates.log (fun s hs => ?_)
    obtain ⟨s', hs', _, _, _, hrev, hseq⟩ := hcreates.stored
    rw [hs'] at hs
    cases hs
    omega
  | clean hrow hlog =>
    have hstored : V.stored d' id = V.stored d id := by rw [stored, stored, hrow]
    refine ⟨by rw [hstored]; exact hcounters, fun es' hes' => ?_⟩
    have hsub := hlog.map (V.event id)
    rw [show (V.log d id).map (V.event id) = es.map .ok from hes] at hsub
    obtain ⟨es₁, hes₁, heq⟩ := sublist_map_iff.mp hsub
    rw [hstored, Decodes.unique heq hes']
    exact ⟨hsorted.sublist (hes₁.map _), fun e he => hlast e (hes₁.subset he)⟩
  | delete hrow hlog =>
    refine numberedTask_nil hlog (fun s hs => ?_)
    rw [stored, hrow] at hs
    cases hs

end StoreView

namespace DurableMachine

variable {M : DurableMachine} {db : M.Db} {strict : Prop} {p : Pool (storeService M db)}
  (hM : Obeys strict M) (hdb : M.Settled db)
  (hempty : ∀ id, M.view.row db id = none ∧ M.view.log db id = []) (hp : p.Reachable)

include hM hdb hp

theorem taskStep_of_mem (hst : st ∈ p.trace) (id : TaskId) :
    ∃ th, p.threads[st.tid]? = some th ∧ M.view.TaskStep strict id st.pre st.post th.entry := by
  obtain ⟨th, _, _, hth, _, hguarantee⟩ := hM.kept hdb hp hst
  exact ⟨th, hth, taskStep_of_stepOf hguarantee.1 id⟩

include hempty

theorem readable_of_reachable (id : TaskId) : M.view.ReadableTask id p.state := by
  refine hp.trace_induction (K := fun _ d => M.view.ReadableTask id d)
    (readableTask_absent (hempty id).1 (hempty id).2) (fun l st l' htrace hpre => ?_)
  have hmem : st ∈ p.trace := by
    rw [htrace]
    exact mem_append_right _ (mem_cons_self ..)
  obtain ⟨_, _, hstep⟩ := taskStep_of_mem hM hdb hp hmem id
  exact hpre.step hstep

theorem numbered_of_reachable (hlen : p.trace.length < 2 ^ 63) (id : TaskId) :
    M.view.NumberedTask id p.state p.trace.length := by
  refine (hp.trace_induction
    (K := fun l d => M.view.ReadableTask id d ∧ M.view.NumberedTask id d l.length)
    ⟨readableTask_absent (hempty id).1 (hempty id).2, ?_⟩
    (fun l st l' htrace hpre => ?_)).2
  · refine numberedTask_nil (hempty id).2 (fun s hs => ?_)
    rw [stored, show M.view.row (storeService M db).init id = none from (hempty id).1] at hs
    cases hs
  · have hmem : st ∈ p.trace := by
      rw [htrace]
      exact mem_append_right _ (mem_cons_self ..)
    have hle := congrArg List.length htrace
    rw [length_append, length_cons] at hle
    obtain ⟨_, _, hstep⟩ := taskStep_of_mem hM hdb hp hmem id
    exact ⟨hpre.1.step hstep, hpre.2.step hpre.1 (by omega) hstep⟩

end DurableMachine

theorem StoreKind.empty_view (k : StoreKind) (id : TaskId) :
    k.machine.view.row k.machine.empty id = none ∧ k.machine.view.log k.machine.empty id = [] := by
  cases k <;> exact ⟨rfl, rfl⟩

end AgentConnector
