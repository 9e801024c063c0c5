import AgentConnector.RetentionSafety
import AgentConnector.EventsAfter
import AgentConnector.NumberedList

/-!
# What retention leaves of a log

Events age in the order in which they were appended. A retention run that deletes everything older
than its cutoff therefore leaves the end of each log. The memory store does that; the SQL stores
delete a batch of the old events, whichever the database comes across first, and a batch that is too
small for them may leave holes.
-/

namespace AgentConnector

open Concurrent Keyed Postgres Isolation StoreView List

theorem filter_suffix {α : Type} {P : α → Bool} {l : List α}
    (h : l.Pairwise (fun a b => P a = true → P b = true)) : l.filter P <:+ l := by
  induction l with
  | nil => exact suffix_refl []
  | cons a l ih =>
    obtain ⟨hfirst, hrest⟩ := pairwise_cons.mp h
    cases ha : P a with
    | true =>
      have hall : (a :: l).filter P = a :: l := by
        rw [filter_eq_self]
        intro b hb
        rcases mem_cons.mp hb with rfl | hb
        · exact ha
        · exact hfirst b hb ha
      rw [hall]
    | false =>
      rw [filter_cons_of_neg (by rw [ha]; exact Bool.false_ne_true)]
      exact (ih hrest).trans (suffix_cons a l)

theorem eq_ok_of_toOption {ε α : Type} {x : Except ε α} {a : α} (h : x.toOption = some a) :
    x = .ok a := by
  cases x with
  | error e => cases h
  | ok b => exact congrArg Except.ok (Option.some.inj h)

theorem Picks.mem_iff {α : Type} {candidates picked : List α} (h : Picks candidates limit picked)
    (hlimit : candidates.length ≤ limit) (a : α) :
    a ∈ picked ↔ a ∈ candidates := by
  obtain ⟨hnodup, hsubset, hlength⟩ := h
  have hperm : picked.Perm candidates :=
    (hnodup.subperm hsubset).perm_of_length_le (by rw [hlength, min_eq_right hlimit])
  exact hperm.mem_iff

namespace StoreView

variable {D : Type} {V : StoreView D} {id : TaskId} {d d' : D}

/-- The events of a surviving task are the last ones of its log. -/
def HasSuffix (V : StoreView D) (d : D) (id : TaskId) : Prop :=
  ∀ s es, V.stored d id = some (.ok s) → V.Decodes d id es →
    ∃ k, 1 ≤ k ∧ k + es.length = s.lastSeq + 1 ∧ Numbered CoreEvent.seq k es

def Aged (V : StoreView D) (d : D) (id : TaskId) : Prop :=
  ∀ es, V.Decodes d id es → (es.map CoreEvent.at_).Pairwise (· ≤ ·)

/-- An event that is added is not older than those before it. -/
def AddsLater (V : StoreView D) (id : TaskId) (d d' : D) : Prop :=
  ∀ r ∈ V.log d id, ∀ r' e e', V.log d' id = V.log d id ++ [r'] → V.event id r = .ok e →
    V.event id r' = .ok e' → e.at_ ≤ e'.at_

theorem hasSuffix_nil (hlog : V.log d id = [])
    (h : ∀ s, V.stored d id = some (.ok s) → s.lastSeq = 0) : V.HasSuffix d id := by
  intro s es hs hes
  rw [(decodes_nil hlog).unique hes, h s hs]
  exact ⟨1, le_refl 1, rfl, Numbered.nil _ _⟩

theorem aged_nil (hlog : V.log d id = []) : V.Aged d id := by
  intro es hes
  rw [(decodes_nil hlog).unique hes]
  exact List.Pairwise.nil

theorem decodes_concat (hes : V.Decodes d id es) (hlog : V.log d' id = V.log d id ++ [r])
    (hevent : V.event id r = .ok e) : V.Decodes d' id (es ++ [e]) := by
  rw [Decodes] at hes
  rw [Decodes, hlog, map_append, map_append, hes, map_singleton, hevent]
  rfl

theorem Decodes.suffix (hes : V.Decodes d id es) (hes' : V.Decodes d' id es')
    (hlog : V.log d' id <:+ V.log d id) : es' <:+ es := by
  have hmap := hlog.map (V.event id)
  rw [show (V.log d id).map (V.event id) = es.map .ok from hes,
    show (V.log d' id).map (V.event id) = es'.map .ok from hes'] at hmap
  obtain ⟨l, hl⟩ := hmap
  obtain ⟨es₁, es₂, rfl, _, hes₂⟩ := map_eq_append_iff.mp hl.symm
  rw [map_injective_iff.mpr (fun _ _ => Except.ok.inj) hes₂]
  exact suffix_append es₁ es'

/-- A step that adds only later events, and that deletes only from the start of the log, keeps the
log a suffix in the order of times. -/
theorem hasSuffix_step {strict : Prop} (h : V.HasSuffix d id) (haged : V.Aged d id)
    (hreadable : V.ReadableTask id d) (hnumbered : V.NumberedTask id d n) (hn : n < 2 ^ 63)
    (hstep : V.TaskStep strict id d d' c) (hlater : V.AddsLater id d d')
    (htrims : ∀ policy, c = .cleanup policy → V.row d' id ≠ none → V.log d' id <:+ V.log d id) :
    V.HasSuffix d' id ∧ V.Aged d' id := by
  obtain ⟨es, hes⟩ := hreadable.log
  have hsame : V.stored d' id = V.stored d id → V.log d' id <:+ V.log d id →
      V.HasSuffix d' id ∧ V.Aged d' id := by
    intro hstored hlog
    refine ⟨fun s es' hs hes' => ?_, fun es' hes' => ?_⟩
    · obtain ⟨l, hl⟩ := hes.suffix hes' hlog
      obtain ⟨k, hk, hlength, hnum⟩ := h s es (hstored ▸ hs) hes
      rw [← hl] at hnum hlength
      rw [length_append] at hlength
      exact ⟨k + l.length, by omega, by omega, (Numbered.append_iff.mp hnum).2⟩
    · exact (haged es hes).sublist ((hes.suffix hes' hlog).sublist.map _)
  cases hstep with
  | same hsame' => exact hsame hsame'.stored_eq (by rw [hsame'.log])
  | append hid happlies =>
    subst hid
    rename_i t cur a
    obtain ⟨row, e, hlog, hevent, _, heseq, _⟩ := happlies.logged
    have hcounters := hnumbered.counters cur happlies.current
    have hlast := happlies.counters (by omega) (by omega)
    have hseq := heseq (by omega)
    have hes' := decodes_concat hes hlog hevent
    refine ⟨fun s es' hs hes₁ => ?_, fun es' hes₁ => ?_⟩
    · rw [happlies.stored] at hs
      cases hs
      obtain ⟨k, hk, hlength, hnum⟩ := h cur es happlies.current hes
      rw [hes'.unique hes₁]
      refine ⟨k, hk, ?_, hnum.concat (by omega)⟩
      rw [length_append, length_singleton]
      omega
    · rw [hes'.unique hes₁, map_append, pairwise_append]
      refine ⟨haged es hes, pairwise_singleton .., fun i hi j hj => ?_⟩
      obtain ⟨e', he', rfl⟩ := mem_map.mp hi
      rw [map_singleton, mem_singleton] at hj
      obtain ⟨r, hr, hr'⟩ : ∃ r ∈ V.log d t.taskId, V.event t.taskId r = .ok e' := by
        have hmem : Except.ok e' ∈ (V.log d t.taskId).map (V.event t.taskId) := by
          rw [show (V.log d t.taskId).map (V.event t.taskId) = es.map .ok from hes]
          exact mem_map_of_mem he'
        exact mem_map.mp hmem
      rw [hj]
      exact hlater r hr row e' e hlog hr' hevent
  | create hid hcreates _ =>
    subst hid
    refine ⟨hasSuffix_nil hcreates.log (fun s hs => ?_), aged_nil hcreates.log⟩
    obtain ⟨s', hs', _, _, _, _, hseq⟩ := hcreates.stored
    rw [hs'] at hs
    cases hs
    exact hseq
  | clean hrow hlog =>
    cases hrow' : V.row d' id with
    | none =>
      have hnil : V.log d' id = [] := by
        rw [hrow] at hrow'
        exact sublist_nil.mp (hreadable.absent hrow' ▸ hlog)
      refine ⟨hasSuffix_nil hnil (fun s hs => ?_), aged_nil hnil⟩
      rw [stored, hrow'] at hs
      cases hs
    | some r =>
      have hstored : V.stored d' id = V.stored d id := by rw [stored, stored, hrow]
      exact hsame hstored (htrims _ rfl (by rw [hrow']; exact Option.some_ne_none r))
  | delete hrow hlog =>
    refine ⟨hasSuffix_nil hlog (fun s hs => ?_), aged_nil hlog⟩
    rw [stored, hrow] at hs
    cases hs

end StoreView

/-- The database compares times by a total order. -/
def Columns.Collates (C : Columns) : Prop :=
  ∀ a b c, C.before b a = false → C.before b c = true → C.before a c = true

namespace Tables

variable {C : Columns} {d d' : Tables C} {cutoff : C.Time} {id : C.Id} {limit : ℕ}

theorem DeletesBatch.eventRows_eq (h : DeletesBatch cutoff limit d d')
    (hlimit : (d.expiredEvents cutoff).length ≤ limit) :
    d'.eventRows id = (d.eventRows id).filter (fun row => !C.before row.createdAt cutoff) := by
  obtain ⟨picked, hpicks, rfl⟩ := h
  change (d.events.rows.filter _).filter _ = (d.events.rows.filter _).filter _
  rw [filter_filter, filter_filter]
  refine filter_congr (fun row hrow => ?_)
  have hmem : row.key ∈ picked ↔ C.before row.createdAt cutoff = true := by
    rw [hpicks.mem_iff hlimit, expiredEvents, mem_map]
    constructor
    · rintro ⟨row', hrow', hkey⟩
      obtain ⟨hin, hold⟩ := mem_filter.mp hrow'
      rwa [← Table.eq_of_mem hin hrow hkey]
    · exact fun hold => ⟨row, mem_filter.mpr ⟨hrow, hold⟩, rfl⟩
  rw [Bool.and_comm]
  congr 1
  rw [decide_not, Bool.not_inj_iff]
  exact Bool.eq_iff_iff.mpr (decide_eq_true_iff.trans hmem)

theorem DeletesTasks.suffix (h : DeletesTasks cutoff d d') (hrow : d'.selectTask id ≠ none) :
    d'.eventRows id <:+ d.eventRows id := by
  obtain ⟨picked, _, rfl⟩ := h
  rcases d.deleteTasks_cases picked id with ⟨-, hnone, -⟩ | ⟨-, -, hsame⟩
  · exact absurd hnone hrow
  · rw [hsame]

end Tables

namespace StoreKind

variable {k : StoreKind}

/-- The deletion of events finds no more of them than the size of its batch. -/
def Covered : (k : StoreKind) → {db : k.machine.Db} → Step (storeService k.machine db) → Prop
  | .memory, _, _ => True
  | .sqlite _, _, st => ∀ cutoff limit, st.op = .execute (.deleteEvents cutoff limit) →
    (st.pre.committed.expiredEvents cutoff).length ≤ limit
  | .postgres _, _, st => ∀ cutoff limit, st.op = .execute (.deleteEvents cutoff limit) →
    (st.pre.committed.expiredEvents cutoff).length ≤ limit

/-- The times of the events are such that the store compares them as times. -/
def Comparable (k : StoreKind) (d : k.machine.Db) (id : TaskId) : Prop :=
  ∀ C, k = .sqlite C → ∀ r ∈ k.machine.view.log d id, ∀ e, k.machine.view.event id r = .ok e →
    InYears e.at_

def Trims (k : StoreKind) {db : k.machine.Db} (c : StoreCall)
    (_ : List (Step (storeService k.machine db))) (st : Step (storeService k.machine db)) : Prop :=
  ∀ policy, c = .cleanup policy → k.Covered st → ∀ id, k.machine.view.Aged st.pre id →
    k.machine.view.ReadableTask id st.pre → k.Comparable st.pre id →
    k.machine.view.row st.post id ≠ none →
    k.machine.view.log st.post id <:+ k.machine.view.log st.pre id

theorem trims_same (h : k.machine.view.Same st.pre st.post) :
    k.Trims c l st := by
  intro policy _ _ id _ _ _ _
  rw [(h.task id).log]

end StoreKind

theorem memory_trims (db : MemoryState) (tid : ℕ) (c : StoreCall) :
    (memoryIsolation db).Safe tid (StoreKind.memory.Trims c) (fun _ _ _ => True)
      (memoryMachine.program c) () [] := by
  cases c with
  | cleanup policy =>
    intro s ch s' r next _ _ hex
    refine ⟨?_, trivial⟩
    obtain ⟨_, rfl | ⟨taskCutoff, eventCutoff, _, _, _, rfl⟩⟩ := MemoryState.execCleanup_cases hex
    · exact StoreKind.trims_same (.refl _)
    · intro _ _ _ id haged _ _ hrow
      change ((ch.taken.foldl MemoryState.removeTask s).retainEvents
        eventCutoff).log id <:+ s.log id
      rw [MemoryState.log_retainEvents]
      rcases MemoryState.removeTasks_cases ch.taken s id with hsame | ⟨hnone, _⟩
      · rw [show (ch.taken.foldl MemoryState.removeTask s).log id = s.log id from hsame.log]
        refine filter_suffix ((pairwise_map.mp (haged (s.log id) rfl)).imp ?_)
        intro a b hle ha
        exact decide_eq_true ((of_decide_eq_true ha).trans hle)
      · exact absurd hnone hrow
  | _ => exact safe_trivial _ (fun l st _ h => by cases h) (fun _ _ _ => trivial)

theorem Tables.DeletesBatch.suffix {d d' : Tables C} {id : TaskId}
    (h : DeletesBatch cutoff limit d d') (hlimit : (d.expiredEvents cutoff).length ≤ limit)
    (haged : (sqlView errors).Aged d id) (hreadable : (sqlView errors).ReadableTask id d)
    (hbefore : ∀ r ∈ d.eventRows (C.id id), ∀ r' ∈ d.eventRows (C.id id), ∀ e e',
      r.decode errors id = .ok e → r'.decode errors id = .ok e' → e.at_ ≤ e'.at_ →
      C.before r'.createdAt cutoff = true → C.before r.createdAt cutoff = true) :
    d'.eventRows (C.id id) <:+ d.eventRows (C.id id) := by
  obtain ⟨es, hes⟩ := hreadable.log
  rw [h.eventRows_eq hlimit]
  refine filter_suffix (pairwise_of_map hes (pairwise_map.mp (haged es hes)) ?_)
  intro r hr r' hr' e e' he he' hle hkept
  rw [Bool.not_eq_true', Bool.eq_false_iff] at hkept ⊢
  exact fun hold => hkept (hbefore r hr r' hr' e e' he he' hle hold)

theorem sqlite_trims (hC : C.Rfc3339) (hcollates : C.Collates) (db : SqliteDb C)
    (h : (sqliteMachine C).Settled db) (tid : ℕ) (c : StoreCall) :
    (sqliteIsolation db h).Safe tid ((StoreKind.sqlite C).Trims c) (fun _ _ _ => True)
      ((sqliteMachine C).program c) none [] := by
  cases c with
  | cleanup policy =>
    refine safe_bind (SqliteTaskStore.safe_cleanup policy ?_ ?_ ?_)
    · exact fun l st hsame => StoreKind.trims_same hsame
    · intro l st now cutoff _ _ hop hbatch _ _ hcovered id haged hreadable hyears _
      refine hbatch.suffix (hcovered _ _ hop) (fun es hes => haged es hes) ⟨hreadable.row,
        hreadable.log, hreadable.absent⟩ (fun r hr r' hr' e e' he he' hle hold => ?_)
      rw [hC.eq_time (EventRow.decode_eq_ok he).2.2.1]
      rw [hC.eq_time (EventRow.decode_eq_ok he').2.2.1] at hold
      refine hcollates _ _ _ ?_ hold
      rw [Bool.eq_false_iff]
      intro hbefore
      have hlt := (hC.before_iff (hyears C rfl r' hr' e' he') (hyears C rfl r hr e he)).mp hbefore
      exact absurd hle (not_le.mpr hlt)
    · intro l st now cutoff _ _ hdeletes _ _ _ id _ _ _ hrow
      exact hdeletes.suffix hrow
  | _ => exact safe_trivial _ (fun l st _ h => by cases h) (fun _ _ _ => trivial)

theorem Postgres.before_of_le {a b c : ℤ} (hle : ofMicros a ≤ ofMicros b)
    (h : (columns J).before b c = true) : (columns J).before a c = true := by
  have hlt := before_eq_true h
  unfold ofMicros at hle
  have hac : a < c := by linarith
  exact decide_eq_true hac

theorem postgres_trims (db : PostgresDb (columns J)) (h : (postgresMachine J).Settled db) (tid : ℕ)
    (c : StoreCall) :
    (postgresIsolation db h).Safe tid ((StoreKind.postgres J).Trims c) (fun _ _ _ => True)
      ((postgresMachine J).program c) (none, fun _ => none) [] := by
  cases c with
  | cleanup policy =>
    refine safe_bind (PostgresTaskStore.safe_cleanup policy ?_ ?_ ?_)
    · exact fun l st hsame => StoreKind.trims_same hsame
    · intro l st now cutoff _ _ hop hbatch _ _ hcovered id haged hreadable _ _
      refine hbatch.suffix (hcovered _ _ hop) (fun es hes => haged es hes) ⟨hreadable.row,
        hreadable.log, hreadable.absent⟩ (fun r _ r' _ e e' he he' hle hold => ?_)
      have hat := Except.ok.inj (EventRow.decode_eq_ok he).2.2.1
      have hat' := Except.ok.inj (EventRow.decode_eq_ok he').2.2.1
      rw [← hat, ← hat'] at hle
      exact before_of_le hle hold
    · intro l st now cutoff _ _ hdeletes _ _ _ id _ _ _ hrow
      exact hdeletes.suffix hrow
  | _ => exact safe_trivial _ (fun l st _ h => by cases h) (fun _ _ _ => trivial)

namespace StoreKind

theorem trims (k : StoreKind) (hC : ∀ C, k = .sqlite C → C.Rfc3339 ∧ C.Collates)
    {db : k.machine.Db} (hdb : k.machine.Settled db) : ∃ I : Isolation (storeService k.machine db),
      ∀ tid c, I.Safe tid (k.Trims c) (fun _ _ _ => True) (k.machine.program c) I.idle [] := by
  cases k with
  | memory => exact ⟨memoryIsolation db, memory_trims db⟩
  | sqlite C => exact ⟨sqliteIsolation db hdb, sqlite_trims (hC C rfl).1 (hC C rfl).2 db hdb⟩
  | postgres J => exact ⟨postgresIsolation db hdb, postgres_trims db hdb⟩

/-- In every run in which the events of a task are appended under a clock that does not go back, and
in which each deletion of events has room for all it finds, the events that are left of a surviving
task are the last ones of its log. -/
theorem log_suffix (k : StoreKind) (hC : ∀ C, k = .sqlite C → C.Rfc3339 ∧ C.Collates)
    {p : Pool (storeService k.machine k.machine.empty)} (hp : p.Reachable)
    (hlen : p.trace.length < 2 ^ 63) {id : TaskId}
    (hclock : ∀ st ∈ p.trace, k.machine.view.AddsLater id st.pre st.post)
    (hyears : ∀ st ∈ p.trace, k.Comparable st.pre id) (hcovered : ∀ st ∈ p.trace, k.Covered st) :
    k.machine.view.HasSuffix p.state id := by
  obtain ⟨I, hI⟩ := k.trims hC k.settled_empty
  refine (hp.trace_induction (K := fun _ d => k.machine.view.HasSuffix d id ∧
    k.machine.view.Aged d id) ⟨hasSuffix_nil (k.empty_view id).2 (fun s hs => ?_),
    aged_nil (k.empty_view id).2⟩ (fun l st l' htrace hpre => ?_)).1
  · rw [stored, show k.machine.view.row (storeService k.machine _).init id = none from
      (k.empty_view id).1] at hs
    cases hs
  · have hmem : st ∈ p.trace := by
      rw [htrace]
      exact mem_append_right _ (mem_cons_self ..)
    have hle := congrArg List.length htrace
    rw [length_append, length_cons] at hle
    obtain ⟨q, hq, hqtrace, hqstate⟩ := hp.exists_before htrace
    have hreadable := DurableMachine.readable_of_reachable k.obeys k.settled_empty
      k.empty_view hq id
    have hnumbered := DurableMachine.numbered_of_reachable k.obeys k.settled_empty k.empty_view hq
      (by rw [hqtrace]; omega) id
    rw [hqstate] at hreadable hnumbered
    obtain ⟨th, hth, hstep⟩ := DurableMachine.taskStep_of_mem k.obeys k.settled_empty hp hmem id
    obtain ⟨th', _, _, hth', _, htrims⟩ := kept_of_mem_trace hI hp hmem
    rw [hth] at hth'
    cases hth'
    exact hasSuffix_step hpre.1 hpre.2 hreadable hnumbered (by rw [hqtrace]; omega) hstep
      (hclock st hmem) (fun policy hpolicy hrow =>
        htrims policy hpolicy (hcovered st hmem) id hpre.2
        hreadable (hyears st hmem) hrow)

/-- The first of two events is too old when the memory store cleans up. -/
theorem log_suffix_of_old_event :
    ∃ p : Pool (storeService memoryMachine MemoryState.empty), p.Reachable ∧
      (p.state.log 1).map CoreEvent.seq = [2] ∧ memoryView.HasSuffix p.state 1 := by
  obtain ⟨p, hp, hlog, hlength, htimes⟩ := Pool.exists_reachable
    (S := storeService memoryMachine MemoryState.empty)
    [.call (.create (.under "caller" "key" 1)), .step 0 {},
      .call (.append (.to 1 0 .running)), .step 1 {},
      .call (.append (.to 1 1 .waitingForInput)), .step 2 { now := 10 },
      .call (.cleanup { eventTtl := 5 }), .step 3 { now := 10 }]
    (fun p => (p.state.log 1).map CoreEvent.seq = [2] ∧ p.trace.length = 4 ∧
      ∀ st ∈ p.trace, ∀ e ∈ st.pre.log 1, ∀ e' ∈ st.post.log 1, e.at_ ≤ e'.at_) (by decide +kernel)
  refine ⟨p, hp, hlog, log_suffix .memory (fun _ h => by cases h) hp (by rw [hlength]; decide)
    (fun st hst r hr r' e e' heq he he' => ?_) (fun _ _ _ h => by cases h) (fun _ _ => trivial)⟩
  cases he
  cases he'
  have hmem : r' ∈ memoryView.log st.post 1 := by
    rw [heq]
    exact mem_append_right _ (mem_singleton_self _)
  exact htimes st hst _ hr _ hmem

/-- Two events, and a retention run with a batch of one that takes the second of them. -/
def cleanupBatch : List (Action (storeService (postgresMachine .plain) PostgresDb.empty)) :=
  oneEvent ++ .call (.append (.to 1 1 .waitingForInput)) :: List.replicate 7 (.step 2 {}) ++
    [.call (.cleanup { cleanupBatchSize := 1 }), .step 3 { now := 8 * 24 * 3600 * 10 ^ 9 },
      .step 3 { picked := { events := [((1 : Uuid), (2 : I64))] } }, .step 3 {}, .step 3 {}]

theorem postgres_cleanup_leaves_hole :
    ∃ p : Pool (storeService (postgresMachine .plain) PostgresDb.empty), p.Reachable ∧
      (∀ st ∈ p.trace, (postgresMachine .plain).view.AddsLater 1 st.pre st.post) ∧
      ¬ (postgresMachine .plain).view.HasSuffix p.state 1 := by
  obtain ⟨p, hp, hevents, hrow, htimes⟩ := Pool.exists_reachable cleanupBatch
    (fun p => (decodeEvents PostgresTaskStore.errors 1
        (p.state.committed.eventRows (1 : Uuid))).toOption.map (·.map CoreEvent.seq) = some [1] ∧
      ((p.state.committed.selectTask (1 : Uuid)).bind (fun row =>
        (TaskRow.decode PostgresTaskStore.errors row).toOption)).map TaskSnapshot.lastSeq = some 2 ∧
      ∀ st ∈ p.trace, ∀ r ∈ st.pre.committed.eventRows (1 : Uuid),
        ∀ r' ∈ st.post.committed.eventRows (1 : Uuid), ofMicros r.createdAt ≤ ofMicros r'.createdAt)
    (by decide +kernel)
  refine ⟨p, hp, ?_, ?_⟩
  · intro st hst r hr r' e e' heq he he'
    rw [← Except.ok.inj (EventRow.decode_eq_ok he).2.2.1,
      ← Except.ok.inj (EventRow.decode_eq_ok he').2.2.1]
    have hmem : r' ∈ (postgresMachine .plain).view.log st.post 1 := by
      rw [heq]
      exact mem_append_right _ (mem_singleton_self _)
    exact htimes st hst r hr r' hmem
  · intro hsuffix
    obtain ⟨es, hes, hseqs⟩ := Option.map_eq_some_iff.mp hevents
    obtain ⟨s, hs, hlast⟩ := Option.map_eq_some_iff.mp hrow
    obtain ⟨row, hselect, hdecode⟩ := Option.bind_eq_some_iff.mp hs
    obtain ⟨k, _, hlength, hnum⟩ := hsuffix s es
      (stored_eq_ok_iff.mpr ⟨row, hselect, eq_ok_of_toOption hdecode⟩)
      (mapM_eq_ok_iff.mp (eq_ok_of_toOption hes))
    rw [← length_map CoreEvent.seq, hseqs, hlast, length_singleton] at hlength
    rw [Numbered, ← length_map CoreEvent.seq, hseqs] at hnum
    have hk : k = 1 := (List.cons.inj hnum).1.symm
    omega

end StoreKind

end AgentConnector
