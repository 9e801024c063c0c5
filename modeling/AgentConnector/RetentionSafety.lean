import AgentConnector.StoredLogs

/-!
# What retention may delete

A retention run deletes tasks that ended longer ago than their time to live and events older than
theirs, both measured at a reading of the clock. The age of an event is all that is looked at: the
events of a task that is still active are deleted as well. Postgres counts the times to live in
whole seconds, and the texts SQLite compares are ordered like times in the years 0 to 9999 only.
-/

namespace AgentConnector

open Concurrent Keyed Postgres StoreView Isolation List Option

namespace DurableMachine

variable {M : DurableMachine} {db : M.Db}

/-- The clock has shown `now` in one of the steps. -/
def Reads (l : List (Step (storeService M db))) (now : DateTime) : Prop :=
  ∃ st ∈ l, M.clock st.op st.reply = some now

/-- A step, of a call that has taken the steps `l` before, deletes nothing but what is older than
the policy says, if times compare exactly. -/
structure OnlyOld (policy : RetentionPolicy) (E : M.Db → DateTime → Prop)
    (l : List (Step (storeService M db))) (st : Step (storeService M db)) : Prop where
  task : ∀ id r s, M.view.row st.pre id = some r → M.view.row st.post id = none →
    M.view.snapshot r = .ok s → ∃ now, Reads (st :: l) now ∧
      (E st.pre now → ∃ at_, s.terminalAt = some at_ ∧ at_ < now - policy.taskTtl)
  event : ∀ id r e, r ∈ M.view.log st.pre id → r ∉ M.view.log st.post id →
    M.view.event id r = .ok e → M.view.row st.post id = none ∨
      ∃ now, Reads (st :: l) now ∧ (E st.pre now → e.at_ < now - policy.eventTtl)

/-- Everything that a step has deleted belongs to a task that has ended, and is old enough. -/
structure RetentionSafe (policy : RetentionPolicy) (l : List (Step (storeService M db)))
    (st : Step (storeService M db)) : Prop where
  task : ∀ id r, M.view.row st.pre id = some r → M.view.row st.post id = none →
    ∃ s at_ now, M.view.snapshot r = .ok s ∧ s.state.terminal = true ∧ s.terminalAt = some at_ ∧
      Reads (st :: l) now ∧ at_ + policy.taskTtl ≤ now
  event : ∀ id r, r ∈ M.view.log st.pre id → r ∉ M.view.log st.post id →
    (∃ s, M.view.stored st.pre id = some (.ok s) ∧ s.state.terminal = true) ∧
    (M.view.row st.post id ≠ none → ∃ e now, M.view.event id r = .ok e ∧ Reads (st :: l) now ∧
      e.at_ + policy.eventTtl ≤ now)

/-- Tasks with an end time have ended, and no event of an active task is too old. -/
structure Retainable (V : StoreView M.Db) (policy : RetentionPolicy) (d : M.Db) (now : DateTime) :
    Prop where
  ended : ∀ id s, V.stored d id = some (.ok s) → s.terminalAt ≠ none → s.state.terminal = true
  active : ∀ id s r e, V.stored d id = some (.ok s) → s.state.terminal = false → r ∈ V.log d id →
    V.event id r = .ok e → now - policy.eventTtl ≤ e.at_

theorem onlyOld_same {E : M.Db → DateTime → Prop} (h : M.view.SameTasks st.pre st.post) :
    OnlyOld policy E l st where
  task id r s hr hnone := by
    rw [(h.task id).row, hr] at hnone
    cases hnone
  event id r e hr hgone := by
    rw [(h.task id).log] at hgone
    exact absurd hr hgone

theorem OnlyOld.retentionSafe {E : M.Db → DateTime → Prop} (h : OnlyOld policy E l st)
    (hreadable : ∀ id, M.view.ReadableTask id st.pre)
    (hcond : ∀ now, Reads (st :: l) now → Retainable M.view policy st.pre now ∧ E st.pre now) :
    RetentionSafe policy l st := by
  have htask : ∀ id r, M.view.row st.pre id = some r → M.view.row st.post id = none →
      ∃ s at_ now, M.view.snapshot r = .ok s ∧ s.state.terminal = true ∧ s.terminalAt = some at_ ∧
        Reads (st :: l) now ∧ at_ + policy.taskTtl ≤ now := by
    intro id r hr hnone
    obtain ⟨s, hs⟩ := (hreadable id).row r hr
    obtain ⟨now, hreads, hold⟩ := h.task id r s hr hnone hs
    obtain ⟨hretain, hexact⟩ := hcond now hreads
    obtain ⟨at_, hat, hlt⟩ := hold hexact
    have hended := hretain.ended id s (stored_eq_ok_iff.mpr ⟨r, hr, hs⟩)
      (by rw [hat]; exact some_ne_none _)
    exact ⟨s, at_, now, hs, hended, hat, hreads, (lt_sub_iff_add_lt.mp hlt).le⟩
  refine ⟨htask, fun id r hr hgone => ?_⟩
  -- An event is only there together with the row of its task.
  obtain ⟨row, hrow⟩ : ∃ row, M.view.row st.pre id = some row := by
    cases hrow : M.view.row st.pre id with
    | none =>
      rw [(hreadable id).absent hrow] at hr
      cases hr
    | some row => exact ⟨row, rfl⟩
  obtain ⟨s, hs⟩ := (hreadable id).row row hrow
  have hstored := stored_eq_ok_iff.mpr ⟨row, hrow, hs⟩
  obtain ⟨es, hes⟩ := (hreadable id).log
  obtain ⟨e, he⟩ : ∃ e, M.view.event id r = .ok e := by
    have hmem : M.view.event id r ∈ es.map Except.ok := by
      rw [← hes]
      exact mem_map_of_mem hr
    obtain ⟨e, _, he⟩ := mem_map.mp hmem
    exact ⟨e, he.symm⟩
  cases hpost : M.view.row st.post id with
  | none =>
    obtain ⟨s', _, _, hs', hended, _⟩ := htask id row hrow hpost
    exact ⟨⟨s', stored_eq_ok_iff.mpr ⟨row, hrow, hs'⟩, hended⟩, fun hne => absurd rfl hne⟩
  | some row' =>
    rcases h.event id r e hr hgone he with hnone | ⟨now, hreads, hold⟩
    · rw [hpost] at hnone
      cases hnone
    · obtain ⟨hretain, hexact⟩ := hcond now hreads
      have hlt := hold hexact
      refine ⟨⟨s, hstored, ?_⟩, fun _ => ⟨e, now, he, hreads, (lt_sub_iff_add_lt.mp hlt).le⟩⟩
      by_contra hactive
      have hle := hretain.active id s r e hstored (Bool.eq_false_of_not_eq_true hactive) hr he
      exact absurd hlt (not_lt.mpr hle)

end DurableMachine

namespace MemoryState

variable {taken : List TaskId}

variable {id : TaskId}

theorem find_removeTasks (h : id ∉ taken) (s : MemoryState) :
    (taken.foldl removeTask s).tasks.find id = s.tasks.find id := by
  induction taken generalizing s with
  | nil => rfl
  | cons taskId taken ih =>
    rw [foldl_cons, ih (fun hmem => h (mem_cons_of_mem _ hmem))]
    unfold removeTask
    cases htask : s.tasks.find taskId with
    | none => rfl
    | some snap =>
      rw [Table.find_filter]
      cases hfind : s.tasks.find id with
      | none => rfl
      | some snap' =>
        have hne : snap'.taskId ≠ taskId := by
          rw [Table.key_of_find hfind]
          exact fun heq => h (by rw [heq]; exact mem_cons_self ..)
        simp [Option.filter, hne]

theorem retentionCutoff_eq_ok (h : retentionCutoff now ttl = some (.ok cutoff)) :
    cutoff = now - ttl := by
  unfold retentionCutoff at h
  cases hd : durationFromStd ttl with
  | none =>
    rw [hd] at h
    cases h
  | some d =>
    rw [hd] at h
    obtain ⟨t, ht, heq⟩ := map_eq_some_iff.mp h
    cases heq
    rw [chronoAdd_eq_some ht, durationFromStd_eq_some hd]
    rfl

theorem terminalAt_of_removed {s : MemoryState} {policy : RetentionPolicy}
    (htask : retentionCutoff now policy.taskTtl = some (.ok taskCutoff))
    (htaken : s.Taken taskCutoff policy.cleanupBatchSize taken) (hrow : s.tasks.find id = some snap)
    (hgone : (s.cleanup taken eventCutoff).1.tasks.find id = none) :
    ∃ at_, snap.terminalAt = some at_ ∧ at_ < now - policy.taskTtl := by
  have hmem : id ∈ taken := by
    by_contra hnot
    rw [show (s.cleanup taken eventCutoff).1.tasks.find id = _ from find_removeTasks hnot s,
      hrow] at hgone
    cases hgone
  obtain ⟨snap', hsnap', hid⟩ := mem_map.mp (htaken.2.1 hmem)
  obtain ⟨hin, hold⟩ := mem_filter.mp hsnap'
  have heq : snap' = snap := by
    have hfind := Table.find_key hin
    rw [hid] at hfind
    exact Option.some.inj (hfind.symm.trans hrow)
  subst heq
  rw [← retentionCutoff_eq_ok htask]
  cases hat : snap'.terminalAt with
  | none =>
    rw [hat] at hold
    cases hold
  | some at_ =>
    rw [hat, any_some, decide_eq_true_eq] at hold
    exact ⟨at_, rfl, hold⟩

theorem event_of_removed {s : MemoryState} {policy : RetentionPolicy}
    (hevent : retentionCutoff now policy.eventTtl = some (.ok eventCutoff)) (he : e ∈ s.log id)
    (hgone : e ∉ (s.cleanup taken eventCutoff).1.log id) :
    (s.cleanup taken eventCutoff).1.tasks.find id = none ∨ e.at_ < now - policy.eventTtl := by
  rcases removeTasks_cases taken s id with hsame | ⟨hrow, _⟩
  · rw [← retentionCutoff_eq_ok hevent]
    change e ∉ ((taken.foldl removeTask s).retainEvents eventCutoff).log id at hgone
    rw [log_retainEvents, show (taken.foldl removeTask s).log id = s.log id from hsame.log,
      mem_filter, decide_eq_true_eq, not_and] at hgone
    exact .inr (not_le.mp (hgone he))
  · exact .inl hrow

end MemoryState

namespace Tables

variable {C : Columns} {d d' : Tables C} {cutoff : C.Time} {id : C.Id}

theorem DeletesTasks.old {row : TaskRow C} (h : DeletesTasks cutoff d d')
    (hrow : d.selectTask id = some row) (hgone : d'.selectTask id = none) :
    ∃ at_, row.terminalAt = some at_ ∧ C.before at_ cutoff = true := by
  obtain ⟨picked, hpicked, rfl⟩ := h
  have hmem : id ∈ picked := by
    rcases d.deleteTasks_cases picked id with ⟨hmem, -⟩ | ⟨-, hsame, -⟩
    · exact hmem
    · cases hrow.symm.trans (hsame.symm.trans hgone)
  obtain ⟨row', hrow', hid⟩ := mem_map.mp (hpicked hmem)
  obtain ⟨hin, hold⟩ := mem_filter.mp hrow'
  have heq : row' = row := by
    have hfind := Table.find_key hin
    rw [hid] at hfind
    exact Option.some.inj (hfind.symm.trans hrow)
  subst heq
  cases hat : row'.terminalAt with
  | none =>
    rw [hat] at hold
    cases hold
  | some at_ =>
    rw [hat] at hold
    exact ⟨at_, rfl, hold⟩

theorem DeletesTasks.event_gone {row : EventRow C} (h : DeletesTasks cutoff d d')
    (hrow : row ∈ d.eventRows id) (hgone : row ∉ d'.eventRows id) : d'.selectTask id = none := by
  obtain ⟨picked, _, rfl⟩ := h
  rcases d.deleteTasks_cases picked id with ⟨-, hnone, -⟩ | ⟨-, -, hsame⟩
  · exact hnone
  · exact absurd hrow (hsame ▸ hgone)

theorem DeletesEvents.old {row : EventRow C} (h : DeletesEvents cutoff d d')
    (hrow : row ∈ d.eventRows id) (hgone : row ∉ d'.eventRows id) :
    C.before row.createdAt cutoff = true := by
  obtain ⟨picked, hpicked, rfl⟩ := h
  obtain ⟨hin, hid⟩ := mem_filter.mp hrow
  have hmem : row.key ∈ picked := by
    by_contra hnot
    exact hgone (mem_filter.mpr ⟨mem_filter.mpr ⟨hin, by simpa using hnot⟩, hid⟩)
  obtain ⟨row', hrow', hkey⟩ := mem_map.mp (hpicked hmem)
  obtain ⟨hin', hold⟩ := mem_filter.mp hrow'
  rw [← Table.eq_of_mem hin' hin hkey]
  exact hold

theorem DeletesEvents.selectTask (h : DeletesEvents cutoff d d') :
    d'.selectTask id = d.selectTask id := by
  obtain ⟨picked, _, rfl⟩ := h
  rfl

end Tables

/-- A duration of whole seconds that `as i64` keeps. -/
def WholeSeconds (nanos : ℕ) : Prop := nanos % 10 ^ 9 = 0 ∧ nanos / 10 ^ 9 < 2 ^ 63

structure TimesInYears {D : Type} (V : StoreView D) (policy : RetentionPolicy) (d : D)
    (now : DateTime) : Prop where
  taskCutoff : InYears (now - policy.taskTtl)
  eventCutoff : InYears (now - policy.eventTtl)
  task : ∀ id s at_, V.stored d id = some (.ok s) → s.terminalAt = some at_ → InYears at_
  event : ∀ id r e, r ∈ V.log d id → V.event id r = .ok e → InYears e.at_

/-- The store compares times exactly. -/
def StoreKind.Exact (k : StoreKind) (policy : RetentionPolicy) (d : k.machine.Db) (now : DateTime) :
    Prop :=
  (∀ C, k = .sqlite C → TimesInYears k.machine.view policy d now) ∧
    ∀ J, k = .postgres J → WholeSeconds policy.taskTtl ∧ WholeSeconds policy.eventTtl

def StoreKind.DeletesOld (k : StoreKind) {db : k.machine.Db} (c : StoreCall)
    (l : List (Step (storeService k.machine db))) (st : Step (storeService k.machine db)) : Prop :=
  ∀ policy, c = .cleanup policy → DurableMachine.OnlyOld policy (k.Exact policy) l st

open DurableMachine in
theorem memory_deletesOld (db : MemoryState) (tid : ℕ) (c : StoreCall) :
    (memoryIsolation db).Safe tid (StoreKind.memory.DeletesOld c) (fun _ _ _ => True)
      (memoryMachine.program c) () [] := by
  cases c with
  | cleanup policy =>
    intro s ch s' r next _ _ hex
    refine ⟨?_, trivial⟩
    rintro _ ⟨⟩
    obtain ⟨hnow, rfl | ⟨taskCutoff, eventCutoff, htask, hevent, htaken, rfl⟩⟩ :=
      MemoryState.execCleanup_cases hex
    · exact onlyOld_same (.refl _)
    · have hreads : Reads [(⟨tid, .cleanup policy, r, s, (s.cleanup ch.taken eventCutoff).1, next⟩ :
            Step (storeService memoryMachine db))] ch.now :=
        ⟨_, mem_singleton_self _, congrArg some hnow⟩
      refine ⟨fun id snap snap' hrow hgone hsnap => ⟨ch.now, hreads, fun _ => ?_⟩,
        fun id e e' he hgone heq => ?_⟩
      · cases hsnap
        exact MemoryState.terminalAt_of_removed htask htaken hrow hgone
      · cases heq
        rcases MemoryState.event_of_removed hevent he hgone with hnone | hlt
        · exact .inl hnone
        · exact .inr ⟨ch.now, hreads, fun _ => hlt⟩
  | _ => exact safe_trivial _ (fun l st _ h => by cases h) (fun _ _ _ => trivial)

theorem TaskRow.terminalAt_of_decode {row : TaskRow C} (h : row.decode errors = .ok s)
    (htext : row.terminalAt = some text) :
    ∃ at_, s.terminalAt = some at_ ∧ C.parseTime text = .ok at_ := by
  have hterminal := (TaskRow.decode_eq_ok_iff.mp h).terminalAt
  rw [htext] at hterminal
  cases hs : s.terminalAt with
  | none =>
    rw [hs] at hterminal
    cases hterminal
  | some at_ =>
    rw [hs] at hterminal
    exact ⟨at_, rfl, Option.some.inj hterminal⟩

open DurableMachine in
theorem sqlite_deletesOld {C : Columns} (hC : C.Rfc3339) (db : SqliteDb C)
    (h : (sqliteMachine C).Settled db) (tid : ℕ) (c : StoreCall) :
    (sqliteIsolation db h).Safe tid ((StoreKind.sqlite C).DeletesOld c) (fun _ _ _ => True)
      ((sqliteMachine C).program c) none [] := by
  cases c with
  | cleanup policy =>
    refine safe_bind (SqliteTaskStore.safe_cleanup policy ?_ ?_ ?_)
    · rintro l st hsame _ ⟨⟩
      exact onlyOld_same hsame.toSameTasks
    · rintro l st now cutoff ⟨st', hst', hclock⟩ hcutoff - hbatch _ ⟨⟩
      have hdeletes := hbatch.deletesEvents
      refine ⟨fun id r s hr hgone _ => ?_, fun id r e hr hgone he => .inr ⟨now,
        ⟨st', mem_cons_of_mem _ hst', hclock⟩, fun hexact => ?_⟩⟩
      · have hsame := hdeletes.selectTask.symm.trans hgone
        exact absurd (hr.symm.trans hsame) (some_ne_none r)
      · have hyears := hexact.1 C rfl
        have hlt := hC.lt_of_before (EventRow.decode_eq_ok he).2.2.1 (hdeletes.old hr hgone)
          (hyears.event id r e hr he) (by rw [chronoAdd_eq_some hcutoff]; exact hyears.eventCutoff)
        rw [chronoAdd_eq_some hcutoff] at hlt
        exact hlt
    · rintro l st now cutoff ⟨st', hst', hclock⟩ hcutoff hdeletes _ ⟨⟩
      refine ⟨fun id r s hr hgone hs => ⟨now, ⟨st', mem_cons_of_mem _ hst', hclock⟩,
        fun hexact => ?_⟩, fun id r e hr hgone _ => .inl (hdeletes.event_gone hr hgone)⟩
      have hyears := hexact.1 C rfl
      obtain ⟨text, htext, hbefore⟩ := hdeletes.old hr hgone
      obtain ⟨at_, hat, hparse⟩ := TaskRow.terminalAt_of_decode hs htext
      have hlt := hC.lt_of_before hparse hbefore
        (hyears.task id s at_ (stored_eq_ok_iff.mpr ⟨r, hr, hs⟩) hat)
        (by rw [chronoAdd_eq_some hcutoff]; exact hyears.taskCutoff)
      rw [chronoAdd_eq_some hcutoff] at hlt
      exact ⟨at_, hat, hlt⟩
  | _ => exact safe_trivial _ (fun l st _ h => by cases h) (fun _ _ _ => trivial)

theorem Postgres.before_eq_true {a b : ℤ} (h : (columns J).before a b = true) :
    a < b := of_decide_eq_true h

theorem asSecs_of_wholeSeconds (h : WholeSeconds nanos) :
    asSecs nanos * 10 ^ 9 = nanos := by
  obtain ⟨hwhole, hsmall⟩ := h
  have hnat : (asI64 (nanos / 10 ^ 9)).toNat = nanos / 10 ^ 9 := asU64_asI64 (by omega)
  rw [asSecs, BitVec.toInt_eq_toNat_of_lt (by rw [hnat]; omega), hnat]
  omega

theorem lt_of_addSeconds (hnanos : WholeSeconds nanos)
    (hcutoff : addSeconds now (-asSecs nanos) = .ok cutoff) (ht : t < cutoff) :
    ofMicros t < ofMicros now - nanos := by
  have hsecs := asSecs_of_wholeSeconds hnanos
  have heq : cutoff = now + -asSecs nanos * 10 ^ 6 := by
    unfold addSeconds at hcutoff
    split at hcutoff
    · cases hcutoff
    · split at hcutoff
      · cases hcutoff
      · exact (Except.ok.inj hcutoff).symm
  rw [heq] at ht
  unfold ofMicros
  linarith

open DurableMachine in
theorem postgres_deletesOld {J : JsonColumn} (db : PostgresDb (columns J))
    (h : (postgresMachine J).Settled db) (tid : ℕ) (c : StoreCall) :
    (postgresIsolation db h).Safe tid ((StoreKind.postgres J).DeletesOld c) (fun _ _ _ => True)
      ((postgresMachine J).program c) (none, fun _ => none) [] := by
  cases c with
  | cleanup policy =>
    refine safe_bind (PostgresTaskStore.safe_cleanup policy ?_ ?_ ?_)
    · rintro l st hsame _ ⟨⟩
      exact onlyOld_same hsame.toSameTasks
    · rintro l st now cutoff ⟨st', hst', hclock⟩ hcutoff - hbatch _ ⟨⟩
      have hdeletes := hbatch.deletesEvents
      refine ⟨fun id r s hr hgone _ => ?_, fun id r e hr hgone he => .inr ⟨_,
        ⟨st', mem_cons_of_mem _ hst', hclock⟩, fun hexact => ?_⟩⟩
      · have hsame := hdeletes.selectTask.symm.trans hgone
        exact absurd (hr.symm.trans hsame) (some_ne_none r)
      · have hat := Except.ok.inj (EventRow.decode_eq_ok he).2.2.1
        rw [← hat]
        exact lt_of_addSeconds (hexact.2 J rfl).2 hcutoff (before_eq_true (hdeletes.old hr hgone))
    · rintro l st now cutoff ⟨st', hst', hclock⟩ hcutoff hdeletes _ ⟨⟩
      refine ⟨fun id r s hr hgone hs => ⟨_, ⟨st', mem_cons_of_mem _ hst', hclock⟩,
        fun hexact => ?_⟩, fun id r e hr hgone _ => .inl (hdeletes.event_gone hr hgone)⟩
      obtain ⟨text, htext, hbefore⟩ := hdeletes.old hr hgone
      obtain ⟨at_, hat, hparse⟩ := TaskRow.terminalAt_of_decode hs htext
      refine ⟨at_, hat, ?_⟩
      rw [← Except.ok.inj hparse]
      exact lt_of_addSeconds (hexact.2 J rfl).1 hcutoff (before_eq_true hbefore)
  | _ => exact safe_trivial _ (fun l st _ h => by cases h) (fun _ _ _ => trivial)

theorem StoreKind.deletesOld (k : StoreKind) (hC : ∀ C, k = .sqlite C → C.Rfc3339)
    {db : k.machine.Db} (hdb : k.machine.Settled db) : ∃ I : Isolation (storeService k.machine db),
      ∀ tid c, I.Safe tid (k.DeletesOld c) (fun _ _ _ => True) (k.machine.program c) I.idle [] := by
  cases k with
  | memory => exact ⟨memoryIsolation db, memory_deletesOld db⟩
  | sqlite C => exact ⟨sqliteIsolation db hdb, sqlite_deletesOld (hC C rfl) db hdb⟩
  | postgres J => exact ⟨postgresIsolation db hdb, postgres_deletesOld db hdb⟩

/-- A step of a retention run at which active tasks have no expired events and times compare exactly
deletes only what belongs to ended tasks and is old enough. -/
theorem StoreKind.retention_safe (k : StoreKind) (hC : ∀ C, k = .sqlite C → C.Rfc3339)
    {p : Pool (storeService k.machine k.machine.empty)} (hp : p.Reachable)
    {tid : ℕ} {th : Thread (storeService k.machine k.machine.empty)} {policy : RetentionPolicy}
    (hth : p.threads[tid]? = some th) (hentry : th.entry = .cleanup policy)
    {l l' : List (Step (storeService k.machine k.machine.empty))}
    {st : Step (storeService k.machine k.machine.empty)} (hown : p.own tid = l ++ st :: l')
    (hcond : ∀ now, DurableMachine.Reads (st :: l') now →
      DurableMachine.Retainable k.machine.view policy st.pre now ∧ k.Exact policy st.pre now) :
    DurableMachine.RetentionSafe policy l' st := by
  obtain ⟨I, hI⟩ := k.deletesOld hC k.settled_empty
  have hold := (follows_of_reachable hI hp hth).kept hown policy hentry
  obtain ⟨_, l₂, htrace, _⟩ := World.own_split hown
  obtain ⟨q, hq, _, hqstate⟩ := hp.exists_before htrace
  refine hold.retentionSafe (fun id => ?_) hcond
  rw [← hqstate]
  exact DurableMachine.readable_of_reachable k.obeys k.settled_empty k.empty_view hq id

/-- A task goes to a state, and eight days later the default retention runs. -/
def cleanupLater (next : TaskState) (taken : List TaskId) :
    List (Action (storeService memoryMachine MemoryState.empty)) :=
  [.call (.create (.under "caller" "key" 1)), .step 0 {},
    .call (.append (.to 1 0 next)), .step 1 {},
    .call (.cleanup {}), .step 2 { now := 8 * 24 * 3600 * 10 ^ 9, taken := taken }]

/-- The event of a running task is deleted. -/
theorem memory_cleanup_deletes_active_event :
    ∃ (p : Pool (storeService memoryMachine MemoryState.empty))
      (th : Thread (storeService memoryMachine MemoryState.empty))
      (st : Step (storeService memoryMachine MemoryState.empty)), p.Reachable ∧
      p.threads[2]? = some th ∧ th.entry = .cleanup {} ∧ p.own 2 = [st] ∧
      ¬ DurableMachine.RetentionSafe {} [] st := by
  obtain ⟨p, hp, hentry, hlen, hsteps⟩ := Pool.exists_reachable (cleanupLater .running [])
    (fun p => p.threads[2]?.bind (fun th => th.entry.cleanup?) =
        some ({} : RetentionPolicy) ∧ (p.own 2).length = 1 ∧
      ∀ st ∈ p.own 2, ((st.pre.log 1).length = 1 ∧ (st.post.log 1).length = 0) ∧
        (st.pre.tasks.find 1).all (fun s => !s.state.terminal) = true) (by decide +kernel)
  obtain ⟨th, hth, hcleanup⟩ := bind_eq_some_iff.mp hentry
  obtain ⟨st, hown⟩ := length_eq_one_iff.mp hlen
  refine ⟨p, th, st, hp, hth, StoreCall.eq_of_cleanup? hcleanup, hown, fun hsafe => ?_⟩
  obtain ⟨⟨hpre, hpost⟩, hactive⟩ := hsteps st (by rw [hown]; exact mem_singleton_self st)
  obtain ⟨e, he⟩ := length_eq_one_iff.mp hpre
  obtain ⟨⟨s, hs, hended⟩, _⟩ := hsafe.event 1 e
    (by change e ∈ st.pre.log 1; rw [he]; exact mem_singleton_self e)
    (by change e ∉ st.post.log 1; rw [length_eq_zero_iff.mp hpost]; exact not_mem_nil)
  obtain ⟨r, hr, hsnap⟩ := stored_eq_ok_iff.mp hs
  cases hsnap
  rw [show st.pre.tasks.find 1 = some s from hr, all_some, hended] at hactive
  cases hactive

/-- A task that has completed is deleted with its events. -/
theorem retention_safe_of_completed_task :
    ∃ (p : Pool (storeService memoryMachine MemoryState.empty))
      (st : Step (storeService memoryMachine MemoryState.empty)), p.Reachable ∧ p.own 2 = [st] ∧
      st.pre.tasks.rows.length = 1 ∧ st.post.tasks.rows.length = 0 ∧
      DurableMachine.RetentionSafe {} [] st := by
  obtain ⟨p, hp, hentry, hlen, hsteps⟩ := Pool.exists_reachable (cleanupLater .completed [1])
    (fun p => p.threads[2]?.bind (fun th => th.entry.cleanup?) =
        some ({} : RetentionPolicy) ∧ (p.own 2).length = 1 ∧
      ∀ st ∈ p.own 2, (st.pre.tasks.rows.length = 1 ∧ st.post.tasks.rows.length = 0) ∧
        ∀ s ∈ st.pre.tasks.rows, s.state.terminal = true) (by decide +kernel)
  obtain ⟨th, hth, hcleanup⟩ := bind_eq_some_iff.mp hentry
  obtain ⟨st, hown⟩ := length_eq_one_iff.mp hlen
  obtain ⟨⟨hpre, hpost⟩, hended⟩ := hsteps st (by rw [hown]; exact mem_singleton_self st)
  have hterminal : ∀ id s, memoryView.stored st.pre id = some (.ok s) →
    s.state.terminal = true := by
    intro id s hs
    obtain ⟨r, hr, hsnap⟩ := stored_eq_ok_iff.mp hs
    cases hsnap
    exact hended s (Table.find_eq_some_iff.mp hr).1
  refine ⟨p, st, hp, hown, hpre, hpost,
    StoreKind.retention_safe .memory (fun _ h => by cases h) hp hth
    (StoreCall.eq_of_cleanup? hcleanup) (l := []) hown (fun now _ => ⟨⟨?_, ?_⟩, ?_⟩)⟩
  · exact fun id s hs _ => hterminal id s hs
  · intro id s r e hs hactive
    rw [hterminal id s hs] at hactive
    cases hactive
  · exact ⟨fun _ h => (by cases h), fun _ h => (by cases h)⟩

end AgentConnector
