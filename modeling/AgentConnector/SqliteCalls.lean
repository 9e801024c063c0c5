import AgentConnector.SqliteSteps

/-!
# The calls of the SQLite store

Each method followed statement by statement. A call that changes something does so at one step, the
commit of its transaction or its only statement outside of one, and what it returns is what it has
stored at that step.
-/

namespace AgentConnector

open Concurrent Keyed Isolation SqliteDb Tables List Option

variable {C : Columns}

def sqliteIsolation (db : SqliteDb C) (h : (sqliteMachine C).Settled db) :
    Isolation (storeService (sqliteMachine C) db) where
  inv := SqliteDb.Inv
  Local := Option (SqliteTx C)
  loc tid s := s.tx tid
  idle := none
  inv_init := by
    refine ⟨fun {tid base v} htx => ?_, fun {tid base work} htx => ?_⟩
    · rw [h.2.2 tid] at htx
      cases htx
    · rw [h.2.2 tid] at htx
      cases htx
  loc_init := h.2.2
  inv_exec := SqliteDb.Inv.exec
  loc_exec _ hex hne := tx_exec_ne hex hne

namespace SqliteTaskStore

open DurableMachine SqliteDb

variable {db : SqliteDb C} {h : (sqliteMachine C).Settled db} {tid : ℕ} {call : StoreCall}
  {l : List (Step (storeService (sqliteMachine C) db))} {x : Option (SqliteTx C)} {α : Type}
  {G : List (Step (storeService (sqliteMachine C) db)) →
    Step (storeService (sqliteMachine C) db) → Prop}

theorem safe_quiet {k : o.Reply → Prog (sqliteSig C) α}
    {Q : α → Option (SqliteTx C) → List (Step (storeService (sqliteMachine C) db)) → Prop}
    (hG : Lenient G) (ho : quiet o = true)
    (hk : ∀ s c s' r next, s.tx tid = x → exec s tid o c = some (s', r) →
      (sqliteMachine C).view.Same s s' →
      (sqliteIsolation db h).Safe tid G Q (k r) (s'.tx tid) (⟨tid, o, r, s, s', next⟩ :: l)) :
    (sqliteIsolation db h).Safe tid G Q (.op o k) x l := by
  intro s c s' r next _ hloc hex
  have hsame : (sqliteMachine C).view.Same s s' := .of_eq (committed_of_quiet ho hex)
  exact ⟨hG l _ hsame, hk s c s' r next hloc hex hsame⟩

variable {q : Query C}

theorem safe_query (hx : Sees x base d) (hl : AllSame l) :
    (sqliteIsolation db h).Safe tid (Guarantee True call)
      (fun r x' l' => AllSame l' ∧ ((∃ e, r = .error e) ∨
        (q.writes = false ∧ x' = x ∧ ∃ rep, q.run d = some (d, rep) ∧ r = .ok rep) ∨
        (q.writes = true ∧ ∃ d' rep, q.run d = some (d', rep) ∧ r = .ok rep ∧
          x' = some (.writing base d')))) (query q).run x l := by
  refine safe_quiet lenient_guarantee rfl (fun s c s' r next hloc hex hsame => ⟨hl.cons hsame, ?_⟩)
  simp only [exec] at hex
  split at hex
  · cases hex
    exact .inl ⟨_, rfl⟩
  · rw [← hloc] at hx
    obtain ⟨base', d', hsees, hcases⟩ := runQuery_cases hex
    rw [hx.snapshotTx] at hsees hcases
    obtain ⟨rfl, rfl⟩ := hx.eq hsees
    rcases hcases with ⟨hreads, htx, hrun⟩ | ⟨hwrites, herror | hrun⟩
    · exact .inr (.inl ⟨hreads, htx.trans hloc, hrun⟩)
    · exact .inl herror
    · exact .inr (.inr ⟨hwrites, hrun⟩)

theorem safe_first (hq : q.writes = false) (hl : AllSame l) :
    (sqliteIsolation db h).Safe tid (Guarantee True call)
      (fun r x' l' => AllSame l' ∧ ((∃ e, r = .error e) ∨ ∃ base v rep,
        x' = some (.reading base v) ∧ q.run base = some (base, rep) ∧ r = .ok rep ∧
        ∃ st ∈ l', st.post.committed = base)) (query q).run (some .deferred) l := by
  refine safe_quiet lenient_guarantee rfl (fun s c s' r next hloc hex hsame => ⟨hl.cons hsame, ?_⟩)
  have hcommitted := committed_of_quiet rfl hex
  simp only [exec] at hex
  split at hex
  · cases hex
    exact .inl ⟨_, rfl⟩
  · have hsnap : s.snapshotTx tid = some (.reading s.committed s.version) := by
      rw [snapshotTx, hloc]
    obtain ⟨base', d', hsees, hcases⟩ := runQuery_cases hex
    rw [hsnap] at hsees hcases
    cases hsees
    rcases hcases with ⟨_, htx, rep, hrun, hr⟩ | ⟨hwrites, _⟩
    · exact .inr ⟨_, _, rep, htx, hrun, hr, _, mem_cons_self .., hcommitted⟩
    · rw [hq] at hwrites
      cases hwrites

theorem safe_commit_reading (hl : AllSame l) :
    (sqliteIsolation db h).Safe tid (Guarantee True call) (fun _ _ l' => AllSame l' ∧ l ⊆ l')
      (commit (C := C)).run (some (.reading base v)) l := by
  intro s c s' r next _ hloc hex
  have hcommitted : s'.committed = s.committed := by
    cases exec_move (show exec s tid .commit c = some (s', r) from hex) with
    | idle hcommitted _ _ _ => exact hcommitted
    | closed =>
      unfold close
      rw [show s.tx tid = _ from hloc]
      rfl
  have hsame : (sqliteMachine C).view.Same s s' := .of_eq hcommitted
  exact ⟨guarantee_same l hsame, hl.cons hsame, subset_cons_self ..⟩

/-- The commit of a transaction that has written: the call takes effect, or fails without effect,
or fails in doubt. -/
theorem safe_commit_writing (hl : AllSame l)
    (heffect : ∀ s s' : SqliteDb C, s.committed = base → s'.committed = work →
      (sqliteMachine C).view.StepOf True s s' call) :
    (sqliteIsolation db h).Safe tid (Guarantee True call)
      (fun r _ l' => (r = .ok () ∧ ∃ st ∈ l', st.pre.committed = base ∧ st.post.committed = work) ∨
        ((∃ e, r = .error e) ∧ Failed l')) (commit (C := C)).run (some (.writing base work)) l := by
  intro s c s' r next hinv hloc hex
  obtain ⟨_, hbase, _⟩ := SqliteDb.Inv.writing hinv hloc
  have hclose : (s.close tid).committed = work := by
    unfold close
    rw [show s.tx tid = _ from hloc]
  simp only [exec] at hex
  split at hex
  · cases hex
    refine ⟨?_, .inr ⟨⟨_, rfl⟩, .inr ⟨_, mem_cons_self .., rfl⟩⟩⟩
    split
    · exact guarantee_effect (heffect _ _ hbase.symm hclose) hl
    · exact guarantee_same l (.refl s)
  · cases hex
    exact ⟨guarantee_effect (heffect _ _ hbase.symm hclose) hl,
      .inl ⟨rfl, _, mem_cons_self .., hbase.symm, hclose⟩⟩

theorem safe_inTransaction
    {R : Except StoreError α → List (Step (storeService (sqliteMachine C) db)) → Prop}
    (hG : Lenient G) (hR : Lasting R) (hfail : ∀ e l', AllSame l' → R (.error e) l')
    (hbody : ∀ l', AllSame l' → (sqliteIsolation db h).Safe tid G (fun r _ l => R r l) body.run
      (some .deferred) l')
    (hl : AllSame l) :
    (sqliteIsolation db h).Safe tid G (fun r _ l => R r l) (inTransaction body).run x l := by
  refine safe_quiet hG rfl (fun s c s' r next _ hex hsame => ?_)
  simp only [exec] at hex
  split at hex
  · cases hex
    exact hfail _ _ (hl.cons hsame)
  split at hex
  · cases hex
    change (sqliteIsolation db h).Safe tid _ _ (body.run.bind endTransaction) _ _
    rw [tx_setTx_self]
    refine safe_bind (Isolation.Safe.mono (hbody _ ?_) ?_)
    · exact hl.cons hsame
    · intro r x' l' hr
      cases r with
      | ok a => exact hr
      | error e =>
        refine safe_quiet hG rfl (fun _ _ _ _ _ _ _ hsame' => ?_)
        exact hR _ _ _ hr hsame'
  · cases hex

theorem safe_guarded
    {R : Except StoreError α → List (Step (storeService (sqliteMachine C) db)) → Prop}
    (hG : Lenient G) (hR : Lasting R)
    (hbody : ∀ l', AllSame l' → (sqliteIsolation db h).Safe tid G (fun r _ l => R r l)
      body.run x l') :
    (sqliteIsolation db h).Safe tid G (fun r _ l => R r l) (guarded body) x [] := by
  refine safe_quiet hG rfl (fun s c s' r next hloc hex hsame => ?_)
  have htx : s'.tx tid = x := by
    simp only [exec] at hex
    split at hex
    · cases hex
      exact hloc
    · cases hex
  change (sqliteIsolation db h).Safe tid _ _ (body.run.bind release) _ _
  rw [htx]
  refine safe_bind (Isolation.Safe.mono (hbody _ ?_) ?_)
  · exact allSame_singleton hsame
  · intro r x' l' hr
    refine safe_quiet hG rfl (fun _ _ _ _ _ _ _ hsame' => ?_)
    exact hR _ _ _ hr hsame'

theorem safe_utcNow (hG : Lenient G) (hl : AllSame l) : (sqliteIsolation db h).Safe tid G
      (fun r x' l' => AllSame l' ∧ x' = x ∧ ∃ now, r = .ok now ∧
        ∃ st ∈ l', (sqliteMachine C).clock st.op st.reply = some now)
          (utcNow (C := C)).run x l := by
  refine safe_quiet hG rfl (fun s c s' r next hloc hex hsame => ?_)
  cases hex
  exact ⟨hl.cons hsame, hloc, _, rfl, _, mem_cons_self .., rfl⟩

theorem safe_append (t : TaskTransition) :
    (sqliteIsolation db h).Safe tid (Guarantee True (.append t))
      (fun r _ l => Post (.append t) (.applied r) l) (appendEventAndTransition t) x [] := by
  refine safe_guarded lenient_guarantee (lasting_append t) (fun l hl => ?_)
  refine safe_inTransaction lenient_guarantee (lasting_append t) (fun e l' hl' => .inl hl')
    (fun l hl => ?_) hl
  refine safe_try (safe_first rfl hl) (fun e x l h => .inl h.1) ?_
  rintro found x l ⟨hl, ⟨e, he⟩ | ⟨base, v, rep, rfl, hrep, hfound, -⟩⟩
  · cases he
  cases hfound
  cases found with
  | none => exact .inl hl
  | some row =>
    have hrow : base.selectTask (C.id t.taskId) = some row :=
      congrArg Prod.snd (Option.some.inj hrep)
    refine safe_ofExcept (fun e _ => .inl hl) (fun cur hcur => ?_)
    refine safe_ofExcept (fun e _ => .inl hl) (fun u hcheck => ?_)
    refine safe_try (safe_utcNow lenient_guarantee hl) (fun e x l h => .inl h.1) ?_
    rintro now x l ⟨hl, rfl, -⟩
    refine safe_try (safe_query (.reading base v) hl) (fun e x l h => .inl h.1) ?_
    rintro changed x l ⟨hl, ⟨e, he⟩ | ⟨⟨⟩, _⟩ | ⟨-, d₁, rep, hupdate, hrep, rfl⟩⟩
    · cases he
    cases hrep
    by_cases hchanged : changed = 1
    · rw [if_neg (not_not_intro hchanged)]
      have hone : base.updateTask (t.update cur now) = (d₁, changed) := Option.some.inj hupdate
      have hd₁ : d₁ = base.modifyTask (t.update cur now) := by
        obtain ⟨_, _, heq⟩ := updateTask_eq_one (by rw [hone]; exact hchanged)
        rw [← heq, hone]
      refine safe_ofExcept (fun e _ => .inl hl) (fun j hj => ?_)
      refine safe_try (safe_query (.writing base d₁) hl) (fun e x l h => .inl h.1) ?_
      rintro _ x l ⟨hl, ⟨e, he⟩ | ⟨⟨⟩, _⟩ | ⟨-, d₂, rep, hevent, -, rfl⟩⟩
      · cases he
      replace hevent : d₁.insertEvent (t.eventRow cur j now) = some d₂ := by
        obtain ⟨_, hinsert, heq⟩ := map_eq_some_iff.mp hevent
        cases heq
        exact hinsert
      have happlies := applies hrow hcur hcheck hd₁ (mapError_eq_ok_iff.mp hj) hevent
      refine safe_try (safe_query (.writing base d₂) hl) (fun e x l h => .inl h.1) ?_
      rintro found x l ⟨hl, ⟨e, he⟩ | ⟨-, rfl, rep, hrep, hfound⟩ | ⟨⟨⟩, _⟩⟩
      · cases he
      cases hfound
      refine safe_ofExcept (fun e _ => .inl hl) (fun row' hrow' => ?_)
      refine safe_ofExcept (fun e _ => .inl hl) (fun s hs => ?_)
      cases hrep
      have hread := eq_of_stored happlies.stored hrow' hs
      refine safe_try (safe_commit_writing hl fun s s' hpre hpost => ?_) ?_ ?_
      · rw [← hpre, ← hpost] at happlies
        exact .inr ⟨cur, _, happlies.comap⟩
      · rintro e x l (⟨he, _⟩ | ⟨_, hfailed⟩)
        · cases he
        · exact hfailed
      · rintro _ x l (⟨_, st, hst, hpre, hpost⟩ | ⟨⟨e, he⟩, _⟩)
        · rw [← hpre, ← hpost] at happlies
          exact ⟨st, hst, cur, by rw [hread]; exact happlies.comap⟩
        · cases he
    · rw [if_pos hchanged]
      exact .inl hl

theorem safe_create (n : NewTask) : (sqliteIsolation db h).Safe tid (Guarantee True (.create n))
      (fun r _ l => Post (.create n) (.created r) l) (createOrGetIdempotent n) x [] := by
  refine safe_guarded lenient_guarantee (lasting_create n) (fun l hl => ?_)
  refine safe_inTransaction lenient_guarantee (lasting_create n) (fun _ _ _ => trivial)
    (fun l hl => ?_) hl
  refine safe_try (safe_first rfl hl) (fun _ _ _ _ => trivial) ?_
  rintro found x l ⟨hl, ⟨e, he⟩ | ⟨base, v, rep, rfl, hrep, hfound, st, hst, hpost⟩⟩
  · cases he
  cases hfound
  cases found with
  | some row =>
    refine safe_ofExcept (fun _ _ => trivial) (fun s hs => ?_)
    refine safe_try (safe_commit_reading hl) (fun _ _ _ _ => trivial) ?_
    rintro _ x l ⟨hl, hsub⟩
    refine ⟨hl, st, hsub hst, ?_⟩
    have hrow : base.selectTaskByKey n.key = some row := congrArg Prod.snd (Option.some.inj hrep)
    change (st.post.committed.selectTaskByKey n.key).bind _ = _
    rw [hpost, hrow, bind_some, (TaskRow.decode_eq_ok_iff.mp hs).taskId]
    rfl
  | none =>
    refine safe_try (safe_utcNow lenient_guarantee hl) (fun _ _ _ _ => trivial) ?_
    rintro now x l ⟨hl, rfl, -⟩
    refine safe_try (safe_query (.reading base v) hl) (fun _ _ _ _ => trivial) ?_
    rintro _ x l ⟨hl, ⟨e, he⟩ | ⟨⟨⟩, _⟩ | ⟨-, d₁, rep, hinsert, -, rfl⟩⟩
    · cases he
    replace hinsert : base.insertTask (.new n now) = some d₁ := by
      obtain ⟨_, hrow, heq⟩ := map_eq_some_iff.mp hinsert
      cases heq
      exact hrow
    obtain ⟨hcreates, hfree⟩ : (sqlView errors).Creates n base d₁ ∧ base.selectTask _ = none :=
      creates hinsert
    refine safe_try (safe_query (.writing base d₁) hl) (fun _ _ _ _ => trivial) ?_
    rintro found x l ⟨hl, ⟨e, he⟩ | ⟨-, rfl, rep, hrep, hfound⟩ | ⟨⟨⟩, _⟩⟩
    · cases he
    cases hfound
    refine safe_ofExcept (fun _ _ => trivial) (fun row' hrow' => ?_)
    refine safe_ofExcept (fun _ _ => trivial) (fun s hs => ?_)
    cases hrep
    have hid : s.taskId = n.taskId := by
      obtain ⟨s', hs', hid, _⟩ := hcreates.stored
      rw [eq_of_stored hs' hrow' hs, hid]
    refine safe_try (safe_commit_writing hl fun s s' hpre hpost => ?_) (fun _ _ _ _ => trivial) ?_
    · rw [← hpre, ← hpost] at hcreates
      refine .inr ⟨hcreates.comap, fun _ => ?_⟩
      rw [← hpre] at hfree
      exact hfree
    · rintro _ x l (⟨_, st, hst, hpre, hpost⟩ | ⟨⟨e, he⟩, _⟩)
      · rw [← hpre, ← hpost] at hcreates
        exact ⟨⟨st, hst, hcreates.comap⟩, st, hst, by rw [hid]; exact hcreates.owner⟩
      · cases he

variable
  {Q : Except StoreError α → Option (SqliteTx C) →
    List (Step (storeService (sqliteMachine C) db)) → Prop}

theorem safe_panicked {β : Type} {f : β → SqliteM C α} (hG : Lenient G) :
    (sqliteIsolation db h).Safe tid G Q ((panicked : SqliteM C β) >>= f).run x l := by
  refine safe_quiet hG rfl (fun _ _ _ _ _ _ _ hsame => ?_)
  intro s c s' r next _ _ hex
  cases hex

/-- `addStd` and `subStd`, where the offset has one sign or the other. -/
theorem safe_offset {d : ℕ} {f : DateTime → SqliteM C α} (sign : ℤ → ℤ) (hG : Lenient G)
    (hfail : ∀ e, Q (.error e) x l)
    (hok : ∀ t, chronoAdd now (sign d) = some t →
      (sqliteIsolation db h).Safe tid G Q (f t).run x l) :
    (sqliteIsolation db h).Safe tid G Q ((match durationFromStd d with
      | none => throw .outOfRange
      | some d => match chronoAdd now (sign d) with
        | none => panicked
        | some t => return t : SqliteM C DateTime) >>= f).run x l := by
  cases hd : durationFromStd d with
  | none => exact hfail _
  | some d' =>
    rw [durationFromStd_eq_some hd]
    dsimp only
    cases hadd : chronoAdd now (sign d) with
    | none => exact safe_panicked hG
    | some t => exact hok t hadd

theorem safe_leaseCall {lease : Lease} {s : DateTime → DateTime → Statement C}
    {f : ∀ now t, (s now t).Reply → Bool}
    (hcall : ∀ db db' : SqliteDb C, (sqliteMachine C).view.LeasesOf lease.taskId db db' →
      (sqliteMachine C).view.StepOf True db db' call)
    (hs : ∀ {now t d d' picked rep}, (s now t).run d picked = some (d', rep) →
      (sqlView errors).LeasesOf lease.taskId d d') :
    (sqliteIsolation db h).Safe tid (Guarantee True call) (fun _ _ _ => True) (guarded (do
      let now ← utcNow
      let t ← addStd now lease.expiresIn
      let changed ← execute (s now t)
      return f now t changed)) x [] := by
  refine safe_guarded lenient_guarantee lasting_true (fun l hl => ?_)
  refine safe_try (safe_utcNow lenient_guarantee hl) (fun _ _ _ _ => trivial) ?_
  rintro now x l ⟨hl, rfl, -⟩
  refine safe_offset id lenient_guarantee (fun _ => trivial) (fun expires _ => ?_)
  refine safe_try (R := fun _ _ _ => True) ?_ (fun _ _ _ _ => trivial) (fun _ _ _ _ => trivial)
  intro s₀ c s' r next _ _ hex
  refine ⟨?_, trivial⟩
  rcases (execute_cases tid hex).2 with ⟨heq, _⟩ | ⟨_, rep, hrun, _⟩
  · exact guarantee_same l (.of_eq heq)
  · exact guarantee_effect (hcall _ _ (hs hrun).comap) hl

theorem safe_cleanup (policy : RetentionPolicy) (hG : Lenient G)
    (hevents : ∀ l st now cutoff, (∃ st' ∈ l, (sqliteMachine C).clock st'.op st'.reply = some now) →
      chronoAdd now (-policy.eventTtl) = some cutoff →
      st.op = .execute (.deleteEvents (C.time cutoff) policy.cleanupBatchSize) →
      Tables.DeletesBatch (C.time cutoff) policy.cleanupBatchSize st.pre.committed
        st.post.committed → G l st)
    (htasks : ∀ l st now cutoff, (∃ st' ∈ l, (sqliteMachine C).clock st'.op st'.reply = some now) →
      chronoAdd now (-policy.taskTtl) = some cutoff →
      Tables.DeletesTasks (C.time cutoff) st.pre.committed st.post.committed → G l st) :
    (sqliteIsolation db h).Safe tid G (fun _ _ _ => True) (cleanup policy) x [] := by
  refine safe_guarded hG lasting_true (fun l hl => ?_)
  refine safe_try (safe_utcNow hG hl) (fun _ _ _ _ => trivial) ?_
  rintro now x l ⟨hl, rfl, now', hnow, st, hst, hclock⟩
  cases hnow
  refine safe_offset Neg.neg hG (fun _ => trivial) (fun taskCutoff htask => ?_)
  refine safe_offset Neg.neg hG (fun _ => trivial) (fun eventCutoff hevent => ?_)
  refine safe_try (R := fun _ _ l' => st ∈ l') ?_ (fun _ _ _ _ => trivial) ?_
  · intro s c s' r next _ _ hex
    refine ⟨?_, mem_cons_of_mem _ hst⟩
    rcases (execute_cases tid hex).2 with ⟨heq, _⟩ | ⟨hadmits, rep, hrun, _⟩
    · exact hG _ _ (.of_eq heq)
    · refine hevents _ _ now eventCutoff ⟨st, hst, hclock⟩ hevent rfl ⟨c.picked.events, hadmits, ?_⟩
      exact congrArg Prod.fst (Option.some.inj hrun).symm
  · intro events x l hst
    refine safe_try (R := fun _ _ _ => True) ?_ (fun _ _ _ _ => trivial) (fun _ _ _ _ => trivial)
    intro s c s' r next _ _ hex
    refine ⟨?_, trivial⟩
    rcases (execute_cases tid hex).2 with ⟨heq, _⟩ | ⟨hadmits, rep, hrun, _⟩
    · exact hG _ _ (.of_eq heq)
    · refine htasks _ _ now taskCutoff ⟨st, hst, hclock⟩ htask ⟨c.picked.tasks, hadmits.2.1, ?_⟩
      exact congrArg Prod.fst (Option.some.inj hrun).symm

theorem everywhere_getSnapshot {P : SqliteOp C → Prop} {id : TaskId}
    (h : P (.execute (.selectTask (C.id id)))) : (getSnapshot id).Everywhere P := by
  refine Prog.everywhere_try (Prog.everywhere_perform h) (fun found => ?_)
  cases found with
  | none => trivial
  | some row => exact Prog.everywhere_try trivial (fun _ => trivial)

theorem safe_reads (hp : p.Everywhere (fun o => quiet o = true)) :
    (sqliteIsolation db h).Safe tid (Guarantee True call) (fun _ _ _ => True) p x [] := by
  refine safe_of_everywhere (K := fun _ => True) hp ?_ (fun _ _ _ _ => trivial) trivial
  rintro l st - ho rfl - ⟨c, hex⟩
  exact ⟨guarantee_same l (.of_eq (committed_of_quiet ho hex)), trivial⟩

end SqliteTaskStore

open DurableMachine SqliteTaskStore in
theorem sqlite_serves (db : SqliteDb C) (h : (sqliteMachine C).Settled db) :
    Serves True (sqliteMachine C) db (sqliteIsolation db h) := by
  refine ⟨fun tid c x => ?_, fun tid x => (safe_reads ?_).weaken
    (fun _ _ (h : Guarantee True (.getSnapshot 0) _ _) => h.1)⟩
  rotate_left
  · exact ⟨rfl, fun _ => ⟨rfl, fun _ => trivial⟩⟩
  cases c with
  | create n => exact safe_bind (safe_create n)
  | append t => exact safe_bind (safe_append t)
  | getSnapshot id =>
    exact safe_bind ((safe_reads (everywhere_getSnapshot rfl)).mono (fun _ _ _ _ => trivial))
  | eventsAfter id afterSeq limit =>
    refine safe_bind ((safe_reads ?_).mono (fun _ _ _ _ => trivial))
    exact Prog.everywhere_try (Prog.everywhere_perform rfl) (fun _ => trivial)
  | acquireLease lease =>
    apply safe_bind
    exact safe_leaseCall (s := fun now t => .upsertLease
      ⟨C.id lease.taskId, lease.ownerId, C.time t, C.time now⟩ (C.time now)) (fun _ _ h => h)
      leasesOf_upsertLease
  | renewLease lease =>
    apply safe_bind
    exact safe_leaseCall (s := fun now t => .updateLease
      ⟨C.id lease.taskId, lease.ownerId, C.time t, C.time now⟩ (C.time now)) (fun _ _ h => h)
      (fun hrun => leasesOf_updateLease (Option.some.inj hrun))
  | cleanup policy =>
    refine safe_bind ((safe_cleanup policy lenient_guarantee ?_ ?_).mono (fun _ _ _ _ => trivial))
    · exact fun l st now cutoff _ _ _ h => ⟨h.cleans.comap, .inl ⟨policy, rfl⟩⟩
    · exact fun l st now cutoff _ _ h => ⟨h.cleans.comap, .inl ⟨policy, rfl⟩⟩

theorem sqlite_obeys (C : Columns) : DurableMachine.Obeys True (sqliteMachine C) :=
  fun db h => ⟨_, fun tid c => (sqlite_serves db h).call tid c none⟩

end AgentConnector
