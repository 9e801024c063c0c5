import AgentConnector.PostgresSteps

/-!
# The calls of the Postgres store

Each method followed statement by statement. An append reads its row under a lock, and at its commit
the row is still the one it has read; a creation takes effect at its insertion, and the task it then
reads is the one under its key.
-/

namespace AgentConnector

open Concurrent Keyed Isolation Postgres Tables PostgresDb List

variable {J : JsonColumn}

def postgresIsolation (db : PostgresDb (columns J)) (h : (postgresMachine J).Settled db) :
    Isolation (storeService (postgresMachine J) db) where
  inv := PostgresDb.Inv
  Local := Option (List (Write (columns J))) × ((columns J).Id → Option (TaskRow (columns J)))
  loc tid s := s.own tid
  idle := (none, fun _ => none)
  inv_init := by
    refine ⟨fun {id j} hid => ?_, fun {j ws w} hj _ => ?_, fun {j ws} hj => ?_⟩
    · rw [h.1 id] at hid
      cases hid
    · rw [h.2 j] at hj
      cases hj
    · rw [h.2 j] at hj
      cases hj
  loc_init tid := by
    refine Prod.ext (h.2 tid) (funext fun id => ?_)
    change (if db.locks id = some tid then _ else _) = none
    rw [h.1 id]
    rfl
  inv_exec := PostgresDb.Inv.exec
  loc_exec := own_exec_ne

namespace PostgresDb

variable {C : Columns} {db db' : PostgresDb C} {tid : ℕ} {c : PostgresChoice C}

def quiet : PostgresOp C → Bool
  | .commit => false
  | .execute s => !s.writes
  | _ => true

theorem committed_of_quiet (ho : quiet o = true) (hex : db.exec tid o c = some (db', r)) :
    db'.committed = db.committed := by
  cases exec_move hex with
  | idle => rfl
  | begun _ => rfl
  | locked _ _ => rfl
  | pushed _ _ _ _ => rfl
  | installed => cases ho
  | released => rfl
  | executed _ hrun =>
    simp only [quiet, Bool.not_eq_true'] at ho
    exact Statement.run_of_read ho hrun

variable {x : Option (List (Write C)) × (C.Id → Option (TaskRow C))}

theorem committed_of_own {id : C.Id} (hown : db.own tid = x) (hrow : x.2 id = some row) :
    db.locks id = some tid ∧ db.committed.selectTask id = some row := by
  rw [← hown] at hrow
  change (if db.locks id = some tid then _ else none) = some row at hrow
  by_cases hlock : db.locks id = some tid
  · rw [if_pos hlock] at hrow
    exact ⟨hlock, hrow⟩
  · rw [if_neg hlock] at hrow
    cases hrow

theorem own_of_locked (db : PostgresDb C) {id : C.Id} (hlock : db.locks id = some tid) :
    (db.own tid).2 id = db.committed.selectTask id := if_pos hlock

theorem seen_of_own (hown : db.own tid = x) (hws : x.1 = some ws) :
    db.seen tid = ws.foldl Write.apply db.committed := by
  have htx : db.tx tid = some ws := (congrArg Prod.fst hown).trans hws
  rw [seen, htx]
  rfl

theorem Inv.seen_of_append (h : db.Inv) (hown : db.own tid = x)
    (hws : x.1 = some [.update u, .event e]) :
    (db.committed.modifyTask u).insertEvent e = some (db.seen tid) := by
  have htx : db.tx tid = some [.update u, .event e] := (congrArg Prod.fst hown).trans hws
  obtain ⟨hupdate, hevent, _⟩ := h.take htx
  have happly := apply_event hevent
  rw [apply_update hupdate] at happly
  rw [happly, seen_of_own hown hws, foldl_cons, foldl_cons, foldl_nil,
    apply_update hupdate]

end PostgresDb

namespace PostgresTaskStore

open DurableMachine PostgresDb

variable {db : PostgresDb (columns J)} {h : (postgresMachine J).Settled db} {tid : ℕ}
  {call : StoreCall} {l : List (Step (storeService (postgresMachine J) db))}
  {x : Option (List (Write (columns J))) ×
    ((columns J).Id → Option (TaskRow (columns J)))} {α : Type}
  {G : List (Step (storeService (postgresMachine J) db)) →
    Step (storeService (postgresMachine J) db) → Prop}

theorem safe_quiet {k : o.Reply → Prog (postgresSig (columns J)) α}
    {Q : α → (postgresIsolation db h).Local →
      List (Step (storeService (postgresMachine J) db)) → Prop}
    (hG : Lenient G) (ho : quiet o = true)
    (hk : ∀ s c s' r next, s.Inv → s.own tid = x → exec s tid o c = some (s', r) →
      (postgresMachine J).view.Same s s' →
      (postgresIsolation db h).Safe tid G Q (k r) (s'.own tid) (⟨tid, o, r, s, s', next⟩ :: l)) :
    (postgresIsolation db h).Safe tid G Q (.op o k) x l := by
  intro s c s' r next hinv hloc hex
  have hsame : (postgresMachine J).view.Same s s' := .of_eq (committed_of_quiet ho hex)
  exact ⟨hG l _ hsame, hk s c s' r next hinv hloc hex hsame⟩

theorem safe_selectForUpdate {id : (columns J).Id} (hx : x.1 = some []) (hl : AllSame l) :
    (postgresIsolation db h).Safe tid (Guarantee True call)
      (fun r x' l' => AllSame l' ∧ ((∃ e, r = .error e) ∨ r = .ok none ∨
        ∃ row, r = .ok (some row) ∧ x'.1 = some [] ∧ x'.2 id = some row))
      (attempt (perform (.selectForUpdate id))).run x l := by
  refine safe_quiet lenient_guarantee rfl (fun s c s' r next _ hown hex hsame =>
    ⟨hl.cons hsame, ?_⟩)
  rcases onRow_cases hex with ⟨_, herror⟩ | ⟨_, hrun⟩
  · exact .inl herror
  · unfold runSelectForUpdate at hrun
    rw [seen_of_own hown hx] at hrun
    split at hrun
    · cases hrun
      exact .inr (.inl rfl)
    · rename_i row hrow
      cases hrun
      refine .inr (.inr ⟨row, rfl, (congrArg Prod.fst hown).trans hx, ?_⟩)
      exact (own_of_locked (s.lock tid id) (locks_lock_self ..)).trans hrow

variable {u : TaskUpdate (columns J)} {row : TaskRow (columns J)}

theorem safe_updateTask (hx : x.1 = some []) (hrow : x.2 u.taskId = some row) (hl : AllSame l) :
    (postgresIsolation db h).Safe tid (Guarantee True call)
      (fun r x' l' => AllSame l' ∧ ((∃ e, r = .error e) ∨ ∃ n, r = .ok n ∧
        (n = 1 → x'.1 = some [.update u] ∧ x'.2 u.taskId = some row)))
      (attempt (perform (.updateTask u))).run x l := by
  refine safe_quiet lenient_guarantee rfl (fun s c s' r next _ hown hex hsame =>
    ⟨hl.cons hsame, ?_⟩)
  rcases onRow_cases hex with ⟨_, herror⟩ | ⟨_, hrun⟩
  · exact .inl herror
  · unfold runUpdateTask at hrun
    split at hrun
    · cases hrun
      refine .inr ⟨_, rfl, fun _ => ⟨?_, ?_⟩⟩
      · change (s.push tid (.update u)).tx tid = _
        rw [tx_push_self, show s.tx tid = some [] from (congrArg Prod.fst hown).trans hx]
        rfl
      · refine (own_of_locked (s.push tid (.update u)) (locks_lock_self ..)).trans ?_
        exact (committed_of_own hown hrow).2
    · rename_i hne
      cases hrun
      exact .inr ⟨_, rfl, fun hone => absurd hone hne⟩

variable {e : EventRow (columns J)}

theorem safe_insertEvent (hx : x.1 = some [.update u]) (hrow : x.2 e.taskId = some row)
    (hl : AllSame l) :
    (postgresIsolation db h).Safe tid (Guarantee True call)
      (fun r x' l' => AllSame l' ∧ ((∃ e, r = .error e) ∨
        (x'.1 = some [.update u, .event e] ∧ x'.2 e.taskId = some row)))
      (attempt (perform (.insertEvent e))).run x l := by
  refine safe_quiet lenient_guarantee rfl (fun s c s' r next _ hown hex hsame =>
    ⟨hl.cons hsame, ?_⟩)
  rcases onRow_cases hex with ⟨_, herror⟩ | ⟨_, hrun⟩
  · exact .inl herror
  · unfold runInsertEvent at hrun
    split at hrun
    · cases hrun
      exact .inl ⟨_, rfl⟩
    · cases hrun
      refine .inr ⟨?_, ?_⟩
      · change (s.push tid (.event e)).tx tid = _
        rw [tx_push_self, show s.tx tid = some [.update u] from (congrArg Prod.fst hown).trans hx]
        rfl
      · refine (own_of_locked (s.push tid (.event e)) (locks_lock_self ..)).trans ?_
        exact (committed_of_own hown hrow).2

theorem safe_selectTask (hx : x.1 = some [.update u, .event e]) (hrow : x.2 u.taskId = some row)
    (hl : AllSame l) :
    (postgresIsolation db h).Safe tid (Guarantee True call)
      (fun r x' l' => AllSame l' ∧ ((∃ e, r = .error e) ∨ (x' = x ∧ r = .ok (some (row.update u)))))
      (attempt (perform (.selectTask u.taskId))).run x l := by
  refine safe_quiet lenient_guarantee rfl (fun s c s' r next hinv hown hex hsame =>
    ⟨hl.cons hsame, ?_⟩)
  simp only [exec] at hex
  split at hex
  · cases hex
    exact .inl ⟨_, rfl⟩
  · cases hex
    refine .inr ⟨hown, ?_⟩
    have hseen := hinv.seen_of_append hown hx
    have htasks := (insertEvent_eq_some hseen).2.2.1
    rw [selectTask, htasks]
    refine congrArg Except.ok (selectTask_modifyTask_self.trans ?_)
    rw [(committed_of_own hown hrow).2]
    rfl

/-- The commit of an append: it takes effect on the tables committed by then, or fails without
effect, or fails in doubt. -/
theorem safe_commit {E : PostgresDb (columns J) → PostgresDb (columns J) → Prop}
    (hx : x.1 = some [.update u, .event e]) (hrow : x.2 u.taskId = some row) (hl : AllSame l)
    (heffect : ∀ s s' : PostgresDb (columns J), s.committed.selectTask u.taskId = some row
      → (s.committed.modifyTask u).insertEvent e = some s'.committed → E s s' ∧ (postgresMachine
      J).view.StepOf True s s' call) :
    (postgresIsolation db h).Safe tid (Guarantee True call)
      (fun r _ l' => (r = .ok () ∧ ∃ st ∈ l', E st.pre st.post) ∨ ((∃ e, r = .error e) ∧ Failed l'))
      (attempt (perform .commit)).run x l := by
  intro s c s' r next hinv hown hex
  have hseen : (s.committed.modifyTask u).insertEvent e = some (s.install tid).committed :=
    PostgresDb.Inv.seen_of_append hinv hown hx
  obtain ⟨hE, hstep⟩ := heffect s (s.install tid) (committed_of_own hown hrow).2 hseen
  simp only [exec] at hex
  split at hex
  · cases hex
    refine ⟨?_, .inr ⟨⟨_, rfl⟩, .inr ⟨_, mem_cons_self .., rfl⟩⟩⟩
    split
    · exact guarantee_effect hstep hl
    · exact guarantee_same l (.refl s)
  · cases hex
    exact ⟨guarantee_effect hstep hl, .inl ⟨rfl, _, mem_cons_self .., hE⟩⟩

theorem safe_inTransaction
    {R : Except StoreError α → List (Step (storeService (postgresMachine J) db)) → Prop}
    (hG : Lenient G) (hR : Lasting R) (hfail : ∀ e l', AllSame l' → R (.error e) l')
    (hbody : ∀ x l', x.1 = some [] → AllSame l' →
      (postgresIsolation db h).Safe tid G (fun r _ l => R r l) body.run x l') :
    (postgresIsolation db h).Safe tid G (fun r _ l => R r l) (inTransaction body) x [] := by
  refine safe_quiet hG rfl (fun s c s' r next _ _ hex hsame => ?_)
  simp only [exec] at hex
  split at hex
  · cases hex
    exact hfail _ _ (allSame_singleton hsame)
  split at hex
  · cases hex
    change (postgresIsolation db h).Safe tid _ _ (body.run.bind endTransaction) _ _
    refine safe_bind (Isolation.Safe.mono (hbody _ _ ?_ ?_) ?_)
    · exact Function.update_self ..
    · exact allSame_singleton hsame
    · intro r x' l' hr
      cases r with
      | ok a => exact hr
      | error e =>
        refine safe_quiet hG rfl (fun _ _ _ _ _ _ _ _ hsame' => ?_)
        exact hR _ _ _ hr hsame'
  · cases hex

theorem safe_utcNow (hG : Lenient G) (hl : AllSame l) :
    (postgresIsolation db h).Safe tid G (fun _ x' l' => AllSame l' ∧ x' = x)
      (utcNow (C := columns J)).run x l := by
  refine safe_quiet hG rfl (fun s c s' r next _ hown hex hsame => ?_)
  cases hex
  exact ⟨hl.cons hsame, hown⟩

theorem safe_append (t : TaskTransition) :
    (postgresIsolation db h).Safe tid (Guarantee True (.append t))
      (fun r _ l => Post (.append t) (.applied r) l) (appendEventAndTransition t) x [] := by
  refine safe_inTransaction lenient_guarantee (lasting_append t) (fun e l' hl' => .inl hl')
    (fun x l hx hl => ?_)
  refine safe_try (safe_selectForUpdate hx hl) (fun e x l h => .inl h.1) ?_
  rintro found x l ⟨hl, ⟨e, he⟩ | hnone | ⟨row, hfound, hx, hrow⟩⟩
  · cases he
  · cases hnone
    exact .inl hl
  cases hfound
  refine safe_ofExcept (fun e _ => .inl hl) (fun cur hcur => ?_)
  refine safe_ofExcept (fun e _ => .inl hl) (fun u hcheck => ?_)
  refine safe_try (safe_utcNow lenient_guarantee hl) (fun e x l h => .inl h.1) ?_
  rintro now x l ⟨hl, rfl⟩
  refine safe_try (safe_updateTask hx hrow hl) (fun e x l h => .inl h.1) ?_
  rintro changed x l ⟨hl, ⟨e, he⟩ | ⟨n, hn, hone⟩⟩
  · cases he
  cases hn
  by_cases hchanged : changed = 1
  · rw [if_neg (not_not_intro hchanged)]
    obtain ⟨hx, hrow⟩ := hone hchanged
    refine safe_ofExcept (fun e _ => .inl hl) (fun j hj => ?_)
    refine safe_try (safe_insertEvent hx hrow hl) (fun e x l h => .inl h.1) ?_
    rintro _ x l ⟨hl, ⟨e, he⟩ | ⟨hx, hrow⟩⟩
    · cases he
    refine safe_try (safe_selectTask hx hrow hl) (fun e x l h => .inl h.1) ?_
    rintro found x l ⟨hl, ⟨e, he⟩ | ⟨rfl, hfound⟩⟩
    · cases he
    cases hfound
    refine safe_ofExcept (fun e _ => .inl hl) (fun row' hrow' => ?_)
    cases hrow'
    refine safe_ofExcept (fun e _ => .inl hl) (fun s hs => ?_)
    have hread : s = cur.updated (columns J) t now := by
      have hholds := (TaskRow.decode_eq_ok_iff.mp hcur).update t now
      exact Except.ok.inj (hs.symm.trans (TaskRow.decode_eq_ok_iff.mpr hholds))
    have happlies : ∀ s s' : PostgresDb (columns J),
        s.committed.selectTask ((columns J).id t.taskId) = some row →
        (s.committed.modifyTask (t.update cur now)).insertEvent (t.eventRow cur j now) =
          some s'.committed →
        (postgresMachine J).view.AppliesTo t cur ⟨cur.updated (columns J) t now,
            ⟨t.taskId, cur.lastSeq + 1, now, t.eventKind⟩⟩ s s' :=
      fun s s' hrow hevent => StoreView.AppliesTo.comap
        (applies hrow hcur hcheck rfl (mapError_eq_ok_iff.mp hj) hevent)
    refine safe_try (safe_commit hx hrow hl fun s s' hrow hevent =>
      ⟨happlies s s' hrow hevent, .inr ⟨cur, _, happlies s s' hrow hevent⟩⟩) ?_ ?_
    · rintro e x l (⟨he, _⟩ | ⟨_, hfailed⟩)
      · cases he
      · exact hfailed
    · rintro _ x l (⟨_, st, hst, hE⟩ | ⟨⟨e, he⟩, _⟩)
      · exact ⟨st, hst, cur, by rw [hread]; exact hE⟩
      · cases he
  · rw [if_pos hchanged]
    exact .inl hl

theorem safe_read (hG : Lenient G) (hs : s.writes = false) :
    (postgresIsolation db h).Safe tid G
      (fun r _ l' => ∃ st, l' = st :: l ∧ (postgresMachine J).view.Same st.pre st.post ∧
        ∀ rep, r = .ok rep → ∃ picked d, s.run st.post.committed picked = some (d, rep))
      (execute s).run x l := by
  refine safe_quiet hG (by simp [quiet, hs]) (fun s₀ c s' r next _ hown hex hsame =>
    ⟨_, rfl, hsame, fun rep hrep => ?_⟩)
  cases hrep
  rcases execute_cases tid hex with ⟨_, e, he⟩ | ⟨d, rep', _, _, hrun, rfl, hr | ⟨e, he⟩⟩
  · cases he
  · cases hr
    have heq := Statement.run_of_read hs hrun
    subst heq
    exact ⟨c.picked, _, hrun⟩
  · cases he

theorem safe_create (n : NewTask) : (postgresIsolation db h).Safe tid (Guarantee True (.create n))
      (fun r _ l => Post (.create n) (.created r) l) (createOrGetIdempotent n) x [] := by
  refine safe_try (safe_utcNow lenient_guarantee (fun _ h => by cases h))
    (fun _ _ _ _ => trivial) ?_
  rintro now x l ⟨hl, -⟩
  -- The insertion creates the task or finds its key taken.
  refine safe_try (R := fun r _ l' => ∀ k, r = .ok k →
    (k = 1 ∧ ∃ st ∈ l', (postgresMachine J).view.Creates n st.pre st.post) ∨ (k ≠ 1 ∧ AllSame l'))
    ?_ (fun _ _ _ _ => trivial) ?_
  · intro s c s' r next _ _ hex
    have hex' : exec s tid (.execute (.insertTaskOrIgnore (.new n now))) c = some (s', r) := hex
    rcases execute_cases tid hex' with
      ⟨heq, e, he⟩ | ⟨d, k, _, _, hrun, rfl, hr⟩
    · subst heq
      refine ⟨guarantee_same l (.refl s'), fun k hk => ?_⟩
      cases he.symm.trans hk
    · rcases Statement.runInsertOrIgnore_cases hrun with ⟨rfl, rfl⟩ | ⟨hinsert, rfl⟩
      · refine ⟨guarantee_same l (.refl s), fun k hk => ?_⟩
        rcases hr with hr | ⟨e, he⟩
        · cases hr.symm.trans hk
          exact .inr ⟨Nat.zero_ne_one, hl.cons (.refl s)⟩
        · cases he.symm.trans hk
      · obtain ⟨hcreates, hfree⟩ : (sqlView errors).Creates n s.committed d ∧
            s.committed.selectTask _ = none := creates hinsert
        have hcreates' : (postgresMachine J).view.Creates n s { s with committed := d } :=
          StoreView.Creates.comap hcreates
        refine ⟨guarantee_effect (.inr ⟨hcreates', fun _ => hfree⟩) hl, fun k hk => ?_⟩
        rcases hr with hr | ⟨e, he⟩
        · cases hr.symm.trans hk
          exact .inl ⟨rfl, _, mem_cons_self .., hcreates'⟩
        · cases he.symm.trans hk
  intro inserted x l hinserted
  refine safe_try (safe_read lenient_guarantee rfl) (fun _ _ _ _ => trivial) ?_
  rintro found x l' ⟨st, rfl, hsame, hfound⟩
  obtain ⟨picked, d, hrun⟩ := hfound found rfl
  have hfind : st.post.committed.selectTaskByKey n.key = found :=
    congrArg Prod.snd (Option.some.inj hrun)
  refine safe_ofExcept (fun _ _ => trivial) (fun row hrow => ?_)
  refine safe_ofExcept (fun _ _ => trivial) (fun s hs => ?_)
  have howner : (postgresMachine J).view.owner st.post n.key = some s.taskId := by
    cases found with
    | none => cases hrow
    | some row' =>
      cases hrow
      change (st.post.committed.selectTaskByKey n.key).bind _ = _
      rw [hfind, Option.bind_some, (TaskRow.decode_eq_ok_iff.mp hs).taskId]
      rfl
  rcases hinserted inserted rfl with ⟨rfl, st', hst', hcreates⟩ | ⟨hne, hall⟩
  · exact ⟨⟨st', mem_cons_of_mem _ hst', hcreates⟩, st, mem_cons_self .., howner⟩
  · change Post (.create n) (.created (.ok (if inserted = 1 then _ else _))) _
    rw [if_neg hne]
    exact ⟨hall.cons hsame, st, mem_cons_self .., howner⟩

theorem safe_serverNow (hG : Lenient G) : (postgresIsolation db h).Safe tid G
      (fun r _ l' => ∃ now st, r = .ok now ∧ l' = st :: l ∧
        (postgresMachine J).view.Same st.pre st.post ∧
        (postgresMachine J).clock st.op st.reply = some (ofMicros now))
      (serverNow (C := columns J)).run x l := by
  refine safe_quiet hG rfl (fun s c s' r next _ hown hex hsame => ?_)
  cases hex
  exact ⟨_, _, rfl, rfl, hsame, rfl⟩

theorem safe_leaseCall {lease : Lease} {s : ℤ → ℤ → Statement (columns J)}
    {f : ∀ now t, (s now t).Reply → Bool}
    (hcall : ∀ db db' : PostgresDb (columns J),
      (postgresMachine J).view.LeasesOf lease.taskId db db' →
      (postgresMachine J).view.StepOf True db db' call)
    (hs : ∀ {now t d d' picked rep}, (s now t).run d picked = some (d', rep) →
      (sqlView errors).LeasesOf lease.taskId d d') :
    (postgresIsolation db h).Safe tid (Guarantee True call) (fun _ _ _ => True) (do
      let now ← serverNow
      let t ← ofExcept ((addSeconds now (asSecs lease.expiresIn)).mapError dbError)
      let changed ← execute (s now t)
      return f now t changed : PostgresM (columns J) Bool).run x [] := by
  refine safe_try (safe_serverNow lenient_guarantee) (fun _ _ _ _ => trivial) ?_
  rintro now x l ⟨_, st, _, rfl, hsame, -⟩
  refine safe_ofExcept (fun _ _ => trivial) (fun expires _ => ?_)
  refine safe_try (R := fun _ _ _ => True) ?_ (fun _ _ _ _ => trivial) (fun _ _ _ _ => trivial)
  intro s₀ c s' r next _ _ hex
  refine ⟨?_, trivial⟩
  rcases execute_cases tid hex with ⟨rfl, _⟩ | ⟨d, rep, _, _, hrun, rfl, _⟩
  · exact guarantee_same _ (.refl _)
  · refine guarantee_effect (hcall _ _ (StoreView.LeasesOf.comap ?_)) (allSame_singleton hsame)
    exact hs hrun

/-- A retention run deletes what is older than its two cutoffs, each computed from the clock of the
server. -/
theorem safe_cleanup (policy : RetentionPolicy) (hG : Lenient G) (hevents : ∀ l st now cutoff,
      (∃ st' ∈ l, (postgresMachine J).clock st'.op st'.reply = some (ofMicros now)) →
      addSeconds now (-asSecs policy.eventTtl) = .ok cutoff →
      st.op = .execute (.deleteEvents cutoff policy.cleanupBatchSize) →
      Tables.DeletesBatch (C := columns J) cutoff policy.cleanupBatchSize st.pre.committed
        st.post.committed → G l st)
    (htasks : ∀ l st now cutoff,
      (∃ st' ∈ l, (postgresMachine J).clock st'.op st'.reply = some (ofMicros now)) →
      addSeconds now (-asSecs policy.taskTtl) = .ok cutoff →
      Tables.DeletesTasks (C := columns J) cutoff st.pre.committed st.post.committed →
      G l st) :
    (postgresIsolation db h).Safe tid G (fun _ _ _ => True) (cleanup policy) x [] := by
  refine safe_try (safe_serverNow hG) (fun _ _ _ _ => trivial) ?_
  rintro now x l ⟨_, st, hnow, rfl, _, hclock⟩
  cases hnow
  refine safe_ofExcept (fun _ _ => trivial) (fun eventCutoff hevent => ?_)
  refine safe_try (R := fun _ _ _ => True) ?_ (fun _ _ _ _ => trivial) ?_
  · intro s c s' r next _ _ hex
    refine ⟨?_, trivial⟩
    rcases execute_cases tid hex with ⟨rfl, _⟩ | ⟨d, rep, _, hadmits, hrun, rfl, _⟩
    · exact hG _ _ (.refl _)
    · refine hevents _ _ now eventCutoff ⟨st, mem_cons_self .., hclock⟩
        (mapError_eq_ok_iff.mp hevent) rfl ⟨c.picked.events, hadmits, ?_⟩
      exact congrArg Prod.fst (Option.some.inj hrun).symm
  intro events x l _
  refine safe_try (safe_serverNow hG) (fun _ _ _ _ => trivial) ?_
  rintro now x l ⟨_, st, hnow, rfl, _, hclock⟩
  cases hnow
  refine safe_ofExcept (fun _ _ => trivial) (fun taskCutoff htask => ?_)
  refine safe_try (R := fun _ _ _ => True) ?_ (fun _ _ _ _ => trivial) (fun _ _ _ _ => trivial)
  intro s c s' r next _ _ hex
  refine ⟨?_, trivial⟩
  rcases execute_cases tid hex with ⟨rfl, _⟩ | ⟨d, rep, _, hadmits, hrun, rfl, _⟩
  · exact hG _ _ (.refl _)
  · refine htasks _ _ now taskCutoff ⟨st, mem_cons_self .., hclock⟩
      (mapError_eq_ok_iff.mp htask) ⟨c.picked.tasks, hadmits.2.1, ?_⟩
    exact congrArg Prod.fst (Option.some.inj hrun).symm

theorem everywhere_getSnapshot {P : PostgresOp (columns J) → Prop} {id : TaskId}
    (h : P (.execute (.selectTask id))) : (getSnapshot (C := columns J) id).Everywhere P := by
  refine Prog.everywhere_try (Prog.everywhere_perform h) (fun found => ?_)
  cases found with
  | none => trivial
  | some row => exact Prog.everywhere_try trivial (fun _ => trivial)

theorem safe_reads (hp : p.Everywhere (fun o => quiet o = true)) :
    (postgresIsolation db h).Safe tid (Guarantee True call) (fun _ _ _ => True) p x [] := by
  refine safe_of_everywhere (K := fun _ => True) hp ?_ (fun _ _ _ _ => trivial) trivial
  rintro l st - ho rfl - ⟨c, hex⟩
  exact ⟨guarantee_same l (.of_eq (committed_of_quiet ho hex)), trivial⟩

end PostgresTaskStore

open DurableMachine PostgresTaskStore in
theorem postgres_serves (db : PostgresDb (columns J)) (h : (postgresMachine J).Settled db) :
    Serves True (postgresMachine J) db (postgresIsolation db h) := by
  refine ⟨fun tid c x => ?_, fun tid x => (safe_reads ?_).weaken
    (fun _ _ (h : Guarantee True (.getSnapshot 0) _ _) => h.1)⟩
  rotate_left
  · exact ⟨rfl, fun _ => trivial⟩
  cases c with
  | create n => exact safe_bind (safe_create n)
  | append t => exact safe_bind (safe_append t)
  | getSnapshot id =>
    exact safe_bind ((safe_reads (everywhere_getSnapshot rfl)).mono (fun _ _ _ _ => trivial))
  | eventsAfter id afterSeq limit =>
    refine safe_bind ((safe_reads ?_).mono (fun _ _ _ _ => trivial))
    exact Prog.everywhere_try (Prog.everywhere_perform rfl) (fun _ => trivial)
  | acquireLease lease =>
    apply safe_bind
    exact safe_leaseCall (s := fun now t => .upsertLease ⟨lease.taskId, lease.ownerId, t, now⟩ now)
      (fun _ _ h => h) leasesOf_upsertLease
  | renewLease lease =>
    apply safe_bind
    exact safe_leaseCall (s := fun now t => .updateLease ⟨lease.taskId, lease.ownerId, t, now⟩ now)
      (fun _ _ h => h) (fun hrun => leasesOf_updateLease (Option.some.inj hrun))
  | cleanup policy =>
    refine safe_bind ((safe_cleanup policy lenient_guarantee ?_ ?_).mono (fun _ _ _ _ => trivial))
    · exact fun l st now cutoff _ _ _ h => ⟨h.cleans.comap, .inl ⟨policy, rfl⟩⟩
    · exact fun l st now cutoff _ _ h => ⟨h.cleans.comap, .inl ⟨policy, rfl⟩⟩

theorem postgres_obeys (J : JsonColumn) : DurableMachine.Obeys True (postgresMachine J) :=
  fun db h => ⟨_, fun tid c => (postgres_serves db h).call tid c _⟩

end AgentConnector
