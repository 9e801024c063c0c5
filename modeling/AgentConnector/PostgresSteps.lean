import AgentConnector.PostgresWrites

/-!
# The steps of the Postgres store

A transaction works on rows that it has locked, so the writes it has made still go through when it
commits, whatever other calls have committed in between. The part of the state that belongs to a
call is the list of its writes together with the rows it has locked.
-/

namespace AgentConnector

open Concurrent Keyed Tables

variable {C : Columns}

namespace PostgresDb

structure Inv (db : PostgresDb C) : Prop where
  locked : ∀ {id j}, db.locks id = some j → ∃ row, db.committed.selectTask id = some row
  owned : ∀ {j ws w}, db.tx j = some ws → w ∈ ws → db.locks w.taskId = some j
  take : ∀ {j ws}, db.tx j = some ws → Write.AllTake db.committed ws

/-- The writes of a call and the rows it has locked. -/
def own (tid : ℕ) (db : PostgresDb C) : Option (List (Write C)) × (C.Id → Option (TaskRow C)) :=
  (db.tx tid, fun id => if db.locks id = some tid then db.committed.selectTask id else none)

variable {db db' : PostgresDb C} {tid : ℕ} {c : PostgresChoice C}

inductive Move (db : PostgresDb C) (tid : ℕ) : PostgresOp C → PostgresDb C → Prop where
  | idle (o : PostgresOp C) : Move db tid o db
  | begun : db.tx tid = none →
      Move db tid .begin { db with tx := Function.update db.tx tid (some []) }
  | locked {id : C.Id} {row : TaskRow C} : (db.seen tid).selectTask id = some row →
      db.lockedByOther tid id = false → Move db tid (.selectForUpdate id) (db.lock tid id)
  | pushed {o : PostgresOp C} {w : Write C} : (∀ s, o ≠ .execute s) → o ≠ .commit →
      db.lockedByOther tid w.taskId = false → w.Takes (db.seen tid) → Move db tid o (db.push tid w)
  | installed : Move db tid .commit (db.install tid)
  | released : Move db tid .rollback (db.release tid)
  | executed {s : Statement C} {d : Tables C} {picked : Picked C} {rep : s.Reply} :
      ¬ db.Waits picked s → s.run db.committed picked = some (d, rep) →
      Move db tid (.execute s) { db with committed := d }

variable {id : C.Id}

theorem onRow_cases {α : Type} {run : PostgresDb C × Except StoreError α} {r : Except StoreError α}
    (h : db.onRow tid id c run = some (db', r)) :
    (db' = db ∧ ∃ e, r = .error e) ∨ (db.lockedByOther tid id = false ∧ run = (db', r)) := by
  unfold onRow at h
  split at h
  · cases h
    exact .inl ⟨rfl, _, rfl⟩
  · split at h
    · cases h
    · rename_i hfree
      rw [not_or] at hfree
      exact .inr ⟨Bool.eq_false_of_not_eq_true hfree.2, Option.some.inj h⟩

/-- A statement outside a transaction changes the tables as it says, or leaves them alone; if it
fails it may have done either. -/
theorem execute_cases (tid : ℕ) (hex : db.exec tid (.execute s) c = some (db', r)) :
    (db' = db ∧ ∃ e, r = .error e) ∨ ∃ d rep, ¬ db.Waits c.picked s ∧
      s.Admits db.committed c.picked ∧ s.run db.committed c.picked = some (d, rep) ∧
      db' = { db with committed := d } ∧ (r = .ok rep ∨ ∃ e, r = .error e) := by
  have h : db.runStatement s c = some (db', r) := hex
  unfold runStatement at h
  split at h
  · cases h
  · rename_i hrun
    rw [not_or, not_not] at hrun
    rcases s.attempt_cases db.committed c.picked c.message with ⟨d', rep, hr, heq⟩ | heq
    · rw [heq] at h
      split at h
      · split at h
        · cases h
          exact .inr ⟨d', rep, hrun.1, hrun.2, hr, rfl, .inr ⟨_, rfl⟩⟩
        · cases h
          exact .inl ⟨rfl, _, rfl⟩
      · cases h
        exact .inr ⟨d', rep, hrun.1, hrun.2, hr, rfl, .inl rfl⟩
    · rw [heq] at h
      split at h
      · split at h <;> cases h <;> exact .inl ⟨rfl, _, rfl⟩
      · cases h
        exact .inl ⟨rfl, _, rfl⟩

variable {o : PostgresOp C}

variable {r : o.Reply}

theorem exec_move (hex : db.exec tid o c = some (db', r)) : Move db tid o db' := by
  cases o with
  | utcNow | serverNow =>
    cases hex
    exact .idle _
  | begin =>
    simp only [PostgresDb.exec] at hex
    split at hex
    · cases hex
      exact .idle _
    · split at hex
      · rename_i htx
        cases hex
        exact .begun htx
      · cases hex
  | selectForUpdate id =>
    rcases onRow_cases hex with ⟨rfl, _⟩ | ⟨hfree, hrun⟩
    · exact .idle _
    · unfold runSelectForUpdate at hrun
      split at hrun
      · cases hrun
        exact .idle _
      · rename_i row hrow
        cases hrun
        exact .locked hrow hfree
  | selectTask id =>
    simp only [PostgresDb.exec] at hex
    split at hex <;> cases hex <;> exact .idle _
  | updateTask u =>
    rcases onRow_cases hex with ⟨rfl, _⟩ | ⟨hfree, hrun⟩
    · exact .idle _
    · unfold runUpdateTask at hrun
      split at hrun
      · rename_i hone
        cases hrun
        exact .pushed (fun _ h => by cases h) (fun h => by cases h) hfree hone
      · cases hrun
        exact .idle _
  | insertEvent row =>
    rcases onRow_cases hex with ⟨rfl, _⟩ | ⟨hfree, hrun⟩
    · exact .idle _
    · unfold runInsertEvent at hrun
      split at hrun
      · cases hrun
        exact .idle _
      · rename_i d hd
        cases hrun
        exact .pushed (fun _ h => by cases h) (fun h => by cases h) hfree
          (show (Option.isSome _) = true by rw [hd]; rfl)
  | commit =>
    simp only [PostgresDb.exec] at hex
    split at hex
    · split at hex
      · cases hex
        exact .installed
      · cases hex
        exact .idle _
    · cases hex
      exact .installed
  | rollback =>
    cases hex
    exact .released
  | execute s =>
    rcases execute_cases tid hex with ⟨rfl, _⟩ | ⟨d, rep, hwaits, _, hrun, rfl, _⟩
    · exact .idle _
    · exact .executed hwaits hrun

/-- Locks are only released, writes only dropped, and what is committed agrees with what was there
on the rows that stay locked. -/
theorem Inv.of_agree (h : db.Inv) (hlocks : ∀ {id j}, db'.locks id = some j → db.locks id = some j)
    (htx : ∀ {j ws}, db'.tx j = some ws →
      db.tx j = some ws ∧ ∀ w ∈ ws, db'.locks w.taskId = db.locks w.taskId)
    (hagree : ∀ j, Tables.Agree (fun id => db'.locks id = some j) db.committed db'.committed) :
    db'.Inv where
  locked {id j} hid := by
    rw [(hagree j).row id hid]
    exact h.locked (hlocks hid)
  owned {j ws w} hj hw := by
    rw [(htx hj).2 w hw]
    exact h.owned (htx hj).1 hw
  take {j ws} hj := by
    refine (hagree j).allTake (fun w hw => ?_) (h.take (htx hj).1)
    rw [(htx hj).2 w hw]
    exact h.owned (htx hj).1 hw

variable {j : ℕ}

theorem lock_of_free (hfree : db.lockedByOther tid id = false) (h : db.locks id = some j) :
    j = tid := by
  unfold lockedByOther at hfree
  rw [h] at hfree
  simpa using hfree

theorem locks_lock_self (db : PostgresDb C) (tid : ℕ) (id : C.Id) :
    (db.lock tid id).locks id = some tid := Function.update_self ..

theorem locks_lock_ne (db : PostgresDb C) (tid : ℕ) (h : id' ≠ id) :
    (db.lock tid id).locks id' = db.locks id' := Function.update_of_ne h ..

theorem locks_lock_iff (hfree : db.lockedByOther tid id = false) (hj : j ≠ tid) :
    (db.lock tid id).locks id' = some j ↔ db.locks id' = some j := by
  by_cases hid : id' = id
  · subst hid
    rw [locks_lock_self]
    refine ⟨fun h => absurd (Option.some.inj h).symm hj, fun h => absurd (lock_of_free hfree h) hj⟩
  · rw [locks_lock_ne _ _ hid]

theorem Inv.committed_of_seen (hrow : (db.seen tid).selectTask id = some row) :
    ∃ row', db.committed.selectTask id = some row' := by
  unfold seen at hrow
  generalize (db.tx tid).getD [] = ws at hrow
  generalize db.committed = d at hrow
  induction ws generalizing d with
  | nil => exact ⟨row, hrow⟩
  | cons w ws ih =>
    obtain ⟨row', hrow'⟩ := ih _ hrow
    cases w with
    | event e =>
      rw [selectTask_apply_event] at hrow'
      exact ⟨row', hrow'⟩
    | update u =>
      rcases d.updateTask_cases u with ⟨r, hr, _, heq⟩ | heq
      · rw [Write.apply, heq] at hrow'
        by_cases hid : id = u.taskId
        · exact ⟨r, by rw [hid]; exact hr⟩
        · rw [selectTask_modifyTask_ne hid] at hrow'
          exact ⟨row', hrow'⟩
      · rw [Write.apply, heq] at hrow'
        exact ⟨row', hrow'⟩

theorem Inv.lock (h : db.Inv) (hrow : db.committed.selectTask id = some row)
    (hfree : db.lockedByOther tid id = false) :
    (db.lock tid id).Inv where
  locked {id' j} hid' := by
    by_cases heq : id' = id
    · exact ⟨row, by rw [heq]; exact hrow⟩
    · rw [locks_lock_ne _ _ heq] at hid'
      exact h.locked hid'
  owned {j ws w} hj hw := by
    have hlock := h.owned hj hw
    by_cases heq : w.taskId = id
    · rw [heq] at hlock ⊢
      rw [locks_lock_self, lock_of_free hfree hlock]
    · rw [locks_lock_ne _ _ heq]
      exact hlock
  take hj := h.take hj

theorem Takes.row {w : Write C} (h : w.Takes d) :
    ∃ row, d.selectTask w.taskId = some row := by
  cases w with
  | update u =>
    obtain ⟨row, hrow, _⟩ := updateTask_eq_one h
    exact ⟨row, hrow⟩
  | event e => exact (insertEvent_isSome_iff.mp h).2

theorem tx_push_self (db : PostgresDb C) (tid : ℕ) (w : Write C) :
    (db.push tid w).tx tid = some ((db.tx tid).getD [] ++ [w]) := Function.update_self ..

theorem tx_push_ne (db : PostgresDb C) (w : Write C) (h : j ≠ tid) :
    (db.push tid w).tx j = db.tx j := Function.update_of_ne h ..

theorem Inv.push (h : db.Inv) {w : Write C} (hfree : db.lockedByOther tid w.taskId = false)
    (htakes : w.Takes (db.seen tid)) : (db.push tid w).Inv := by
  obtain ⟨row, hrow⟩ := Takes.row htakes
  obtain ⟨row', hrow'⟩ := Inv.committed_of_seen hrow
  have hlock := h.lock hrow' hfree
  refine ⟨hlock.locked, fun {j ws w'} hj hw' => ?_, fun {j ws} hj => ?_⟩
  · by_cases hjt : j = tid
    · subst hjt
      rw [tx_push_self] at hj
      cases hj
      rcases List.mem_append.mp hw' with hw' | hw'
      · cases htx : db.tx j with
        | none => simp [htx] at hw'
        | some ws =>
          rw [htx] at hw'
          exact hlock.owned htx hw'
      · rw [List.mem_singleton.mp hw']
        exact locks_lock_self ..
    · rw [tx_push_ne _ _ hjt] at hj
      exact hlock.owned hj hw'
  · by_cases hjt : j = tid
    · subst hjt
      rw [tx_push_self] at hj
      cases hj
      refine Write.allTake_append ?_ htakes
      cases htx : db.tx j with
      | none => trivial
      | some ws => exact h.take htx
    · rw [tx_push_ne _ _ hjt] at hj
      exact h.take hj

theorem locks_release_iff :
    (db.release tid).locks id = some j ↔ db.locks id = some j ∧ j ≠ tid := by
  change (if db.locks id = some tid then none else db.locks id) = some j ↔ _
  by_cases h : db.locks id = some tid
  · rw [if_pos h, h]
    simp
    omega
  · rw [if_neg h]
    refine ⟨fun h' => ⟨h', ?_⟩, fun h' => h'.1⟩
    rintro rfl
    exact h h'

theorem tx_release_self (db : PostgresDb C) (tid : ℕ) : (db.release tid).tx tid = none :=
  Function.update_self ..

theorem tx_release_ne (db : PostgresDb C) (h : j ≠ tid) :
    (db.release tid).tx j = db.tx j := Function.update_of_ne h ..

theorem tx_release (h : db.Inv) (hj : (db.release tid).tx j = some ws) :
    db.tx j = some ws ∧ ∀ w ∈ ws, (db.release tid).locks w.taskId = db.locks w.taskId := by
  by_cases hjt : j = tid
  · subst hjt
    rw [tx_release_self] at hj
    cases hj
  · rw [tx_release_ne _ hjt] at hj
    refine ⟨hj, fun w hw => ?_⟩
    have hlock := h.owned hj hw
    rw [hlock]
    exact locks_release_iff.mpr ⟨hlock, hjt⟩

theorem Inv.agree_seen (h : db.Inv) (hj : j ≠ tid) :
    Tables.Agree (fun id => db.locks id = some j) db.committed (db.seen tid) := by
  refine agree_foldl (fun w hw hlock => ?_)
  cases htx : db.tx tid with
  | none => simp [htx] at hw
  | some ws =>
    rw [htx] at hw
    rw [h.owned htx hw] at hlock
    exact hj (Option.some.inj hlock).symm

theorem Inv.install (h : db.Inv) : (db.install tid).Inv := by
  refine h.of_agree (fun hid => (locks_release_iff.mp hid).1) (tx_release h) (fun j => ?_)
  by_cases hj : j = tid
  · subst hj
    refine ⟨fun id hid => ?_, fun e _ hid => ?_⟩
    · exact absurd rfl (locks_release_iff.mp hid).2
    · exact absurd rfl (locks_release_iff.mp hid).2
  · exact (h.agree_seen hj).mono (fun id hid => (locks_release_iff.mp hid).1)

theorem Inv.release (h : db.Inv) : (db.release tid).Inv :=
  h.of_agree (fun hid => (locks_release_iff.mp hid).1) (tx_release h) (fun _ => .refl _ _)

theorem Inv.agree_run (h : db.Inv) (hwaits : ¬ db.Waits picked s)
    (hrun : s.run db.committed picked = some (d, rep)) (j : ℕ) :
    Tables.Agree (fun id => db.locks id = some j) db.committed d := by
  cases s with
  | selectTask id | selectTaskByKey key | selectEvents id afterSeq limit =>
    cases hrun
    exact .refl _ _
  | insertTaskOrIgnore row =>
    rcases Statement.runInsertOrIgnore_cases hrun with ⟨rfl, _⟩ | ⟨hinsert, _⟩
    · exact .refl _ _
    · exact agree_insertTask hinsert (fun id hid => h.locked hid)
  | upsertLease row now =>
    obtain ⟨htasks, hevents, _⟩ := upsertLease_cases hrun
    exact agree_of_eq htasks hevents
  | updateLease row now =>
    have heq : (db.committed.updateLease row now).1 = d := congrArg Prod.fst (Option.some.inj hrun)
    obtain ⟨htasks, hevents, _⟩ := db.committed.updateLease_cases row now
    rw [heq] at htasks hevents
    exact agree_of_eq htasks hevents
  | deleteEvents cutoff limit =>
    have heq : db.committed.deleteEvents picked.events = d :=
      congrArg Prod.fst (Option.some.inj hrun)
    rw [← heq]
    exact agree_deleteEvents _
  | deleteTasks cutoff limit =>
    have heq : db.committed.deleteTasks picked.tasks = d :=
      congrArg Prod.fst (Option.some.inj hrun)
    rw [← heq]
    refine agree_deleteTasks (fun id hid hlock => hwaits ⟨id, hid, ?_⟩)
    rw [hlock]
    rfl

theorem Inv.exec (h : db.Inv) (hex : db.exec tid o c = some (db', r)) : db'.Inv := by
  cases exec_move hex with
  | idle => exact h
  | begun htx =>
    refine ⟨h.locked, fun {j ws w} hj hw => ?_, fun {j ws} hj => ?_⟩
    · by_cases hjt : j = tid
      · subst hjt
        change Function.update db.tx j _ j = _ at hj
        rw [Function.update_self] at hj
        cases hj
        cases hw
      · change Function.update db.tx tid _ j = _ at hj
        rw [Function.update_of_ne hjt] at hj
        exact h.owned hj hw
    · by_cases hjt : j = tid
      · subst hjt
        change Function.update db.tx j _ j = _ at hj
        rw [Function.update_self] at hj
        cases hj
        trivial
      · change Function.update db.tx tid _ j = _ at hj
        rw [Function.update_of_ne hjt] at hj
        exact h.take hj
  | locked hrow hfree =>
    obtain ⟨row', hrow'⟩ := Inv.committed_of_seen hrow
    exact h.lock hrow' hfree
  | pushed _ _ hfree htakes => exact h.push hfree htakes
  | installed => exact h.install
  | released => exact h.release
  | executed hwaits hrun =>
    exact h.of_agree (fun hid => hid) (fun hj => ⟨hj, fun _ _ => rfl⟩) (h.agree_run hwaits hrun)

theorem own_eq (htx : db'.tx j = db.tx j)
    (hlocks : ∀ id, db'.locks id = some j ↔ db.locks id = some j)
    (hagree : Tables.Agree (fun id => db.locks id = some j) db.committed db'.committed) :
    db'.own j = db.own j := by
  refine Prod.ext htx (funext fun id => ?_)
  change (if _ then _ else _) = if _ then _ else _
  by_cases hid : db.locks id = some j
  · rw [if_pos hid, if_pos ((hlocks id).mpr hid), hagree.row id hid]
  · rw [if_neg hid, if_neg (fun h => hid ((hlocks id).mp h))]

theorem own_exec_ne (h : db.Inv) (hex : db.exec tid o c = some (db', r)) (hj : j ≠ tid) :
    db'.own j = db.own j := by
  cases exec_move hex with
  | idle => rfl
  | begun _ => exact own_eq (Function.update_of_ne hj ..) (fun _ => Iff.rfl) (.refl _ _)
  | locked _ hfree => exact own_eq rfl (fun _ => locks_lock_iff hfree hj) (.refl _ _)
  | pushed _ _ hfree _ =>
    exact own_eq (tx_push_ne _ _ hj) (fun _ => locks_lock_iff hfree hj) (.refl _ _)
  | installed =>
    refine own_eq (tx_release_ne _ hj) (fun _ => ?_) (h.agree_seen hj)
    exact locks_release_iff.trans (and_iff_left hj)
  | released =>
    refine own_eq (tx_release_ne _ hj) (fun _ => ?_) (.refl _ _)
    exact locks_release_iff.trans (and_iff_left hj)
  | executed hwaits hrun => exact own_eq rfl (fun _ => Iff.rfl) (h.agree_run hwaits hrun j)

end PostgresDb

end AgentConnector
