import AgentConnector.SqliteSteps
import AgentConnector.PostgresSteps

/-!
# Calls on their own

What a call does when no other one runs at the same time: its operations one after the other. These
are the rules for the pieces that the methods of the SQL stores are made of.
-/

namespace AgentConnector

open Concurrent SqliteDb Option

namespace StoreMachine

variable (M : StoreMachine) (tid : ℕ) (c : M.Choice) {α β : Type}

theorem solo_op (db : M.Db) (o : M.sig.Op) (k : M.sig.Reply o → Prog M.sig α) :
    M.solo tid c db (.op o k) = (M.exec tid db o c).bind (fun p => M.solo tid c p.1 (k p.2)) := by
  rw [solo]
  cases M.exec tid db o c with
  | none => rfl
  | some p => rfl

theorem solo_perform (db : M.Db) (o : M.sig.Op) :
    M.solo tid c db (Prog.perform (σ := M.sig) o) = M.exec tid db o c := by
  refine (M.solo_op tid c db o _).trans ?_
  cases M.exec tid db o c with
  | none => rfl
  | some p => rfl

section

variable {M tid c} {db db' db₁ : M.Db} {y : ExceptT StoreError (Prog M.sig) α}
  {f : α → ExceptT StoreError (Prog M.sig) β}

theorem solo_try_ok (h : M.solo tid c db y.run = some (db₁, .ok a)) :
    M.solo tid c db (y >>= f).run = M.solo tid c db₁ (f a).run := by
  refine (M.solo_bind tid c db y.run _).trans ?_
  rw [h]
  rfl

theorem solo_try_error (h : M.solo tid c db y.run = some (db₁, .error e)) :
    M.solo tid c db (y >>= f).run = some (db₁, .error e) := by
  refine (M.solo_bind tid c db y.run _).trans ?_
  rw [h]
  rfl

theorem solo_try_cases (h : M.solo tid c db (y >>= f).run = some (db', r)) :
    (∃ e, M.solo tid c db y.run = some (db', .error e) ∧ r = .error e) ∨
      ∃ db₁ a, M.solo tid c db y.run = some (db₁, .ok a) ∧
        M.solo tid c db₁ (f a).run = some (db', r) := by
  have hbind := (M.solo_bind tid c db y.run _).symm.trans h
  obtain ⟨⟨db₁, r₁⟩, hy, hrest⟩ := bind_eq_some_iff.mp hbind
  cases r₁ with
  | error e =>
    cases hrest
    exact .inl ⟨e, hy, rfl⟩
  | ok a => exact .inr ⟨db₁, a, hy, hrest⟩

theorem solo_try_return {f : α → β}
    (h : M.solo tid c db (y >>= fun a => pure (f a)).run = some (db', r)) :
    ∃ r', M.solo tid c db y.run = some (db', r') ∧ r = r'.map f := by
  rcases solo_try_cases h with ⟨e, hy, rfl⟩ | ⟨db₁, a, hy, hret⟩
  · exact ⟨_, hy, rfl⟩
  · cases hret
    exact ⟨_, hy, rfl⟩

end

end StoreMachine

namespace SqliteTaskStore

variable {C : Columns} {tid : ℕ} {c : SqliteChoice C} {db db' : SqliteDb C} {α : Type}

def dropGuard (tid : ℕ) (db : SqliteDb C) : SqliteDb C :=
  if db.guard = some tid then { db with guard := none } else db

theorem committed_dropGuard (tid : ℕ) (db : SqliteDb C) :
    (dropGuard tid db).committed = db.committed := by
  unfold dropGuard
  split
  · rfl
  · rfl

theorem settled_dropGuard (hguard : db.guard = some tid) (hwriter : db.writer = none)
    (htx : ∀ j, db.tx j = none) : (sqliteMachine C).Settled (dropGuard tid db) := by
  unfold dropGuard
  rw [if_pos hguard]
  exact ⟨rfl, hwriter, htx⟩

theorem solo_guarded {body : SqliteM C α} (h : db.guard = none) :
    (sqliteMachine C).solo tid c db (guarded body) =
      ((sqliteMachine C).solo tid c { db with guard := some tid } body.run).map (fun p =>
        (dropGuard tid p.1, p.2)) := by
  change (sqliteMachine C).solo tid c db (.op .lock (fun _ => body.run.bind release)) = _
  rw [StoreMachine.solo_op]
  change (if db.guard = none then _ else none).bind _ = _
  rw [if_pos h, bind_some, StoreMachine.solo_bind]
  cases (sqliteMachine C).solo tid c { db with guard := some tid } body.run with
  | none => rfl
  | some p => rfl

theorem solo_utcNow :
    (sqliteMachine C).solo tid c db (utcNow (C := C)).run = some (db, .ok c.now) :=
  rfl

theorem solo_addStd
    (h : (sqliteMachine C).solo tid c db (addStd now d : SqliteM C DateTime).run = some (db', r)) :
    db' = db ∧ ((∃ e, r = .error e) ∨ r = .ok (now + d)) := by
  unfold addStd at h
  cases hd : durationFromStd d with
  | none =>
    rw [hd] at h
    cases h
    exact ⟨rfl, .inl ⟨_, rfl⟩⟩
  | some d' =>
    rw [hd] at h
    cases hadd : chronoAdd now d' with
    | none =>
      simp only [hadd] at h
      cases h
    | some t =>
      simp only [hadd] at h
      cases h
      rw [chronoAdd_eq_some hadd, durationFromStd_eq_some hd]
      exact ⟨rfl, .inr rfl⟩

theorem solo_execute (hs : s.writes = true)
    (h : (sqliteMachine C).solo tid c db (execute s).run = some (db', r)) :
    (db' = { db with committed := db'.committed, version := db'.version }) ∧
      ((db'.committed = db.committed ∧ ∃ e, r = .error e) ∨
        ∃ rep, s.run db.committed c.picked = some (db'.committed, rep) ∧ r = .ok rep) := by
  change (sqliteMachine C).solo tid c db (.op (.execute s) .pure) = _ at h
  rw [StoreMachine.solo_op] at h
  obtain ⟨⟨db₁, r₁⟩, hex, heq⟩ := bind_eq_some_iff.mp h
  cases heq
  obtain ⟨hdb, ⟨hsame, herror⟩ | ⟨-, hrun⟩⟩ := execute_cases tid hex
  · exact ⟨hdb, .inl ⟨hsame, herror hs⟩⟩
  · exact ⟨hdb, .inr hrun⟩

/-- A transaction of `tid` that has begun in the state `db`, and the tables it has written. -/
structure Within (db : SqliteDb C) (tid : ℕ) (work : Option (Tables C)) (s : SqliteDb C) :
    Prop where
  committed : s.committed = db.committed
  version : s.version = db.version
  guard : s.guard = some tid
  others : ∀ j, j ≠ tid → s.tx j = none
  tx : match work with
    | none => s.snapshotTx tid = some (.reading db.committed db.version) ∧ s.writer = none
    | some d => s.tx tid = some (.writing db.committed d) ∧ s.writer = some tid

section

variable (now : DateTime) {work : Option (Tables C)} {s : SqliteDb C}

theorem within_setTx (h : Within db tid work s) (x : Option (SqliteTx C)) (hj : j ≠ tid) :
    (s.setTx tid x).tx j = none := by
  rw [tx_setTx_ne _ _ hj]
  exact h.others j hj

variable {q : Query C}

theorem solo_query : (sqliteMachine C).solo tid { now := now } s (query q).run =
    s.runQuery tid q "" :=
  (sqliteMachine C).solo_perform tid { now := now } s (.query q)

theorem solo_read (h : Within db tid work s) (hq : q.writes = false) :
    ∃ s', (sqliteMachine C).solo tid { now := now } s (query q).run =
      some (s', (q.attempt (work.getD db.committed) "").2) ∧ Within db tid work s' := by
  rw [solo_query now]
  unfold runQuery
  cases work with
  | none =>
    rw [h.tx.1]
    simp only [hq]
    refine ⟨_, rfl, ⟨h.committed, h.version, h.guard, fun j hj => within_setTx h _ hj, ?_, h.tx.2⟩⟩
    rw [snapshotTx, tx_setTx_self]
  | some d =>
    obtain ⟨htx, hwriter⟩ := h.tx
    rw [snapshotTx, htx]
    refine ⟨_, rfl, ⟨h.committed, h.version, h.guard, fun j hj => within_setTx h _ hj, ?_, hwriter⟩⟩
    rw [tx_setTx_self]
    obtain ⟨rep, hrun⟩ := Query.run_of_read d hq
    simp only [Query.attempt, hrun]

theorem solo_write (h : Within db tid work s) (hq : q.writes = true) :
    ∃ s', (sqliteMachine C).solo tid { now := now } s (query q).run =
      some (s', (q.attempt (work.getD db.committed) "").2) ∧
      Within db tid (some (q.attempt (work.getD db.committed) "").1) s' := by
  rw [solo_query now]
  unfold runQuery
  cases work with
  | none =>
    rw [h.tx.1]
    simp only [hq, if_true]
    rw [if_pos ⟨h.tx.2, h.version.symm⟩]
    exact ⟨_, rfl, ⟨h.committed, h.version, h.guard, fun j hj => within_setTx h _ hj,
      tx_setTx_self .., rfl⟩⟩
  | some d =>
    obtain ⟨htx, hwriter⟩ := h.tx
    rw [snapshotTx, htx]
    exact ⟨_, rfl, ⟨h.committed, h.version, h.guard, fun j hj => within_setTx h _ hj,
      tx_setTx_self .., hwriter⟩⟩

/-- The end of a transaction. -/
structure Ended (tid : ℕ) (d : Tables C) (s : SqliteDb C) : Prop where
  committed : s.committed = d
  guard : s.guard = some tid
  writer : s.writer = none
  tx : ∀ j, s.tx j = none

theorem solo_commit (h : Within db tid work s) :
    ∃ s', (sqliteMachine C).solo tid { now := now } s (commit (C := C)).run = some (s', .ok ()) ∧
      Ended tid (work.getD db.committed) s' := by
  refine ⟨s.close tid, (sqliteMachine C).solo_perform tid { now := now } s .commit, ?_⟩
  have htx : ∀ j, (s.setTx tid none).tx j = none := by
    intro j
    by_cases hj : j = tid
    · rw [hj, tx_setTx_self]
    · exact within_setTx h none hj
  cases work with
  | none =>
    have hclose : s.close tid = s.setTx tid none := by
      unfold close
      split
      · rename_i hwriting
        have hreading := h.tx.1
        rw [snapshotTx, hwriting] at hreading
        cases hreading
      · rfl
    rw [hclose]
    exact ⟨h.committed, h.guard, h.tx.2, htx⟩
  | some d =>
    unfold close
    rw [h.tx.1]
    exact ⟨rfl, h.guard, rfl, htx⟩

theorem solo_rollback (h : Within db tid work s) :
    ∃ s', (sqliteMachine C).solo tid { now := now } s (perform (C := C) .rollback) = some (s', ()) ∧
      Ended tid db.committed s' := by
  refine ⟨s.abort tid, (sqliteMachine C).solo_perform tid { now := now } s .rollback, ?_⟩
  refine ⟨h.committed, h.guard, ?_, fun j => ?_⟩
  · change (if s.writer = some tid then none else s.writer) = none
    cases work with
    | none =>
      rw [h.tx.2]
      rfl
    | some d =>
      rw [h.tx.2]
      exact if_pos rfl
  · by_cases hj : j = tid
    · rw [hj]
      exact tx_setTx_self s tid none
    · exact within_setTx h none hj

/-- From any state in which the transaction has written `work`, the rest of its body returns `r`:
either it has committed the tables `d`, or it fails and is still to be rolled back. -/
def Finishes (now : DateTime) (db : SqliteDb C) (tid : ℕ) (work : Option (Tables C))
    (body : SqliteM C α) (r : Except StoreError α) (d : Tables C) : Prop :=
  ∀ s, Within db tid work s → ∃ s',
    (sqliteMachine C).solo tid { now := now } s body.run = some (s', r) ∧
      match r with
      | .ok _ => Ended tid d s'
      | .error _ => ∃ work, Within db tid work s' ∧ d = db.committed

section

variable {now} {β : Type} {r : Except StoreError β}

theorem finishes_read {f : q.Reply → SqliteM C β} (hq : q.writes = false)
    (ha : (q.attempt (work.getD db.committed) "").2 = .ok a)
    (h : Finishes now db tid work (f a) r d) : Finishes now db tid work (query q >>= f) r d := by
  intro s hs
  obtain ⟨s', hread, hs'⟩ := solo_read now hs hq
  rw [StoreMachine.solo_try_ok (hread.trans (by rw [ha]))]
  exact h s' hs'

theorem finishes_write {f : q.Reply → SqliteM C β} (hq : q.writes = true)
    (ha : q.attempt (work.getD db.committed) "" = (d', .ok a))
    (h : Finishes now db tid (some d') (f a) r d) :
    Finishes now db tid work (query q >>= f) r d := by
  intro s hs
  obtain ⟨s', hwrite, hs'⟩ := solo_write now hs hq
  rw [ha] at hwrite hs'
  rw [StoreMachine.solo_try_ok hwrite]
  exact h s' hs'

theorem finishes_utcNow {f : DateTime → SqliteM C β} (h : Finishes now db tid work (f now) r d) :
    Finishes now db tid work (utcNow >>= f) r d := by
  intro s hs
  rw [StoreMachine.solo_try_ok solo_utcNow]
  exact h s hs

theorem finishes_ofExcept {f : α → SqliteM C β} (hx : x = .ok a)
    (h : Finishes now db tid work (f a) r d) :
    Finishes now db tid work (ofExcept x >>= f) r d := by
  subst hx
  exact h

theorem finishes_commit :
    Finishes now db tid work (commit >>= fun _ => pure a) (.ok a) (work.getD db.committed) := by
  intro s hs
  obtain ⟨s', hcommit, hs'⟩ := solo_commit now hs
  exact ⟨s', StoreMachine.solo_try_ok hcommit, hs'⟩

end

/-- The call, made alone, returns `r`, ends, and leaves the tables `d`. -/
def Answers (now : DateTime) (tid : ℕ) (db : SqliteDb C) (call : Prog (sqliteSig C) α) (r : α)
    (d : Tables C) : Prop :=
  ∃ db', (sqliteMachine C).solo tid { now := now } db call = some (db', r) ∧
    (sqliteMachine C).Settled db' ∧ db'.committed = d

theorem answers_transaction {r : Except StoreError α} (hdb : (sqliteMachine C).Settled db)
    (hbody : Finishes now db tid none body r d) :
    Answers now tid db (guarded (inTransaction body)) r d := by
  obtain ⟨hguard, hwriter, htx⟩ := hdb
  let s₀ : SqliteDb C := { db with guard := some tid }
  have hbegin : s₀.exec tid .begin { now := now } =
      some (s₀.setTx tid (some .deferred), .ok ()) := by
    simp only [exec]
    rw [show s₀.tx tid = none from htx tid]
  have hwithin : Within db tid none (s₀.setTx tid (some .deferred)) := by
    refine ⟨rfl, rfl, rfl, fun j hj => ?_, ?_, hwriter⟩
    · rw [tx_setTx_ne _ _ hj]
      exact htx j
    · rw [snapshotTx, tx_setTx_self]
      rfl
  obtain ⟨s', hrun, hend⟩ := hbody _ hwithin
  have htransaction : (sqliteMachine C).solo tid { now := now } s₀ (inTransaction body).run =
      (sqliteMachine C).solo tid { now := now } s' (endTransaction r) := by
    change (sqliteMachine C).solo tid { now := now } s₀ (.op .begin _) = _
    rw [StoreMachine.solo_op,
      show (sqliteMachine C).exec tid s₀ .begin { now := now } = _ from hbegin, bind_some]
    change (sqliteMachine C).solo tid { now := now } _ (body.run.bind endTransaction) = _
    rw [StoreMachine.solo_bind, hrun, bind_some]
  rw [Answers, solo_guarded hguard,
    show ({ db with guard := some tid } : SqliteDb C) = s₀ from rfl, htransaction]
  cases r with
  | ok a =>
    exact ⟨_, rfl, settled_dropGuard hend.guard hend.writer hend.tx,
      (committed_dropGuard tid s').trans hend.committed⟩
  | error e =>
    obtain ⟨work, hw, rfl⟩ := hend
    obtain ⟨s'', hroll, hended⟩ := solo_rollback now hw
    have heq : (sqliteMachine C).solo tid { now := now } s' (endTransaction (.error e)) =
        some (s'', (.error e : Except StoreError α)) := by
      change (sqliteMachine C).solo tid { now := now } s' ((perform .rollback).bind
          (fun _ => .pure (.error e : Except StoreError α))) = _
      rw [StoreMachine.solo_bind, hroll]
      rfl
    rw [heq]
    exact ⟨_, rfl, settled_dropGuard hended.guard hended.writer hended.tx,
      (committed_dropGuard tid s'').trans hended.committed⟩

end

end SqliteTaskStore

namespace PostgresTaskStore

variable {J : JsonColumn} {tid : ℕ} {c : PostgresChoice (Postgres.columns J)}
  {db db' : PostgresDb (Postgres.columns J)}

theorem solo_serverNow :
    (postgresMachine J).solo tid c db (serverNow (C := Postgres.columns J)).run =
      some (db, .ok (Postgres.toMicros c.now)) :=
  rfl

theorem solo_execute (h : (postgresMachine J).solo tid c db (execute s).run = some (db', r)) :
    (db' = db ∧ ∃ e, r = .error e) ∨ ∃ d rep, s.run db.committed c.picked = some (d, rep) ∧
      db' = { db with committed := d } ∧ (r = .ok rep ∨ ∃ e, r = .error e) := by
  change (postgresMachine J).solo tid c db (.op (.execute s) .pure) = _ at h
  rw [StoreMachine.solo_op] at h
  obtain ⟨⟨db₁, r₁⟩, hex, heq⟩ := bind_eq_some_iff.mp h
  cases heq
  have hex' : PostgresDb.exec db tid (.execute s) c = some (db₁, r₁) := hex
  rcases PostgresDb.execute_cases tid hex' with hfail | ⟨d, rep, _, _, hrun, hdb, hr⟩
  · exact .inl hfail
  · exact .inr ⟨d, rep, hrun, hdb, hr⟩

end PostgresTaskStore

end AgentConnector
