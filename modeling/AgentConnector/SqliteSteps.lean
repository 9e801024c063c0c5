import AgentConnector.SqliteTaskStore
import AgentConnector.SqlEffects

/-!
# The steps of the SQLite store

The open transaction of a call is the part of the state that no other call touches. A transaction
that writes holds the write lock and started from what is committed now, so its commit replaces
exactly the tables it has read; every other step of a method leaves the committed tables alone.
-/

namespace AgentConnector

open Concurrent Keyed

variable {C : Columns}

namespace SqliteDb

structure Inv (db : SqliteDb C) : Prop where
  reading : ∀ {tid base v}, db.tx tid = some (.reading base v) →
    v ≤ db.version ∧ (v = db.version → base = db.committed)
  writing : ∀ {tid base work}, db.tx tid = some (.writing base work) →
    db.writer = some tid ∧ base = db.committed ∧ base.KeysKept work

inductive Sees : Option (SqliteTx C) → Tables C → Tables C → Prop where
  | reading (base : Tables C) (v : ℕ) : Sees (some (.reading base v)) base base
  | writing (base work : Tables C) : Sees (some (.writing base work)) base work

variable {db db' : SqliteDb C} {tid : ℕ} {c : SqliteChoice C}

theorem tx_setTx_self (db : SqliteDb C) (tid : ℕ) (x : Option (SqliteTx C)) :
    (db.setTx tid x).tx tid = x := Function.update_self ..

variable {j : ℕ}

theorem tx_setTx_ne (db : SqliteDb C) (x : Option (SqliteTx C)) (h : j ≠ tid) :
    (db.setTx tid x).tx j = db.tx j := Function.update_of_ne h ..

theorem Inv.setTx (h : db.Inv)
    (hr : ∀ base v, x = some (.reading base v) → v ≤ db.version ∧
      (v = db.version → base = db.committed))
    (hw : ∀ base work, x = some (.writing base work) → db.writer = some tid ∧ base = db.committed ∧
      base.KeysKept work) :
    (db.setTx tid x).Inv where
  reading {j base v} hj := by
    by_cases hjt : j = tid
    · subst hjt
      rw [tx_setTx_self] at hj
      exact hr base v hj
    · rw [tx_setTx_ne _ _ hjt] at hj
      exact h.reading hj
  writing {j base work} hj := by
    by_cases hjt : j = tid
    · subst hjt
      rw [tx_setTx_self] at hj
      exact hw base work hj
    · rw [tx_setTx_ne _ _ hjt] at hj
      exact h.writing hj

theorem Inv.setTx_none (h : db.Inv) (tid : ℕ) : (db.setTx tid none).Inv :=
  h.setTx (fun _ _ hx => by cases hx) (fun _ _ hx => by cases hx)

theorem Inv.install (h : db.Inv) (hw : ∀ j base work, db.tx j ≠ some (.writing base work))
    (d : Tables C) : Inv { db with committed := d, version := db.version + 1, writer := none } where
  reading {j base v} hj := by
    have hle := (h.reading hj).1
    exact ⟨Nat.le_succ_of_le hle, fun heq => by dsimp only at heq; omega⟩
  writing {j base work} hj := absurd hj (hw j base work)

theorem Inv.close (h : db.Inv) : (db.close tid).Inv := by
  unfold SqliteDb.close
  split
  · rename_i base work htx
    refine (h.setTx_none tid).install (fun j base' work' hj => ?_) work
    by_cases hjt : j = tid
    · subst hjt
      rw [tx_setTx_self] at hj
      cases hj
    · rw [tx_setTx_ne _ _ hjt] at hj
      have hself := (h.writing htx).1
      rw [(h.writing hj).1] at hself
      exact hjt (Option.some.inj hself)
  · exact h.setTx_none tid

theorem Inv.abort (h : db.Inv) : (db.abort tid).Inv where
  reading {j base v} hj := (h.setTx_none tid).reading hj
  writing {j base work} hj := by
    obtain ⟨hwriter, hrest⟩ := (h.setTx_none tid).writing hj
    have hjt : j ≠ tid := by
      rintro rfl
      change (db.setTx j none).tx j = _ at hj
      rw [tx_setTx_self] at hj
      cases hj
    refine ⟨?_, hrest⟩
    change (if db.writer = some tid then none else db.writer) = some j
    rw [if_neg]
    · exact hwriter
    · intro hself
      change db.writer = some j at hwriter
      rw [hwriter] at hself
      exact hjt (Option.some.inj hself)

variable {s : Statement C}

theorem Inv.runStatement (h : db.Inv) (hex : db.runStatement s c = some (db', r)) : db'.Inv := by
  unfold SqliteDb.runStatement at hex
  split at hex
  · split at hex
    · rename_i hwriter
      split at hex
      · cases hex
        have hinv := h.install (fun j base work hj => by
          have := (h.writing hj).1
          rw [hwriter] at this
          cases this) (s.attempt db.committed c.picked c.message).1
        exact ⟨hinv.reading, fun hj => by rw [hwriter]; exact hinv.writing hj⟩
      · cases hex
    · cases hex
      exact h
  · cases hex
    exact h

theorem Inv.snapshotTx (h : db.Inv) (hx : db.snapshotTx tid = some (.reading base v)) :
    v ≤ db.version ∧ (v = db.version → base = db.committed) := by
  unfold SqliteDb.snapshotTx at hx
  split at hx
  · cases hx
    exact ⟨le_rfl, fun _ => rfl⟩
  · exact h.reading hx

theorem snapshotTx_writing (hx : db.snapshotTx tid = some (.writing base work)) :
    db.tx tid = some (.writing base work) := by
  unfold SqliteDb.snapshotTx at hx
  split at hx
  · cases hx
  · exact hx

variable {q : Query C} {m : String}

variable {r : Except StoreError q.Reply}

theorem Inv.runQuery (h : db.Inv) (hex : db.runQuery tid q m = some (db', r)) : db'.Inv := by
  unfold SqliteDb.runQuery at hex
  split at hex
  · rename_i base v hx
    have hread := h.snapshotTx hx
    have hkeep : (db.setTx tid (some (.reading base v))).Inv :=
      h.setTx (fun base' v' heq => by cases heq; exact hread) (fun _ _ heq => by cases heq)
    split at hex
    · split at hex
      · rename_i hfree
        cases hex
        refine ⟨fun {j b w} hj => ?_, fun {j b w} hj => ?_⟩
        · by_cases hjt : j = tid
          · subst hjt
            rw [tx_setTx_self] at hj
            cases hj
          · change (db.setTx tid _).tx j = _ at hj
            rw [tx_setTx_ne _ _ hjt] at hj
            exact h.reading hj
        · by_cases hjt : j = tid
          · subst hjt
            rw [tx_setTx_self] at hj
            cases hj
            exact ⟨rfl, hread.2 hfree.2, Query.keysKept_attempt base q m⟩
          · change (db.setTx tid _).tx j = _ at hj
            rw [tx_setTx_ne _ _ hjt] at hj
            have hwriter := (h.writing hj).1
            rw [hfree.1] at hwriter
            cases hwriter
      · cases hex
        exact hkeep
    · cases hex
      exact hkeep
  · rename_i base work hx
    cases hex
    obtain ⟨hwriter, hbase, hkept⟩ := h.writing (snapshotTx_writing hx)
    refine h.setTx (fun _ _ heq => by cases heq) (fun base' work' heq => ?_)
    cases heq
    exact ⟨hwriter, hbase, hkept.trans (Query.keysKept_attempt work q m)⟩
  · cases hex

theorem tx_close_ne (h : j ≠ tid) : (db.close tid).tx j = db.tx j := by
  unfold SqliteDb.close
  split <;> exact tx_setTx_ne _ _ h

theorem tx_runQuery_ne (hex : db.runQuery tid q m = some (db', r)) (h : j ≠ tid) :
    db'.tx j = db.tx j := by
  unfold SqliteDb.runQuery at hex
  split at hex
  · split at hex
    · split at hex
      · cases hex
        exact tx_setTx_ne _ _ h
      · cases hex
        exact tx_setTx_ne _ _ h
    · cases hex
      exact tx_setTx_ne _ _ h
  · cases hex
    exact tx_setTx_ne _ _ h
  · cases hex

theorem tx_runStatement {r : Except StoreError s.Reply}
    (hex : db.runStatement s c = some (db', r)) : db'.tx = db.tx := by
  unfold SqliteDb.runStatement at hex
  split at hex
  · split at hex
    · split at hex
      · cases hex
        rfl
      · cases hex
    · cases hex
      rfl
  · cases hex
    rfl

inductive Move (db : SqliteDb C) (tid : ℕ) (c : SqliteChoice C) : SqliteOp C →
  SqliteDb C → Prop where
  | idle {o : SqliteOp C} {db' : SqliteDb C} : db'.committed = db.committed →
      db'.version = db.version → db'.writer = db.writer → db'.tx = db.tx → Move db tid c o db'
  | begun : Move db tid c .begin (db.setTx tid (some .deferred))
  | queried {q : Query C} {db' : SqliteDb C} {r : Except StoreError q.Reply} :
      db.runQuery tid q c.message = some (db', r) → Move db tid c (.query q) db'
  | closed : Move db tid c .commit (db.close tid)
  | aborted : Move db tid c .rollback (db.abort tid)
  | executed {s : Statement C} {db' : SqliteDb C} {r : Except StoreError s.Reply} :
      db.runStatement s c = some (db', r) → Move db tid c (.execute s) db'

variable {o : SqliteOp C}

theorem exec_move {r : o.Reply} (hex : db.exec tid o c = some (db', r)) : Move db tid c o db' := by
  cases o with
  | lock =>
    simp only [SqliteDb.exec] at hex
    split at hex
    · cases hex
      exact .idle rfl rfl rfl rfl
    · cases hex
  | unlock =>
    simp only [SqliteDb.exec] at hex
    split at hex <;> cases hex <;> exact .idle rfl rfl rfl rfl
  | utcNow =>
    cases hex
    exact .idle rfl rfl rfl rfl
  | panicked => cases hex
  | begin =>
    simp only [SqliteDb.exec] at hex
    split at hex
    · cases hex
      exact .idle rfl rfl rfl rfl
    · split at hex
      · cases hex
        exact .begun
      · cases hex
  | query q =>
    simp only [SqliteDb.exec] at hex
    split at hex
    · cases hex
      exact .idle rfl rfl rfl rfl
    · exact .queried hex
  | commit =>
    simp only [SqliteDb.exec] at hex
    split at hex
    · split at hex
      · cases hex
        exact .closed
      · cases hex
        exact .idle rfl rfl rfl rfl
    · cases hex
      exact .closed
  | rollback =>
    cases hex
    exact .aborted
  | execute s =>
    simp only [SqliteDb.exec] at hex
    split at hex
    · cases hex
      exact .idle rfl rfl rfl rfl
    · exact .executed hex

theorem Inv.exec {r : o.Reply} (h : db.Inv) (hex : db.exec tid o c = some (db', r)) : db'.Inv := by
  cases exec_move hex with
  | idle hcommitted hversion hwriter htx =>
    refine ⟨fun {j base v} hj => ?_, fun {j base work} hj => ?_⟩
    · rw [htx] at hj
      rw [hversion, hcommitted]
      exact h.reading hj
    · rw [htx] at hj
      rw [hwriter, hcommitted]
      exact h.writing hj
  | begun => exact h.setTx (fun _ _ heq => by cases heq) (fun _ _ heq => by cases heq)
  | queried hq => exact h.runQuery hq
  | closed => exact h.close
  | aborted => exact h.abort
  | executed hs => exact h.runStatement hs

theorem tx_exec_ne {r : o.Reply} (hex : db.exec tid o c = some (db', r)) (h : j ≠ tid) :
    db'.tx j = db.tx j := by
  cases exec_move hex with
  | idle _ _ _ htx => rw [htx]
  | begun | aborted => exact tx_setTx_ne _ _ h
  | queried hq => exact tx_runQuery_ne hq h
  | closed => exact tx_close_ne h
  | executed hs => rw [tx_runStatement hs]

theorem committed_runQuery (hex : db.runQuery tid q m = some (db', r)) :
    db'.committed = db.committed := by
  unfold SqliteDb.runQuery at hex
  split at hex
  · split at hex
    · split at hex <;> cases hex <;> rfl
    · cases hex
      rfl
  · cases hex
    rfl
  · cases hex

def quiet : SqliteOp C → Bool
  | .commit => false
  | .execute s => !s.writes
  | _ => true

theorem committed_of_quiet {r : o.Reply} (ho : quiet o = true)
    (hex : db.exec tid o c = some (db', r)) : db'.committed = db.committed := by
  cases exec_move hex with
  | idle hcommitted _ _ _ => exact hcommitted
  | begun => rfl
  | queried hq => exact committed_runQuery hq
  | closed => cases ho
  | aborted => rfl
  | executed hs =>
    unfold SqliteDb.runStatement at hs
    simp only [quiet, Bool.not_eq_true'] at ho
    rw [if_neg (by simp [ho])] at hs
    cases hs
    rfl

theorem execute_cases (tid : ℕ) {r : Except StoreError s.Reply}
    (hex : db.exec tid (.execute s) c = some (db', r)) :
    db' = { db with committed := db'.committed, version := db'.version } ∧
      ((db'.committed = db.committed ∧ (s.writes = true → ∃ e, r = .error e)) ∨
        s.Admits db.committed c.picked ∧
          ∃ rep, s.run db.committed c.picked = some (db'.committed, rep) ∧ r = .ok rep) := by
  simp only [SqliteDb.exec] at hex
  split at hex
  · cases hex
    exact ⟨rfl, .inl ⟨rfl, fun _ => ⟨_, rfl⟩⟩⟩
  · unfold SqliteDb.runStatement at hex
    split at hex
    · split at hex
      · split at hex
        · rename_i hadmits
          cases hex
          refine ⟨rfl, ?_⟩
          rcases s.attempt_cases db.committed c.picked c.message with ⟨d', rep, hrun, heq⟩ | heq
          · rw [heq]
            exact .inr ⟨hadmits, rep, hrun, rfl⟩
          · rw [heq]
            exact .inl ⟨rfl, fun _ => ⟨_, rfl⟩⟩
        · cases hex
      · cases hex
        exact ⟨rfl, .inl ⟨rfl, fun _ => ⟨_, rfl⟩⟩⟩
    · rename_i hreads
      cases hex
      exact ⟨rfl, .inl ⟨rfl, fun hwrites => absurd hwrites hreads⟩⟩

theorem runQuery_cases (hex : db.runQuery tid q m = some (db', r)) :
    ∃ base d, Sees (db.snapshotTx tid) base d ∧
      ((q.writes = false ∧ db'.tx tid = db.snapshotTx tid ∧
        ∃ rep, q.run d = some (d, rep) ∧ r = .ok rep) ∨
      (q.writes = true ∧ ((∃ e, r = .error e) ∨
        ∃ d' rep, q.run d = some (d', rep) ∧ r = .ok rep ∧
          db'.tx tid = some (.writing base d')))) := by
  unfold SqliteDb.runQuery at hex
  split at hex
  · rename_i base v hx
    rw [hx]
    refine ⟨base, base, .reading base v, ?_⟩
    by_cases hq : q.writes = true
    · rw [if_pos hq] at hex
      refine .inr ⟨hq, ?_⟩
      split at hex
      · cases hex
        rcases q.attempt_cases base m with ⟨d', rep, hrun, heq⟩ | heq
        · rw [heq]
          exact .inr ⟨d', rep, hrun, rfl, tx_setTx_self ..⟩
        · rw [heq]
          exact .inl ⟨_, rfl⟩
      · cases hex
        exact .inl ⟨_, rfl⟩
    · rw [if_neg hq] at hex
      rw [Bool.not_eq_true] at hq
      cases hex
      obtain ⟨rep, hrun⟩ := q.run_of_read base hq
      exact .inl ⟨hq, tx_setTx_self .., rep, hrun, by simp [Query.attempt, hrun]⟩
  · rename_i base work hx
    rw [hx]
    refine ⟨base, work, .writing base work, ?_⟩
    cases hex
    by_cases hq : q.writes = true
    · refine .inr ⟨hq, ?_⟩
      rcases q.attempt_cases work m with ⟨d', rep, hrun, heq⟩ | heq
      · rw [heq]
        exact .inr ⟨d', rep, hrun, rfl, tx_setTx_self ..⟩
      · rw [heq]
        exact .inl ⟨_, rfl⟩
    · rw [Bool.not_eq_true] at hq
      obtain ⟨rep, hrun⟩ := q.run_of_read work hq
      refine .inl ⟨hq, ?_, rep, hrun, by simp [Query.attempt, hrun]⟩
      rw [tx_setTx_self]
      simp [Query.attempt, hrun]
  · cases hex

theorem Sees.snapshotTx (h : Sees (db.tx tid) base d) :
    db.snapshotTx tid = db.tx tid := by
  unfold SqliteDb.snapshotTx
  generalize db.tx tid = x at h
  cases h <;> rfl

theorem Sees.eq (h : Sees x base d) (h' : Sees x base' d') : base' = base ∧ d' = d := by
  cases h <;> cases h' <;> exact ⟨rfl, rfl⟩

end SqliteDb

end AgentConnector
