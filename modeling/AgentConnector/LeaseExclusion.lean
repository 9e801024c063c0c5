import AgentConnector.RetentionSafety
import AgentConnector.SoloCalls

/-!
# Leases exclude each other

A lease that was taken for a duration keeps other owners away until the duration has passed, as long
as its owner makes no other call. In Postgres the duration is cut to whole seconds, and the texts
SQLite compares are ordered like times in the years 0 to 9999 only.
-/

namespace AgentConnector

open Concurrent Keyed Postgres StoreMachine List Option

def StoreCall.lease? : StoreCall → Option Lease
  | .acquireLease l => some l
  | .renewLease l => some l
  | _ => none

/-- How lease rows are read: their owner, the time and the duration they were written for, and
whether a call at a time takes them for expired. -/
structure LeaseTerms (R : Type) where
  owner : R → String
  Written : R → DateTime → ℕ → Prop
  Expired : R → DateTime → Prop

namespace DurableMachine

/-- Calls one after the other, each with what the environment chooses for it. -/
def callsUnder (M : DurableMachine) :
    M.Db → List (M.Choice × StoreCall) → Option (M.Db × List StoreResult)
  | db, [] => some (db, [])
  | db, (c, call) :: cs => match M.solo 0 c db (M.program call) with
    | none => none
    | some (db', r) => (callsUnder M db' cs).map (fun p => (p.1, r :: p.2))

/-- A lease call at the time `now` leaves all leases alone and is not granted, or it writes its
lease, which was free, expired or its own. -/
def LeaseEffect (M : DurableMachine) (T : LeaseTerms M.view.LeaseRow) (l : Lease) (now : DateTime)
    (db db' : M.Db) (r : StoreResult) : Prop :=
  ((∀ id, M.view.lease db' id = M.view.lease db id) ∧ r ≠ .leased (.ok true)) ∨
  ((∀ id, id ≠ l.taskId → M.view.lease db' id = M.view.lease db id) ∧
    (∃ row, M.view.lease db' l.taskId = some row ∧ T.owner row = l.ownerId ∧
      T.Written row now l.expiresIn) ∧
    ∀ row, M.view.lease db l.taskId = some row → T.owner row = l.ownerId ∨ T.Expired row now)

variable {M : DurableMachine} {db db' : M.Db}

variable {call : StoreCall} {cs : List (M.Choice × StoreCall)} {rs : List StoreResult}

theorem callsUnder_cons (h : M.callsUnder db ((c, call) :: cs) = some (db', rs)) :
    ∃ db₁ r rs', M.solo 0 c db (M.program call) = some (db₁, r) ∧
      M.callsUnder db₁ cs = some (db', rs') ∧ rs = r :: rs' := by
  unfold callsUnder at h
  split at h
  · cases h
  · rename_i db₁ r hcall
    obtain ⟨p, hp, heq⟩ := map_eq_some_iff.mp h
    cases heq
    exact ⟨db₁, r, p.2, hcall, hp, rfl⟩

section

variable {T : LeaseTerms M.view.LeaseRow} {now : M.Choice → DateTime} {Good : DateTime → ℕ → Prop}
  (hcall : ∀ {db db' : M.Db} {c call l r}, M.Settled db → StoreCall.lease? call = some l →
    M.solo 0 c db (M.program call) = some (db', r) →
    M.Settled db' ∧ M.LeaseEffect T l (now c) db db' r)
  (hexpired : ∀ {row t d u}, T.Written row t d → T.Expired row u → Good t d → t ≤ u → t + d ≤ u)

include hcall hexpired

variable {l : Lease}

theorem not_granted_of_held {id : TaskId} (hgood : Good t d) (hdb : M.Settled db)
    (hrow : M.view.lease db id = some row) (howner : T.owner row = owner)
    (hwritten : T.Written row t d) (hrun : M.callsUnder db cs = some (db', rs))
    (hleases : ∀ x ∈ cs, (x.2.lease?).isSome = true)
    (hclock : cs.Pairwise (fun a b => now a.1 ≤ now b.1)) (hafter : ∀ x ∈ cs, t ≤ now x.1)
    (hothers : ∀ x ∈ cs, ∀ l, x.2.lease? = some l → l.taskId = id → l.ownerId ≠ owner) {j : ℕ}
    (hx : cs[j]? = some x) (hl : x.2.lease? = some l) (hid : l.taskId = id)
    (htime : now x.1 < t + d) : rs[j]? ≠ some (.leased (.ok true)) := by
  induction cs generalizing db row rs j with
  | nil => simp at hx
  | cons y cs ih =>
    obtain ⟨db₁, r, rs', hy, hrest, rfl⟩ := callsUnder_cons hrun
    obtain ⟨hfirst, hclock'⟩ := pairwise_cons.mp hclock
    have hafter_y := hafter y (mem_cons_self ..)
    -- A call of another owner before the end of the lease finds it neither its own nor expired.
    have hblocked : ∀ {l'}, y.2.lease? = some l' → l'.taskId = id → now y.1 < t + d →
        ¬ ∀ row, M.view.lease db l'.taskId = some row →
          T.owner row = l'.ownerId ∨ T.Expired row (now y.1) := by
      intro l' hl' hid' hlt hfree
      rcases hfree row (by rw [hid']; exact hrow) with hown | hold
      · exact hothers y (mem_cons_self ..) l' hl' hid' (hown.symm.trans howner)
      · exact absurd (hexpired hwritten hold hgood hafter_y) (not_le.mpr hlt)
    cases j with
    | zero =>
      rw [getElem?_cons_zero, Option.some.injEq] at hx
      rw [getElem?_cons_zero]
      subst hx
      rcases (hcall hdb hl hy).2 with ⟨_, hnot⟩ | ⟨_, _, hfree⟩
      · exact fun hr => hnot (Option.some.inj hr)
      · exact absurd hfree (hblocked hl hid htime)
    | succ j =>
      rw [getElem?_cons_succ] at hx ⊢
      obtain ⟨l', hl'⟩ := isSome_iff_exists.mp (hleases y (mem_cons_self ..))
      obtain ⟨hdb₁, heffect⟩ := hcall hdb hl' hy
      have hlt : now y.1 < t + d :=
        lt_of_le_of_lt (hfirst x (mem_of_getElem? hx)) htime
      have hkept : M.view.lease db₁ id = some row := by
        rcases heffect with ⟨hsame, _⟩ | ⟨hsame, _, hfree⟩
        · exact (hsame id).trans hrow
        · by_cases hid' : l'.taskId = id
          · exact absurd hfree (hblocked hl' hid' hlt)
          · exact (hsame id (Ne.symm hid')).trans hrow
      exact ih hdb₁ hkept howner hwritten hrest (fun z hz => hleases z (mem_cons_of_mem _ hz))
        hclock' (fun z hz => hafter z (mem_cons_of_mem _ hz))
        (fun z hz => hothers z (mem_cons_of_mem _ hz)) hx

/-- After a granted call, no call of another owner is granted before the duration has passed. -/
theorem not_granted_after (hdb : M.Settled db) (hrun : M.callsUnder db cs = some (db', rs))
    (hleases : ∀ x ∈ cs, (x.2.lease?).isSome = true)
    (hclock : cs.Pairwise (fun a b => now a.1 ≤ now b.1)) {i j : ℕ} (hij : i < j)
    (hx : cs[i]? = some x) (hy : cs[j]? = some y) (ha : x.2.lease? = some a)
    (hb : y.2.lease? = some b) (htask : b.taskId = a.taskId)
    (hlast : ∀ m z l, i < m → cs[m]? = some z → z.2.lease? = some l → l.taskId = a.taskId →
      l.ownerId ≠ a.ownerId)
    (hgranted : rs[i]? = some (.leased (.ok true))) (hgood : Good (now x.1) a.expiresIn)
    (htime : now y.1 < now x.1 + a.expiresIn) : rs[j]? ≠ some (.leased (.ok true)) := by
  induction cs generalizing db rs i j with
  | nil => simp at hx
  | cons z cs ih =>
    obtain ⟨db₁, r, rs', hz, hrest, rfl⟩ := callsUnder_cons hrun
    obtain ⟨hfirst, hclock'⟩ := pairwise_cons.mp hclock
    obtain ⟨j, rfl⟩ : ∃ j', j = j' + 1 := ⟨j - 1, by omega⟩
    rw [getElem?_cons_succ] at hy ⊢
    have hleases' : ∀ x ∈ cs, (x.2.lease?).isSome = true :=
      fun z hz => hleases z (mem_cons_of_mem _ hz)
    cases i with
    | zero =>
      rw [getElem?_cons_zero, Option.some.injEq] at hx hgranted
      subst hx hgranted
      obtain ⟨hdb₁, ⟨_, hnot⟩ | ⟨_, ⟨row, hrow, howner, hwritten⟩, _⟩⟩ := hcall hdb ha hz
      · exact absurd rfl hnot
      · refine not_granted_of_held hcall hexpired hgood hdb₁ hrow howner hwritten hrest hleases'
          hclock' hfirst (fun x hx l hl hid => ?_) hy hb htask htime
        obtain ⟨m, hm⟩ := getElem?_of_mem hx
        exact hlast (m + 1) x l (by omega) hm hl hid
    | succ i =>
      obtain ⟨l, hl⟩ := isSome_iff_exists.mp (hleases z (mem_cons_self ..))
      rw [getElem?_cons_succ] at hx hgranted
      exact ih (hcall hdb hl hz).1 hrest hleases' hclock' (by omega) hx hy
        (fun m z l hm hz hl hid => hlast (m + 1) z l (by omega) hz hl hid) hgranted

end

end DurableMachine

abbrev memoryTerms : LeaseTerms LeaseRecord where
  owner := LeaseRecord.ownerId
  Written row t d := row.expiresAt = t + d
  Expired row now := row.expiresAt ≤ now

/-- A row of `task_leases`, with how the store writes an expiry and the current time. -/
abbrev sqlTerms {C : Columns} (expiry : DateTime → ℕ → C.Time) (current : DateTime → C.Time) :
    LeaseTerms (LeaseRow C) where
  owner := LeaseRow.ownerId
  Written row t d := row.expiresAt = expiry t d
  Expired row now := C.before row.expiresAt (current now) = true

theorem MemoryState.leaseExpiry_eq_ok (h : leaseExpiry now lease = some (.ok expiresAt)) :
    expiresAt = now + lease.expiresIn := by
  unfold leaseExpiry at h
  cases hd : durationFromStd lease.expiresIn with
  | none =>
    rw [hd] at h
    cases h
  | some d =>
    rw [hd] at h
    obtain ⟨t, ht, heq⟩ := map_eq_some_iff.mp h
    cases heq
    rw [chronoAdd_eq_some ht, durationFromStd_eq_some hd]

variable {r : StoreResult} {db db' : MemoryState}

theorem MemoryTaskStore.solo_locked {α : Type} {result : o.Reply → α} {f : α → StoreResult}
    (h : memoryMachine.solo 0 c db ((locked o result).bind (fun a => .pure (f a))) = some (db', r))
    :
    ∃ rep, db.exec o c = some (db', rep) ∧ r = f (result rep) := by
  rw [locked, Prog.op_bind, solo] at h
  split at h
  · cases h
  · rename_i hexec
    cases h
    exact ⟨_, hexec, rfl⟩

theorem memory_leaseEffect_of_withExpiry {f : DateTime → MemoryState × Bool}
    (hrun : db.withExpiry l now f = some (db', rep))
    (hf : ∀ expiresAt, ((f expiresAt).1 = db ∧ (f expiresAt).2 = false) ∨
      ((f expiresAt).1 = { db with leases := db.leases.set l.taskId ⟨l.ownerId, expiresAt⟩ } ∧
      ∀ row, db.leases.get l.taskId = some row → row.ownerId = l.ownerId ∨ row.expiresAt ≤ now)) :
    memoryMachine.LeaseEffect memoryTerms l now db db' (.leased rep.2) := by
  rcases MemoryState.withExpiry_cases hrun with ⟨rfl, e, he⟩ | ⟨expiresAt, hexpiry, rfl, rfl⟩
  · rw [he]
    exact .inl ⟨fun _ => rfl, fun hr => by cases hr⟩
  · rcases hf expiresAt with ⟨hsame, hfalse⟩ | ⟨hset, hfree⟩
    · rw [hsame, hfalse]
      exact .inl ⟨fun _ => rfl, fun hr => by cases hr⟩
    · rw [hset]
      exact .inr ⟨fun id hid => Map.get_set_ne _ _ hid, ⟨_, Map.get_set_self .., rfl,
        MemoryState.leaseExpiry_eq_ok hexpiry⟩, hfree⟩

theorem memory_leaseEffect (hl : call.lease? = some l)
    (h : memoryMachine.solo 0 c db (memoryMachine.program call) = some (db', r)) :
    memoryMachine.LeaseEffect memoryTerms l c.now db db' r := by
  cases call with
  | acquireLease lease =>
    cases hl
    obtain ⟨rep, hrun, rfl⟩ := MemoryTaskStore.solo_locked h
    refine memory_leaseEffect_of_withExpiry hrun (fun expiresAt => ?_)
    unfold MemoryState.acquireLease
    cases hget : db.leases.get l.taskId with
    | none => exact .inr ⟨rfl, fun row hrow => by cases hrow⟩
    | some existing =>
      dsimp only
      split
      · exact .inl ⟨rfl, rfl⟩
      · rename_i hfree
        refine .inr ⟨rfl, fun row hrow => ?_⟩
        cases hrow
        by_cases hown : existing.ownerId = l.ownerId
        · exact .inl hown
        · exact .inr (not_lt.mp (fun hlt => hfree ⟨hlt, hown⟩))
  | renewLease lease =>
    cases hl
    obtain ⟨rep, hrun, rfl⟩ := MemoryTaskStore.solo_locked h
    refine memory_leaseEffect_of_withExpiry hrun (fun expiresAt => ?_)
    unfold MemoryState.renewLease
    cases hget : db.leases.get l.taskId with
    | none => exact .inl ⟨rfl, rfl⟩
    | some existing =>
      dsimp only
      split
      · rename_i hown
        refine .inr ⟨?_, fun row hrow => ?_⟩
        · rw [← hown.1]
        · cases hrow
          exact .inl hown.1
      · exact .inl ⟨rfl, rfl⟩
  | _ => cases hl

namespace Tables

variable {C : Columns} {d d' : Tables C}

/-- A lease statement leaves the leases alone, or writes its row over one that is expired or its
own. -/
def LeaseWritten (row : LeaseRow C) (now : C.Time) (d d' : Tables C) (n : ℕ) : Prop :=
  (d'.leases = d.leases ∧ n ≠ 1) ∨
  ((∀ id, id ≠ row.taskId → d'.leases.find id = d.leases.find id) ∧
    (∃ new, d'.leases.find row.taskId = some new ∧ new.ownerId = row.ownerId ∧
      new.expiresAt = row.expiresAt) ∧
    ∀ old, d.leases.find row.taskId = some old →
      old.ownerId = row.ownerId ∨ C.before old.expiresAt now = true)

theorem find_modifyLease_self {id : C.Id} {f : LeaseRow C → LeaseRow C}
    {hf : ∀ l, (f l).taskId = l.taskId} :
    (d.modifyLease id f hf).leases.find id = (d.leases.find id).map f :=
  Table.find_modify_self _ _ f hf

theorem leaseWritten_upsertLease (h : d.upsertLease row now = some (d', n)) :
    LeaseWritten row now d d' n := by
  have hothers := (upsertLease_cases h).2.2
  unfold upsertLease at h
  cases hfind : d.leases.find row.taskId with
  | some old =>
    rw [hfind] at h
    dsimp only at h
    split at h
    · rename_i hfree
      cases h
      refine .inr ⟨hothers, ?_, fun old' hold' => ?_⟩
      · rw [find_modifyLease_self, hfind]
        exact ⟨_, rfl, rfl, rfl⟩
      · cases hfind.symm.trans hold'
        exact hfree.symm
    · cases h
      exact .inl ⟨rfl, by decide⟩
  | none =>
    rw [hfind] at h
    dsimp only at h
    split at h
    · rename_i hfree
      cases h
      refine .inr ⟨hothers, ⟨row, Table.find_insert_self _ _ hfree.1, rfl, rfl⟩, ?_⟩
      intro old hold
      cases hfind.symm.trans hold
    · cases h

theorem leaseWritten_updateLease (h : d.updateLease row now = (d', n)) :
    LeaseWritten row now d d' n := by
  have hothers := (d.updateLease_cases row now).2.2
  rw [h] at hothers
  unfold updateLease at h
  cases hfind : d.leases.find row.taskId with
  | some old =>
    rw [hfind] at h
    dsimp only at h
    split at h
    · rename_i hown
      cases h
      refine .inr ⟨hothers, ?_, fun old' hold' => ?_⟩
      · rw [find_modifyLease_self, hfind]
        exact ⟨_, rfl, hown.1, rfl⟩
      · cases hfind.symm.trans hold'
        exact .inl hown.1
    · cases h
      exact .inl ⟨rfl, by decide⟩
  | none =>
    rw [hfind] at h
    cases h
    exact .inl ⟨rfl, by decide⟩

end Tables

section

variable {C : Columns} {db db' : SqliteDb C} {c : SqliteChoice C} {l : Lease}

abbrev sqliteTerms (C : Columns) : LeaseTerms (LeaseRow C) :=
  sqlTerms (fun t d => C.time (t + d)) C.time

open SqliteTaskStore in
theorem sqlite_leaseEffect_of_body {s : DateTime → DateTime → Statement C}
    {f : ∀ now t, (s now t).Reply → Bool} {r : Except StoreError Bool}
    (hdb : (sqliteMachine C).Settled db)
    (hs : ∀ now t, (s now t).writes = true)
    (hwritten : ∀ {now t d d' picked rep}, (s now t).run d picked = some (d', rep) →
      ∃ n updated, Tables.LeaseWritten ⟨C.id l.taskId, l.ownerId, C.time t, updated⟩
          (C.time now) d d' n ∧
        f now t rep = decide (n = 1))
    (h : (sqliteMachine C).solo 0 c db (guarded (do
      let now ← utcNow
      let t ← addStd now l.expiresIn
      let changed ← execute (s now t)
      return f now t changed)) = some (db', r)) :
    (sqliteMachine C).Settled db' ∧
      (sqliteMachine C).LeaseEffect (sqliteTerms C) l c.now db db' (.leased r) := by
  obtain ⟨hguard, hwriter, htx⟩ := hdb
  rw [solo_guarded hguard] at h
  obtain ⟨⟨db₁, r₁⟩, hbody, heq⟩ := map_eq_some_iff.mp h
  obtain ⟨rfl, rfl⟩ := Prod.mk.inj heq
  rw [solo_try_ok solo_utcNow] at hbody
  rcases solo_try_cases hbody with ⟨e, hadd, rfl⟩ | ⟨db₂, t, hadd, hbody⟩
  · obtain ⟨rfl, _⟩ := solo_addStd hadd
    refine ⟨settled_dropGuard rfl hwriter htx, .inl ⟨fun id => ?_, fun hr => by cases hr⟩⟩
    change (dropGuard 0 _).committed.leases.find _ = _
    rw [committed_dropGuard]
  obtain ⟨rfl, ⟨_, herror⟩ | hok⟩ := solo_addStd hadd
  · cases herror
  cases hok
  obtain ⟨r', hrun, rfl⟩ := solo_try_return hbody
  obtain ⟨hdb₁, hcases⟩ := solo_execute (hs _ _) hrun
  refine ⟨settled_dropGuard (by rw [hdb₁]) (by rw [hdb₁]; exact hwriter)
    (by rw [hdb₁]; exact htx), ?_⟩
  have hlease : ∀ id, (sqliteMachine C).view.lease (dropGuard 0 db₁) id =
      db₁.committed.leases.find (C.id id) := fun id => by
    change (dropGuard 0 db₁).committed.leases.find _ = _
    rw [committed_dropGuard]
  rcases hcases with ⟨hsame, e, rfl⟩ | ⟨rep, hstatement, rfl⟩
  · refine .inl ⟨fun id => ?_, fun hr => by cases hr⟩
    rw [hlease, hsame]
  · obtain ⟨n, updated, hwritten, hf⟩ := hwritten hstatement
    rcases hwritten with ⟨hsame, hn⟩ | ⟨hothers, ⟨new, hnew, howner, hexpires⟩, hfree⟩
    · refine .inl ⟨fun id => ?_, fun hr => ?_⟩
      · rw [hlease, hsame]
      · simp [Except.map, hf, hn] at hr
    · refine .inr ⟨fun id hid => ?_, ⟨new, ?_, howner, hexpires⟩, hfree⟩
      · rw [hlease, hothers _ (fun heq => hid (C.id_injective heq))]
      · rw [hlease, hnew]

theorem sqlite_leaseEffect (hdb : (sqliteMachine C).Settled db) (hl : call.lease? = some l)
    (h : (sqliteMachine C).solo 0 c db ((sqliteMachine C).program call) = some (db', r)) :
    (sqliteMachine C).Settled db' ∧
      (sqliteMachine C).LeaseEffect (sqliteTerms C) l c.now db db' r := by
  cases call with
  | acquireLease lease =>
    cases hl
    obtain ⟨_, hcall, rfl⟩ := solo_map_iff.mp h
    exact sqlite_leaseEffect_of_body
      (s := fun now t => .upsertLease ⟨C.id l.taskId, l.ownerId, C.time t, C.time now⟩ (C.time now))
        hdb (fun _ _ => rfl)
      (fun hrun => ⟨_, _, Tables.leaseWritten_upsertLease hrun, rfl⟩) hcall
  | renewLease lease =>
    cases hl
    obtain ⟨_, hcall, rfl⟩ := solo_map_iff.mp h
    exact sqlite_leaseEffect_of_body
      (s := fun now t => .updateLease ⟨C.id l.taskId, l.ownerId, C.time t, C.time now⟩ (C.time now))
        hdb (fun _ _ => rfl)
      (fun hrun => ⟨_, _, Tables.leaseWritten_updateLease (Option.some.inj hrun), rfl⟩) hcall
  | _ => cases hl

end

section

variable {J : JsonColumn} {db db' : PostgresDb (columns J)}
  {c : PostgresChoice (columns J)} {l : Lease}

abbrev postgresTerms (J : JsonColumn) : LeaseTerms (LeaseRow (columns J)) :=
  sqlTerms (fun t d => (toMicros t + asSecs d * 10 ^ 6 : ℤ)) toMicros

theorem Postgres.addSeconds_eq_ok (h : addSeconds now seconds = .ok t) :
    t = now + seconds * 10 ^ 6 := by
  unfold addSeconds at h
  split at h
  · cases h
  · split at h
    · cases h
    · exact (Except.ok.inj h).symm

theorem tdiv_le_add {a b k : ℤ} (hle : a ≤ b) (hlt : b < a + k * 1000) :
    b.tdiv 1000 ≤ a.tdiv 1000 + k := by
  rw [Int.tdiv_eq_ediv, Int.tdiv_eq_ediv, show Int.sign 1000 = 1 from rfl]
  split
  · split
    · omega
    · omega
  · split
    · omega
    · omega

theorem Postgres.toMicros_le_add {t u : DateTime} (micros : ℤ) (hle : t ≤ u)
    (hlt : u < t + micros * 1000) : toMicros u ≤ toMicros t + micros :=
  tdiv_le_add (sub_le_sub_right hle _) (by linarith)

open PostgresTaskStore in
theorem postgres_leaseEffect_of_body {s : ℤ → ℤ → Statement (columns J)}
    {f : ∀ now t, (s now t).Reply → Bool} {r : Except StoreError Bool}
    (hdb : (postgresMachine J).Settled db)
    (hwritten : ∀ {now t d d' picked rep}, (s now t).run d picked = some (d', rep) →
      ∃ n updated, Tables.LeaseWritten ⟨l.taskId, l.ownerId, t, updated⟩ now d d' n ∧
        f now t rep = decide (n = 1))
    (h : (postgresMachine J).solo 0 c db (do
      let now ← serverNow
      let t ← PostgresTaskStore.ofExcept
        ((addSeconds now (asSecs l.expiresIn)).mapError dbError)
      let changed ← execute (s now t)
      return f now t changed : PostgresM (columns J) Bool).run = some (db', r)) :
    (postgresMachine J).Settled db' ∧
      (postgresMachine J).LeaseEffect (postgresTerms J) l c.now db db' (.leased r) := by
  rw [solo_try_ok solo_serverNow] at h
  rcases solo_try_cases h with ⟨e, hadd, rfl⟩ | ⟨db₂, t, hadd, hbody⟩
  · cases congrArg Prod.fst (Option.some.inj hadd)
    exact ⟨hdb, .inl ⟨fun _ => rfl, fun hr => by cases hr⟩⟩
  obtain ⟨rfl, hsum⟩ := Prod.mk.inj (Option.some.inj hadd)
  have ht := addSeconds_eq_ok (mapError_eq_ok_iff.mp hsum)
  obtain ⟨r', hrun, rfl⟩ := solo_try_return hbody
  rcases solo_execute hrun with ⟨rfl, e, rfl⟩ | ⟨d, rep, hstatement, rfl, hr⟩
  · exact ⟨hdb, .inl ⟨fun _ => rfl, fun hr => by cases hr⟩⟩
  · refine ⟨hdb, ?_⟩
    obtain ⟨n, updated, hwritten, hf⟩ := hwritten hstatement
    rcases hwritten with ⟨hsame, hn⟩ | ⟨hothers, ⟨new, hnew, howner, hexpires⟩, hfree⟩
    · refine .inl ⟨fun id => ?_, fun hgranted => ?_⟩
      · change d.leases.find _ = _
        rw [hsame]
      · rcases hr with rfl | ⟨e, rfl⟩
        · simp [Except.map, hf, hn] at hgranted
        · cases hgranted
    · exact .inr ⟨fun id hid => hothers _ hid, ⟨new, hnew, howner, hexpires.trans ht⟩, hfree⟩

theorem postgres_leaseEffect (hdb : (postgresMachine J).Settled db) (hl : call.lease? = some l)
    (h : (postgresMachine J).solo 0 c db ((postgresMachine J).program call) = some (db', r)) :
    (postgresMachine J).Settled db' ∧
      (postgresMachine J).LeaseEffect (postgresTerms J) l c.now db db' r := by
  cases call with
  | acquireLease lease =>
    cases hl
    obtain ⟨_, hcall, rfl⟩ := solo_map_iff.mp h
    exact postgres_leaseEffect_of_body
      (s := fun now t => .upsertLease ⟨l.taskId, l.ownerId, t, now⟩ now) hdb
      (fun hrun => ⟨_, _, Tables.leaseWritten_upsertLease hrun, rfl⟩) hcall
  | renewLease lease =>
    cases hl
    obtain ⟨_, hcall, rfl⟩ := solo_map_iff.mp h
    exact postgres_leaseEffect_of_body
      (s := fun now t => .updateLease ⟨l.taskId, l.ownerId, t, now⟩ now) hdb
      (fun hrun => ⟨_, _, Tables.leaseWritten_updateLease (Option.some.inj hrun), rfl⟩) hcall
  | _ => cases hl

end

namespace StoreKind

def now : (k : StoreKind) → k.machine.Choice → DateTime
  | memory => MemoryChoice.now
  | sqlite _ => SqliteChoice.now
  | postgres _ => PostgresChoice.now

abbrev leaseTerms : (k : StoreKind) → LeaseTerms k.machine.view.LeaseRow
  | memory => memoryTerms
  | sqlite C => sqliteTerms C
  | postgres J => postgresTerms J

/-- The store keeps a lease from `t` on for the duration: Postgres counts it in whole seconds, and
SQLite compares texts. -/
def KeepsLease (k : StoreKind) (t : DateTime) (d : ℕ) : Prop :=
  (∀ C, k = .sqlite C → InYears t ∧ InYears (t + d)) ∧ ∀ J, k = .postgres J → WholeSeconds d

theorem leaseEffect (k : StoreKind) {db db' : k.machine.Db} {c : k.machine.Choice}
    (hdb : k.machine.Settled db) (hl : call.lease? = some l)
    (h : k.machine.solo 0 c db (k.machine.program call) = some (db', r)) :
    k.machine.Settled db' ∧ k.machine.LeaseEffect k.leaseTerms l (k.now c) db db' r := by
  cases k with
  | memory => exact ⟨trivial, memory_leaseEffect hl h⟩
  | sqlite C => exact sqlite_leaseEffect hdb hl h
  | postgres J => exact postgres_leaseEffect hdb hl h

theorem le_of_expired (k : StoreKind) (hC : ∀ C, k = .sqlite C → C.Rfc3339)
    {row : k.machine.view.LeaseRow} (hwritten : k.leaseTerms.Written row t d)
    (hexpired : k.leaseTerms.Expired row u) (hkeeps : k.KeepsLease t d) (hle : t ≤ u) :
    t + d ≤ u := by
  cases k with
  | memory =>
    exact hwritten.symm.trans_le hexpired
  | sqlite C =>
    by_contra hlt
    obtain ⟨ht, hend⟩ := hkeeps.1 C rfl
    have hu : InYears u := ⟨ht.1.trans hle, (not_le.mp hlt).trans hend.2⟩
    have hbefore : C.before row.expiresAt (C.time u) = true := hexpired
    rw [show row.expiresAt = C.time (t + d) from hwritten] at hbefore
    exact hlt (((hC C rfl).before_iff hend hu).mp hbefore).le
  | postgres J =>
    have hsecs := asSecs_of_wholeSeconds (hkeeps.2 J rfl)
    have hbefore := before_eq_true hexpired
    rw [show row.expiresAt = _ from hwritten] at hbefore
    by_contra hlt
    have hmicros := toMicros_le_add (asSecs d * 10 ^ 6) hle
      (by rw [show asSecs d * 10 ^ 6 * 1000 = d by linarith]; exact not_le.mp hlt)
    exact absurd hbefore (not_lt.mpr hmicros)

/-- In a sequence of lease calls with a clock that never goes back, a lease that a store has granted
excludes every other owner for its duration, if the store keeps leases of that kind. -/
theorem lease_exclusive (k : StoreKind) (hC : ∀ C, k = .sqlite C → C.Rfc3339)
    {db db' : k.machine.Db} (hdb : k.machine.Settled db)
    {cs : List (k.machine.Choice × StoreCall)} {rs : List StoreResult}
    (hrun : k.machine.callsUnder db cs = some (db', rs))
    (hleases : ∀ x ∈ cs, (x.2.lease?).isSome = true)
    (hclock : cs.Pairwise (fun a b => k.now a.1 ≤ k.now b.1)) {i j : ℕ} (hij : i < j)
    {x y : k.machine.Choice × StoreCall} {a b : Lease} (hx : cs[i]? = some x) (hy : cs[j]? = some y)
    (ha : x.2.lease? = some a) (hb : y.2.lease? = some b) (htask : b.taskId = a.taskId)
    (hlast : ∀ m z l, i < m → cs[m]? = some z → z.2.lease? = some l → l.taskId = a.taskId →
      l.ownerId ≠ a.ownerId)
    (hgranted : rs[i]? = some (.leased (.ok true)))
    (hkeeps : k.KeepsLease (k.now x.1) a.expiresIn)
    (htime : k.now y.1 < k.now x.1 + a.expiresIn) : rs[j]? ≠ some (.leased (.ok true)) :=
  DurableMachine.not_granted_after (fun hdb hl h => k.leaseEffect hdb hl h)
    (fun hwritten hexpired hgood hle => k.le_of_expired hC hwritten hexpired hgood hle) hdb hrun
    hleases hclock hij hx hy ha hb htask hlast hgranted hkeeps htime

end StoreKind

/-- A lease of one and a half seconds in Postgres is given away after one second. -/
theorem postgres_lease_lost :
    ∃ (db db' : PostgresDb (Postgres.columns .plain)) (rs : List StoreResult),
      (postgresMachine .plain).callsUnder .empty [({}, .create (.under "caller" "key" 1))] =
        some (db, rs) ∧ (postgresMachine .plain).Settled db ∧
      (postgresMachine .plain).callsUnder db
        [({ now := 0 }, .acquireLease ⟨1, "first", 1500 * 10 ^ 6⟩),
          ({ now := 1200 * 10 ^ 6 }, .acquireLease ⟨1, "second", 10 ^ 9⟩)] =
        some (db', [.leased (.ok true), .leased (.ok true)]) :=
  ⟨_, _, _, rfl, ⟨fun _ => rfl, fun _ => rfl⟩, rfl⟩

/-- One of two seconds is kept. -/
theorem lease_exclusive_of_two_seconds :
    ∃ (db db' : PostgresDb (Postgres.columns .plain)) (rs rs' : List StoreResult),
      (postgresMachine .plain).callsUnder .empty [({}, .create (.under "caller" "key" 1))] =
        some (db, rs) ∧
      (postgresMachine .plain).callsUnder db
        [({ now := 0 }, .acquireLease ⟨1, "first", 2 * 10 ^ 9⟩),
          ({ now := 1200 * 10 ^ 6 }, .acquireLease ⟨1, "second", 10 ^ 9⟩)] = some (db', rs') ∧
      rs'[0]? = some (.leased (.ok true)) ∧ rs'[1]? ≠ some (.leased (.ok true)) := by
  obtain ⟨db, db', rs, rs', hcreate, hsettled, hrun, hgranted⟩ :
      ∃ (db db' : PostgresDb (columns .plain)) (rs rs' : List StoreResult),
      (postgresMachine .plain).callsUnder .empty [({}, .create (.under "caller" "key" 1))] =
        some (db, rs) ∧ (postgresMachine .plain).Settled db ∧
      (postgresMachine .plain).callsUnder db
        [({ now := 0 }, .acquireLease ⟨1, "first", 2 * 10 ^ 9⟩),
          ({ now := 1200 * 10 ^ 6 }, .acquireLease ⟨1, "second", 10 ^ 9⟩)] = some (db', rs') ∧
      rs'[0]? = some (.leased (.ok true)) :=
    ⟨_, _, _, _, rfl, ⟨fun _ => rfl, fun _ => rfl⟩, rfl, rfl⟩
  refine ⟨db, db', rs, rs', hcreate, hrun, hgranted, ?_⟩
  refine StoreKind.lease_exclusive (.postgres .plain) (fun _ h => by cases h) hsettled hrun
    (i := 0) ?_ ?_ (by decide) rfl rfl rfl rfl rfl ?_ hgranted
    ⟨(fun _ h => by cases h), fun _ _ => ⟨by decide, by decide⟩⟩ (by decide)
  · simp [StoreCall.lease?]
  · simp [StoreKind.now]
  · intro m z l hm hz hl _
    match m, hm with
    | 1, _ =>
      cases hz
      cases hl
      decide
    | m + 2, _ => cases hz

end AgentConnector
