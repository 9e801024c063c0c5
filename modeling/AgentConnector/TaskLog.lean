import AgentConnector.StoreContract

/-!
# Task logs of the contract store

`TaskLog` relates a stored snapshot to the log of its task: the events are numbered from one, the
revision counts them, and the state is the projection of the last one. The contract store keeps
every task in this relation as long as each append is legal, that is, moves a task that is not
terminal to the state its event stands for; what it has stored only grows.
-/

namespace AgentConnector

open List Option

/-- The state a task is in after an event of this kind. -/
def CoreEventKind.state : CoreEventKind → TaskState
  | accepted _ => .accepted
  | progress _ _ => .running
  | artifact _ => .running
  | inputRequired _ => .waitingForInput
  | completed _ => .completed
  | failed _ => .failed
  | cancelRequested _ => .cancelRequested
  | cancelled => .cancelled

theorem CoreEventKind.terminal_state (k : CoreEventKind) : k.state.terminal = k.isTerminal := by
  cases k <;> rfl

def projection (events : List CoreEvent) : TaskState :=
  match events.getLast? with
  | none => .created
  | some e => e.kind.state

@[simp] theorem projection_concat (events : List CoreEvent) (e : CoreEvent) :
    projection (events ++ [e]) = e.kind.state := by
  simp [projection]

structure TaskLog (id : TaskId) (snap : TaskSnapshot) (events : List CoreEvent) : Prop where
  taskId : snap.taskId = id
  owner : ∀ e ∈ events, e.taskId = id
  seqs : events.map CoreEvent.seq = List.range' 1 events.length
  revision : snap.revision = events.length
  lastSeq : snap.lastSeq = events.length
  state : snap.state = projection events
  terminal : ∀ e ∈ events.dropLast, e.kind.isTerminal = false

namespace TaskLog

variable {id : TaskId} {snap : TaskSnapshot} {events : List CoreEvent}

theorem fresh (n : NewTask) (now : DateTime) : TaskLog n.taskId (.fresh n now) [] where
  taskId := rfl
  owner := by simp
  seqs := rfl
  revision := rfl
  lastSeq := rfl
  state := rfl
  terminal := by simp

theorem exists_last (h : TaskLog id snap events) (hs : snap.state ≠ .created) :
    ∃ e ∈ events, e.kind.state = snap.state ∧ e.seq = snap.revision := by
  rcases eq_nil_or_concat events with rfl | ⟨init, last, rfl⟩
  · exact absurd h.state hs
  · rw [concat_eq_append] at h ⊢
    refine ⟨last, by simp, ?_, ?_⟩
    · rw [h.state, projection_concat]
    · have hseqs := h.seqs
      rw [map_append, length_append, length_singleton, range'_concat] at hseqs
      have hlast := (append_inj' hseqs rfl).2
      rw [h.revision, length_append, length_singleton]
      simp only [map_cons, map_nil, List.cons.injEq, and_true] at hlast
      omega

theorem eq_concat (h : TaskLog id snap events) (he : e ∈ events) (ht : e.kind.isTerminal = true) :
    ∃ init, events = init ++ [e] := by
  rcases eq_nil_or_concat events with rfl | ⟨init, last, rfl⟩
  · cases he
  · rw [concat_eq_append] at h he ⊢
    rcases mem_append.mp he with he | he
    · rw [h.terminal e (by simpa using he)] at ht
      cases ht
    · exact ⟨init, by rw [mem_singleton.mp he]⟩

theorem not_isTerminal (h : TaskLog id snap events) (hs : snap.state.terminal = false) :
    ∀ e ∈ events, e.kind.isTerminal = false := by
  intro e he
  by_contra ht
  obtain ⟨init, rfl⟩ := h.eq_concat he (Bool.eq_true_of_not_eq_false ht)
  rw [h.state, projection_concat, CoreEventKind.terminal_state] at hs
  exact ht hs

theorem advance (h : TaskLog id snap events) (hs : snap.state.terminal = false)
    (kind : CoreEventKind) (now : DateTime) :
    TaskLog id (snap.advance kind.state now) (events ++ [⟨id, snap.lastSeq + 1, now, kind⟩]) where
  taskId := h.taskId
  owner := by
    intro e he
    rcases mem_append.mp he with he | he
    · exact h.owner e he
    · rw [mem_singleton] at he
      rw [he]
  seqs := by
    rw [map_append, h.seqs, length_append, length_singleton, h.lastSeq,
      range'_concat]
    simp [Nat.add_comm]
  revision := by
    rw [length_append, length_singleton, ← h.revision]
    rfl
  lastSeq := by
    rw [length_append, length_singleton, ← h.lastSeq]
    rfl
  state := by
    rw [projection_concat]
    rfl
  terminal := by
    intro e he
    rw [dropLast_concat] at he
    exact h.not_isTerminal hs e he

end TaskLog

/-- How a stored snapshot may change: later revisions of one task, and none after a terminal
one. -/
structure TaskSnapshot.Succeeds (s s' : TaskSnapshot) : Prop where
  revision : s.revision ≤ s'.revision
  same : s'.revision = s.revision → s' = s
  terminal : s.state.terminal = true → s' = s
  agentId : s'.agentId = s.agentId
  callerId : s'.callerId = s.callerId
  sessionId : s'.sessionId = s.sessionId

namespace TaskSnapshot.Succeeds

variable {s s' s'' : TaskSnapshot}

theorem refl (s : TaskSnapshot) : s.Succeeds s :=
  ⟨le_rfl, fun _ => rfl, fun _ => rfl, rfl, rfl, rfl⟩

theorem trans (h : s.Succeeds s') (h' : s'.Succeeds s'') : s.Succeeds s'' where
  revision := h.revision.trans h'.revision
  same hr := by
    have h1 := h.revision
    have h2 := h'.revision
    have hs' : s' = s := h.same (by omega)
    rw [h'.same (by omega), hs']
  terminal ht := by
    have hs' : s' = s := h.terminal ht
    rw [h'.terminal (by rw [hs']; exact ht), hs']
  agentId := h'.agentId.trans h.agentId
  callerId := h'.callerId.trans h.callerId
  sessionId := h'.sessionId.trans h.sessionId

theorem advance (hs : s.state.terminal = false) (next : TaskState) (now : DateTime) :
    s.Succeeds (s.advance next now) where
  revision := Nat.le_succ _
  same h := absurd h (Nat.succ_ne_self _)
  terminal h := by rw [hs] at h; cases h
  agentId := rfl
  callerId := rfl
  sessionId := rfl

end TaskSnapshot.Succeeds

namespace LogStore

structure WF (db : LogStore) : Prop where
  log : ∀ {id snap}, db.tasks id = some snap → TaskLog id snap (db.events id)
  unknown : ∀ {id}, db.tasks id = none → db.events id = []
  keys : ∀ {key id}, db.keys key = some id → ∃ snap, db.tasks id = some snap ∧ snap.callerId = key.1

structure Extends (db db' : LogStore) : Prop where
  task : ∀ {id snap}, db.tasks id = some snap → ∃ snap', db'.tasks id = some snap' ∧
    snap.Succeeds snap'
  events : ∀ id, db.events id <+: db'.events id
  keys : ∀ {key id}, db.keys key = some id → db'.keys key = some id

theorem wf_empty : WF empty where
  log h := by cases h
  unknown _ := rfl
  keys h := by cases h

theorem Extends.refl (db : LogStore) : Extends db db :=
  ⟨fun {_ snap} h => ⟨snap, h, .refl snap⟩, fun _ => prefix_rfl, fun h => h⟩

variable {db : LogStore}

variable {db' : LogStore}

theorem Extends.trans (h : Extends db db') (h' : Extends db' db'') :
    Extends db db'' where
  task hs := by
    obtain ⟨s', hs', hsucc⟩ := h.task hs
    obtain ⟨s'', hs'', hsucc'⟩ := h'.task hs'
    exact ⟨s'', hs'', hsucc.trans hsucc'⟩
  events id := (h.events id).trans (h'.events id)
  keys hk := h'.keys (h.keys hk)

variable {n : NewTask}

theorem WF.insert (h : db.WF) (hn : db.tasks n.taskId = none) (now : DateTime) :
    (db.insert n now).WF where
  log {id snap} hs := by
    by_cases hid : id = n.taskId
    · subst id
      simp only [LogStore.insert, Function.update_self, Option.some.injEq] at hs ⊢
      rw [← hs]
      exact TaskLog.fresh n now
    · simp only [LogStore.insert, Function.update_of_ne hid] at hs ⊢
      exact h.log hs
  unknown {id} hs := by
    by_cases hid : id = n.taskId
    · subst id
      simp [LogStore.insert]
    · simp only [LogStore.insert, Function.update_of_ne hid] at hs ⊢
      exact h.unknown hs
  keys {key id} hk := by
    by_cases hkey : key = n.key
    · subst key
      simp only [LogStore.insert, Function.update_self, Option.some.injEq] at hk ⊢
      subst id
      exact ⟨_, Function.update_self .., rfl⟩
    · simp only [LogStore.insert, Function.update_of_ne hkey] at hk ⊢
      obtain ⟨snap, hsnap, hcaller⟩ := h.keys hk
      have hid : id ≠ n.taskId := by
        rintro rfl
        rw [hn] at hsnap
        cases hsnap
      exact ⟨snap, by rw [Function.update_of_ne hid]; exact hsnap, hcaller⟩

theorem WF.extends_insert (h : db.WF) (hn : db.tasks n.taskId = none) (hk : db.keys n.key = none)
    (now : DateTime) : db.Extends (db.insert n now) where
  task {id snap} hs := by
    have hid : id ≠ n.taskId := by
      rintro rfl
      rw [hn] at hs
      cases hs
    exact ⟨snap, by simp [LogStore.insert, hid, hs], .refl snap⟩
  events id := by
    by_cases hid : id = n.taskId
    · subst id
      simp [LogStore.insert, h.unknown hn]
    · simp [LogStore.insert, hid]
  keys {key id} hk' := by
    have hkey : key ≠ n.key := by
      rintro rfl
      rw [hk] at hk'
      cases hk'
    simp [LogStore.insert, hkey, hk']

/-- An append that, if it passes the checks, moves a task that is not terminal to the state of the
appended event. -/
def Legal (db : LogStore) (t : TaskTransition) : Prop :=
  ∀ cur, db.check t = .ok cur → t.nextState = t.eventKind.state ∧ cur.state.terminal = false

variable {t : TaskTransition} {cur : TaskSnapshot}

theorem WF.record (h : db.WF) (hl : db.Legal t) (hc : db.check t = .ok cur) (now : DateTime) :
    (db.record (applied cur t now)).WF := by
  obtain ⟨hnext, hcur⟩ := hl cur hc
  obtain ⟨htask, _, _⟩ := (check_eq_ok_iff db t cur).mp hc
  refine ⟨fun {id snap} hs => ?_, fun {id} hs => ?_, fun {key id} hk => ?_⟩
  · by_cases hid : id = t.taskId
    · subst id
      simp only [LogStore.record, applied, Function.update_self, Option.some.injEq] at hs ⊢
      rw [← hs, hnext]
      exact (h.log htask).advance hcur t.eventKind now
    · simp only [LogStore.record, applied, Function.update_of_ne hid] at hs ⊢
      exact h.log hs
  · by_cases hid : id = t.taskId
    · subst id
      simp [LogStore.record, applied] at hs
    · simp only [LogStore.record, applied, Function.update_of_ne hid] at hs ⊢
      exact h.unknown hs
  · obtain ⟨snap, hsnap, hcaller⟩ := h.keys hk
    by_cases hid : id = t.taskId
    · subst id
      rw [htask] at hsnap
      cases hsnap
      exact ⟨_, Function.update_self .., hcaller⟩
    · exact ⟨snap, by simp [LogStore.record, applied, hid, hsnap], hcaller⟩

theorem extends_record (hl : db.Legal t) (hc : db.check t = .ok cur) (now : DateTime) :
    db.Extends (db.record (applied cur t now)) := by
  obtain ⟨_, hcur⟩ := hl cur hc
  obtain ⟨htask, _, _⟩ := (check_eq_ok_iff db t cur).mp hc
  refine ⟨fun {id snap} hs => ?_, fun id => ?_, fun hk => hk⟩
  · by_cases hid : id = t.taskId
    · subst id
      rw [htask] at hs
      cases hs
      exact ⟨_, Function.update_self .., .advance hcur t.nextState now⟩
    · exact ⟨snap, by simp [LogStore.record, applied, hid, hs], .refl snap⟩
  · by_cases hid : id = t.taskId
    · subst id
      simp [LogStore.record, applied]
    · simp [LogStore.record, applied, hid]

variable {c : ContractChoice}

theorem settle_cases {α : Type} {r r' : Except StoreError α}
    (h : db.settle c db' r = some (db'', r')) :
    (c.fault = none ∧ db'' = db' ∧ r' = r) ∨
      (∃ e, c.fault = some e ∧ e.fault = true ∧ (db'' = db' ∨ db'' = db) ∧ r' = .error e) := by
  unfold settle at h
  cases hf : c.fault with
  | none =>
    rw [hf] at h
    cases h
    exact .inl ⟨rfl, rfl, rfl⟩
  | some e =>
    simp only [hf, ite_none_right_eq_some, Option.some.injEq, Prod.mk.injEq] at h
    obtain ⟨he, hdb, hr⟩ := h
    refine .inr ⟨e, rfl, he, ?_, hr.symm⟩
    by_cases ht : c.tookEffect = true
    · exact .inl (by rw [← hdb, if_pos ht])
    · exact .inr (by rw [← hdb, if_neg ht])

/-- What one operation can do to the store: nothing, create the row of a task under a key, or
append to one task. -/
@[elab_as_elim]
theorem settle_of {α : Type} {P : LogStore → Prop} {r r' : Except StoreError α}
    (h : db.settle c db' r = some (db'', r')) (hdb : P db) (hdb' : P db') : P db'' := by
  rcases settle_cases h with ⟨_, rfl, _⟩ | ⟨_, _, _, rfl | rfl, _⟩
  · exact hdb'
  · exact hdb'
  · exact hdb

theorem exec_cases (h : db.exec o c = some (db', r)) : db' = db ∨
    (∃ n, o = .claim n ∧ db.keys n.key = none ∧ db.tasks n.taskId = none ∧
      db' = db.insert n c.now) ∨
    (∃ t cur, o = .append t ∧ db.check t = .ok cur ∧ db' = db.record (applied cur t c.now)) := by
  cases o with
  | claim n =>
    simp only [exec] at h
    cases hk : db.keys n.key with
    | some id =>
      rw [hk] at h
      exact settle_of h (.inl rfl) (.inl rfl)
    | none =>
      rw [hk] at h
      by_cases hn : (db.tasks n.taskId).isSome = true
      · rw [if_pos hn] at h
        cases h
      · rw [if_neg hn] at h
        rw [not_isSome_iff_eq_none] at hn
        exact settle_of h (.inl rfl) (.inr (.inl ⟨n, rfl, hk, hn, rfl⟩))
  | row key | eventsAfter id afterSeq limit =>
    simp only [exec] at h
    split at h <;> exact settle_of h (.inl rfl) (.inl rfl)
  | get id => exact settle_of h (.inl rfl) (.inl rfl)
  | append t =>
    simp only [exec] at h
    cases hc : db.check t with
    | error e =>
      rw [hc] at h
      exact settle_of h (.inl rfl) (.inl rfl)
    | ok cur =>
      rw [hc] at h
      exact settle_of h (.inl rfl) (.inr (.inr ⟨t, cur, rfl, hc, rfl⟩))

theorem WF.exec (hwf : db.WF) (hl : ∀ t, o = .append t → db.Legal t)
    (h : db.exec o c = some (db', r)) :
    db'.WF ∧ db.Extends db' := by
  rcases exec_cases h with rfl | ⟨n, _, hk, hn, rfl⟩ | ⟨t, cur, ho, hc, rfl⟩
  · exact ⟨hwf, .refl _⟩
  · exact ⟨hwf.insert hn c.now, hwf.extends_insert hn hk c.now⟩
  · exact ⟨hwf.record (hl t ho) hc c.now, extends_record (hl t ho) hc c.now⟩

theorem exec_get {id : TaskId} (h : db.exec (.get id) c = some (db', r)) :
    db' = db ∧ (r = .ok (db.tasks id) ∨ ∃ e, r = .error e ∧ e.fault = true) := by
  rcases settle_cases h with ⟨_, hdb, hr⟩ | ⟨e, _, he, hdb | hdb, hr⟩
  · exact ⟨hdb, .inl hr⟩
  · exact ⟨hdb, .inr ⟨e, hr, he⟩⟩
  · exact ⟨hdb, .inr ⟨e, hr, he⟩⟩

/-- An append that returns has recorded the event it returns; one that fails without a fault of the
storage has failed the checks. -/
theorem exec_append (h : db.exec (.append t) c = some (db', r)) :
    (∃ cur, db.check t = .ok cur ∧ r = .ok (applied cur t c.now) ∧
      db' = db.record (applied cur t c.now)) ∨
    (∃ e, db.check t = .error e ∧ r = .error e ∧ db' = db) ∨
    (∃ e, r = .error e ∧ e.fault = true) := by
  simp only [exec] at h
  cases hc : db.check t with
  | error e =>
    rw [hc] at h
    rcases settle_cases h with ⟨_, hdb, hr⟩ | ⟨e', _, he, _, hr⟩
    · exact .inr (.inl ⟨e, rfl, hr, hdb⟩)
    · exact .inr (.inr ⟨e', hr, he⟩)
  | ok cur =>
    rw [hc] at h
    rcases settle_cases h with ⟨_, hdb, hr⟩ | ⟨e', _, he, _, hr⟩
    · exact .inl ⟨cur, rfl, hr, hdb⟩
    · exact .inr (.inr ⟨e', hr, he⟩)

theorem exec_claim (h : db.exec (.claim n) c = some (db', r)) :
    (r = .ok true ∧ db.tasks n.taskId = none ∧ db.keys n.key = none ∧ db' = db.insert n c.now) ∨
    (r = .ok false ∧ (∃ id, db.keys n.key = some id) ∧ db' = db) ∨
    (∃ e, r = .error e ∧ e.fault = true) := by
  simp only [exec] at h
  cases hk : db.keys n.key with
  | some id =>
    rw [hk] at h
    rcases settle_cases h with ⟨_, hdb, hr⟩ | ⟨e, _, he, _, hr⟩
    · exact .inr (.inl ⟨hr, ⟨id, rfl⟩, hdb⟩)
    · exact .inr (.inr ⟨e, hr, he⟩)
  | none =>
    rw [hk] at h
    by_cases hn : (db.tasks n.taskId).isSome = true
    · rw [if_pos hn] at h
      cases h
    · rw [if_neg hn] at h
      rw [not_isSome_iff_eq_none] at hn
      rcases settle_cases h with ⟨_, hdb, hr⟩ | ⟨e, _, he, _, hr⟩
      · exact .inl ⟨hr, hn, rfl, hdb⟩
      · exact .inr (.inr ⟨e, hr, he⟩)

theorem exec_row (hwf : db.WF) (h : db.exec (.row key) c = some (db', r)) :
    db' = db ∧ ((∃ id s, db.keys key = some id ∧ db.tasks id = some s ∧ r = .ok s) ∨
      (db.keys key = none ∧ ∃ e, r = .error e) ∨ ∃ e, r = .error e ∧ e.fault = true) := by
  simp only [exec] at h
  cases hk : db.keys key with
  | none =>
    simp only [hk, bind_none] at h
    rcases settle_cases h with ⟨_, hdb, hr⟩ | ⟨e, _, he, hdb | hdb, hr⟩
    · exact ⟨hdb, .inr (.inl ⟨rfl, _, hr⟩)⟩
    · exact ⟨hdb, .inr (.inr ⟨e, hr, he⟩)⟩
    · exact ⟨hdb, .inr (.inr ⟨e, hr, he⟩)⟩
  | some id =>
    obtain ⟨s, hs, _⟩ := hwf.keys hk
    simp only [hk, bind_some, hs] at h
    rcases settle_cases h with ⟨_, hdb, hr⟩ | ⟨e, _, he, hdb | hdb, hr⟩
    · exact ⟨hdb, .inl ⟨id, s, rfl, hs, hr⟩⟩
    · exact ⟨hdb, .inr (.inr ⟨e, hr, he⟩)⟩
    · exact ⟨hdb, .inr (.inr ⟨e, hr, he⟩)⟩

theorem eq_of_mem_events_record {id : TaskId} (h : e ∈ (db.record (applied cur t now)).events id) :
    e ∈ db.events id ∨ (t.taskId = id ∧ (applied cur t now).event = e) := by
  change e ∈ Function.update db.events t.taskId _ id at h
  by_cases hid : id = t.taskId
  · subst hid
    rw [Function.update_self] at h
    rcases mem_append.mp h with hold | hnew
    · exact .inl hold
    · exact .inr ⟨rfl, (mem_singleton.mp hnew).symm⟩
  · rw [Function.update_of_ne hid] at h
    exact .inl h

theorem mem_events_record (db : LogStore) (cur : TaskSnapshot) (t : TaskTransition)
    (now : DateTime) :
    (applied cur t now).event ∈ (db.record (applied cur t now)).events t.taskId := by
  simp [LogStore.record, applied]

end LogStore

end AgentConnector
