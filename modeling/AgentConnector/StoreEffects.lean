import AgentConnector.StoreCalls
import AgentConnector.IsolatedThreads

/-!
# What a step of a store call may do

A step of a call leaves everything that is stored as it is, or it is the one step at which the call
takes effect: an append changes the row of its task and adds one event, a creation adds a task under
its key, a lease call changes the lease of its task, retention deletes. `Obeys` says that all calls
of a store keep to this, and what their results tell about the step at which they took effect.
-/

namespace AgentConnector

open Concurrent List

namespace StoreView

variable {D : Type} (V : StoreView D)

/-- The stored snapshot of a task. -/
def stored (d : D) (id : TaskId) : Option (Except StoreError TaskSnapshot) :=
  (V.row d id).map V.snapshot

/-- The row and the event log of a task are the same. -/
structure SameTask (id : TaskId) (d d' : D) : Prop where
  row : V.row d' id = V.row d id
  log : V.log d' id = V.log d id

structure SameTasks (d d' : D) : Prop where
  task : ∀ id, V.SameTask id d d'
  owner : ∀ key, V.owner d' key = V.owner d key

/-- Everything that is stored is the same. -/
structure Same (d d' : D) : Prop extends V.SameTasks d d' where
  lease : ∀ id, V.lease d' id = V.lease d id

/-- The append `t` has found the snapshot `cur` and has taken effect with the result `a`. -/
structure AppliesTo (t : TaskTransition) (cur : TaskSnapshot) (a : AppliedTransition) (d d' : D) :
    Prop where
  current : V.stored d t.taskId = some (.ok cur)
  revision : cur.revision = t.expectedRevision
  allowed : cur.state ∈ t.allowedStates
  stored : V.stored d' t.taskId = some (.ok a.snapshot)
  state : a.snapshot.state = t.nextState
  /-- The counters are 64 bits wide. -/
  counters : cur.revision < 2 ^ 63 → cur.lastSeq < 2 ^ 63 →
    a.snapshot.revision = cur.revision + 1 ∧ a.snapshot.lastSeq = cur.lastSeq + 1
  event : a.event.taskId = t.taskId ∧ a.event.seq = cur.lastSeq + 1 ∧ a.event.kind = t.eventKind
  logged : ∃ row e, V.log d' t.taskId = V.log d t.taskId ++ [row] ∧ V.event t.taskId row = .ok e ∧
    e.taskId = t.taskId ∧ (cur.lastSeq < 2 ^ 63 → e.seq = cur.lastSeq + 1) ∧ e.kind = t.eventKind
  others : ∀ id, id ≠ t.taskId → V.SameTask id d d'
  owner : ∀ key, V.owner d' key = V.owner d key
  lease : ∀ id, V.lease d' id = V.lease d id

/-- The task `n` has been created, under a key that had none. -/
structure Creates (n : NewTask) (d d' : D) : Prop where
  key : V.owner d n.key = none
  owner : V.owner d' n.key = some n.taskId
  stored : ∃ s, V.stored d' n.taskId = some (.ok s) ∧ s.taskId = n.taskId ∧
    s.callerId = n.callerId ∧
    s.state = .created ∧ s.revision = 0 ∧ s.lastSeq = 0
  log : V.log d' n.taskId = []
  others : ∀ id, id ≠ n.taskId → V.SameTask id d d'
  owners : ∀ key, key ≠ n.key → V.owner d' key = V.owner d key
  lease : ∀ id, V.lease d' id = V.lease d id

structure LeasesOf (id : TaskId) (d d' : D) : Prop extends V.SameTasks d d' where
  others : ∀ id', id' ≠ id → V.lease d' id' = V.lease d id'

/-- A task has been deleted together with its events, or some of its events have been deleted. -/
structure Cleans (d d' : D) : Prop where
  task : ∀ id, (V.row d' id = V.row d id ∧ (V.log d' id).Sublist (V.log d id)) ∨
    (V.row d' id = none ∧ V.log d' id = [])

/-- What a step of a call may do. With `strict`, a task is only ever created under an identifier
that is not in use. -/
def StepOf (strict : Prop) (d d' : D) : StoreCall → Prop
  | .create n => V.Same d d' ∨ (V.Creates n d d' ∧ (strict → V.row d n.taskId = none))
  | .append t => V.Same d d' ∨ ∃ cur a, V.AppliesTo t cur a d d'
  | .acquireLease l => V.LeasesOf l.taskId d d'
  | .renewLease l => V.LeasesOf l.taskId d d'
  | .cleanup _ => V.Cleans d d'
  | _ => V.Same d d'

variable {V}

theorem SameTask.refl (id : TaskId) (d : D) : V.SameTask id d d := ⟨rfl, rfl⟩

theorem SameTasks.refl (d : D) : V.SameTasks d d := ⟨fun id => .refl id d, fun _ => rfl⟩

theorem Same.refl (d : D) : V.Same d d := ⟨.refl d, fun _ => rfl⟩

variable {id : TaskId}

theorem SameTask.trans (h : V.SameTask id d d') (h' : V.SameTask id d' d'') : V.SameTask id d d'' :=
  ⟨h'.row.trans h.row, h'.log.trans h.log⟩

theorem AppliesTo.changes (h : V.AppliesTo t cur a d d') : ¬ V.SameTask t.taskId d d' := by
  intro hsame
  obtain ⟨row, e, hlog, _⟩ := h.logged
  rw [hsame.log] at hlog
  simp at hlog

theorem SameTask.stored_eq (h : V.SameTask id d d') :
    V.stored d' id = V.stored d id := by
  rw [stored, stored, h.row]

theorem Same.stepOf {strict : Prop} (h : V.Same d d') (c : StoreCall) :
    V.StepOf strict d d' c := by
  cases c with
  | create n | append t => exact .inl h
  | getSnapshot id => exact h
  | eventsAfter id afterSeq limit => exact h
  | acquireLease l | renewLease l => exact ⟨h.toSameTasks, fun id _ => h.lease id⟩
  | cleanup policy =>
    exact ⟨fun id => .inl ⟨(h.task id).row, by rw [(h.task id).log]⟩⟩

inductive TaskStep (V : StoreView D) (strict : Prop) (id : TaskId) (d d' : D) :
  StoreCall → Prop where
  | same {c : StoreCall} : V.SameTask id d d' → TaskStep V strict id d d' c
  | append {t : TaskTransition} {cur : TaskSnapshot} {a : AppliedTransition} : t.taskId = id →
      V.AppliesTo t cur a d d' → TaskStep V strict id d d' (.append t)
  | create {n : NewTask} : n.taskId = id → V.Creates n d d' → (strict → V.row d id = none) →
      TaskStep V strict id d d' (.create n)
  | clean {policy : RetentionPolicy} : V.row d' id = V.row d id →
      (V.log d' id).Sublist (V.log d id) → TaskStep V strict id d d' (.cleanup policy)
  | delete {policy : RetentionPolicy} : V.row d' id = none → V.log d' id = [] →
      TaskStep V strict id d d' (.cleanup policy)

theorem taskStep_of_stepOf {strict : Prop} (h : V.StepOf strict d d' c) (id : TaskId) :
    V.TaskStep strict id d d' c := by
  cases c with
  | create n =>
    rcases h with hsame | ⟨hcreates, hfree⟩
    · exact .same (hsame.task id)
    · by_cases hid : n.taskId = id
      · subst hid
        exact .create rfl hcreates hfree
      · exact .same (hcreates.others id (Ne.symm hid))
  | append t =>
    rcases h with hsame | ⟨cur, a, happlies⟩
    · exact .same (hsame.task id)
    · by_cases hid : t.taskId = id
      · exact .append hid happlies
      · exact .same (happlies.others id (Ne.symm hid))
  | getSnapshot id' | eventsAfter id' afterSeq limit | acquireLease lease | renewLease lease =>
    exact .same (h.task id)
  | cleanup policy =>
    rcases h.task id with ⟨hrow, hlog⟩ | ⟨hrow, hlog⟩
    · exact .clean hrow hlog
    · exact .delete hrow hlog

section Comap

variable {E : Type} {f : E → D} {s s' : E}

theorem Same.of_eq (h : f s' = f s) : (V.comap f).Same s s' where
  task id := ⟨congrArg (fun d => V.row d id) h, congrArg (fun d => V.log d id) h⟩
  owner key := congrArg (fun d => V.owner d key) h
  lease id := congrArg (fun d => V.lease d id) h

theorem SameTask.comap (h : V.SameTask id (f s) (f s')) :
    (V.comap f).SameTask id s s' := ⟨h.row, h.log⟩

theorem SameTasks.comap (h : V.SameTasks (f s) (f s')) : (V.comap f).SameTasks s s' :=
  ⟨fun id => (h.task id).comap, h.owner⟩

theorem AppliesTo.comap (h : V.AppliesTo t cur a (f s) (f s')) :
    (V.comap f).AppliesTo t cur a s s' :=
  ⟨h.current, h.revision, h.allowed, h.stored, h.state, h.counters, h.event, h.logged,
    fun id hid => (h.others id hid).comap, h.owner, h.lease⟩

theorem Creates.comap (h : V.Creates n (f s) (f s')) : (V.comap f).Creates n s s' :=
  ⟨h.key, h.owner, h.stored, h.log, fun id hid => (h.others id hid).comap, h.owners, h.lease⟩

theorem Cleans.comap (h : V.Cleans (f s) (f s')) : (V.comap f).Cleans s s' := ⟨h.task⟩

theorem LeasesOf.comap (h : V.LeasesOf id (f s) (f s')) :
    (V.comap f).LeasesOf id s s' := ⟨h.toSameTasks.comap, h.others⟩

end Comap

end StoreView

namespace DurableMachine

variable {M : DurableMachine} {db : M.Db}

def AllSame (l : List (Step (storeService M db))) : Prop := ∀ st ∈ l, M.view.Same st.pre st.post

/-- The steps of a call that has failed: nothing has changed, unless a failure left that open. -/
def Failed (l : List (Step (storeService M db))) : Prop :=
  AllSame l ∨ ∃ st ∈ l, M.inDoubt st.op st.reply = true

variable {st : Step (storeService M db)} {l : List (Step (storeService M db))}

theorem AllSame.cons (hl : AllSame l) (h : M.view.Same st.pre st.post) : AllSame (st :: l) := by
  intro st' hst'
  rcases mem_cons.mp hst' with rfl | hmem
  · exact h
  · exact hl st' hmem

theorem allSame_singleton (h : M.view.Same st.pre st.post) : AllSame [st] := by
  intro st' hst'
  rw [mem_singleton.mp hst']
  exact h

theorem Failed.cons (hl : Failed l) (h : M.view.Same st.pre st.post) : Failed (st :: l) := by
  rcases hl with hsame | ⟨st', hst', hdoubt⟩
  · exact .inl (hsame.cons h)
  · exact .inr ⟨st', mem_cons_of_mem _ hst', hdoubt⟩

/-- A step of a call: it keeps to what the call may do, and a call takes effect at most once unless
it is a retention run. -/
def Guarantee (strict : Prop) (c : StoreCall) (l : List (Step (storeService M db)))
    (st : Step (storeService M db)) : Prop :=
  M.view.StepOf strict st.pre st.post c ∧
    ((∃ policy, c = .cleanup policy) ∨ M.view.Same st.pre st.post ∨ AllSame l)

def Lenient (G : List (Step (storeService M db)) → Step (storeService M db) → Prop) : Prop :=
  ∀ l st, M.view.Same st.pre st.post → G l st

variable {c : StoreCall}

variable {strict : Prop}

theorem guarantee_first (h : M.view.StepOf strict st.pre st.post c) : Guarantee strict c [] st :=
  ⟨h, .inr (.inr fun st' hst' => by cases hst')⟩

theorem guarantee_same (l : List (Step (storeService M db))) (h : M.view.Same st.pre st.post) :
    Guarantee strict c l st :=
  ⟨h.stepOf c, .inr (.inl h)⟩

theorem lenient_guarantee :
    Lenient (fun (l : List (Step (storeService M db))) st => Guarantee strict c l st) :=
  fun l _ h => guarantee_same l h

theorem guarantee_effect (h : M.view.StepOf strict st.pre st.post c) (hl : AllSame l) :
    Guarantee strict c l st :=
  ⟨h, .inr (.inr hl)⟩

def Post (c : StoreCall) (r : StoreResult) (l : List (Step (storeService M db))) : Prop :=
  match c, r with
  | .append t, .applied (.ok a) => ∃ st ∈ l, ∃ cur, M.view.AppliesTo t cur a st.pre st.post
  | .append _, .applied (.error _) => Failed l
  | .create n, .created (.ok (.created s)) => (∃ st ∈ l, M.view.Creates n st.pre st.post) ∧
      ∃ st ∈ l, M.view.owner st.post n.key = some s.taskId
  | .create n, .created (.ok (.existing s)) => AllSame l ∧
      ∃ st ∈ l, M.view.owner st.post n.key = some s.taskId
  | _, _ => True

/-- What is known of the result of a call and does not depend on steps that change nothing. -/
def Lasting {α : Type} (R : Except StoreError α → List (Step (storeService M db)) → Prop) : Prop :=
  ∀ r st l, R r l → M.view.Same st.pre st.post → R r (st :: l)

theorem lasting_true {α : Type} :
    Lasting (fun (_ : Except StoreError α) (_ : List (Step (storeService M db))) => True) :=
  fun _ _ _ _ _ => trivial

theorem lasting_append (t : TaskTransition) :
    Lasting (fun r (l : List (Step (storeService M db))) => Post (.append t) (.applied r) l) := by
  intro r st l hr hsame
  cases r with
  | ok a =>
    obtain ⟨st', hst', happlies⟩ := hr
    exact ⟨st', mem_cons_of_mem _ hst', happlies⟩
  | error e => exact Failed.cons hr hsame

theorem lasting_create (n : NewTask) :
    Lasting (fun r (l : List (Step (storeService M db))) => Post (.create n) (.created r) l) := by
  intro r st l hr hsame
  cases r with
  | error e => trivial
  | ok result =>
    cases result with
    | created s =>
      obtain ⟨⟨st', hst', hcreates⟩, st'', hst'', howner⟩ := hr
      exact ⟨⟨st', mem_cons_of_mem _ hst', hcreates⟩,
        st'', mem_cons_of_mem _ hst'', howner⟩
    | existing s =>
      obtain ⟨hall, st', hst', howner⟩ := hr
      exact ⟨hall.cons hsame, st', mem_cons_of_mem _ hst', howner⟩

def Obeys (strict : Prop) (M : DurableMachine) : Prop :=
  ∀ db, M.Settled db → ∃ I : Isolation (storeService M db), ∀ tid c,
    I.Safe tid (Guarantee strict c) (fun r _ l => Post c r l) (M.program c) I.idle []

/-- The same of calls that follow each other in one thread, also after one that was dropped. -/
structure Serves (strict : Prop) (M : DurableMachine) (db : M.Db)
    (I : Isolation (storeService M db)) : Prop where
  call : ∀ tid c x, I.Safe tid (Guarantee strict c) (fun r _ l => Post c r l) (M.program c) x []
  abandon : ∀ tid x, I.Safe tid (fun _ st => M.view.Same st.pre st.post) (fun _ _ _ => True)
    M.store.abandon x []

section

variable {strict : Prop} {p : Pool (storeService M db)} (hM : Obeys strict M) (hdb : M.Settled db)
  (hp : p.Reachable)

include hM hdb hp

theorem Obeys.kept (hst : st ∈ p.trace) :
    ∃ th l l', p.threads[st.tid]? = some th ∧ p.own st.tid = l ++ st :: l' ∧
      Guarantee strict th.entry l' st := by
  obtain ⟨I, hI⟩ := hM db hdb
  exact Isolation.kept_of_mem_trace hI hp hst

theorem Obeys.kept_own (hth : p.threads[tid]? = some th) (hown : p.own tid = l ++ st :: l') :
    Guarantee strict th.entry l' st := by
  obtain ⟨I, hI⟩ := hM db hdb
  exact (Isolation.follows_of_reachable hI hp hth).kept hown

theorem Obeys.post (hth : p.threads[tid]? = some th) (hr : th.prog.result? = some r) :
    Post th.entry r (p.own tid) := by
  obtain ⟨I, hI⟩ := hM db hdb
  exact Isolation.post_of_reachable hI hp hth hr

end

end DurableMachine

end AgentConnector
