import AgentConnector.AppliedTransitions
import AgentConnector.TaskLifecycle

/-!
# The exit paths of calls and workers

A call that has created a task and does not spawn its worker, and a worker that ends, are to leave
the task in a terminal state. They do so in runs in which the storage does not fail and in which
each append on an exit path is timely: it finds the revision it was decided on. The protocol of this
module carries what a thread has created and spawned; every step keeps it.
-/

namespace AgentConnector

open Concurrent Protocol Option

variable {setup : CoreSetup}

def Site.exits : Site → Bool
  | .invokeAccept | .invokeReject | .workerError | .workerTimeout => true
  | _ => false

/-- An append on an exit path finds the revision it was decided on, and the acceptance finds the
task as it was created. -/
def CoreOp.ExitTimely (s : CoreState LogStore) (site : Option Site) : CoreOp contractSig → Prop
  | .store (.append t) => (∃ x ∈ site, x.exits = true) →
      ∃ cur ∈ s.db.tasks t.taskId, cur.revision = t.expectedRevision ∧
        (site = some .invokeAccept → cur.state = .created)
  | _ => True

instance (s : CoreState LogStore) (site : Option Site) (o : CoreOp contractSig) :
    Decidable (CoreOp.ExitTimely s site o) :=
  decidable_of_bool (match o with
    | .store (.append t) => (∃ x ∈ site, x.exits = true) →
        ∃ cur ∈ s.db.tasks t.taskId, cur.revision = t.expectedRevision ∧
          (site = some .invokeAccept → cur.state = .created)
    | _ => true) (by unfold CoreOp.ExitTimely; split <;> simp only [decide_eq_true_eq])

structure ExitStep (st : Step (contractCore setup)) : Prop where
  fault : ¬ CoreOp.Fault st.op st.reply
  timely : CoreOp.ExitTimely st.pre (st.pre.sites st.tid) st.op

def CoreState.Stored (s : CoreState LogStore) (id : TaskId) : Prop :=
  (s.db.tasks id).isSome = true

theorem CoreState.Stored.extends {s s' : CoreState LogStore} {id : TaskId} (h : s.Stored id)
    (hext : s.Extends s') : s'.Stored id := by
  obtain ⟨snap, hsnap⟩ := isSome_iff_exists.mp h
  obtain ⟨snap', hsnap', _⟩ := hext.db.task hsnap
  exact isSome_iff_exists.mpr ⟨snap', hsnap'⟩

structure ExitInv (w : World (contractCore setup)) : Prop where
  state : w.state.WF
  created : ∀ id, w.state.Stored id → ∃ st ∈ w.trace, Creates st id

structure ExitRely (tid : ℕ) (w w' : World (contractCore setup)) : Prop where
  state : w.state.Extends w'.state
  own : ∀ st ∈ w.own tid, st ∈ w'.own tid
  creates : ∀ st ∈ w'.own tid, ∀ id, Creates st id → st ∈ w.own tid
  site : w'.state.sites tid = w.state.sites tid

/-- What a call leaves behind: the tasks it has created have ended or, if it succeeds, have got a
worker. -/
def Accounted (w : World (contractCore setup)) (tid : ℕ) (r : Except CoreError DispatchResult) :
    Prop :=
  ∀ st ∈ w.own tid, ∀ id, Creates st id →
    w.state.Ended id ∨ (∃ a, r = .ok a) ∧ ∃ st' ∈ w.own tid, Spawns st' id

def exitProtocol (setup : CoreSetup) : Protocol (contractCore setup) where
  given _ st := CoreStep st ∧ ExitStep st
  inv := ExitInv
  rely := ExitRely
  pre _ e w := match e with
    | .worker args => w.state.Stored args.taskId
    | _ => True
  post tid e r w := match e with
    | .worker args => w.state.Ended args.taskId
    | .dispatch _ _ => ∃ result, r = .dispatched result ∧ Accounted w tid result
    | _ => True
  rely_refl _ _ := ⟨.refl _, fun _ h => h, fun _ h _ _ => h, rfl⟩
  rely_trans _ _ _ _ h h' :=
    { state := h.state.trans h'.state
      own := fun st hst => h'.own st (h.own st hst)
      creates := fun st hst id hc => h.creates st (h'.creates st hst id hc) id hc
      site := h'.site.trans h.site }

section

variable {w : World (contractCore setup)} {tid next : ℕ} {o : CoreOp contractSig}
variable {c : CoreChoice ContractChoice} {s : CoreState LogStore} {r : o.Reply}

theorem keeps_exit (hi : ExitInv w) (hex : coreExec contractMachine tid w.state o c = some (s, r))
    (hg : (exitProtocol setup).given w ⟨tid, o, r, w.state, s, next⟩)
    (hspawn : ∀ args, o = .spawn args → w.state.Stored args.taskId) :
    (exitProtocol setup).Keeps w ⟨tid, o, r, w.state, s, next⟩ := by
  obtain ⟨hstep, _⟩ := hg
  have hext : w.state.Extends s := hstep.grows
  constructor
  · refine ⟨hstep.wf, fun id hid => ?_⟩
    cases hold : w.state.db.tasks id with
    | none => exact ⟨_, List.mem_cons_self .., hold, hid⟩
    | some snap =>
      obtain ⟨st, hst, hc⟩ := hi.created id (isSome_iff_exists.mpr ⟨snap, hold⟩)
      exact ⟨st, List.mem_cons_of_mem _ hst, hc⟩
  · intro j hj
    have hown : (w.push ⟨tid, o, r, w.state, s, next⟩).own j = w.own j :=
      World.own_push_ne w (Ne.symm hj)
    refine ⟨hext, ?_, ?_, coreExec_sites hex hj⟩
    · rw [hown]
      exact fun _ h => h
    · rw [hown]
      exact fun _ h _ _ => h
  · intro e he
    cases o with
    | spawn args =>
      cases he
      exact (hspawn args rfl).extends hext
    | _ => cases he

end

theorem Creates.claim {id : TaskId} (h : Creates st id)
    (hex : coreExec contractMachine st.tid st.pre st.op c = some (st.post, st.reply)) :
    ∃ n, st.op = .store (.claim n) := by
  obtain ⟨hnone, hsome⟩ := h
  rcases coreExec_db hex with hdb | ⟨n, hop, _⟩ | ⟨t, cur, _, hc, hdb⟩
  · rw [hdb, hnone] at hsome
    cases hsome
  · exact ⟨n, hop⟩
  · obtain ⟨hcur, _, _⟩ := (LogStore.check_eq_ok_iff _ t cur).mp hc
    have hid : id ≠ t.taskId := by
      rintro rfl
      rw [hcur] at hnone
      cases hnone
    rw [hdb] at hsome
    simp only [LogStore.record, LogStore.applied, Function.update_of_ne hid, hnone] at hsome
    cases hsome

theorem not_creates {w : World (contractCore setup)}
    (hex : coreExec contractMachine tid w.state o c = some (s, r))
    (hclaim : ∀ n, o ≠ .store (.claim n)) (id : TaskId) :
    ¬ Creates (⟨tid, o, r, w.state, s, next⟩ : Step (contractCore setup)) id := by
  intro h
  obtain ⟨n, hop⟩ := h.claim hex
  exact hclaim n hop

variable {tid : ℕ}

theorem carries_exit {J : World (contractCore setup) → Prop}
    (hstable : (exitProtocol setup).Stable tid J)
    (hstep : ∀ w o c s r next, (∀ n, o ≠ .store (.claim n)) →
      coreExec contractMachine tid w.state o c = some (s, r) → w.state.Extends s → J w →
      J (w.push ⟨tid, o, r, w.state, s, next⟩)) :
    Carries setup (exitProtocol setup) tid J (fun _ => True) where
  wf _ hi := hi.state
  grows _ _ he := he.rely.state
  stable := hstable
  free w o c s r next ho hi hw hex hg := by
    refine ⟨keeps_exit hi hex hg (fun args h => absurd h (ho.ne_spawn args)), ?_⟩
    refine hstep w o c s r next (fun n h => ?_) hex hg.1.grows hw
    subst h
    exact ho
  send w id e c s r next he hi hw hex hg :=
    ⟨keeps_exit hi hex hg (fun _ h => by cases h),
      hstep w _ c s r next (fun _ h => by cases h) hex hg.1.grows hw⟩
  append w t c s r next hl ht hi hw hex hg :=
    ⟨keeps_exit hi hex hg (fun _ h => by cases h),
      hstep w _ c s r next (fun _ h => by cases h) hex hg.1.grows hw⟩

theorem carries_stored (id : TaskId) :
    Carries setup (exitProtocol setup) tid (fun w => w.state.Stored id) (fun _ => True) :=
  carries_exit (fun _ _ he h => h.extends he.rely.state)
    (fun _ _ _ _ _ _ _ _ hext h => h.extends hext)

theorem carries_ended (id : TaskId) :
    Carries setup (exitProtocol setup) tid (fun w => w.state.Ended id) (fun _ => True) :=
  carries_exit (fun _ _ he h => h.extends he.rely.state)
    (fun _ _ _ _ _ _ _ _ hext h => h.extends hext)

def CreatedOnly (tid : ℕ) (id : TaskId) (w : World (contractCore setup)) : Prop :=
  w.state.Stored id ∧ ∀ st ∈ w.own tid, ∀ id', Creates st id' → id' = id

def CreatedNone (tid : ℕ) (w : World (contractCore setup)) : Prop :=
  ∀ st ∈ w.own tid, ∀ id, ¬ Creates st id

theorem carries_createdOnly (id : TaskId) :
    Carries setup (exitProtocol setup) tid (CreatedOnly tid id) (fun _ => True) := by
  apply carries_exit
  · rintro w w' he ⟨hstored, hall⟩
    refine ⟨hstored.extends he.rely.state, fun st hst id' hc => ?_⟩
    exact hall st (he.rely.creates st hst id' hc) id' hc
  · rintro w o c s r next hclaim hex hext ⟨hstored, hall⟩
    refine ⟨hstored.extends hext, ?_⟩
    rw [World.own_push_self]
    intro st hst id' hc
    rcases List.mem_cons.mp hst with rfl | hst
    · exact absurd hc (not_creates hex hclaim id')
    · exact hall st hst id' hc

theorem carries_createdNone :
    Carries setup (exitProtocol setup) tid (CreatedNone tid) (fun _ => True) := by
  apply carries_exit
  · intro w w' he h st hst id hc
    exact h st (he.rely.creates st hst id hc) id hc
  · intro w o c s r next hclaim hex _ h
    rw [CreatedNone, World.own_push_self]
    intro st hst id hc
    rcases List.mem_cons.mp hst with rfl | hst
    · exact not_creates hex hclaim id hc
    · exact h st hst id hc

end AgentConnector
