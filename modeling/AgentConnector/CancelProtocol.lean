import AgentConnector.AppliedTransitions
import AgentConnector.TaskLifecycle

/-!
# The protocol of a driver that confirms cancellation

One worker is singled out. Its driver reports progress, artifacts and requests for input and then
confirms the cancellation; nothing fails and no timer elapses under it, and the store admits each of
its driver events. On top of custody the protocol states that the task of this worker does not end
before the confirmation, and then ends as cancelled; the other threads are not restricted.
-/

namespace AgentConnector

open Concurrent Protocol

variable {setup : CoreSetup} {worker tid : ℕ}

def DriverEvent.reports : DriverEvent → Bool
  | .accepted | .progress _ _ | .artifact _ | .inputRequired _ => true
  | _ => false

def endsInCancelled : List DriverEvent → Bool
  | [] => false
  | [.cancelled] => true
  | event :: rest => event.reports && endsInCancelled rest

theorem endsInCancelled_cons (hevent : event ≠ .cancelled)
    (h : endsInCancelled (event :: rest) = true) :
    event.reports = true ∧ endsInCancelled rest = true := by
  cases event with
  | cancelled => exact absurd rfl hevent
  | _ => exact Bool.and_eq_true_iff.mp h

def CoreOp.DriverCancels : (o : CoreOp contractSig) → o.Reply → Prop
  | .driverInvoke _ _ _, r => ∃ events ∈ r.toOption, endsInCancelled events = true
  | _, _ => True

variable (s : CoreState LogStore)

/-- The append of a driver event passes the checks of the store. -/
def CoreOp.EventAdmitted (site : Option Site) : CoreOp contractSig → Prop
  | .store (.append t) => site = some .driverEvent → (s.db.check t).isOk = true
  | _ => True

instance (o : CoreOp contractSig) (r : o.Reply) : Decidable (CoreOp.DriverCancels o r) :=
  decidable_of_bool (match o, r with
    | .driverInvoke _ _ _, r => ∃ events ∈ r.toOption, endsInCancelled events = true
    | _, _ => true) (by unfold CoreOp.DriverCancels; split <;> simp)

instance (s : CoreState LogStore) (site : Option Site) (o : CoreOp contractSig) :
    Decidable (CoreOp.EventAdmitted s site o) :=
  decidable_of_bool (match o with
    | .store (.append t) => site = some .driverEvent → (s.db.check t).isOk = true
    | _ => true) (by unfold CoreOp.EventAdmitted; split <;> simp only [decide_eq_true_eq])

structure CancelStep (st : Step (contractCore setup)) : Prop where
  fault : ¬ CoreOp.Fault st.op st.reply
  driver : CoreOp.DriverCancels st.op st.reply
  timer : CoreOp.TimerPending st.op st.reply
  admitted : CoreOp.EventAdmitted st.pre (st.pre.sites st.tid) st.op

def CoreState.Live (id : TaskId) : Prop :=
  ∃ snap, s.db.tasks id = some snap ∧ snap.state.terminal = false

def CoreState.Cancelled (id : TaskId) : Prop :=
  ∃ snap, s.db.tasks id = some snap ∧ snap.state = .cancelled

variable {id : TaskId}

theorem CoreState.Cancelled.extends {s s' : CoreState LogStore} (h : s.Cancelled id)
    (hext : s.Extends s') : s'.Cancelled id := by
  obtain ⟨snap, hsnap, hstate⟩ := h
  obtain ⟨snap', hsnap', hsucc⟩ := hext.db.task hsnap
  have hsame : snap' = snap := hsucc.terminal (by rw [hstate]; rfl)
  exact ⟨snap', hsnap', by rw [hsame]; exact hstate⟩

theorem CoreState.Live.coreExec {s s' : CoreState LogStore} (h : s.Live id) (hext : s.Extends s')
    (hex : coreExec contractMachine tid s o c = some (s', r))
    (hend : ∀ t, o = .store (.append t) → t.taskId = id → t.nextState.terminal = false) :
    s'.Live id := by
  obtain ⟨snap, hsnap, hlive⟩ := h
  obtain ⟨snap', hsnap', _⟩ := hext.db.task hsnap
  refine ⟨snap', hsnap', ?_⟩
  cases hterminal : snap'.state.terminal with
  | false => rfl
  | true =>
    obtain ⟨t, hop, hid, ht, _⟩ := coreExec_terminal hex hsnap hsnap' hterminal hlive
    rw [hend t hop hid] at ht
    cases ht

structure CancelInv (worker : ℕ) (w : World (contractCore setup)) : Prop where
  custody : CustodyInv w
  cancelled : ∀ id snap, HoldsAsWorker w worker id → w.state.db.tasks id = some snap →
    snap.state.terminal = true → snap.state = .cancelled

def cancelProtocol (worker : ℕ) (setup : CoreSetup) : Protocol (contractCore setup) where
  given w st := (custodyProtocol setup).Keeps w st ∧ (st.tid = worker → CancelStep st)
  inv := CancelInv worker
  rely tid w w' := CustodyRely tid w w' ∧ w'.state.sites tid = w.state.sites tid
  pre tid e w := match e with
    | .worker args => HoldsAsWorker w tid args.taskId ∧ w.state.Live args.taskId
    | _ => True
  post tid e _ w := tid = worker → ∀ id, e.worker? = some id → w.state.Cancelled id
  rely_refl tid w := ⟨.refl tid w, rfl⟩
  rely_trans _ _ _ _ h h' := ⟨h.1.trans h'.1, h'.2.trans h.2⟩

section

variable {w : World (contractCore setup)} {next : ℕ} {o : CoreOp contractSig}
variable {c : CoreChoice ContractChoice} {s : CoreState LogStore} {r : o.Reply}

theorem cancel_grows (hg : (cancelProtocol worker setup).given w ⟨tid, o, r, w.state, s, next⟩) :
    w.state.Extends s :=
  (hg.1.rely (tid + 1) (Nat.succ_ne_self _)).state

/-- A step keeps the protocol if it spawns workers for live tasks only and ends the task of the
worker only as cancelled. -/
theorem keeps_cancel (hi : CancelInv worker w)
    (hex : coreExec contractMachine tid w.state o c = some (s, r))
    (hg : (cancelProtocol worker setup).given w ⟨tid, o, r, w.state, s, next⟩)
    (hspawn : ∀ args, o = .spawn args → w.state.Live args.taskId)
    (hend : ∀ t, o = .store (.append t) → t.nextState.terminal = true →
      HoldsAsWorker w worker t.taskId → t.nextState = .cancelled) :
    (cancelProtocol worker setup).Keeps w ⟨tid, o, r, w.state, s, next⟩ := by
  have hext := cancel_grows hg
  have hlive : ∀ args, o = .spawn args → s.Live args.taskId := by
    intro args hop
    exact (hspawn args hop).coreExec hext hex (fun t ht => by rw [hop] at ht; cases ht)
  constructor
  · refine ⟨hg.1.inv, ?_⟩
    rintro id snap' ⟨st, hst, hspawns, hnext⟩ hsnap' hterminal
    rcases List.mem_cons.mp hst with rfl | hst
    · obtain ⟨args, hop, rfl⟩ := hspawns
      obtain ⟨snap, hsnap, hnot⟩ := hlive args hop
      rw [World.push_state, hsnap] at hsnap'
      cases hsnap'
      rw [hnot] at hterminal
      cases hterminal
    · have hholds : HoldsAsWorker w worker id := ⟨st, hst, hspawns, hnext⟩
      obtain ⟨snap, hsnap⟩ := Option.isSome_iff_exists.mp (hi.custody.spawned st hst id hspawns)
      cases hbefore : snap.state.terminal with
      | true =>
        obtain ⟨snap'', hsnap'', hsucc⟩ := hext.db.task hsnap
        rw [World.push_state, hsnap''] at hsnap'
        cases hsnap'
        rw [hsucc.terminal hbefore]
        exact hi.cancelled id snap hholds hsnap hbefore
      | false =>
        obtain ⟨t, hop, rfl, ht, rfl⟩ := coreExec_terminal hex hsnap hsnap' hterminal hbefore
        exact hend t hop ht hholds
  · exact fun j hj => ⟨hg.1.rely j hj, coreExec_sites hex hj⟩
  · intro e he
    cases o with
    | spawn args =>
      cases he
      exact ⟨(hg.1.fork _ rfl).1, hlive args rfl⟩
    | _ => cases he

end

/-- An assertion that a thread keeps while it ends only tasks in `H`, none of which is the task of
the worker. -/
theorem carries_cancel {J : World (contractCore setup) → Prop} {H : TaskId → Prop}
    (hstable : (cancelProtocol worker setup).Stable tid J)
    (hstep : ∀ w o c s r next, (∀ args, o ≠ .spawn args) →
      coreExec contractMachine tid w.state o c = some (s, r) → w.state.Extends s →
      (∀ t, o = .store (.append t) → t.nextState.terminal = true → H t.taskId) → J w →
      J (w.push ⟨tid, o, r, w.state, s, next⟩))
    (hH : ∀ w id, CancelInv worker w → J w → H id → ¬ HoldsAsWorker w worker id) :
    Carries setup (cancelProtocol worker setup) tid J H where
  wf _ hi := hi.custody.state
  grows _ _ he := he.rely.1.state
  stable := hstable
  free w o c s r next ho hi hw hex hg := by
    have happend : ∀ t, o ≠ .store (.append t) := by
      rintro t rfl
      exact ho
    exact ⟨keeps_cancel hi hex hg (fun args h => absurd h (ho.ne_spawn args))
      (fun t h => absurd h (happend t)), hstep w o c s r next ho.ne_spawn hex (cancel_grows hg)
      (fun t h => absurd h (happend t)) hw⟩
  send w id e c s r next he hi hw hex hg :=
    ⟨keeps_cancel hi hex hg (fun _ h => by cases h) (fun _ h => by cases h),
      hstep w _ c s r next (fun _ h => by cases h) hex (cancel_grows hg) (fun _ h => by cases h) hw⟩
  append w t c s r next hl ht hi hw hex hg := by
    constructor
    · apply keeps_cancel hi hex hg (fun _ h => by cases h)
      intro t' hop hterminal hholds
      cases hop
      exact absurd hholds (hH w _ hi hw (ht hterminal))
    · apply hstep w _ c s r next (fun _ h => by cases h) hex (cancel_grows hg) ?_ hw
      intro t' hop hterminal
      cases hop
      exact ht hterminal

theorem carries_cancel_nothing :
    Carries setup (cancelProtocol worker setup) tid (fun _ => True) (fun _ => False) :=
  carries_cancel (fun _ _ _ _ => trivial) (fun _ _ _ _ _ _ _ _ _ _ _ => trivial)
    (fun _ _ _ _ h => h.elim)

theorem stable_live (he : (cancelProtocol worker setup).Env tid w w') (hholds : Holds w tid id)
    (h : w.state.Live id) : w'.state.Live id := by
  obtain ⟨snap, hsnap, hlive⟩ := h
  obtain ⟨snap', hsnap', _⟩ := he.rely.1.state.db.task hsnap
  refine ⟨snap', hsnap', ?_⟩
  cases hterminal : snap'.state.terminal with
  | false => rfl
  | true =>
    have := he.rely.1.running id snap snap' hholds hsnap hsnap' hterminal
    rw [hlive] at this
    cases this

theorem carries_creator_live (id : TaskId) : Carries setup (cancelProtocol worker setup) tid
      (fun w => HoldsAsCreator w tid id ∧ w.state.Live id) (fun _ => False) := by
  apply carries_cancel
  · exact fun w w' he h => ⟨he.rely.1.creator id h.1, stable_live he (.inl h.1) h.2⟩
  · intro w o c s r next hspawn hex hext hend h
    refine ⟨h.1.push (fun ⟨args, hop, _⟩ => hspawn args hop), h.2.coreExec hext hex ?_⟩
    exact fun t hop _ => Bool.eq_false_of_not_eq_true (hend t hop)
  · exact fun _ _ _ _ h => h.elim

theorem carries_cancel_creator (id : TaskId) :
    Carries setup (cancelProtocol worker setup) tid (fun w => HoldsAsCreator w tid id)
      (· = id) := by
  apply carries_cancel
  · exact fun _ _ he h => he.rely.1.creator id h
  · intro w o c s r next hspawn _ _ _ h
    exact h.push (fun ⟨args, hop, _⟩ => hspawn args hop)
  · rintro w _ _ h rfl ⟨st, hst, hspawns, _⟩
    exact h.unspawned st hst hspawns

theorem carries_other_worker (hne : tid ≠ worker) (id : TaskId) :
    Carries setup (cancelProtocol worker setup) tid (fun w => HoldsAsWorker w tid id) (· = id) := by
  apply carries_cancel
  · exact fun _ _ he h => he.rely.1.worker id h
  · exact fun _ _ _ _ _ _ _ _ _ _ h => h.push
  · rintro w _ hi h rfl hholds
    exact hne (hi.custody.holds_unique (.inr h) (.inr hholds))

theorem carries_worker_live (id : TaskId) : Carries setup (cancelProtocol worker setup) tid
      (fun w => HoldsAsWorker w tid id ∧ w.state.Live id) (fun _ => False) := by
  apply carries_cancel
  · exact fun w w' he h => ⟨he.rely.1.worker id h.1, stable_live he (.inr h.1) h.2⟩
  · intro w o c s r next _ hex hext hend h
    refine ⟨h.1.push, h.2.coreExec hext hex ?_⟩
    exact fun t hop _ => Bool.eq_false_of_not_eq_true (hend t hop)
  · exact fun _ _ _ _ h => h.elim

theorem carries_cancelled (id : TaskId) :
    Carries setup (cancelProtocol worker setup) tid (fun w => w.state.Cancelled id)
      (fun _ => False) := by
  apply carries_cancel
  · exact fun _ _ he h => h.extends he.rely.1.state
  · exact fun _ _ _ _ _ _ _ _ hext _ h => h.extends hext
  · exact fun _ _ _ _ h => h.elim

theorem timerNeutral_cancel : TimerNeutral (cancelProtocol worker setup) tid := by
  intro w r next hi hg
  have hex : coreExec contractMachine tid w.state .timer { calm with timer := r } =
      some (w.state, r) := rfl
  have hkeeps := keeps_cancel hi hex hg (fun _ h => by cases h) (fun _ h => by cases h)
  have hcustody : TimerNeutral (custodyProtocol setup) tid := timerNeutral_custody
  have henv := (hcustody w r next hi.custody trivial).2
  exact ⟨hkeeps, hkeeps.inv, henv.rely, rfl⟩

end AgentConnector
