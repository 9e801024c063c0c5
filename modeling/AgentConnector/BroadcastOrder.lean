import AgentConnector.RawSubscription
import AgentConnector.ThreadAccounts

/-!
# Broadcasts in the order of the log

Transitions of one task are applied in one order and may be broadcast in another. If every broadcast
of a task is that of the event after those broadcast before, then each channel of the task holds
its events from the first one on, and the position of a receiver is the number of its next event.
In any order, a call broadcasts the event that it has appended itself, and only once.
-/

namespace AgentConnector

open Concurrent Broadcast AdapterCore

variable {setup : CoreSetup}

/-- If the operation broadcasts an event of the task, it is the one after those broadcast before. -/
def CoreOp.SendsNext (id : TaskId) (s : CoreState LogStore) : CoreOp contractSig → Prop
  | .activeSend id' e =>
    id' = id → (s.active id).isSome = true → e.seq = (s.broadcast id).length + 1
  | _ => True

instance (id : TaskId) (s : CoreState LogStore) (o : CoreOp contractSig) :
    Decidable (o.SendsNext id s) :=
  decidable_of_bool (match o with
    | .activeSend id' e =>
      id' = id → (s.active id).isSome = true → e.seq = (s.broadcast id).length + 1
    | _ => true) (by unfold CoreOp.SendsNext; split <;> simp only [decide_eq_true_eq])

/-- A step empties a channel, keeps its contents, or broadcasts an event of its task. -/
theorem sent_step {p : Pool (contractCore setup)} (hp : p.Reachable) {i : ℕ}
    (hex : coreExec contractMachine tid p.state o c = some (s, r))
    (hch : s.channels[i]? = some ch) :
    ch.channel.sent = [] ∨ ∃ ch₀ : TaskChannel, p.state.channels[i]? = some ch₀ ∧
      ch₀.task = ch.task ∧ (ch.channel.sent = ch₀.channel.sent ∨
        ∃ e, o = .activeSend ch.task e ∧ ch.channel.sent = ch₀.channel.sent ++ [e] ∧
          (p.state.active ch.task).isSome = true ∧
          p.state.broadcast ch.task = ch₀.channel.sent) := by
  rcases coreExec_channel hex hch with hch | ⟨hnil, -⟩ |
    ⟨id, a, ch₀, hactive, hi, hch₀, htask, hused⟩
  · exact .inr ⟨ch, hch, rfl, .inl rfl⟩
  · exact .inl hnil
  refine .inr ⟨ch₀, hch₀, htask.symm, ?_⟩
  rcases hused with ⟨-, hclose⟩ | ⟨e, rfl, hsend⟩
  · rw [hclose]
    exact .inl rfl
  · -- The channel is that of the active task, so the event is one of its task.
    obtain ⟨ch₁, hch₁, hid, _⟩ := (wf_of_reachable hp).active hactive
    rw [hi, hch₀] at hch₁
    cases hch₁
    rw [htask, hid, hsend, hactive]
    refine .inr ⟨e, rfl, rfl, rfl, ?_⟩
    simp only [CoreState.broadcast, hactive, Option.bind_some, hi, hch₀]

/-- If the broadcasts of a task come in order, its channels hold the events from the first one on.
-/
theorem sent_numbered {p : Pool (contractCore setup)} (hp : p.Reachable) {id : TaskId}
    (hsends : ∀ st ∈ p.trace, st.op.SendsNext id st.pre) {i : ℕ}
    (hch : p.state.channels[i]? = some ch) (htask : ch.task = id) :
    Numbered CoreEvent.seq 1 ch.channel.sent := by
  induction hp generalizing i ch with
  | start => simp [Pool.start] at hch
  | @act p q a hp ha ih =>
    have hold : ∀ st ∈ p.trace, st.op.SendsNext id st.pre :=
      fun st hst => hsends st (Pool.trace_subset ha hst)
    rcases Pool.act_cases ha with ⟨e, _, rfl⟩ | ⟨tid, c, th, o, k, s, r, _, _, hex, rfl⟩
    · exact ih hold hch htask
    · rcases sent_step hp hex hch with hnil | ⟨ch₀, hch₀, htask₀, hsent⟩
      · rw [hnil]
        exact Numbered.nil _ _
      have hnumbered := ih hold hch₀ (htask₀.trans htask)
      rcases hsent with hsent | ⟨e, rfl, hsent, hactive, hbroadcast⟩
      · rw [hsent]
        exact hnumbered
      · have hnext := hsends ⟨tid, .activeSend ch.task e, r, p.state, s, p.threads.length⟩
          (List.mem_cons_self ..) htask
        rw [← htask, hbroadcast] at hnext
        rw [hsent]
        refine hnumbered.concat ?_
        have := hnext hactive
        omega

/-- The event a call has appended and not broadcast, after one more operation. -/
def CoreOp.holds (held : Option (TaskId × CoreEvent)) :
    (o : CoreOp contractSig) → o.Reply → Option (TaskId × CoreEvent)
  | .activeSend _ _, _ => none
  | .store (.append t), .ok applied => some (t.taskId, applied.event)
  | _, _ => held

def CoreOp.sends? (id : TaskId) : CoreOp contractSig → Option CoreEvent
  | .activeSend id' e => if id' = id then some e else none
  | _ => none

abbrev sendAccounts (setup : CoreSetup) : Accounting (contractCore setup) where
  Account := Option (TaskId × CoreEvent)
  opening _ := none
  record := CoreOp.holds
  allowed held o := ∀ id e, o.sends? id = some e → held = some (id, e)
  possible _ _ := True

def Sends (setup : CoreSetup) {α : Type} (p : Prog (coreSig contractSig) α) : Prop :=
  ∀ held, (sendAccounts setup).Follows (fun _ _ => True) held p

theorem sends_bind {p : Prog (coreSig contractSig) α} {f : α → Prog (coreSig contractSig) β}
    (hp : Sends setup p) (hf : ∀ a, Sends setup (f a)) : Sends setup (p.bind f) :=
  fun held => Accounting.follows_bind ((hp held).mono (fun a held _ => hf a held))

theorem sends_of_everywhere {p : Prog (coreSig contractSig) α}
    (hp : p.Everywhere (fun o : CoreOp contractSig => ∀ id, o.sends? id = none)) :
    Sends setup p := by
  induction p with
  | pure a => exact fun _ => trivial
  | op o k ih =>
    refine fun held => ⟨fun id e he => ?_, fun r _ => ih r (hp.2 r) _⟩
    rw [hp.1 id] at he
    cases he

theorem sends_withTimeout {p : Prog (coreSig contractSig) α} (hp : Sends setup p) :
    Sends setup (withTimeout setup.contract p) := by
  intro held
  replace hp := hp held
  induction p generalizing held with
  | pure a => trivial
  | op o k ih =>
    refine ⟨fun _ _ h => (by cases h), fun poll _ => ?_⟩
    cases poll with
    | pending => exact ⟨hp.1, fun r _ => ih r _ (hp.2 r trivial)⟩
    | elapsed => trivial
    | elapsedMidway => exact ⟨hp.1, fun r _ => trivial⟩

theorem sends_transition (site : Site) (snap : TaskSnapshot) (allowed : List TaskState)
    (next : TaskState) (kind : CoreEventKind) :
    Sends setup (transition setup.contract site snap allowed next kind).run := by
  refine fun held => ⟨fun _ _ h => (by cases h), fun _ _ =>
    ⟨fun _ _ h => (by cases h), fun r _ => ?_⟩⟩
  cases r with
  | error e => trivial
  | ok a =>
    refine ⟨fun id e he => ?_, fun _ _ => trivial⟩
    change (if snap.taskId = id then some a.event else none) = some e at he
    split at he
    · rename_i hid
      cases he
      rw [← hid]
      rfl
    · cases he

theorem walk_sends : Walk setup.contract (fun o => ∀ id, o.sends? id = none) (fun _ => True)
    (fun p => Sends setup p) where
  pure _ _ := trivial
  bind := sends_bind
  op ho := sends_of_everywhere ⟨ho, fun _ => trivial⟩
  get _ := sends_of_everywhere ⟨fun _ => rfl, fun r => by cases r <;> trivial⟩
  transition _ _ := sends_transition _ _ _ _ _

theorem sends_program (setup : CoreSetup) (e : CoreEntry) :
    Sends setup ((contractCore setup).program e) := by
  refine walk_sends.program (fun o ho id => ?_) (fun _ _ _ => trivial) (fun _ _ n _ _ _ => ?_)
    (fun _ _ _ => sends_of_everywhere ⟨fun _ => rfl, fun r => by cases r <;> trivial⟩)
    sends_withTimeout
  · cases o <;> first | rfl | exact ho.elim
  · refine sends_of_everywhere ⟨fun _ => rfl, fun r => ?_⟩
    cases r with
    | error e => trivial
    | ok inserted => exact ⟨fun _ => rfl, fun r => by cases r <;> trivial⟩

/-- The event thread `tid` has appended and not broadcast. -/
def heldBy (w : World (contractCore setup)) (tid : ℕ) : Option (TaskId × CoreEvent) :=
  (w.own tid).foldr (fun st held => CoreOp.holds held st.op st.reply) none

/-- The events broadcast for the task, newest first. -/
def broadcasts (w : World (contractCore setup)) (id : TaskId) : List CoreEvent :=
  w.trace.filterMap (fun st => st.op.sends? id)

/-- What a thread holds is in the log, was not broadcast, and is held by no other thread. -/
structure SendInv (w : World (contractCore setup)) : Prop where
  held : ∀ {tid id e}, heldBy w tid = some (id, e) → e ∈ w.state.db.events id ∧
    e ∉ broadcasts w id ∧ ∀ tid', heldBy w tid' = some (id, e) → tid' = tid
  sent : ∀ {id e}, e ∈ broadcasts w id → e ∈ w.state.db.events id
  nodup : ∀ id, (broadcasts w id).Nodup
  before : ∀ st ∈ w.trace, ∀ id e, st.op = .activeSend id e → e ∈ st.pre.db.events id

theorem coreExec_append_new {s : CoreState LogStore} (hwf : s'.WF)
    (hex : coreExec contractMachine tid s (.store (.append t)) c = some (s', .ok a)) :
    a.event ∉ s.db.events t.taskId ∧ a.event ∈ s'.db.events t.taskId := by
  obtain ⟨db, hstore, rfl⟩ := coreExec_store hex
  rcases LogStore.exec_append hstore with ⟨cur, _, ha, hrecord⟩ | ⟨_, _, ha, _⟩ | ⟨_, ha, _⟩
  · cases ha
    have hevents : db.events t.taskId = s.db.events t.taskId ++
        [(LogStore.applied cur t c.store.now).event] := by
      rw [hrecord]
      exact Function.update_self ..
    have hnumbered := hwf.db.numbered t.taskId
    change Numbered CoreEvent.seq 1 (db.events t.taskId) at hnumbered
    change _ ∧ _ ∈ db.events t.taskId
    rw [hevents, Numbered.append_iff, Numbered.cons_iff] at hnumbered
    rw [hevents]
    refine ⟨fun hmem => ?_, by simp⟩
    have := (hnumbered.1.mem_bounds hmem).2
    omega
  · cases ha
  · cases ha

section

variable {w : World (contractCore setup)} {st : Step (contractCore setup)} {id : TaskId}

theorem mem_broadcasts_push :
    e ∈ broadcasts (w.push st) id ↔ st.op.sends? id = some e ∨ e ∈ broadcasts w id := by
  simp only [broadcasts, World.push_trace, List.mem_filterMap, List.mem_cons, or_and_right,
    exists_or, exists_eq_left]

variable (hpre : st.pre = w.state) (hwf : st.post.WF)
  (hex : coreExec contractMachine st.tid st.pre st.op c = some (st.post, st.reply))

include hpre hwf hex

/-- What is held after a step was held before, and is not what the step broadcasts, or the step has
just appended it. -/
theorem heldBy_push (h : heldBy (w.push st) tid = some (id, e)) :
    (heldBy w tid = some (id, e) ∧ (st.tid = tid → ∀ id', st.op.sends? id' = none)) ∨
      (st.tid = tid ∧ (∀ id', st.op.sends? id' = none) ∧ e ∉ w.state.db.events id ∧
        e ∈ st.post.db.events id) := by
  by_cases htid : st.tid = tid
  · subst htid
    rw [heldBy, World.own_push_self] at h
    change CoreOp.holds (heldBy w st.tid) st.op st.reply = some (id, e) at h
    obtain ⟨tid, o, r, pre, post, next⟩ := st
    subst hpre
    cases o with
    | activeSend id' e' => cases h
    | store o =>
      cases o with
      | append t =>
        cases r with
        | error err => exact .inl ⟨h, fun _ _ => rfl⟩
        | ok a =>
          cases h
          exact .inr ⟨rfl, fun _ => rfl, coreExec_append_new hwf hex⟩
      | _ => exact .inl ⟨h, fun _ _ => rfl⟩
    | _ => exact .inl ⟨h, fun _ _ => rfl⟩
  · rw [heldBy, World.own_push_ne w htid] at h
    exact .inl ⟨h, fun h' => (htid h').elim⟩

theorem SendInv.push (h : SendInv w) (hext : w.state.Extends st.post)
    (hallowed : ∀ id e, st.op.sends? id = some e → heldBy w st.tid = some (id, e)) :
    SendInv (w.push st) := by
  have hgrows : ∀ {id e}, e ∈ w.state.db.events id → e ∈ st.post.db.events id :=
    fun he => (hext.db.events _).subset he
  refine ⟨fun {tid id e} hheld => ?_, fun he => ?_, fun id => ?_, fun st' hst' id e hop => ?_⟩
  · rcases heldBy_push hpre hwf hex hheld with ⟨hold, hquiet⟩ | ⟨rfl, hquiet, hnew, hpost⟩
    · obtain ⟨hmem, hunsent, hunique⟩ := h.held hold
      refine ⟨hgrows hmem, fun hsent => ?_, fun tid' hheld' => ?_⟩
      · rcases mem_broadcasts_push.mp hsent with hsends | hsent
        · have hnone := hquiet (hunique _ (hallowed id e hsends)) id
          rw [hnone] at hsends
          cases hsends
        · exact hunsent hsent
      · rcases heldBy_push hpre hwf hex hheld' with ⟨hold', _⟩ | ⟨_, _, hnew, _⟩
        · exact hunique tid' hold'
        · exact absurd hmem hnew
    · refine ⟨hpost, fun hsent => ?_, fun tid' hheld' => ?_⟩
      · rcases mem_broadcasts_push.mp hsent with hsends | hsent
        · rw [hquiet id] at hsends
          cases hsends
        · exact hnew (h.sent hsent)
      · rcases heldBy_push hpre hwf hex hheld' with ⟨hold', _⟩ | ⟨htid, _⟩
        · exact absurd (h.held hold').1 hnew
        · exact htid.symm
  · rcases mem_broadcasts_push.mp he with hsends | hsent
    · exact hgrows (h.held (hallowed _ _ hsends)).1
    · exact hgrows (h.sent hsent)
  · rw [broadcasts, World.push_trace, List.filterMap_cons]
    split
    · exact h.nodup id
    · rename_i e hsends
      exact List.nodup_cons.mpr ⟨(h.held (hallowed id e hsends)).2.1, h.nodup id⟩
  · rcases List.mem_cons.mp hst' with rfl | hst'
    · rw [hpre]
      exact (h.held (hallowed id e (by rw [hop]; exact if_pos rfl))).1
    · exact h.before st' hst' id e hop

end

/-- The channels of a task hold some of the events broadcast for it, in that order. -/
theorem sent_sublist {p : Pool (contractCore setup)} (hp : p.Reachable) {id : TaskId} {i : ℕ}
    (hch : p.state.channels[i]? = some ch) (htask : ch.task = id) :
    ch.channel.sent.Sublist (broadcasts p.toWorld id).reverse := by
  induction hp generalizing i ch with
  | start => simp [Pool.start] at hch
  | @act p q a hp ha ih =>
    rcases Pool.act_cases ha with ⟨e, _, rfl⟩ | ⟨tid, c, th, o, k, s, r, _, _, hex, rfl⟩
    · exact ih hch htask
    · have hmore : ∀ st, (broadcasts p.toWorld id).reverse.Sublist
          (broadcasts (p.toWorld.push st) id).reverse :=
        fun st => List.reverse_sublist.mpr ((List.sublist_cons_self ..).filterMap _)
      rcases sent_step hp hex hch with hnil | ⟨ch₀, hch₀, htask₀, hsent⟩
      · rw [hnil]
        exact List.nil_sublist _
      have hbefore := ih hch₀ (htask₀.trans htask)
      rcases hsent with hsent | ⟨e, rfl, hsent, -⟩
      · rw [hsent]
        exact hbefore.trans (hmore _)
      · have hsends : CoreOp.sends? id (.activeSend ch.task e) = some e := if_pos htask
        rw [hsent, broadcasts, World.push_trace, List.filterMap_cons, hsends, List.reverse_cons]
        exact hbefore.append (.refl _)

theorem sendInv_of_reachable {p : Pool (contractCore setup)} (hp : p.Reachable) :
    SendInv p.toWorld := by
  induction hp with
  | start =>
    exact ⟨fun h => (by cases h), fun h => (by cases h), fun _ => .nil, fun _ h => (by cases h)⟩
  | @act p q a hp ha ih =>
    rcases Pool.act_cases ha with ⟨e, _, rfl⟩ | ⟨tid, c, th, o, k, s, r, hth, hprog, hex, rfl⟩
    · exact ih
    · have hfollows := Accounting.follows_of_reachable
        (fun e => sends_program setup e none) hp (fun _ _ => trivial) hth
      rw [hprog] at hfollows
      have hstep := (custody_coreStep hp ha rfl).1
      exact ih.push rfl hstep.wf hex hstep.grows hfollows.1

/-- Whatever is broadcast for a task was in its log before, nothing is broadcast twice, and the
channels of the task hold nothing else. -/
theorem broadcasts_within_log (setup : CoreSetup) {p : Pool (contractCore setup)}
    (hp : p.Reachable) (id : TaskId) :
    (∀ st ∈ p.trace, ∀ e, st.op = .activeSend id e → e ∈ st.pre.db.events id) ∧
      (broadcasts p.toWorld id).Nodup ∧
      (broadcasts p.toWorld id).Subperm (p.state.db.events id) ∧
      ∀ (i : ℕ) ch, p.state.channels[i]? = some ch → ch.task = id →
        ch.channel.sent.Sublist (broadcasts p.toWorld id).reverse := by
  have h := sendInv_of_reachable hp
  refine ⟨fun st hst => h.before st hst id, h.nodup id,
    List.subperm_of_subset (h.nodup id) (fun e => h.sent), fun i ch hch htask => ?_⟩
  exact sent_sublist hp hch htask

/-- Two calls have each broadcast the event they appended. -/
theorem broadcasts_within_log_twice : ∃ p : Pool (contractCore singleAgentSetup), p.Reachable ∧
    (broadcasts p.toWorld 1).map CoreEvent.seq = [2, 1] ∧ (broadcasts p.toWorld 1).Nodup := by
  obtain ⟨p, hp, hsent⟩ := Pool.exists_reachable (acceptedTask ++ cancelCall 2)
    (fun p : Pool (contractCore singleAgentSetup) =>
      (broadcasts p.toWorld 1).map CoreEvent.seq = [2, 1]) (by decide +kernel)
  exact ⟨p, hp, hsent, (broadcasts_within_log singleAgentSetup hp 1).2.1⟩

end AgentConnector
