import AgentConnector.EventBroadcast
import AgentConnector.EventPages
import AgentConnector.CallSteps

/-!
# Raw subscriptions

`subscribe` reads the history of a task and then opens a receiver. An event that is committed after
the read and broadcast before the receiver is open is in neither. If no event falls into that
window, every committed event is in the history, can be received, or is about to be broadcast.
-/

namespace AgentConnector

open Concurrent List Option

variable {setup : CoreSetup}

def CoreOp.reads : CoreOp contractSig → Bool
  | .store (.eventsAfter _ _ _) => true
  | _ => false

def CoreOp.opens : CoreOp contractSig → Bool
  | .activeSubscribe _ => true
  | _ => false

def CoreState.broadcast (s : CoreState LogStore) (id : TaskId) : List CoreEvent :=
  match (s.active id).bind (fun a => s.channels[a.channel]?) with
  | some ch => ch.channel.sent
  | none => []

/-- What has been broadcast when the receiver is opened was logged when the history was read. -/
def WindowEmpty (read opened : CoreState LogStore) (id : TaskId) (afterSeq : ℕ) : Prop :=
  ∀ e ∈ opened.broadcast id, afterSeq < e.seq → e.seq ≤ (read.db.events id).length

instance (read opened : CoreState LogStore) (id : TaskId) (afterSeq : ℕ) :
    Decidable (WindowEmpty read opened id afterSeq) := by
  unfold WindowEmpty
  infer_instance

/-- What a receiver that does not lag has got or will get of the events sent so far. -/
def CoreState.receivable (s : CoreState LogStore) (r : Receiver) : List CoreEvent :=
  match s.channels[r.channel]? with
  | some ch => ch.channel.sent.drop r.next
  | none => []

/-- The call that has committed the event in step `st` is not cut off before the broadcast, and the
broadcast finds the sender of the channel. -/
structure SenderOutlives (p : Pool (contractCore setup)) (id : TaskId) (e : CoreEvent)
    (st : Step (contractCore setup)) (channel : ℕ) : Prop where
  fault : ¬ CoreOp.Fault st.op st.reply
  timer : ∀ st' ∈ p.own st.tid, CoreOp.TimerPending st'.op st'.reply
  sender : ∀ st' ∈ p.own st.tid, st'.op = .activeSend id e →
    (st'.pre.active id).map ActiveTask.channel = some channel

variable {id : TaskId}

theorem CoreState.WF.subscribe {s : CoreState LogStore} (h : s.WF)
    (hactive : (s.active id).isSome = true) :
    ∃ channel ch, s.subscribe id = some ⟨channel, ch.channel.sent.length⟩ ∧
      s.channels[channel]? = some ch ∧ ch.task = id ∧ s.broadcast id = ch.channel.sent := by
  obtain ⟨a, ha⟩ := isSome_iff_exists.mp hactive
  obtain ⟨ch, hch, htask, _⟩ := h.active ha
  refine ⟨a.channel, ch, ?_, hch, htask, ?_⟩
  · simp only [CoreState.subscribe, ha, hch]
  · simp only [CoreState.broadcast, ha, bind_some, hch]

theorem CoreState.WF.mem_send {s : CoreState LogStore} (h : s.WF)
    (hactive : (s.active id).map ActiveTask.channel = some channel) :
    ∃ ch, (s.send id e).channels[channel]? = some ch ∧ e ∈ ch.channel.sent := by
  obtain ⟨a, ha, rfl⟩ := map_eq_some_iff.mp hactive
  obtain ⟨ch, hch, _⟩ := h.active ha
  have hsend := CoreState.onChannel_getElem? (i := a.channel) (fun ch => ch.send e) hch
  rw [if_pos rfl] at hsend
  refine ⟨{ ch with channel := ch.channel.send e }, ?_, ?_⟩
  · simp only [CoreState.send, ha]
    exact hsend
  · exact mem_append_right ch.channel.sent (mem_singleton_self e)

theorem post_of_activeSend {st : Step (contractCore setup)} (hop : st.op = .activeSend id e)
    (hex : coreExec contractMachine st.tid st.pre st.op c = some (st.post, st.reply)) :
    st.post = st.pre.send id e := by
  obtain ⟨tid, o, r, pre, post, next⟩ := st
  cases hop
  exact (Prod.mk.inj (Option.some.inj hex)).1.symm

theorem exists_subscription_steps {p : Pool (contractCore setup)} (hp : p.Reachable)
    (hth : p.threads[tid]? = some th) (hentry : th.entry.subscribe? = some (id, afterSeq))
    (hsub : th.prog.result?.bind CoreOutcome.subscription? = some sub) :
    ∃ read ∈ p.own tid, ∃ opened ∈ p.own tid, read.op = .store (.eventsAfter id afterSeq 500) ∧
      opened.op = .activeSubscribe id ∧
      (∃ c, read.pre.db.exec (.eventsAfter id afterSeq 500) c =
        some (read.post.db, .ok sub.history)) ∧
      sub.historyEndSeq = sub.history.getLast?.map CoreEvent.seq ∧
      (opened.pre.subscribe id = some sub.receiver ∨ opened.pre.subscribe id = none ∧
          ∃ made ∈ p.own tid, made.Did (.closedReceiver id) sub.receiver) := by
  have hprog : th.prog = .pure (.subscribed (.ok sub)) := by
    obtain ⟨r, hr, hsub⟩ := bind_eq_some_iff.mp hsub
    rw [Prog.eq_pure_of_result? hr, CoreOutcome.eq_of_subscription? hsub]
  have hreplays := hp.replays hth
  have hentry' : th.entry = .subscribe id afterSeq := by
    revert hentry
    cases th.entry <;> intro h <;> cases h
    rfl
  rw [hentry', hprog] at hreplays
  obtain ⟨r, hcall, hr⟩ := Replays.map_pure hreplays
  cases hr
  obtain ⟨read, r, hread, hrest⟩ := replays_subscribe hcall
  cases r with
  | error e => cases hrest.2
  | ok history =>
    obtain ⟨opened, receiver?, hopened, receiver, hsub, hcase⟩ := hrest
    cases hsub
    have hmem : read ∈ p.own tid ∧ opened ∈ p.own tid := by
      cases receiver? with
      | some receiver' =>
        rw [hcase.1]
        simp
      | none =>
        obtain ⟨made, _, hown⟩ := hcase
        rw [hown]
        simp
    obtain ⟨c, hex⟩ := hread.executed hp (World.mem_own.mp hmem.1).1
    obtain ⟨c', hex'⟩ := hopened.executed hp (World.mem_own.mp hmem.2).1
    obtain ⟨db, hdb, hpost⟩ := coreExec_store hex
    have hreceiver : opened.pre.subscribe id = receiver? :=
      (Prod.mk.inj (Option.some.inj hex')).2
    refine ⟨read, hmem.1, opened, hmem.2, hread.op_eq, hopened.op_eq, ⟨c.store, ?_⟩, rfl, ?_⟩
    · rw [hpost]
      exact hdb
    · cases receiver? with
      | some receiver' =>
        rw [← hcase.2]
        exact .inl hreceiver
      | none =>
        obtain ⟨made, hmade, hown⟩ := hcase
        exact .inr ⟨hreceiver, made, by rw [hown]; simp, hmade⟩

/-- Over a task that is active when its receiver is opened, with at most 500 events to read: if
every event that was broadcast when the receiver was opened had been committed when the history was
read, then every committed event after the start is in the history or reaches the receiver, provided
its sender outlives the send. -/
theorem subscription_loses_nothing (setup : CoreSetup) {p : Pool (contractCore setup)}
    (hp : p.Reachable) {tid : ℕ} {th : Thread (contractCore setup)} {id : TaskId} {afterSeq : ℕ}
    {sub : TaskSubscription} (hth : p.threads[tid]? = some th)
    (hentry : th.entry.subscribe? = some (id, afterSeq))
    (hsub : th.prog.result?.bind CoreOutcome.subscription? = some sub)
    (hactive : ∀ opened ∈ p.own tid, opened.op.opens = true → (opened.pre.active id).isSome = true)
    (hpage : ∀ read ∈ p.own tid, read.op.reads = true →
      (read.pre.db.events id).length ≤ afterSeq + 500)
    (hwindow : ∀ read ∈ p.own tid, ∀ opened ∈ p.own tid, read.op.reads = true →
      opened.op.opens = true → WindowEmpty read.pre opened.pre id afterSeq) :
    ∀ e ∈ p.state.db.events id, afterSeq < e.seq → e ∈ sub.history ∨
      ∃ st ∈ p.trace, Commits st id e ∧ (SenderOutlives p id e st sub.receiver.channel →
        e ∈ p.state.receivable sub.receiver ∨
          ∃ th', p.threads[st.tid]? = some th' ∧ AboutToSend id e th'.prog) := by
  intro e he hafter
  obtain ⟨read, hread, opened, hopened, hreadOp, hopenOp, ⟨c, hex⟩, _, hsubscribe⟩ :=
    exists_subscription_steps hp hth hentry hsub
  have hreads : read.op.reads = true := by rw [hreadOp]; rfl
  have hopens : opened.op.opens = true := by rw [hopenOp]; rfl
  obtain ⟨hreadWF, hreadGrows, hreadExt⟩ := extends_of_mem_trace hp (World.mem_own.mp hread).1
  obtain ⟨hopenWF, hopenGrows, hopenExt⟩ := extends_of_mem_trace hp (World.mem_own.mp hopened).1
  by_cases hseq : e.seq ≤ (read.pre.db.events id).length
  · -- The event was there when the history was read.
    left
    have hlog := ((custody_sound setup).inv hp (fun _ _ => trivial)).state.db.numbered id
    have hold := hlog.mem_of_prefix ((hreadGrows.trans hreadExt).db.events id) he (by omega)
    have hhistory := (LogStore.exec_eventsAfter hreadWF.db hex le_rfl).2 sub.history rfl
    exact hhistory.mem hreadWF.db (hpage read hread hreads) hold hafter
  · right
    obtain ⟨st, hst, hcommits⟩ := exists_commits hp he
    refine ⟨st, hst, hcommits, fun houtlives => ?_⟩
    have hwriter := getElem?_eq_getElem (hp.tid_lt st hst).1
    rcases hcommits.broadcast hp hst hwriter houtlives.fault houtlives.timer with
      hnext | ⟨sent, hsent, hop⟩
    · exact .inr ⟨_, hwriter, hnext⟩
    · -- The event was sent on the channel of the receiver, and not before the receiver was opened.
      left
      obtain ⟨channel, ch, hreceiver, hch, _, hbroadcast⟩ := hopenWF.subscribe
        (hactive opened hopened hopens)
      have hsubreceiver : sub.receiver = ⟨channel, ch.channel.sent.length⟩ := by
        rcases hsubscribe with hsome | ⟨hnone, _⟩
        · rw [hreceiver] at hsome
          exact (Option.some.inj hsome).symm
        · rw [hreceiver] at hnone
          cases hnone
      have hsender := houtlives.sender sent hsent hop
      rw [hsubreceiver] at hsender ⊢
      obtain ⟨hsentWF, _, hsentExt⟩ := extends_of_mem_trace hp (World.mem_own.mp hsent).1
      obtain ⟨c', hex'⟩ := hp.executed sent (World.mem_own.mp hsent).1
      obtain ⟨ch₁, hch₁, hmem₁⟩ := hsentWF.mem_send hsender
      rw [← post_of_activeSend hop hex'] at hch₁
      obtain ⟨ch₂, hch₂, _, hext₂⟩ := hsentExt.channels hch₁
      obtain ⟨ch₃, hch₃, _, hext₃⟩ := (hopenGrows.trans hopenExt).channels hch
      rw [hch₂] at hch₃
      cases hch₃
      obtain ⟨rest, hrest⟩ := hext₃.sent
      have hmem := hext₂.sent.subset hmem₁
      rw [← hrest] at hmem
      simp only [CoreState.receivable, hch₂]
      rw [← hrest, drop_left]
      rcases mem_append.mp hmem with hearly | hlate
      · rw [← hbroadcast] at hearly
        exact absurd (hwindow read hread opened hopened hreads hopens e hearly hafter) hseq
      · exact hlate

/-- The cancellation is broadcast after the receiver was opened. -/
theorem subscription_loses_nothing_live :
    ∃ (p : Pool (contractCore singleAgentSetup)) (sub : TaskSubscription), p.Reachable ∧
      sub.history.map CoreEvent.seq = [1] ∧ (p.state.db.events 1).map CoreEvent.seq = [1, 2] ∧
      ∀ e ∈ p.state.db.events 1, 0 < e.seq → e ∈ sub.history ∨
        ∃ st ∈ p.trace, Commits st 1 e ∧ (SenderOutlives p 1 e st sub.receiver.channel →
          e ∈ p.state.receivable sub.receiver ∨
            ∃ th', p.threads[st.tid]? = some th' ∧ AboutToSend 1 e th'.prog) := by
  obtain ⟨p, hp, ⟨th, hth, hentry, sub, hsub, hhistory⟩, hlog, hactive, hpage, hwindow⟩ :=
    Pool.exists_reachable (acceptedTask ++ .call (.subscribe 1 0) :: turns 2 2 ++ cancelCall 3)
      (fun p => (∃ th ∈ p.threads[2]?, th.entry.subscribe? = some (1, 0) ∧
          ∃ sub ∈ th.prog.result?.bind CoreOutcome.subscription?,
            sub.history.map CoreEvent.seq = [1]) ∧
        (p.state.db.events 1).map CoreEvent.seq = [1, 2] ∧
        (∀ opened ∈ p.own 2, opened.op.opens = true → (opened.pre.active 1).isSome = true) ∧
        (∀ read ∈ p.own 2, read.op.reads = true → (read.pre.db.events 1).length ≤ 0 + 500) ∧
        (∀ read ∈ p.own 2, ∀ opened ∈ p.own 2, read.op.reads = true → opened.op.opens = true →
          WindowEmpty read.pre opened.pre 1 0))
      (by decide +kernel)
  exact ⟨p, sub, hp, hhistory, hlog, subscription_loses_nothing singleAgentSetup hp hth hentry hsub
    hactive hpage hwindow⟩

/-- An event that is committed and broadcast between the read of the history and the opening of the
receiver is lost, although its sender outlives the send. -/
theorem subscription_loses_event : ∃ p : Pool (contractCore singleAgentSetup), p.Reachable ∧
      (∀ st ∈ p.trace, ¬ CoreOp.Fault st.op st.reply ∧ CoreOp.TimerPending st.op st.reply) ∧
      p.threads[3]?.any Thread.finished = true ∧
      2 ∈ (p.state.db.events 1).map CoreEvent.seq ∧
      ∃ th ∈ p.threads[2]?, th.entry.subscribe? = some (1, 0) ∧
        ∃ sub ∈ th.prog.result?.bind CoreOutcome.subscription?, 2 ∉ sub.history.map CoreEvent.seq ∧
          2 ∉ (p.state.receivable sub.receiver).map CoreEvent.seq ∧
          (p.state.active 1).map ActiveTask.channel = some sub.receiver.channel := by
  apply Pool.exists_reachable (acceptedTask ++ .call (.subscribe 1 0) :: turns 2 1 ++
    cancelCall 3 ++ turns 2 1)
  decide +kernel

end AgentConnector
