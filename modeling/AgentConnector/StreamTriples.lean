import AgentConnector.StreamProtocol

/-!
# Reliable streams keep their protocol

`StreamAt` describes a stream between two of its operations: what has been delivered, followed by
the event about to be handed over, is numbered up to `lastSeq`, and the pending events continue
from there. Subscribing establishes it; each way `recv` can answer, and each catch-up, keeps it.
-/

namespace AgentConnector

open Concurrent Protocol Broadcast ReliableTaskStream AdapterCore List

variable {setup : CoreSetup} {strict : Prop} {tid : ℕ} {id : TaskId} {afterSeq : ℕ}

structure StreamAt (strict : Prop) (tid : ℕ) (id : TaskId) (afterSeq : ℕ) (out : List CoreEvent)
    (s : ReliableTaskStream) (w : World (contractCore setup)) : Prop where
  task : s.taskId = id
  numbered : Numbered CoreEvent.seq (afterSeq + 1) (delivered w tid ++ out)
  logged : ∀ e ∈ delivered w tid ++ out, e ∈ w.state.db.events id
  lastSeq : s.lastSeq = afterSeq + (delivered w tid ++ out).length
  pending : Numbered CoreEvent.seq (s.lastSeq + 1) s.pending
  pendingLogged : ∀ e ∈ s.pending, e ∈ w.state.db.events id
  receiver : ∃ ch : TaskChannel, w.state.channels[s.receiver.channel]? = some ch ∧ ch.task = id
  ended : strict → s.terminal = true → w.state.EndedBy id s.lastSeq

theorem StreamAt.stable (out : List CoreEvent) (s : ReliableTaskStream) :
    (streamProtocol strict setup).Stable tid (StreamAt strict tid id afterSeq out s) := by
  intro w w' he h
  obtain ⟨hext, hsame⟩ := he.rely
  refine ⟨h.task, ?_, ?_, ?_, h.pending, ?_, ?_, ?_⟩
  · rw [hsame]
    exact h.numbered
  · rw [hsame]
    exact fun e he => (hext.db.events id).subset (h.logged e he)
  · rw [hsame]
    exact h.lastSeq
  · exact fun e he => (hext.db.events id).subset (h.pendingLogged e he)
  · obtain ⟨ch, hch, htask⟩ := h.receiver
    obtain ⟨ch', hch', htask', _⟩ := hext.channels hch
    exact ⟨ch', hch', htask'.trans htask⟩
  · exact fun hs ht => (h.ended hs ht).extends hext le_rfl

variable {s : ReliableTaskStream}

theorem StreamAt.deliver (hwf : w.state.WF) (h : StreamAt strict tid id afterSeq [] s w)
    (he : e ∈ w.state.db.events id) (hseq : e.seq = s.lastSeq + 1)
    (hrest : Numbered CoreEvent.seq (e.seq + 1) rest)
    (hlogged : ∀ e ∈ rest, e ∈ w.state.db.events id) :
    StreamAt strict tid id afterSeq [e] (deliver { s with pending := rest } e) w := by
  have hnumbered := h.numbered
  have hlast := h.lastSeq
  rw [append_nil] at hnumbered hlast
  refine ⟨h.task, hnumbered.concat (by omega), ?_, ?_, hrest, hlogged, h.receiver, ?_⟩
  · intro x hx
    rcases mem_append.mp hx with hx | hx
    · exact h.logged x (mem_append_left _ hx)
    · rw [mem_singleton] at hx
      rw [hx]
      exact he
  · simp only [ReliableTaskStream.deliver, length_append, length_singleton]
    omega
  · intro hs ht
    change w.state.EndedBy id e.seq
    rcases Bool.or_eq_true_iff.mp ht with ht | ht
    · exact (h.ended hs ht).extends (.refl _) (by omega)
    · -- A terminal event is the last one of the log.
      cases hsnap : w.state.db.tasks id with
      | none =>
        rw [hwf.db.unknown hsnap] at he
        cases he
      | some snap =>
        obtain ⟨hterminal, hlastSeq⟩ := (hwf.db.log hsnap).of_terminal_event he ht
        exact ⟨snap, hsnap, hterminal, hlastSeq.le⟩

/-- What the loop of `next` has established when it returns. -/
def Returned (strict : Prop) (tid : ℕ) (id : TaskId) (afterSeq : ℕ) :
    Polled → World (contractCore setup) → Prop
  | (none, _), _ => True
  | (some (.ok (some e)), s), w => StreamAt strict tid id afterSeq [e] s w
  | (some (.ok none), s), w => StreamAt strict tid id afterSeq [] s w ∧
      (strict → w.state.EndedBy id s.lastSeq)
  | (some (.error _), s), w => StreamAt strict tid id afterSeq [] s w

theorem triple_silent {α : Type} {k : o.Reply → Prog (coreSig contractSig) α}
    {R : World (contractCore setup) → Prop} {T : o.Reply → World (contractCore setup) → Prop}
    {Q : α → World (contractCore setup) → Prop} (hR : (streamProtocol strict setup).Stable tid R)
    (ho : ∀ id afterSeq x, o ≠ .emit id afterSeq x)
    (hclosed : ∀ w, R w → strict → ∀ id, o = .closedReceiver id → w.state.Ended id)
    (h : ∀ w c s r next, StreamInv strict w → R w → R (w.push ⟨tid, o, r, w.state, s, next⟩) →
      coreExec contractMachine tid w.state o c = some (s, r) →
      StreamStep strict (⟨tid, o, r, w.state, s, next⟩ : Step (contractCore setup)) →
      T r (w.push ⟨tid, o, r, w.state, s, next⟩))
    (hk : ∀ r, (streamProtocol strict setup).Triple tid (T r) (k r) Q) :
    (streamProtocol strict setup).Triple tid R (Prog.op (σ := coreSig contractSig) o k) Q := by
  refine triple_op hR ?_ hk
  intro w c s r next hi hw hex _ _ hg
  obtain ⟨hkeeps, henv⟩ := keeps_silent hi hex hg ho (hclosed w hw)
  exact ⟨hkeeps, h w c s r next hi hw (hR _ _ henv hw) hex hg.2.1⟩

theorem triple_history {R : World (contractCore setup) → Prop}
    (hR : (streamProtocol strict setup).Stable tid R) (id : TaskId) (afterSeq bound : ℕ) :
    (streamProtocol strict setup).Triple tid (fun w => R w ∧ bound ≤ (w.state.db.events id).length)
      (history setup.contract id afterSeq).run
      (fun r w => R w ∧ ∀ events, r = .ok events →
        w.state.db.IsPage id afterSeq 500 bound events) := by
  have hstable : ∀ r : Except CoreError (List CoreEvent), (streamProtocol strict setup).Stable tid
      (fun w => R w ∧ ∀ events, r = .ok events → w.state.db.IsPage id afterSeq 500 bound events) :=
    fun r w w' he h => ⟨hR w w' he h.1, fun events hr => (h.2 events hr).extends he.rely.1.db⟩
  refine triple_silent ?_ (fun _ _ _ h => by cases h) (fun _ _ _ _ h => by cases h) ?_
    (fun r => triple_pure (hstable _) (fun _ _ h => h) (fun _ _ h => h))
  · intro w w' he h
    exact ⟨hR w w' he h.1, h.2.trans (he.rely.1.db.events id).length_le⟩
  · intro w c s r next hi hw hpush hex _
    refine ⟨hpush.1, fun events hr => ?_⟩
    obtain ⟨db, hdb, rfl⟩ := coreExec_store hex
    obtain ⟨rfl, hpage⟩ := LogStore.exec_eventsAfter hi.state.db hdb hw.2
    cases r with
    | error e => cases hr
    | ok page =>
      cases hr
      exact hpage _ rfl

/-- A catch-up; when it finds nothing, the stream is at the end of the log as it was known before.
`K` is whatever else is known meanwhile. -/
theorem triple_catchUp {K : World (contractCore setup) → Prop}
    (hK : (streamProtocol strict setup).Stable tid K) (hid : s.taskId = id)
    (hbound : ∀ e, trailing = some e → e.seq ≤ bound) :
    (streamProtocol strict setup).Triple tid (fun w => (StreamAt strict tid id afterSeq [] s w ∧
        Revealed w.state.db id s.lastSeq trailing ∧ K w) ∧ bound ≤ (w.state.db.events id).length)
      (catchUp (history setup.contract) s trailing).run
      (fun r w => match r with
        | .error _ => StreamAt strict tid id afterSeq [] s w
        | .ok s' => StreamAt strict tid id afterSeq [] s' w ∧ K w ∧
            (trailing = none → s'.pending = [] → bound ≤ s'.lastSeq)) := by
  subst hid
  have hstable : (streamProtocol strict setup).Stable tid (fun w => StreamAt strict tid s.taskId
      afterSeq [] s w ∧ Revealed w.state.db s.taskId s.lastSeq trailing ∧ K w) :=
    fun w w' he h => ⟨StreamAt.stable _ _ w w' he h.1, h.2.1.extends he.rely.1.db, hK w w' he h.2.2⟩
  refine triple_try (triple_history hstable s.taskId s.lastSeq bound) (fun e => ?_)
    (fun events => ?_)
  · exact triple_pure hstable (fun _ _ h => h.1) (fun _ _ h => h.1)
  · have hpage : (streamProtocol strict setup).Stable tid
        (fun w => w.state.db.IsPage s.taskId s.lastSeq 500 bound events) :=
      fun w w' he h => h.extends he.rely.1.db
    refine triple_pure (hstable.and hpage) (fun _ _ h => ⟨h.1, h.2 events rfl⟩) (fun w _ h => ?_)
    obtain ⟨⟨hs, hrevealed, hk⟩, hevents⟩ := h
    obtain ⟨hnumbered, hlogged⟩ := values_merge_spec hevents hrevealed hbound
    refine ⟨⟨hs.task, hs.numbered, hs.logged, hs.lastSeq, hnumbered, hlogged, hs.receiver,
      hs.ended⟩, hk, ?_⟩
    rintro rfl hnil
    have hreach := hevents.reach
    rw [show events = [] by rwa [← values_merge_none hevents.numbered]] at hreach
    simpa using hreach

theorem triple_recover {K : World (contractCore setup) → Prop}
    (hK : (streamProtocol strict setup).Stable tid K) (trailing : Option CoreEvent) (bound : ℕ)
    {rest : ReliableTaskStream → Prog (coreSig contractSig) Polled}
    (hbound : ∀ e, trailing = some e → e.seq ≤ bound) (hrest : ∀ s', (streamProtocol strict
      setup).Triple tid (fun w => StreamAt strict tid id afterSeq [] s' w ∧ K w ∧ (trailing = none →
      s'.pending = [] → bound ≤ s'.lastSeq)) (rest s') (Returned strict tid id afterSeq)) :
    (streamProtocol strict setup).Triple tid (fun w => (StreamAt strict tid id afterSeq [] s w ∧
        Revealed w.state.db id s.lastSeq trailing ∧ K w) ∧ bound ≤ (w.state.db.events id).length)
      (s.recover (history setup.contract) trailing rest)
      (Returned strict tid id afterSeq) := by
  intro w hi hw
  refine triple_bind (triple_catchUp hK hw.1.1.task hbound) (fun r => ?_) w hi hw
  cases r with
  | error e => exact triple_pure (StreamAt.stable _ _) (fun _ _ h => h) (fun _ _ h => h)
  | ok s' => exact hrest s'

theorem triple_recover_loop (trailing : Option CoreEvent)
    {loop : ReliableTaskStream → Prog (coreSig contractSig) Polled} (hloop : ∀ s', (streamProtocol
      strict setup).Triple tid (StreamAt strict tid id afterSeq [] s') (loop s') (Returned strict
      tid id afterSeq)) :
    (streamProtocol strict setup).Triple tid (fun w => StreamAt strict tid id afterSeq [] s w ∧
        Revealed w.state.db id s.lastSeq trailing)
      (s.recover (history setup.contract) trailing loop)
      (Returned strict tid id afterSeq) := by
  intro w hi hw
  have hrest : ∀ (bound : ℕ) s', (streamProtocol strict setup).Triple tid
      (fun w => StreamAt strict tid id afterSeq [] s' w ∧ True ∧
        (trailing = none → s'.pending = [] → bound ≤ s'.lastSeq)) (loop s')
      (Returned strict tid id afterSeq) :=
    fun _ s' => (hloop s').conseq (fun _ _ h => h.1) (fun _ _ _ h => h)
  cases trailing with
  | none =>
    exact triple_recover (fun _ _ _ _ => trivial) none 0 (fun _ h => by cases h) (hrest 0) w hi
      ⟨⟨hw.1, hw.2, trivial⟩, Nat.zero_le _⟩
  | some e =>
    have hlen := ((hi.state.db.numbered id).mem_bounds (hw.2 e rfl).1).2
    exact triple_recover (fun _ _ _ _ => trivial) (some e) e.seq
      (fun _ h => by cases h; exact le_rfl) (hrest e.seq) w hi
      ⟨⟨hw.1, hw.2, trivial⟩, by omega⟩

/-- What `recv` tells a stream of the task `id` that has delivered up to `lastSeq`. -/
def Received (strict : Prop) (id : TaskId) (lastSeq : ℕ) (got : Recv CoreEvent)
    (w : World (contractCore setup)) : Prop :=
  match got with
  | .value e => e ∈ w.state.db.events id ∧ e.seq ≤ lastSeq + 501
  | .lagged _ => True
  | .closed => strict → w.state.Ended id

theorem Received.stable (lastSeq : ℕ) (got : Recv CoreEvent) :
    (streamProtocol strict setup).Stable tid (Received strict id lastSeq got) := by
  intro w w' he h
  cases got with
  | value e => exact ⟨(he.rely.1.db.events id).subset h.1, h.2⟩
  | lagged n => trivial
  | closed => exact fun hs => (h hs).extends he.rely.1

theorem stable_endedBy (id : TaskId) (bound : ℕ) : (streamProtocol strict setup).Stable tid
    (fun w => strict → w.state.EndedBy id bound) :=
  fun _ _ he h hs => (h hs).extends he.rely.1 le_rfl

theorem triple_onRecv (hpending : s.pending = [])
    {loop : ReliableTaskStream → Prog (coreSig contractSig) Polled} (hloop : ∀ s', (streamProtocol
      strict setup).Triple tid (StreamAt strict tid id afterSeq [] s') (loop s') (Returned strict
      tid id afterSeq)) (got : Recv CoreEvent) :
    (streamProtocol strict setup).Triple tid
      (fun w => StreamAt strict tid id afterSeq [] s w ∧ Received strict id s.lastSeq got w)
      (onRecv (history setup.contract) loop s got)
      (Returned strict tid id afterSeq) := by
  cases got with
  | value e =>
    rw [onRecv]
    split
    · exact (hloop s).conseq (fun _ _ h => h.1) (fun _ _ _ h => h)
    · split
      · rename_i hseq
        refine triple_pure ((StreamAt.stable _ _).and (Received.stable _ _)) (fun _ _ h => h)
          (fun w hi h => ?_)
        have hrest : Numbered CoreEvent.seq (e.seq + 1) s.pending := by
          rw [hpending]
          exact Numbered.nil _ _
        exact h.1.deliver hi.state h.2.1 hseq hrest h.1.pendingLogged
      · refine (triple_recover_loop (some e) hloop).conseq (fun w _ h => ⟨h.1, ?_⟩)
          (fun _ _ _ h => h)
        intro e' he'
        cases he'
        exact ⟨h.2.1, by omega, h.2.2⟩
  | lagged n =>
    exact (triple_recover_loop none hloop).conseq
      (fun w _ h => ⟨h.1, fun e' he' => by cases he'⟩) (fun _ _ _ h => h)
  | closed =>
    intro w hi h
    -- In a strict run the task is terminal, so its log has its final length.
    obtain ⟨bound, hlen, hended⟩ : ∃ bound, bound ≤ (w.state.db.events id).length ∧
        (strict → w.state.EndedBy id bound) := by
      by_cases hs : strict
      · obtain ⟨snap, hsnap, ht⟩ := h.2 hs
        exact ⟨snap.lastSeq, (hi.state.db.log hsnap).lastSeq.le, fun _ => ⟨snap, hsnap, ht, le_rfl⟩⟩
      · exact ⟨0, Nat.zero_le _, fun h => absurd h hs⟩
    refine triple_recover (stable_endedBy id bound) none bound (fun _ h => by cases h)
      (fun s' => ?_) w hi ⟨⟨h.1, (fun e' he' => by cases he'), hended⟩, hlen⟩
    split
    · rename_i hempty
      refine triple_pure ((StreamAt.stable _ _).and (stable_endedBy id s'.lastSeq))
        (fun w _ h => ⟨h.1, fun hs => ?_⟩) (fun w _ h => ?_)
      · exact (h.2.1 hs).extends (.refl _) (h.2.2 rfl (isEmpty_iff.mp hempty))
      · exact ⟨⟨h.1.task, h.1.numbered, h.1.logged, h.1.lastSeq, h.1.pending, h.1.pendingLogged,
          h.1.receiver, fun hs _ => h.2 hs⟩, h.2⟩
    · exact (hloop s').conseq (fun _ _ h => h.1) (fun _ _ _ h => h)

theorem triple_nextLoop (fuel : ℕ) (s : ReliableTaskStream) :
    (streamProtocol strict setup).Triple tid (StreamAt strict tid id afterSeq [] s)
      (nextLoop (history setup.contract) fuel s)
      (Returned strict tid id afterSeq) := by
  induction fuel generalizing s with
  | zero => exact triple_pure (StreamAt.stable _ _) (fun _ _ h => h) (fun _ _ _ => trivial)
  | succ fuel ih =>
    rw [nextLoop]
    split
    · rename_i hterminal
      exact triple_pure (StreamAt.stable _ _) (fun _ _ h => h)
        (fun _ _ h => ⟨h, fun hs => h.ended hs hterminal⟩)
    · split
      · rename_i event rest hpending
        refine triple_pure (StreamAt.stable _ _) (fun _ _ h => h) (fun w hi h => ?_)
        have hnumbered := h.pending
        have hlogged := h.pendingLogged
        rw [hpending] at hnumbered hlogged
        obtain ⟨hseq, hrest⟩ := Numbered.cons_iff.mp hnumbered
        rw [← hseq] at hrest
        exact h.deliver hi.state (hlogged event (mem_cons_self ..)) hseq hrest
          (fun e he => hlogged e (mem_cons_of_mem _ he))
      · rename_i hpending
        refine triple_silent (o := .recv s.taskId s.receiver s.lastSeq) (StreamAt.stable _ _)
          (fun _ _ _ h => by cases h)
          (fun _ _ _ _ h => by cases h) ?_
          (fun got => triple_onRecv (s := { s with receiver := got.2 }) hpending ih got.1)
        intro w c st got next hi hw hpush hex hcond
        simp only [coreExec] at hex
        split at hex
        · rename_i polled hpoll
          cases hex
          obtain ⟨ch, hch, hrecv, hchannel⟩ := CoreState.poll_eq_some hpoll
          obtain ⟨ch', hch', htask⟩ := hw.receiver
          rw [hch] at hch'
          cases hch'
          refine ⟨⟨hpush.task, hpush.numbered, hpush.logged, hpush.lastSeq, hpush.pending,
            hpush.pendingLogged, ⟨ch, by rw [hchannel]; exact hch, htask⟩, hpush.ended⟩, ?_⟩
          obtain ⟨answer, receiver⟩ := got
          cases answer with
          | value e => exact ⟨htask ▸ hi.state.sent hch e
            (Channel.mem_sent_of_recv hrecv), hcond.gap⟩
          | lagged n => trivial
          | closed => exact fun hs => htask ▸ hi.closed hs hch (Channel.closed_of_recv hrecv)
        · cases hex

end AgentConnector
