import AgentConnector.CoreService
import AgentConnector.TaskLog

/-!
# The shared state of the core over the contract store

`CoreState.WF` is what every reachable state satisfies: the store is well formed, everything ever
sent on a channel is in the log of the channel's task, and the entry of an active task holds an
open channel of that task. `CoreState.Extends` is what a step may do: the store grows and channels
grow. Every operation keeps both as long as it meets its obligation: an append is legal and only
logged events are sent.
-/

namespace AgentConnector

open Concurrent Broadcast

namespace CoreState

structure WF (s : CoreState LogStore) : Prop where
  db : s.db.WF
  sent : ∀ {i : ℕ} {ch : TaskChannel}, s.channels[i]? = some ch →
    ∀ e ∈ ch.channel.sent, e ∈ s.db.events ch.task
  active : ∀ {id a}, s.active id = some a → ∃ ch : TaskChannel,
    s.channels[a.channel]? = some ch ∧ ch.task = id ∧ ch.channel.closed = false

structure Extends (s s' : CoreState LogStore) : Prop where
  db : s.db.Extends s'.db
  channels : ∀ {i : ℕ} {ch : TaskChannel}, s.channels[i]? = some ch → ∃ ch' : TaskChannel,
    s'.channels[i]? = some ch' ∧ ch'.task = ch.task ∧ ch.channel.Extends ch'.channel

theorem Extends.refl (s : CoreState LogStore) : s.Extends s :=
  ⟨.refl _, fun {_ ch} h => ⟨ch, h, rfl, .refl _⟩⟩

theorem Extends.trans {s s' s'' : CoreState LogStore} (h : s.Extends s') (h' : s'.Extends s'') :
    s.Extends s'' where
  db := h.db.trans h'.db
  channels hch := by
    obtain ⟨ch', hch', htask, hext⟩ := h.channels hch
    obtain ⟨ch'', hch'', htask', hext'⟩ := h'.channels hch'
    exact ⟨ch'', hch'', htask'.trans htask, hext.trans hext'⟩

variable {s : CoreState LogStore}

theorem Extends.of_channels_eq (hdb : s.db.Extends s'.db) (hch : s'.channels = s.channels) :
    s.Extends s' :=
  ⟨hdb, fun {_ ch} h => ⟨ch, by rw [hch]; exact h, rfl, .refl _⟩⟩

theorem WF.of_db {db : LogStore} (h : s.WF) (hdb : db.WF) (hext : s.db.Extends db) :
    WF { s with db := db } :=
  ⟨hdb, fun hch e he => (hext.events _).subset (h.sent hch e he), h.active⟩

theorem getElem?_onChannel {f : Channel CoreEvent → Channel CoreEvent}
    (h : (s.onChannel i f).channels[j]? = some ch') :
    ∃ ch, s.channels[j]? = some ch ∧ ch'.task = ch.task ∧
      ch'.channel = if i = j then f ch.channel else ch.channel := by
  simp only [onChannel, List.getElem?_modify] at h
  obtain ⟨ch, hch, rfl⟩ := Option.map_eq_some_iff.mp h
  by_cases hij : i = j
  · exact ⟨ch, hch, by simp [hij], by simp [hij]⟩
  · exact ⟨ch, hch, by simp [hij], by simp [hij]⟩

theorem onChannel_getElem? (f : Channel CoreEvent → Channel CoreEvent)
    (h : s.channels[j]? = some ch) :
    (s.onChannel i f).channels[j]? =
      some (if i = j then { ch with channel := f ch.channel } else ch) := by
  simp only [onChannel, List.getElem?_modify, h]
  by_cases hij : i = j <;> simp [hij]

theorem extends_onChannel (s : CoreState LogStore) (i : ℕ)
    {f : Channel CoreEvent → Channel CoreEvent} (hf : ∀ ch : Channel CoreEvent, ch.Extends (f ch)) :
    s.Extends (s.onChannel i f) where
  db := .refl _
  channels {j ch} hch := by
    refine ⟨_, onChannel_getElem? f hch, ?_, ?_⟩
    · split <;> rfl
    · split
      · exact hf ch.channel
      · exact .refl _

theorem extends_dropActive (s : CoreState LogStore) (id : TaskId) :
    s.Extends (s.dropActive id) := by
  unfold dropActive
  split
  · rename_i a _
    have h := s.extends_onChannel a.channel Channel.extends_close
    exact ⟨h.db, h.channels⟩
  · exact .refl s

theorem WF.dropActive (h : s.WF) (id : TaskId) : (s.dropActive id).WF := by
  unfold CoreState.dropActive
  split
  · rename_i a ha
    obtain ⟨ch₀, hch₀, htask₀, _⟩ := h.active ha
    refine ⟨h.db, fun {i ch'} hch' e he => ?_, fun {id' a'} ha' => ?_⟩
    · obtain ⟨ch, hch, htask, hchannel⟩ := getElem?_onChannel hch'
      rw [htask]
      apply h.sent hch
      rw [hchannel] at he
      split at he <;> exact he
    · have hne : id' ≠ id := by
        rintro rfl
        simp at ha'
      change Function.update s.active id none id' = some a' at ha'
      rw [Function.update_of_ne hne] at ha'
      obtain ⟨ch, hch, htask, hopen⟩ := h.active ha'
      have hij : a.channel ≠ a'.channel := by
        intro heq
        rw [heq, hch] at hch₀
        cases hch₀
        exact hne (htask.symm.trans htask₀)
      refine ⟨ch, ?_, htask, hopen⟩
      have := onChannel_getElem? (i := a.channel) Channel.close hch
      rwa [if_neg hij] at this
  · exact h

theorem WF.pushChannel (h : s.WF) (hc : c.channel.sent = []) :
    WF { s with channels := s.channels ++ [c] } := by
  refine ⟨h.db, fun {i ch} hch e he => ?_, fun {id a} ha => ?_⟩
  · rcases Pool.getElem?_concat_cases hch with hch | ⟨-, rfl⟩
    · exact h.sent hch e he
    · rw [hc] at he
      cases he
  · obtain ⟨ch, hch, htask, hopen⟩ := h.active ha
    have hi : a.channel < s.channels.length := (List.getElem?_eq_some_iff.mp hch).1
    exact ⟨ch, by rw [List.getElem?_append_left hi]; exact hch, htask, hopen⟩

theorem extends_pushChannel (s : CoreState LogStore) (c : TaskChannel) :
    s.Extends { s with channels := s.channels ++ [c] } where
  db := .refl _
  channels {i ch} hch := by
    have hi : i < s.channels.length := (List.getElem?_eq_some_iff.mp hch).1
    exact ⟨ch, by rw [List.getElem?_append_left hi]; exact hch, rfl, .refl _⟩

theorem WF.insertActive (h : s.WF) (id : TaskId) : (s.insertActive id).WF := by
  have hdrop := h.dropActive id
  have hpush := hdrop.pushChannel (c := ⟨id, Channel.open_ 256⟩) rfl
  refine ⟨hpush.db, hpush.sent, fun {id' a} ha => ?_⟩
  simp only [CoreState.insertActive] at ha ⊢
  by_cases hid : id' = id
  · subst id'
    rw [Function.update_self, Option.some.injEq] at ha
    subst a
    exact ⟨⟨id, Channel.open_ 256⟩, by simp, rfl, rfl⟩
  · rw [Function.update_of_ne hid] at ha
    exact hpush.active ha

theorem extends_insertActive (s : CoreState LogStore) (id : TaskId) :
    s.Extends (s.insertActive id) := by
  have hpush := (s.dropActive id).extends_pushChannel ⟨id, Channel.open_ 256⟩
  have h := (s.extends_dropActive id).trans hpush
  exact ⟨h.db, h.channels⟩

theorem WF.send (h : s.WF) {id : TaskId} (he : e ∈ s.db.events id) :
    (s.send id e).WF := by
  unfold CoreState.send
  split
  · rename_i a ha
    obtain ⟨ch₀, hch₀, htask₀, hopen₀⟩ := h.active ha
    refine ⟨h.db, fun {i ch'} hch' e' he' => ?_, fun {id' a'} ha' => ?_⟩
    · obtain ⟨ch, hch, htask, hchannel⟩ := getElem?_onChannel hch'
      rw [htask]
      rw [hchannel] at he'
      split at he'
      · rename_i hi
        subst i
        rw [hch] at hch₀
        cases hch₀
        rcases List.mem_append.mp he' with he' | he'
        · exact h.sent hch e' he'
        · rw [List.mem_singleton] at he'
          rw [he', htask₀]
          exact he
      · exact h.sent hch e' he'
    · obtain ⟨ch, hch, htask, hopen⟩ := h.active ha'
      refine ⟨_, onChannel_getElem? _ hch, ?_, ?_⟩
      · split <;> exact htask
      · split <;> exact hopen
  · exact h

theorem extends_send (s : CoreState LogStore) (id : TaskId) (e : CoreEvent) :
    s.Extends (s.send id e) := by
  unfold CoreState.send
  split
  · exact s.extends_onChannel _ (fun ch => ch.extends_send e)
  · exact .refl s

theorem WF.cancelToken (h : s.WF) (id : TaskId) : (s.cancelToken id).WF := by
  unfold CoreState.cancelToken
  split
  · rename_i a ha
    refine ⟨h.db, h.sent, fun {id' a'} ha' => ?_⟩
    by_cases hid : id' = id
    · subst id'
      simp only [Function.update_self, Option.some.injEq] at ha'
      subst a'
      obtain ⟨ch, hch, htask, hopen⟩ := h.active ha
      exact ⟨ch, hch, htask, hopen⟩
    · simp only [Function.update_of_ne hid] at ha'
      exact h.active ha'
  · exact h

theorem extends_cancelToken (s : CoreState LogStore) (id : TaskId) :
    s.Extends (s.cancelToken id) := by
  unfold CoreState.cancelToken
  split
  · exact .of_channels_eq (.refl _) rfl
  · exact .refl s

theorem poll_eq_some (h : s.poll r = some (got, r')) :
    ∃ ch, s.channels[r.channel]? = some ch ∧ ch.channel.recv r.next = some (got, r'.next) ∧
      r'.channel = r.channel := by
  unfold poll at h
  split at h
  · rename_i ch hch
    split at h
    · rename_i got' next hrecv
      cases h
      exact ⟨ch, hch, hrecv, rfl⟩
    · cases h
  · cases h

end CoreState

/-- The reply reports a failure of the storage itself. -/
def CoreOp.Fault : (o : CoreOp contractSig) → o.Reply → Prop
  | .store (.claim _), .error e => e.fault = true
  | .store (.row _), .error e => e.fault = true
  | .store (.get _), .error e => e.fault = true
  | .store (.append _), .error e => e.fault = true
  | .store (.eventsAfter _ _ _), .error e => e.fault = true
  | _, _ => False

instance (o : CoreOp contractSig) (r : o.Reply) : Decidable (CoreOp.Fault o r) := by
  unfold CoreOp.Fault
  split <;> infer_instance

/-- The operation is not the elapse of a timeout. -/
def CoreOp.TimerPending : (o : CoreOp contractSig) → o.Reply → Prop
  | .timer, r => r = .pending
  | _, _ => True

instance (o : CoreOp contractSig) (r : o.Reply) : Decidable (CoreOp.TimerPending o r) := by
  unfold CoreOp.TimerPending
  split <;> infer_instance

def CoreOp.Obliged (s : CoreState LogStore) : CoreOp contractSig → Prop
  | .store (.append t) => s.db.Legal t
  | .activeSend id e => e ∈ s.db.events id
  | _ => True

variable {o : CoreOp contractSig} {c : CoreChoice ContractChoice}

variable {r : o.Reply}

variable {s s' : CoreState LogStore}

theorem CoreState.WF.coreExec (h : s.WF) (ho : o.Obliged s)
    (hex : coreExec contractMachine tid s o c = some (s', r)) :
    s'.WF ∧ s.Extends s' := by
  have hmove := coreMove_of_exec hex
  clear hex
  change CoreOp contractMachine.sig at o
  cases hmove with
  | @stored o db r hdb =>
    have hlegal : ∀ t, o = .append t → s.db.Legal t := by
      rintro t rfl
      exact ho
    obtain ⟨hwf, hext⟩ := h.db.exec hlegal hdb
    exact ⟨h.of_db hwf hext, .of_channels_eq hext rfl⟩
  | inserted id => exact ⟨h.insertActive id, s.extends_insertActive id⟩
  | sent id e => exact ⟨h.send ho, s.extends_send id e⟩
  | opened id => exact ⟨h.pushChannel rfl, s.extends_pushChannel _⟩
  | cancelled id => exact ⟨h.cancelToken id, s.extends_cancelToken id⟩
  | removed id => exact ⟨h.dropActive id, s.extends_dropActive id⟩
  | entered site | acquired sem | released sem =>
    exact ⟨⟨h.db, h.sent, h.active⟩, .of_channels_eq (.refl _) rfl⟩
  | same => exact ⟨h, .refl s⟩

theorem coreExec_db (hex : coreExec contractMachine tid s o c = some (s', r)) :
    s'.db = s.db ∨
    (∃ n, o = .store (.claim n) ∧ s.db.tasks n.taskId = none ∧ s'.db = s.db.insert n c.store.now) ∨
    (∃ t cur, o = .store (.append t) ∧ s.db.check t = .ok cur ∧
      s'.db = s.db.record (LogStore.applied cur t c.store.now)) := by
  rcases (coreMove_of_exec hex).frame.1 with ⟨o, rfl⟩ | h
  · obtain ⟨db, hdb, rfl⟩ := coreExec_store hex
    rcases LogStore.exec_cases hdb with rfl | ⟨n, rfl, _, hn, rfl⟩ | ⟨t, cur, rfl, hc, rfl⟩
    · exact .inl rfl
    · exact .inr (.inl ⟨n, rfl, hn, rfl⟩)
    · exact .inr (.inr ⟨t, cur, rfl, hc, rfl⟩)
  · exact .inl h

/-- Where a channel comes from: it was there as it is, it is new, or it is that of an active task
whose sender is dropped or used. -/
theorem coreExec_channel (hex : coreExec contractMachine tid s o c = some (s', r))
    (hch' : s'.channels[i]? = some ch') :
    s.channels[i]? = some ch' ∨
    (ch'.channel.sent = [] ∧ (ch'.channel.closed = true → o = .closedReceiver ch'.task)) ∨
    ∃ id a ch, s.active id = some a ∧ a.channel = i ∧ s.channels[i]? = some ch ∧
      ch'.task = ch.task ∧
      (((o = .activeRemove id ∨ o = .activeInsert id) ∧ ch'.channel = ch.channel.close) ∨
        ∃ e, o = .activeSend id e ∧ ch'.channel = ch.channel.send e) := by
  have hused : ∀ {a : ActiveTask} {f}, (s.onChannel a.channel f).channels[i]? = some ch' →
      s.channels[i]? = some ch' ∨ ∃ ch, a.channel = i ∧ s.channels[i]? = some ch ∧
        ch'.task = ch.task ∧ ch'.channel = f ch.channel := by
    intro a f h
    obtain ⟨ch, hch, htask, hchannel⟩ := CoreState.getElem?_onChannel h
    by_cases hi : a.channel = i
    · rw [if_pos hi] at hchannel
      exact .inr ⟨ch, hi, hch, htask, hchannel⟩
    · rw [if_neg hi] at hchannel
      cases ch
      cases ch'
      cases htask
      cases hchannel
      exact .inl hch
  have hdrop : ∀ id, (s.dropActive id).channels[i]? = some ch' →
      s.channels[i]? = some ch' ∨ ∃ a ch, s.active id = some a ∧ a.channel = i ∧
        s.channels[i]? = some ch ∧ ch'.task = ch.task ∧ ch'.channel = ch.channel.close := by
    intro id h
    unfold CoreState.dropActive at h
    split at h
    · rename_i a ha
      exact (hused h).imp_right fun ⟨ch, hused⟩ => ⟨a, ch, ha, hused⟩
    · exact .inl h
  have hmove := coreMove_of_exec hex
  clear hex
  change CoreOp contractMachine.sig at o
  cases hmove with
  | inserted id =>
    rcases Pool.getElem?_concat_cases hch' with hch' | ⟨-, rfl⟩
    · rcases hdrop id hch' with h | ⟨a, ch, ha, hi, hch, htask, hclose⟩
      · exact .inl h
      · exact .inr (.inr ⟨id, a, ch, ha, hi, hch, htask, .inl ⟨.inr rfl, hclose⟩⟩)
    · exact .inr (.inl ⟨rfl, fun h => by cases h⟩)
  | removed id =>
    rcases hdrop id hch' with h | ⟨a, ch, ha, hi, hch, htask, hclose⟩
    · exact .inl h
    · exact .inr (.inr ⟨id, a, ch, ha, hi, hch, htask, .inl ⟨.inl rfl, hclose⟩⟩)
  | opened id =>
    rcases Pool.getElem?_concat_cases hch' with hch' | ⟨-, rfl⟩
    · exact .inl hch'
    · exact .inr (.inl ⟨rfl, fun _ => rfl⟩)
  | sent id e =>
    unfold CoreState.send at hch'
    split at hch'
    · rename_i a ha
      rcases hused hch' with h | ⟨ch, hi, hch, htask, hsend⟩
      · exact .inl h
      · exact .inr (.inr ⟨id, a, ch, ha, hi, hch, htask, .inr ⟨e, rfl, hsend⟩⟩)
    · exact .inl hch'
  | cancelled id =>
    unfold CoreState.cancelToken at hch'
    split at hch' <;> exact .inl hch'
  | _ => exact .inl hch'

theorem coreExec_sites (hex : coreExec contractMachine tid s o c = some (s', r)) (hj : j ≠ tid) :
    s'.sites j = s.sites j :=
  (coreMove_of_exec hex).frame.2.2 j hj

def CoreState.Ended (s : CoreState LogStore) (id : TaskId) : Prop :=
  ∃ snap, s.db.tasks id = some snap ∧ snap.state.terminal = true

theorem CoreState.Ended.extends {id : TaskId} (h : s.Ended id) (hext : s.Extends s') :
    s'.Ended id := by
  obtain ⟨snap, hs, ht⟩ := h
  obtain ⟨snap', hs', hsucc⟩ := hext.db.task hs
  exact ⟨snap', hs', by rw [hsucc.terminal ht]; exact ht⟩

instance (s : CoreState LogStore) (id : TaskId) : Decidable (s.Ended id) :=
  inferInstanceAs (Decidable (∃ snap ∈ s.db.tasks id, snap.state.terminal = true))

end AgentConnector
