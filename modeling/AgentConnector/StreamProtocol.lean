import AgentConnector.EventPages
import AgentConnector.TaskLifecycle

/-!
# The protocol of reliable streams

What a stream has delivered is read off the trace: the events its thread has emitted. The protocol
states that they are numbered from `afterSeq + 1` on and are events of the log, in runs in which no
live event is polled more than 501 ahead of the last delivered one. In runs that are `strict`, that
is, in which senders are dropped and missing senders are met only at terminal tasks, the end of a
stream is also the end of its task.
-/

namespace AgentConnector

open Concurrent Protocol Broadcast List

variable {setup : CoreSetup}

def emitted (st : Step (contractCore setup)) : Option CoreEvent :=
  match st.op with
  | .emit _ _ (.ok (some e)) => some e
  | _ => none

variable (w : World (contractCore setup))

/-- What the stream of a thread has delivered, oldest first. -/
def delivered (tid : ℕ) : List CoreEvent :=
  (w.own tid).reverse.filterMap emitted

theorem delivered_push_self (st : Step (contractCore setup)) :
    delivered (w.push st) st.tid = delivered w st.tid ++ (emitted st).toList := by
  rw [delivered, World.own_push_self, reverse_cons, filterMap_append]
  cases h : emitted st <;> simp [delivered, h]

theorem delivered_push_ne (h : st.tid ≠ tid) : delivered (w.push st) tid = delivered w tid := by
  rw [delivered, World.own_push_ne w h, delivered]

variable (s : CoreState LogStore)

/-- The task is terminal and has no events after `seq`. -/
def CoreState.EndedBy (id : TaskId) (seq : ℕ) : Prop :=
  ∃ snap, s.db.tasks id = some snap ∧ snap.state.terminal = true ∧ snap.lastSeq ≤ seq

theorem CoreState.EndedBy.extends {s s' : CoreState LogStore} {id : TaskId} (h : s.EndedBy id seq)
    (hext : s.Extends s') (hseq : seq ≤ seq') : s'.EndedBy id seq' := by
  obtain ⟨snap, hs, ht, hle⟩ := h
  obtain ⟨snap', hs', hsucc⟩ := hext.db.task hs
  exact ⟨snap', hs', by rw [hsucc.terminal ht]; exact ht, by rw [hsucc.terminal ht]; omega⟩

/-- A live event is not too far ahead of the last event its stream has delivered. -/
def CoreOp.GapWithin (n : ℕ) : (o : CoreOp contractSig) → o.Reply → Prop
  | .recv _ _ lastSeq, (.value event, _) => event.seq ≤ lastSeq + n
  | _, _ => True

instance (n : ℕ) (o : CoreOp contractSig) (r : o.Reply) : Decidable (CoreOp.GapWithin n o r) :=
  decidable_of_bool (match o, r with
    | .recv _ _ lastSeq, (.value event, _) => event.seq ≤ lastSeq + n
    | _, _ => true) (by unfold CoreOp.GapWithin; split <;> simp)

/-- A subscription that finds no sender finds a terminal task. -/
def CoreOp.AttachesLate : (o : CoreOp contractSig) → o.Reply → Prop
  | .activeSubscribe id, none => s.Ended id
  | _, _ => True

/-- A sender is dropped, by removal or by replacement, only when its task is terminal. -/
def CoreOp.DetachesLate : CoreOp contractSig → Prop
  | .activeRemove id => (s.active id).isSome = true → s.Ended id
  | .activeInsert id => (s.active id).isSome = true → s.Ended id
  | _ => True

/-- The condition on the steps of a run: no gap is longer than a page and one event; in strict runs
senders come and go as they should. -/
structure StreamStep (strict : Prop) (st : Step (contractCore setup)) : Prop where
  gap : CoreOp.GapWithin 501 st.op st.reply
  attach : strict → CoreOp.AttachesLate st.pre st.op st.reply
  detach : strict → CoreOp.DetachesLate st.pre st.op

/-- All streams of one thread are streams of one task from one place on. -/
def SameStream (st : Step (contractCore setup)) : Prop :=
  ∀ id afterSeq r, st.op = .emit id afterSeq r → ∀ st' ∈ w.own st.tid, ∀ id' afterSeq' r',
    st'.op = .emit id' afterSeq' r' → id' = id ∧ afterSeq' = afterSeq

structure Delivers (strict : Prop) (w : World (contractCore setup)) (tid : ℕ) (id : TaskId)
    (afterSeq : ℕ) (r : Except CoreError (Option CoreEvent)) : Prop where
  numbered : Numbered CoreEvent.seq (afterSeq + 1) (delivered w tid)
  logged : ∀ e ∈ delivered w tid, e ∈ w.state.db.events id
  ended : strict → r = .ok none → w.state.EndedBy id (afterSeq + (delivered w tid).length)

structure StreamInv (strict : Prop) (w : World (contractCore setup)) : Prop where
  state : w.state.WF
  delivers : ∀ st ∈ w.trace, ∀ id afterSeq r, st.op = .emit id afterSeq r →
    Delivers strict w st.tid id afterSeq r
  closed : strict → ∀ {i : ℕ} {ch : TaskChannel}, w.state.channels[i]? = some ch →
    ch.channel.closed = true → w.state.Ended ch.task

def streamProtocol (strict : Prop) (setup : CoreSetup) : Protocol (contractCore setup) where
  given w st := CoreStep st ∧ StreamStep strict st ∧ SameStream w st
  inv := StreamInv strict
  rely tid w w' := w.state.Extends w'.state ∧ delivered w' tid = delivered w tid
  pre _ _ _ := True
  post _ _ _ _ := True
  rely_refl _ _ := ⟨.refl _, rfl⟩
  rely_trans _ _ _ _ h h' := ⟨h.1.trans h'.1, h'.2.trans h.2⟩

section

variable {strict : Prop} {w : World (contractCore setup)} {tid next : ℕ} {o : CoreOp contractSig}
variable {c : CoreChoice ContractChoice} {s : CoreState LogStore} {r : o.Reply}

theorem Delivers.push {id : TaskId} (h : Delivers strict w j id afterSeq x)
    (hext : w.state.Extends st.post) (hsame : delivered (w.push st) j = delivered w j) :
    Delivers strict (w.push st) j id afterSeq x where
  numbered := by rw [hsame]; exact h.numbered
  logged := by
    rw [hsame]
    exact fun e he => (hext.db.events id).subset (h.logged e he)
  ended hs hx := by
    rw [hsame]
    exact (h.ended hs hx).extends hext le_rfl

/-- An operation that emits nothing keeps the protocol and is invisible to the thread itself; a
receiver may be created closed only for a terminal task. -/
theorem keeps_silent (hi : StreamInv strict w)
    (hex : coreExec contractMachine tid w.state o c = some (s, r))
    (hg : (streamProtocol strict setup).given w ⟨tid, o, r, w.state, s, next⟩)
    (ho : ∀ id afterSeq x, o ≠ .emit id afterSeq x)
    (hclosed : strict → ∀ id, o = .closedReceiver id → w.state.Ended id) :
    (streamProtocol strict setup).Keeps w ⟨tid, o, r, w.state, s, next⟩ ∧
      (streamProtocol strict setup).Env tid w (w.push ⟨tid, o, r, w.state, s, next⟩) := by
  obtain ⟨hstep, hcond, _⟩ := hg
  have hext : w.state.Extends s := hstep.grows
  have hquiet : emitted (⟨tid, o, r, w.state, s, next⟩ : Step (contractCore setup)) = none := by
    unfold emitted
    split
    · rename_i id afterSeq e hop
      exact absurd hop (ho id afterSeq _)
    · rfl
  have hdelivered : ∀ j, delivered (w.push ⟨tid, o, r, w.state, s, next⟩) j = delivered w j := by
    intro j
    by_cases hj : tid = j
    · subst j
      have hself := delivered_push_self w ⟨tid, o, r, w.state, s, next⟩
      rwa [hquiet, Option.toList_none, append_nil] at hself
    · exact delivered_push_ne w hj
  have hinv : StreamInv strict (w.push ⟨tid, o, r, w.state, s, next⟩) := by
    refine ⟨hstep.wf, fun st hst id afterSeq x hop => ?_, fun hs {i ch} hch hcl => ?_⟩
    · rcases mem_cons.mp hst with rfl | hst
      · exact absurd hop (ho id afterSeq x)
      · exact (hi.delivers st hst id afterSeq x hop).push hext (hdelivered _)
    · rcases coreExec_channel hex hch with hch₀ | ⟨-, hnew⟩ |
        ⟨id, a, ch₀, ha, rfl, hch₀, htask, hused⟩
      · exact (hi.closed hs hch₀ hcl).extends hext
      · exact (hclosed hs ch.task (hnew hcl)).extends hext
      rw [htask]
      rcases hused with ⟨hdrop, -⟩ | ⟨e, -, hsend⟩
      · obtain ⟨ch₁, hch₁, htask₁, _⟩ := hi.state.active ha
        rw [hch₀] at hch₁
        cases hch₁
        rw [htask₁]
        rcases hdrop with rfl | rfl <;>
          exact (hcond.detach hs (by rw [ha]; rfl)).extends hext
      · rw [hsend] at hcl
        exact (hi.closed hs hch₀ hcl).extends hext
  exact ⟨⟨hinv, fun j _ => ⟨hext, hdelivered j⟩, fun _ _ => trivial⟩, hinv, hext, hdelivered tid⟩

end

end AgentConnector
