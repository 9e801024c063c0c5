import AgentConnector.ThreadReplay
import AgentConnector.TaskLifecycle
import AgentConnector.AppliedTransitions

/-!
# Committed events are broadcast

In the programs of the core the operation after a successful append is the broadcast of the appended
event; a timeout may only come in between by dropping the whole call. So the call that has committed
an event has broadcast it, or is about to.
-/

namespace AgentConnector

open Concurrent AdapterCore List

/-- The next operation of the program, timers aside, sends the event. -/
inductive AboutToSend {α : Type} (id : TaskId) (e : CoreEvent) :
    Prog (coreSig contractSig) α → Prop where
  | send (k : Unit → Prog (coreSig contractSig) α) :
      AboutToSend id e (.op (σ := coreSig contractSig) (.activeSend id e) k)
  | timer {k : TimerPoll → Prog (coreSig contractSig) α} :
      AboutToSend id e (k .pending) → AboutToSend id e (.op (σ := coreSig contractSig) .timer k)

def CoreOp.Announced {α : Type} : (o : CoreOp contractSig) →
    (o.Reply → Prog (coreSig contractSig) α) → Prop
  | .store (.append t), k => ∀ a, AboutToSend t.taskId a.event (k (.ok a))
  | _, _ => True

/-- Every append of the program is announced, as long as no timer elapses. -/
def Announces {α : Type} : Prog (coreSig contractSig) α → Prop
  | .pure _ => True
  | .op o k => CoreOp.Announced o k ∧ ∀ r, CoreOp.TimerPending o r → Announces (k r)

section

variable {α β : Type} {id : TaskId} {e : CoreEvent}

variable {p : Prog (coreSig contractSig) α}

theorem AboutToSend.bind {f : α → Prog (coreSig contractSig) β} (h : AboutToSend id e p) :
    AboutToSend id e (p.bind f) := by
  induction h with
  | send k => exact .send _
  | timer _ ih => exact .timer ih

theorem AboutToSend.withTimeout (h : AboutToSend id e p) :
    AboutToSend id e (withTimeout core p) := by
  induction h with
  | send k => exact .timer (.send _)
  | timer _ ih => exact .timer (.timer ih)

theorem CoreOp.Announced.map {k : o.Reply → Prog (coreSig contractSig) α} (h : CoreOp.Announced o k)
    {f : Prog (coreSig contractSig) α → Prog (coreSig contractSig) β}
    (hf : ∀ {id e p}, AboutToSend id e p → AboutToSend id e (f p)) :
    CoreOp.Announced o (fun r => f (k r)) := by
  cases o with
  | store o =>
    cases o with
    | append t => exact fun a => hf (h a)
    | _ => trivial
  | _ => trivial

theorem announces_bind {f : α → Prog (coreSig contractSig) β} (hp : Announces p)
    (hf : ∀ a, Announces (f a)) : Announces (p.bind f) := by
  induction p with
  | pure a => exact hf a
  | op o k ih => exact ⟨hp.1.map AboutToSend.bind, fun r hr => ih r (hp.2 r hr)⟩

theorem announces_withTimeout (hp : Announces p) :
    Announces (withTimeout core p) := by
  induction p with
  | pure a => trivial
  | op o k ih =>
    rw [withTimeout]
    refine ⟨trivial, fun poll hpoll => ?_⟩
    rw [show poll = .pending from hpoll]
    exact ⟨hp.1.map AboutToSend.withTimeout, fun r hr => ih r (hp.2 r hr)⟩

def CoreOp.Silent : CoreOp contractSig → Prop
  | .store (.append _) => False
  | _ => True

theorem CoreEntry.Issues.silent {e : CoreEntry} (h : e.Issues o) : o.Silent := by
  cases o <;> trivial

theorem announces_of_everywhere (hp : p.Everywhere CoreOp.Silent) : Announces p := by
  induction p with
  | pure a => trivial
  | op o k ih =>
    refine ⟨?_, fun r _ => ih r (hp.2 r)⟩
    cases o with
    | store o =>
      cases o with
      | append t => exact hp.1.elim
      | _ => trivial
    | _ => trivial

end

section

variable {setup : CoreSetup}

theorem announces_transition (site : Site) (snap : TaskSnapshot) (allowed : List TaskState)
    (next : TaskState) (kind : CoreEventKind) :
    Announces (transition setup.contract site snap allowed next kind).run := by
  refine ⟨trivial, fun _ _ => ⟨fun a => .send _, fun r _ => ?_⟩⟩
  cases r with
  | error e => trivial
  | ok a => exact ⟨trivial, fun _ _ => trivial⟩

theorem walk_announces :
    Walk setup.contract CoreOp.Silent (fun _ => True) (fun p => Announces p) where
  pure _ := trivial
  bind := announces_bind
  op ho := announces_of_everywhere ⟨ho, fun _ => trivial⟩
  get _ := ⟨trivial, fun r _ => by cases r <;> trivial⟩
  transition _ _ := announces_transition ..

theorem announces_program (setup : CoreSetup) (e : CoreEntry) :
    Announces ((contractCore setup).program e) := by
  refine walk_announces.program (fun _ => CoreEntry.Issues.silent) (fun _ _ _ => trivial) ?_
    (fun _ _ _ => ⟨trivial, fun r _ => by cases r <;> trivial⟩) announces_withTimeout
  refine fun _ _ n _ _ _ => ⟨trivial, fun r _ => ?_⟩
  cases r with
  | error e => trivial
  | ok inserted => exact ⟨trivial, fun r _ => by cases r <;> trivial⟩

/-- The step adds the event to the log of the task. -/
def Commits (st : Step (contractCore setup)) (id : TaskId) (e : CoreEvent) : Prop :=
  e ∉ st.pre.db.events id ∧ e ∈ st.post.db.events id

variable {id : TaskId} {e : CoreEvent}

theorem exists_commits {p : Pool (contractCore setup)} (hp : p.Reachable)
    (he : e ∈ p.state.db.events id) : ∃ st ∈ p.trace, Commits st id e := by
  induction hp with
  | start => cases he
  | @act p q a hp ha ih =>
    rcases Pool.act_cases ha with ⟨_, _, rfl⟩ | ⟨tid, c, th, o, k, s, r, _, _, _, rfl⟩
    · exact ih he
    · by_cases hold : e ∈ p.state.db.events id
      · obtain ⟨st, hst, hc⟩ := ih hold
        exact ⟨st, mem_cons_of_mem _ hst, hc⟩
      · exact ⟨_, mem_cons_self .., hold, he⟩

theorem Commits.append (h : Commits st id e)
    (hex : coreExec contractMachine st.tid st.pre st.op c = some (st.post, st.reply))
    (hfault : ¬ CoreOp.Fault st.op st.reply) :
    ∃ tid t a pre post next, t.taskId = id ∧ a.event = e ∧
      st = ⟨tid, .store (.append t), .ok a, pre, post, next⟩ := by
  obtain ⟨tid, o, r, pre, post, next⟩ := st
  obtain ⟨hbefore, hafter⟩ := h
  change coreExec contractMachine tid pre o c = some (post, r) at hex
  rcases coreExec_db hex with hdb | ⟨n, _, hn, hdb⟩ | ⟨t, cur, rfl, hc, hdb⟩
  · rw [hdb] at hafter
    exact absurd hafter hbefore
  · rw [hdb] at hafter
    by_cases hid : id = n.taskId
    · subst hid
      simp [LogStore.insert] at hafter
    · simp only [LogStore.insert, Function.update_of_ne hid] at hafter
      exact absurd hafter hbefore
  · obtain ⟨a, rfl⟩ := coreExec_append_ok hc hex hfault
    obtain ⟨db, hstore, rfl⟩ := coreExec_store hex
    rcases LogStore.exec_append hstore with ⟨cur', hc', ha, hrecord⟩ | ⟨_, _, ha, _⟩ | ⟨_, ha, _⟩
    · cases ha
      rw [hc] at hc'
      cases hc'
      rw [hdb] at hafter
      rcases LogStore.eq_of_mem_events_record hafter with hold | ⟨hid, hevent⟩
      · exact absurd hold hbefore
      · exact ⟨tid, t, _, pre, _, next, hid, hevent, rfl⟩
    · cases ha
    · cases ha

theorem AboutToSend.replays (h : AboutToSend id e p) (hl : Replays p l q)
    (htimer : ∀ st ∈ l, CoreOp.TimerPending st.op st.reply) :
    AboutToSend id e q ∨ ∃ st ∈ l, st.op = .activeSend id e := by
  induction hl with
  | nil => exact .inl h
  | @cons l st k _ ih =>
    rcases ih (fun st' hst' => htimer st' (mem_cons_of_mem _ hst')) with
      hnext | ⟨st', hst', hop⟩
    · have hpending := htimer st (mem_cons_self ..)
      obtain ⟨tid, o, r, pre, post, next⟩ := st
      cases hnext with
      | send _ => exact .inr ⟨_, mem_cons_self .., rfl⟩
      | timer hrest =>
        rw [show r = .pending from hpending]
        exact .inl hrest
    · exact .inr ⟨st', mem_cons_of_mem _ hst', hop⟩

/-- A call that has committed an event, and was not cut off by a fault or a timeout, has broadcast
it or is about to. -/
theorem Commits.broadcast {p : Pool (contractCore setup)} (hp : p.Reachable) (hst : st ∈ p.trace)
    (hc : Commits st id e) (hth : p.threads[st.tid]? = some th)
    (hfault : ¬ CoreOp.Fault st.op st.reply)
    (htimer : ∀ st' ∈ p.own st.tid, CoreOp.TimerPending st'.op st'.reply) :
    AboutToSend id e th.prog ∨ ∃ st' ∈ p.own st.tid, st'.op = .activeSend id e := by
  obtain ⟨c, hex⟩ := hp.executed st hst
  obtain ⟨tid, t, a, pre, post, next, rfl, rfl, rfl⟩ := hc.append hex hfault
  obtain ⟨l, l', hown⟩ := append_of_mem (World.mem_own.mpr ⟨hst, rfl⟩)
  have hreplays := hp.replays hth
  rw [hown] at hreplays htimer ⊢
  obtain ⟨k, hbefore, hafter⟩ := hreplays.split
  have hannounces := hbefore.preserves (fun st' k' hpending h => h.2 _ hpending)
    (fun st' hst' => htimer st' (mem_append_right _ (mem_cons_of_mem _ hst')))
    (announces_program setup th.entry)
  rcases (hannounces.1 a).replays hafter
    (fun st' hst' => htimer st' (mem_append_left _ hst')) with h | ⟨st', hst', hop⟩
  · exact .inl h
  · exact .inr ⟨st', mem_append_left _ hst', hop⟩

end

end AgentConnector
