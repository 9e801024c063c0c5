import AgentConnector.ConcurrentProgram

/-!
# Pools of programs over one shared state

A service fixes how each atomic operation acts on the shared state, which programs a client may
call, and which operation starts a further program. A pool holds the shared state, the threads
called or started so far and the steps taken so far, newest first. Every choice that is not made
by a program (clock readings, faults, replies of the outside) is an argument of the step, so
`Pool.act` is a function and a schedule is a list of actions.
-/

namespace Concurrent

open List Option

/-- How operations act on the shared state and which programs may run over it. -/
structure Service (σ : Signature) where
  State : Type
  Choice : Type
  Entry : Type
  Result : Type
  init : State
  exec : ℕ → State → (o : σ.Op) → Choice → Option (State × σ.Reply o)
  program : Entry → Prog σ Result
  external : Entry → Bool
  fork : σ.Op → Option Entry

variable {σ : Signature} (S : Service σ)

/-- One operation performed by thread `tid`; `next` is the number of threads before it, which is
also the identity of a thread it starts. -/
structure Step where
  tid : ℕ
  op : σ.Op
  reply : σ.Reply op
  pre : S.State
  post : S.State
  next : ℕ

/-- The shared state together with the steps that led to it, newest first. -/
structure World where
  state : S.State
  trace : List (Step S)

structure Thread where
  entry : S.Entry
  prog : Prog σ S.Result

structure Pool extends World S where
  threads : List (Thread S)

inductive Action where
  | call (e : S.Entry)
  | step (tid : ℕ) (c : S.Choice)

variable {S}

variable (w : World S) (st : Step S)

def World.push : World S := ⟨st.post, st :: w.trace⟩

@[simp] theorem World.push_state : (w.push st).state = st.post := rfl

@[simp] theorem World.push_trace :
    (w.push st).trace = st :: w.trace := rfl

/-- The steps of one thread, newest first. -/
def World.own (tid : ℕ) : List (Step S) :=
  w.trace.filter (fun st => st.tid = tid)

@[simp] theorem World.own_push_self :
    (w.push st).own st.tid = st :: w.own st.tid := by
  simp [World.own]

variable {st : Step S}

theorem World.own_push_ne (h : st.tid ≠ tid) :
    (w.push st).own tid = w.own tid := by
  simp [World.own, h]

variable {w : World S}

theorem World.mem_own :
    st ∈ w.own tid ↔ st ∈ w.trace ∧ st.tid = tid := by
  simp [World.own]

variable {l l' : List (Step S)}

theorem World.own_split (h : w.own tid = l ++ st :: l') :
    ∃ l₁ l₂, w.trace = l₁ ++ st :: l₂ ∧ l₂.filter (fun st => st.tid = tid) = l' := by
  obtain ⟨a, b, hab, _, hb⟩ := filter_eq_append_iff.mp h
  obtain ⟨c, d, hcd, _, _, hd⟩ := filter_eq_cons_iff.mp hb
  exact ⟨a ++ c, d, by rw [hab, hcd, append_assoc], hd⟩

theorem countP_le_one {α : Type} {P : α → Bool} {l : List α}
    (h : ∀ l₁ a l₂, l = l₁ ++ a :: l₂ → P a = true → ∀ b ∈ l₂, P b = false) : l.countP P ≤ 1 := by
  induction l with
  | nil => simp
  | cons a l ih =>
    by_cases ha : P a = true
    · have hnone : l.countP P = 0 := by
        rw [countP_eq_zero]
        intro b hb
        rw [h [] a l rfl ha b hb]
        exact Bool.false_ne_true
      rw [countP_cons_of_pos ha, hnone]
    · rw [countP_cons_of_neg ha]
      exact ih (fun l₁ b l₂ hl => h (a :: l₁) b l₂ (by rw [hl]; rfl))

theorem World.nodup_tid {P : Step S → Bool} (h : ∀ tid, (w.own tid).countP P ≤ 1) :
    ((w.trace.filter P).map Step.tid).Nodup := by
  rw [nodup_iff_count_le_one]
  intro tid
  rw [List.count, countP_map, countP_filter]
  have hown := h tid
  rw [World.own, countP_filter] at hown
  refine le_trans (le_of_eq (countP_congr fun st _ => ?_)) hown
  simp [and_comm]

def Thread.finished (th : Thread S) : Bool := th.prog.finished

namespace Pool

variable (S) in
def start : Pool S := { state := S.init, trace := [], threads := [] }

def spawn (threads : List (Thread S)) (o : σ.Op) : List (Thread S) :=
  match S.fork o with
  | some e => threads ++ [⟨e, S.program e⟩]
  | none => threads

/-- One action of the scheduler: a client calls a program, or a thread performs its next
operation under the given choice. -/
def act (p : Pool S) : Action S → Option (Pool S)
  | .call e =>
    if S.external e then some { p with threads := p.threads ++ [⟨e, S.program e⟩] } else none
  | .step tid c =>
    match p.threads[tid]? with
    | none => none
    | some th => match th.prog with
      | .pure _ => none
      | .op o k => match S.exec tid p.state o c with
        | none => none
        | some (s, r) => some
            { state := s
              trace := ⟨tid, o, r, p.state, s, p.threads.length⟩ :: p.trace
              threads := spawn (p.threads.set tid ⟨th.entry, k r⟩) o }

def run (p : Pool S) : List (Action S) → Option (Pool S)
  | [] => some p
  | a :: as => (p.act a).bind (fun q => q.run as)

/-- The pools that some schedule leads to from the start. -/
inductive Reachable : Pool S → Prop where
  | start : Reachable (start S)
  | act {p q : Pool S} {a : Action S} : Reachable p → p.act a = some q → Reachable q

variable {p : Pool S} {as : List (Action S)}

variable {q : Pool S}

theorem Reachable.run (hp : Reachable p) (h : p.run as = some q) : Reachable q := by
  induction as generalizing p with
  | nil => cases h; exact hp
  | cons a as ih =>
    obtain ⟨r, hr, hq⟩ := bind_eq_some_iff.mp h
    exact ih (hp.act hr) hq

/-- A schedule that can be run leads to a reachable pool with the properties of its last pool. -/
theorem exists_reachable (as : List (Action S)) (C : Pool S → Prop)
    (h : ∃ p ∈ (Pool.start S).run as, C p) : ∃ p : Pool S, p.Reachable ∧ C p := by
  obtain ⟨p, hp, hC⟩ := h
  exact ⟨p, Reachable.start.run hp, hC⟩

theorem run_append (p : Pool S) (as bs : List (Action S)) :
    p.run (as ++ bs) = (p.run as).bind (fun q => q.run bs) := by
  induction as generalizing p with
  | nil => rfl
  | cons a as ih =>
    simp only [cons_append, Pool.run, bind_assoc]
    exact congrArg _ (funext fun q => ih q)

variable {a : Action S}

/-- What an action does: it adds a thread running an external program, or it performs the pending
operation of one thread, records it and starts the thread the operation forks, if any. -/
theorem act_cases (h : p.act a = some q) :
    (∃ e, S.external e = true ∧ q = ⟨p.toWorld, p.threads ++ [⟨e, S.program e⟩]⟩) ∨
    (∃ tid c th o k s r, p.threads[tid]? = some th ∧ th.prog = .op o k ∧
      S.exec tid p.state o c = some (s, r) ∧
      q = ⟨p.toWorld.push ⟨tid, o, r, p.state, s, p.threads.length⟩,
        spawn (p.threads.set tid ⟨th.entry, k r⟩) o⟩) := by
  cases a with
  | call e =>
    simp only [act] at h
    split at h
    · rename_i he
      cases h
      exact .inl ⟨e, he, rfl⟩
    · cases h
  | step tid c =>
    simp only [act] at h
    split at h
    · cases h
    · rename_i th hth
      split at h
      · cases h
      · rename_i o k hprog
        split at h
        · cases h
        · rename_i s r hex
          cases h
          exact .inr ⟨tid, c, th, o, k, s, r, hth, hprog, hex, rfl⟩

variable {st : Step S}

theorem act_executed (ha : p.act a = some q) (hst : q.toWorld = p.toWorld.push st) :
    st.pre = p.state ∧ ∃ c, S.exec st.tid p.state st.op c = some (st.post, st.reply) := by
  rcases act_cases ha with ⟨e, _, rfl⟩ | ⟨tid, c, th, o, k, s, r, _, _, hex, rfl⟩
  · have hlen := congrArg (fun w => w.trace.length) hst
    simp at hlen
  · cases congrArg World.trace hst
    exact ⟨rfl, c, hex⟩

theorem trace_subset (h : p.act a = some q) (hst : st ∈ p.trace) : st ∈ q.trace := by
  rcases act_cases h with ⟨e, _, rfl⟩ | ⟨tid, c, th, o, k, s, r, _, _, _, rfl⟩
  · exact hst
  · exact mem_cons_of_mem _ hst

theorem run_trace (h : p.run as = some q) :
    ∃ l, q.trace = l ++ p.trace := by
  induction as generalizing p with
  | nil =>
    cases h
    exact ⟨[], rfl⟩
  | cons a as ih =>
    obtain ⟨r, hr, hq⟩ := bind_eq_some_iff.mp h
    obtain ⟨l, hl⟩ := ih hq
    rcases act_cases hr with ⟨e, _, rfl⟩ | ⟨tid, c, th, o, k, s, r', _, _, _, rfl⟩
    · exact ⟨l, hl⟩
    · exact ⟨l ++ [⟨tid, o, r', p.state, s, p.threads.length⟩], by simpa using hl⟩

variable {tid : ℕ}

theorem run_own (h : p.run as = some q) (hst : st ∈ p.own tid) : st ∈ q.own tid := by
  obtain ⟨l, hl⟩ := run_trace h
  obtain ⟨htrace, htid⟩ := World.mem_own.mp hst
  exact World.mem_own.mpr ⟨by rw [hl]; exact mem_append_right l htrace, htid⟩

/-- The steps of a later pool that were taken since, newest first. -/
def since (p q : Pool S) : List (Step S) := q.trace.take (q.trace.length - p.trace.length)

theorem run_since (h : p.run as = some q) :
    q.trace = p.since q ++ p.trace := by
  obtain ⟨l, hl⟩ := run_trace h
  simp [since, hl]

theorem exists_reachable_run (as bs : List (Action S)) (C : Pool S → Pool S → Prop)
    (h : ∃ p ∈ (Pool.start S).run as, ∃ q ∈ p.run bs, C p q) :
    ∃ p q : Pool S, p.Reachable ∧ p.run bs = some q ∧ C p q := by
  obtain ⟨p, hp, q, hq, hC⟩ := h
  exact ⟨p, q, Reachable.start.run hp, hq, hC⟩

theorem run_keeps {l : List (Step S)} {K : S.State → Prop} (h : p.run as = some q)
    (hl : q.trace = l ++ p.trace)
    (hstep : ∀ st ∈ l, K st.pre → K st.post) (hp : K p.state) :
    K q.state ∧ ∀ st ∈ l, K st.pre := by
  induction as generalizing p l with
  | nil =>
    cases h
    have hnil : l = [] := by simpa using hl
    subst hnil
    exact ⟨hp, fun st hst => by cases hst⟩
  | cons a as ih =>
    obtain ⟨r, hr, hq⟩ := bind_eq_some_iff.mp h
    obtain ⟨l', hl'⟩ := run_trace hq
    rcases act_cases hr with ⟨e, _, rfl⟩ | ⟨tid, c, th, o, k, s, r', _, _, _, rfl⟩
    · exact ih hq hl hstep hp
    · let st : Step S := ⟨tid, o, r', p.state, s, p.threads.length⟩
      have hsplit : l = l' ++ [st] := by
        refine append_cancel_right (show l ++ p.trace = (l' ++ [st]) ++ p.trace from ?_)
        rw [← hl, hl']
        simp [st]
      subst hsplit
      obtain ⟨hK, hpre⟩ := ih hq hl' (fun st' hst' => hstep st' (by simp [hst']))
        (hstep st (by simp) hp)
      refine ⟨hK, fun st' hst' => ?_⟩
      rcases mem_append.mp hst' with hnew | hlast
      · exact hpre st' hnew
      · rw [mem_singleton] at hlast
        subst hlast
        exact hp

theorem spawn_length_le (threads : List (Thread S)) (o : σ.Op) :
    threads.length ≤ (spawn threads o).length := by
  unfold spawn
  split <;> simp

theorem act_length_le (h : p.act a = some q) :
    p.threads.length ≤ q.threads.length := by
  rcases act_cases h with ⟨e, _, rfl⟩ | ⟨i, c, old, o, k, s, r, _, _, _, rfl⟩
  · simp
  · exact le_trans (by simp) (spawn_length_le _ o)

variable {th : Thread S}

theorem getElem?_concat_cases {α : Type} {l : List α} {a b : α} (h : (l ++ [a])[i]? = some b) :
    l[i]? = some b ∨ i = l.length ∧ b = a := by
  by_cases hi : i < l.length
  · rw [getElem?_append_left hi] at h
    exact .inl h
  · have hlt := (List.getElem?_eq_some_iff.mp h).1
    rw [List.length_append, List.length_singleton] at hlt
    obtain rfl : i = l.length := by omega
    rw [getElem?_concat_length] at h
    exact .inr ⟨rfl, (Option.some.inj h).symm⟩

theorem spawn_getElem?_cases {threads : List (Thread S)} {o : σ.Op}
    (h : (spawn threads o)[j]? = some th) :
    threads[j]? = some th ∨
      ∃ e, S.fork o = some e ∧ j = threads.length ∧ th = ⟨e, S.program e⟩ := by
  unfold spawn at h
  split at h
  · rename_i e he
    exact (getElem?_concat_cases h).imp_right (fun hnew => ⟨e, he, hnew⟩)
  · exact .inl h

theorem Reachable.tid_lt (hp : Reachable p) :
    ∀ st ∈ p.trace, st.tid < p.threads.length ∧ st.next ≤ p.threads.length := by
  induction hp with
  | start => intro st hst; cases hst
  | @act p q a _ ha ih =>
    have hlen := act_length_le ha
    rcases act_cases ha with ⟨e, _, rfl⟩ | ⟨tid, c, th, o, k, s, r, hth, _, _, rfl⟩
    · intro st hst
      have := ih st hst
      omega
    · have htid : tid < p.threads.length := (List.getElem?_eq_some_iff.mp hth).1
      intro st hst
      rcases mem_cons.mp hst with rfl | hst
      · exact ⟨htid.trans_le hlen, hlen⟩
      · have := ih st hst
        omega

theorem Reachable.exists_thread (hp : Reachable p) (hst : st ∈ p.trace) :
    ∃ th, p.threads[st.tid]? = some th :=
  ⟨_, getElem?_eq_getElem (hp.tid_lt st hst).1⟩

theorem Reachable.own_of_new (hp : p.Reachable) (hrun : p.run as = some q)
    (hnew : p.threads.length ≤ tid) (hst : st ∈ q.own tid) : st ∈ p.since q ∧ st ∈ q.trace := by
  obtain ⟨hmem, htid⟩ := World.mem_own.mp hst
  refine ⟨?_, hmem⟩
  rw [run_since hrun] at hmem
  rcases mem_append.mp hmem with hin | hold
  · exact hin
  · have hlt := (hp.tid_lt st hold).1
    omega

theorem Reachable.executed (hp : Reachable p) :
    ∀ st ∈ p.trace, ∃ c, S.exec st.tid st.pre st.op c = some (st.post, st.reply) := by
  induction hp with
  | start => intro st hst; cases hst
  | @act p q a _ ha ih =>
    rcases act_cases ha with ⟨e, _, rfl⟩ | ⟨tid, c, th, o, k, s, r, _, _, hex, rfl⟩
    · exact ih
    · intro st hst
      rcases mem_cons.mp hst with rfl | hst
      · exact ⟨c, hex⟩
      · exact ih st hst

theorem Reachable.exists_moment (hp : Reachable p) (h : p.trace = l ++ st :: l') :
    ∃ (q : Pool S) (as : List (Action S)), q.Reachable ∧ q.run as = some p ∧ q.trace = l' ∧
      q.state = st.pre ∧ q.threads[st.tid]?.any (fun th => !th.finished) = true := by
  induction hp generalizing l with
  | start => simp [Pool.start] at h
  | @act p q a hp ha ih =>
    have hlater : ∀ {q' : Pool S} {as : List (Action S)}, q'.run as = some p →
        q'.run (as ++ [a]) = some q := by
      intro q' as hrun
      rw [run_append, hrun]
      simp [Pool.run, ha]
    rcases act_cases ha with ⟨e, _, rfl⟩ | ⟨tid, c, th, o, k, s, r, hth, hprog, _, rfl⟩
    · obtain ⟨q', as, hq', hrun, hrest⟩ := ih h
      exact ⟨q', as ++ [a], hq', hlater hrun, hrest⟩
    · cases l with
      | nil =>
        obtain ⟨rfl, hrest⟩ := List.cons.inj h
        refine ⟨p, [a], hp, hlater (show p.run [] = some p from rfl), hrest, rfl, ?_⟩
        simp [hth, Thread.finished, hprog, Prog.finished, Prog.result?]
      | cons st' l =>
        obtain ⟨q', as, hq', hrun, hrest⟩ := ih (List.cons.inj h).2
        exact ⟨q', as ++ [a], hq', hlater hrun, hrest⟩

theorem Reachable.exists_before (hp : Reachable p) (h : p.trace = l ++ st :: l') :
    ∃ q : Pool S, q.Reachable ∧ q.trace = l' ∧ q.state = st.pre := by
  obtain ⟨q, _, hq, _, htrace, hstate, _⟩ := hp.exists_moment h
  exact ⟨q, hq, htrace, hstate⟩

/-- What holds at the start and is kept by each step of a run holds at its end; it may speak about
the steps taken so far. -/
theorem Reachable.trace_induction (hp : Reachable p) {K : List (Step S) → S.State → Prop}
    (hinit : K [] S.init)
    (hstep : ∀ l st l', p.trace = l ++ st :: l' → K l' st.pre → K (st :: l') st.post) :
    K p.trace p.state := by
  suffices h : ∀ l (q : Pool S), q.Reachable → p.trace = l ++ q.trace → K q.trace q.state from
    h [] p hp rfl
  intro l q hq hl
  induction hq generalizing l with
  | start => exact hinit
  | @act q q' a hq ha ih =>
    rcases act_cases ha with ⟨e, _, rfl⟩ | ⟨tid, c, th, o, k, s, r, _, _, _, rfl⟩
    · exact ih l hl
    · exact hstep l _ q.trace hl (ih _ (hl.trans (append_cons ..)))

theorem Reachable.own_length_eq_nil (hp : Reachable p) :
    p.own p.threads.length = [] := by
  rw [eq_nil_iff_forall_not_mem]
  intro st hst
  obtain ⟨hst, htid⟩ := World.mem_own.mp hst
  have := (hp.tid_lt st hst).1
  omega

/-- Where a thread of the pool after an action comes from: it is new, or it was there and has not
moved, or it has performed its pending operation. -/
theorem Reachable.act_thread_cases (hp : p.Reachable) (h : p.act a = some q)
    (hth : q.threads[tid]? = some th) :
    (th = ⟨th.entry, S.program th.entry⟩ ∧ q.own tid = []) ∨
    (p.threads[tid]? = some th ∧ q.own tid = p.own tid) ∨
    (∃ (st : Step S) (k : σ.Reply st.op → Prog σ S.Result), st.tid = tid ∧
      p.threads[tid]? = some ⟨th.entry, .op st.op k⟩ ∧ th.prog = k st.reply ∧
      q.own tid = st :: p.own tid) := by
  rcases act_cases h with ⟨e, _, rfl⟩ | ⟨i, c, old, o, k, s, r, hold, hprog, _, rfl⟩
  · rcases getElem?_concat_cases hth with hth | ⟨rfl, rfl⟩
    · exact .inr (.inl ⟨hth, rfl⟩)
    · exact .inl ⟨rfl, hp.own_length_eq_nil⟩
  · have hi : i < p.threads.length := (List.getElem?_eq_some_iff.mp hold).1
    rcases spawn_getElem?_cases hth with hth | ⟨e, _, hlen, rfl⟩
    · by_cases hit : i = tid
      · subst tid
        rw [getElem?_set_self hi] at hth
        cases hth
        refine .inr (.inr ⟨⟨i, o, r, p.state, s, p.threads.length⟩, k, rfl, ?_, rfl, ?_⟩)
        · rw [hold, ← hprog]
        · exact World.own_push_self _ _
      · rw [getElem?_set_ne hit] at hth
        exact .inr (.inl ⟨hth, World.own_push_ne _ hit⟩)
    · rw [length_set] at hlen
      subst tid
      exact .inl ⟨rfl, (World.own_push_ne _ (Nat.ne_of_lt hi)).trans hp.own_length_eq_nil⟩

theorem Reachable.performs {A : S.Entry → σ.Op → Prop} (hA : ∀ e, (S.program e).Everywhere (A e))
    (hp : p.Reachable) (hth : p.threads[tid]? = some th) :
    th.prog.Everywhere (A th.entry) ∧ ∀ st ∈ p.own tid, A th.entry st.op := by
  induction hp generalizing th with
  | start => simp [Pool.start] at hth
  | act hp ha ih =>
    rcases hp.act_thread_cases ha hth with ⟨hnew, hown⟩ | ⟨hold, hown⟩ | ⟨st, k, _, hold, hk, hown⟩
    · rw [hnew, hown]
      exact ⟨hA _, fun st hst => by cases hst⟩
    · rw [hown]
      exact ih hold
    · obtain ⟨hprog, hsteps⟩ := ih hold
      rw [hown, hk]
      refine ⟨hprog.2 st.reply, fun st' hst' => ?_⟩
      rcases mem_cons.mp hst' with rfl | hst'
      · exact hprog.1
      · exact hsteps st' hst'

theorem Reachable.step_performs {A : S.Entry → σ.Op → Prop}
    (hA : ∀ e, (S.program e).Everywhere (A e)) (hp : p.Reachable) (ha : p.act a = some q)
    (hst : q.toWorld = p.toWorld.push st) :
    ∃ th, p.threads[st.tid]? = some th ∧ A th.entry st.op ∧
      ∀ st' ∈ p.own st.tid, A th.entry st'.op := by
  rcases act_cases ha with ⟨e, _, rfl⟩ | ⟨tid, c, th, o, k, s, r, hth, hprog, _, rfl⟩
  · have hlen := congrArg (fun w => w.trace.length) hst
    simp at hlen
  · cases congrArg World.trace hst
    obtain ⟨hevery, hown⟩ := hp.performs hA hth
    rw [hprog] at hevery
    exact ⟨th, hth, hevery.1, hown⟩

theorem run_length_le (h : p.run as = some q) :
    p.threads.length ≤ q.threads.length := by
  induction as generalizing p with
  | nil =>
    cases h
    exact le_rfl
  | cons a as ih =>
    obtain ⟨p', ha, hrest⟩ := bind_eq_some_iff.mp h
    exact (act_length_le ha).trans (ih hrest)

theorem act_entry (h : p.act a = some q) (hth : p.threads[tid]? = some th) :
    ∃ th', q.threads[tid]? = some th' ∧ th'.entry = th.entry := by
  have hlt : tid < p.threads.length := (List.getElem?_eq_some_iff.mp hth).1
  rcases act_cases h with ⟨e, _, rfl⟩ | ⟨i, c, old, o, k, s, r, hold, _, _, rfl⟩
  · exact ⟨th, (List.getElem?_append_left hlt).trans hth, rfl⟩
  · have hspawn : ∀ th', (p.threads.set i ⟨old.entry, k r⟩)[tid]? = some th' →
        (spawn (p.threads.set i ⟨old.entry, k r⟩) o)[tid]? = some th' := by
      intro th' hth'
      unfold spawn
      split
      · rw [getElem?_append_left (by simpa using hlt)]
        exact hth'
      · exact hth'
    by_cases hi : i = tid
    · subst i
      rw [hold] at hth
      cases hth
      exact ⟨_, hspawn _ (getElem?_set_self hlt), rfl⟩
    · exact ⟨th, hspawn _ (by rw [getElem?_set_ne hi]; exact hth), rfl⟩

theorem act_finished (h : p.act a = some q) (hth : p.threads[tid]? = some th)
    (hr : th.prog.result? = some r) :
    q.threads[tid]? = some th ∧ q.own tid = p.own tid := by
  have hlt : tid < p.threads.length := (List.getElem?_eq_some_iff.mp hth).1
  rcases act_cases h with ⟨e, _, rfl⟩ | ⟨i, c, old, o, k, s, r', hold, hprog, _, rfl⟩
  · exact ⟨(List.getElem?_append_left hlt).trans hth, rfl⟩
  · have hi : i ≠ tid := by
      rintro rfl
      rw [hold] at hth
      cases hth
      rw [hprog] at hr
      cases hr
    refine ⟨?_, World.own_push_ne _ hi⟩
    unfold spawn
    split
    · rw [getElem?_append_left (by simpa using hlt), getElem?_set_ne hi]
      exact hth
    · rw [getElem?_set_ne hi]
      exact hth

theorem run_finished (h : p.run as = some q) (hth : p.threads[tid]? = some th)
    (hr : th.prog.result? = some r) :
    q.threads[tid]? = some th ∧ q.own tid = p.own tid := by
  induction as generalizing p with
  | nil =>
    cases h
    exact ⟨hth, rfl⟩
  | cons a as ih =>
    obtain ⟨p', hp', hq⟩ := bind_eq_some_iff.mp h
    obtain ⟨hth', hown⟩ := act_finished hp' hth hr
    obtain ⟨hth'', hown'⟩ := ih hq hth'
    exact ⟨hth'', hown'.trans hown⟩

theorem Reachable.forked (hp : p.Reachable) :
    ∀ st ∈ p.trace, ∀ e, S.fork st.op = some e →
      ∃ th, p.threads[st.next]? = some th ∧ th.entry = e := by
  induction hp with
  | start => intro st hst; cases hst
  | @act p q a hp ha ih =>
    have hold : ∀ st ∈ p.trace, ∀ e, S.fork st.op = some e →
        ∃ th, q.threads[st.next]? = some th ∧ th.entry = e := by
      intro st hst e he
      obtain ⟨th, hth, hentry⟩ := ih st hst e he
      obtain ⟨th', hth', hentry'⟩ := act_entry ha hth
      exact ⟨th', hth', hentry'.trans hentry⟩
    rcases act_cases ha with ⟨e, _, rfl⟩ | ⟨tid, c, th, o, k, s, r, hth, _, _, rfl⟩
    · exact hold
    · intro st hst e he
      rcases mem_cons.mp hst with rfl | hst
      · change S.fork o = some e at he
        refine ⟨⟨e, S.program e⟩, ?_, rfl⟩
        simp only [spawn, he]
        rw [getElem?_append_right (by simp), length_set, Nat.sub_self,
          getElem?_cons_zero]
      · exact hold st hst e he

theorem Reachable.exists_fork (hp : p.Reachable) (hth : p.threads[tid]? = some th)
    (hexternal : S.external th.entry = false) :
    ∃ st ∈ p.trace, S.fork st.op = some th.entry ∧ st.next = tid := by
  induction hp generalizing th with
  | start => simp [Pool.start] at hth
  | @act p q a hp ha ih =>
    have hold : ∀ th', p.threads[tid]? = some th' → th'.entry = th.entry →
        ∃ st ∈ q.trace, S.fork st.op = some th.entry ∧ st.next = tid := by
      intro th' hth' hentry
      obtain ⟨st, hst, hfork, hnext⟩ := ih hth' (hentry ▸ hexternal)
      exact ⟨st, trace_subset ha hst, hentry ▸ hfork, hnext⟩
    rcases act_cases ha with ⟨e, he, rfl⟩ | ⟨i, c, old, o, k, s, r, holdth, _, _, rfl⟩
    · rcases getElem?_concat_cases hth with hth | ⟨rfl, rfl⟩
      · exact hold th hth rfl
      · exact absurd (he.symm.trans hexternal) (by decide)
    · rcases spawn_getElem?_cases hth with hth | ⟨e, hfork, hlen, rfl⟩
      · by_cases hi : i = tid
        · subst i
          rw [List.getElem?_set_self (List.getElem?_eq_some_iff.mp holdth).1] at hth
          cases hth
          exact hold old holdth rfl
        · rw [getElem?_set_ne hi] at hth
          exact hold th hth rfl
      · rw [length_set] at hlen
        exact ⟨_, mem_cons_self .., hfork, hlen.symm⟩

end Pool

end Concurrent
