import AgentConnector.ThreadReplay

/-!
# Accounts of threads

An account says what a thread holds, as a function of its entry point and of the operations it has
performed. A program follows the accounting if each of its operations is allowed by the account at
that point, on all replies that are possible. If every entry point does, and if every allowed
operation moves what it takes out of the shared state into the account of its thread or of the
thread it starts, then nothing is lost: the shared state and the accounts of all threads together
always hold what was there at the start.
-/

namespace Concurrent

open List

variable {σ : Signature}

structure Accounting (S : Service σ) where
  Account : Type
  opening : S.Entry → Account
  record : Account → (o : σ.Op) → σ.Reply o → Account
  allowed : Account → σ.Op → Prop
  possible : (o : σ.Op) → σ.Reply o → Prop

namespace Accounting

variable {S : Service σ} (A : Accounting S) {α β : Type}

/-- Started with the account `a`, the program performs allowed operations only and ends in `Q`. -/
def Follows (Q : α → A.Account → Prop) : A.Account → Prog σ α → Prop
  | a, .pure x => Q x a
  | a, .op o k => A.allowed a o ∧ ∀ r, A.possible o r → Follows Q (A.record a o r) (k r)

variable {A} {a : A.Account} {Q : α → A.Account → Prop}

variable {p : Prog σ α}

theorem Follows.mono {Q' : α → A.Account → Prop} (hp : A.Follows Q a p)
    (hQ : ∀ x a, Q x a → Q' x a) : A.Follows Q' a p := by
  induction p generalizing a with
  | pure x => exact hQ x a hp
  | op o k ih => exact ⟨hp.1, fun r hr => ih r (hp.2 r hr)⟩

theorem follows_bind {Q : β → A.Account → Prop} {f : α → Prog σ β}
    (hp : A.Follows (fun x a => A.Follows Q a (f x)) a p) : A.Follows Q a (p.bind f) := by
  induction p generalizing a with
  | pure x => exact hp
  | op o k ih => exact ⟨hp.1, fun r hr => ih r (hp.2 r hr)⟩

theorem follows_try {ε : Type} {Q : Except ε β → A.Account → Prop} {x : ExceptT ε (Prog σ) α}
    {f : α → ExceptT ε (Prog σ) β} {R : Except ε α → A.Account → Prop} (hx : A.Follows R a x.run)
    (herror : ∀ e a, R (.error e) a → Q (.error e) a)
    (hok : ∀ v a, R (.ok v) a → A.Follows Q a (f v).run) : A.Follows Q a (x >>= f).run := by
  apply follows_bind
  apply hx.mono
  intro r a hr
  cases r with
  | ok v => exact hok v a hr
  | error e => exact herror e a hr

variable {P : σ.Op → Prop}

theorem follows_idle (hP : ∀ o, P o → A.allowed a o ∧ ∀ r, A.record a o r = a) (hp : p.Everywhere P)
    (hQ : ∀ x, Q x a) : A.Follows Q a p := by
  induction p with
  | pure x => exact hQ x
  | op o k ih =>
    obtain ⟨hallowed, hrecord⟩ := hP o hp.1
    refine ⟨hallowed, fun r _ => ?_⟩
    rw [hrecord r]
    exact ih r (hp.2 r)

theorem follows_idle_returns {ε : Type} {Q : Except ε β → A.Account → Prop}
    (hP : ∀ o, P o → A.allowed a o ∧ ∀ r, A.record a o r = a) {x : ExceptT ε (Prog σ) α}
    {f : α → ExceptT ε (Prog σ) β} {R : Except ε α → Prop} (hx : x.run.Everywhere P)
    (hr : x.run.Returns R) (herror : ∀ e, R (.error e) → Q (.error e) a)
    (hok : ∀ v, R (.ok v) → A.Follows Q a (f v).run) : A.Follows Q a (x >>= f).run := by
  apply follows_try (R := fun x a' => R x ∧ a' = a)
  · generalize x.run = p at hx hr
    induction p with
    | pure x => exact ⟨hr, rfl⟩
    | op o k ih =>
      obtain ⟨hallowed, hrecord⟩ := hP o hx.1
      refine ⟨hallowed, fun r _ => ?_⟩
      rw [hrecord r]
      exact ih r (hx.2 r) (hr r)
  · rintro e _ ⟨he, rfl⟩
    exact herror e he
  · rintro v _ ⟨hv, rfl⟩
    exact hok v hv

theorem follows_idle_try {ε : Type} {Q : Except ε β → A.Account → Prop}
    (hP : ∀ o, P o → A.allowed a o ∧ ∀ r, A.record a o r = a) {x : ExceptT ε (Prog σ) α}
    {f : α → ExceptT ε (Prog σ) β} (hx : x.run.Everywhere P) (herror : ∀ e, Q (.error e) a)
    (hok : ∀ v, A.Follows Q a (f v).run) : A.Follows Q a (x >>= f).run :=
  follows_idle_returns hP hx (Prog.returns_true _) (fun e _ => herror e) (fun v _ => hok v)

theorem Follows.map {B : Accounting S} {f : A.Account → B.Account} {R : α → B.Account → Prop}
    (hrecord : ∀ a o r, B.record (f a) o r = f (A.record a o r))
    (hallowed : ∀ a o, A.allowed a o → B.allowed (f a) o)
    (hpossible : ∀ o r, B.possible o r → A.possible o r) (hQ : ∀ x a, Q x a → R x (f a))
    (hp : A.Follows Q a p) : B.Follows R (f a) p := by
  induction p generalizing a with
  | pure x => exact hQ x a hp
  | op o k ih =>
    refine ⟨hallowed a o hp.1, fun r hr => ?_⟩
    rw [hrecord]
    exact ih r (hp.2 r (hpossible o r hr))

variable (A)

def account (w : World S) (e : S.Entry) (tid : ℕ) : A.Account :=
  (w.own tid).foldr (fun st a => A.record a st.op st.reply) (A.opening e)

variable {A}

theorem account_eq_opening (h : ∀ st ∈ w.own tid, ∀ a, A.record a st.op st.reply = a) :
    A.account w e tid = A.opening e := by
  unfold account
  generalize w.own tid = l at h
  induction l with
  | nil => rfl
  | cons st l ih =>
    rw [foldr_cons, h st (mem_cons_self ..)]
    exact ih (fun st' hst' => h st' (mem_cons_of_mem _ hst'))

theorem Follows.replays {l : List (Step S)} (hp : A.Follows Q a p) (h : Replays p l q)
    (hc : ∀ st ∈ l, A.possible st.op st.reply) :
    A.Follows Q (l.foldr (fun st a => A.record a st.op st.reply) a) q := by
  induction h with
  | nil => exact hp
  | cons st _ ih =>
    have hbefore := ih (fun st' hst' => hc st' (mem_cons_of_mem _ hst'))
    exact hbefore.2 st.reply (hc st (mem_cons_self ..))

section

variable {Q : S.Entry → S.Result → A.Account → Prop}
  (hA : ∀ e, A.Follows (Q e) (A.opening e) (S.program e)) {p : Pool S} (hp : p.Reachable)
  (hc : ∀ st ∈ p.trace, A.possible st.op st.reply) {tid : ℕ} {th : Thread S}
  (hth : p.threads[tid]? = some th)

include hA hp hc hth

theorem follows_of_reachable : A.Follows (Q th.entry) (A.account p.toWorld th.entry tid) th.prog :=
  (hA th.entry).replays (hp.replays hth) (fun st hst => hc st (World.mem_own.mp hst).1)

theorem allowed_of_own {l l' : List (Step S)} (hown : p.own tid = l ++ st :: l') :
    A.allowed (l'.foldr (fun st a => A.record a st.op st.reply) (A.opening th.entry)) st.op := by
  have hreplays := hp.replays hth
  rw [hown] at hreplays
  obtain ⟨k, hbefore, _⟩ := hreplays.split
  refine ((hA th.entry).replays hbefore fun st' hst' => hc st' ?_).1
  exact (World.mem_own.mp (show st' ∈ p.own tid by simp [hown, hst'])).1

theorem account_invariant {I : A.Account → Prop} (hopening : I (A.opening th.entry))
    (hrecord : ∀ a o r, I a → A.allowed a o → I (A.record a o r)) :
    I (A.account p.toWorld th.entry tid) := by
  suffices h : ∀ l l', p.own tid = l ++ l' →
      I (l'.foldr (fun st a => A.record a st.op st.reply) (A.opening th.entry)) from h [] _ rfl
  intro l l' hown
  induction l' generalizing l with
  | nil => exact hopening
  | cons st l' ih =>
    exact hrecord _ _ _ (ih (l ++ [st]) (by simp [hown])) (allowed_of_own hA hp hc hth hown)

theorem post_of_reachable (hres : th.prog.result? = some r) :
    Q th.entry r (A.account p.toWorld th.entry tid) := by
  have hfollows := follows_of_reachable hA hp hc hth
  rw [Prog.eq_pure_of_result? hres] at hfollows
  exact hfollows

end

section Conservation

variable {M : Type} [AddCancelCommMonoid M] (weight : A.Account → M)

variable (A) in
def holding (p : Pool S) (tid : ℕ) : M :=
  match p.threads[tid]? with
  | some th => weight (A.account p.toWorld th.entry tid)
  | none => 0

variable (A) in
def total (p : Pool S) : M := ∑ tid ∈ Finset.range p.threads.length, A.holding weight p tid

variable (A) in
def forked (o : σ.Op) : M :=
  match S.fork o with
  | some e => weight (A.opening e)
  | none => 0

theorem holding_eq {p : Pool S} (hth : p.threads[tid]? = some th) :
    A.holding weight p tid = weight (A.account p.toWorld th.entry tid) := by
  rw [holding, hth]

theorem sum_range_change {f g : ℕ → M} (hi : i < n) (h : ∀ j < n, j ≠ i → g j = f j) :
    ∑ j ∈ Finset.range n, g j + f i = ∑ j ∈ Finset.range n, f j + g i := by
  have hrest : ∑ j ∈ (Finset.range n).erase i, g j = ∑ j ∈ (Finset.range n).erase i, f j := by
    apply Finset.sum_congr rfl
    intro j hj
    obtain ⟨hne, hlt⟩ := Finset.mem_erase.mp hj
    exact h j (Finset.mem_range.mp hlt) hne
  rw [← Finset.add_sum_erase _ g (Finset.mem_range.mpr hi),
    ← Finset.add_sum_erase _ f (Finset.mem_range.mpr hi), hrest]
  abel

theorem total_append {w : World S} {threads : List (Thread S)} (e : S.Entry)
    (hown : w.own threads.length = []) :
    A.total weight ⟨w, threads ++ [⟨e, S.program e⟩]⟩ = ∑ tid ∈ Finset.range threads.length,
      A.holding weight ⟨w, threads ++ [⟨e, S.program e⟩]⟩ tid + weight (A.opening e) := by
  rw [total, length_append, length_singleton, Finset.sum_range_succ,
    holding_eq weight (getElem?_concat_length ..), account, hown]
  rfl

theorem total_call {p : Pool S} (hp : p.Reachable) (e : S.Entry) :
    A.total weight ⟨p.toWorld, p.threads ++ [⟨e, S.program e⟩]⟩ =
      A.total weight p + weight (A.opening e) := by
  rw [total_append weight e hp.own_length_eq_nil, total]
  congr 1
  apply Finset.sum_congr rfl
  intro tid htid
  rw [holding, holding, getElem?_append_left (Finset.mem_range.mp htid)]

theorem total_step {p : Pool S} (hp : p.Reachable) (hth : p.threads[st.tid]? = some th)
    (prog : Prog σ S.Result) :
    A.total weight ⟨p.toWorld.push st, Pool.spawn (p.threads.set st.tid ⟨th.entry, prog⟩) st.op⟩ +
        weight (A.account p.toWorld th.entry st.tid) = A.total weight p +
        weight (A.record (A.account p.toWorld th.entry st.tid) st.op st.reply) +
        A.forked weight st.op := by
  have hlt : st.tid < p.threads.length := (List.getElem?_eq_some_iff.mp hth).1
  generalize hq : Pool.mk (p.toWorld.push st) _ = q
  have hold : ∀ j < p.threads.length,
      q.threads[j]? = (p.threads.set st.tid ⟨th.entry, prog⟩)[j]? := by
    intro j hj
    rw [← hq, Pool.spawn]
    split
    · exact getElem?_append_left (by simpa using hj)
    · rfl
  have hself : A.holding weight q st.tid =
      weight (A.record (A.account p.toWorld th.entry st.tid) st.op st.reply) := by
    have hth' : q.threads[st.tid]? = some ⟨th.entry, prog⟩ := by
      rw [hold st.tid hlt, getElem?_set_self hlt]
    rw [holding_eq weight hth', account, ← hq, World.own_push_self]
    rfl
  have hothers : ∀ j < p.threads.length, j ≠ st.tid →
      A.holding weight q j = A.holding weight p j := by
    intro j hj hne
    rw [holding, holding, hold j hj, getElem?_set_ne (Ne.symm hne)]
    simp only [account, ← hq, World.own_push_ne _ (Ne.symm hne)]
  have hsum := sum_range_change hlt hothers
  rw [hself, holding_eq weight hth] at hsum
  rw [← hq] at hsum ⊢
  unfold Pool.spawn at hsum ⊢
  rw [forked]
  cases hfork : S.fork st.op with
  | none =>
    rw [hfork] at hsum
    rw [total, length_set, add_zero]
    exact hsum
  | some e =>
    rw [hfork] at hsum
    rw [total_append weight e, length_set, add_right_comm, hsum]
    · rfl
    · rw [length_set, World.own_push_ne _ (Nat.ne_of_lt hlt)]
      exact hp.own_length_eq_nil

/-- What a step has to do so that nothing is lost: whatever the shared state loses, the thread or
the thread it starts gains. -/
def Conserves (A : Accounting S) (weight : A.Account → M) (value : S.State → M)
    (w : World S) (e : S.Entry) (st : Step S) : Prop :=
  value st.post + weight (A.record (A.account w e st.tid) st.op st.reply) +
    A.forked weight st.op = value w.state + weight (A.account w e st.tid)

variable {weight}

/-- The shared state and the accounts of all threads together hold what was there at the start. -/
theorem conservation (value : S.State → M) {Q : S.Entry → S.Result → A.Account → Prop}
    (hA : ∀ e, A.Follows (Q e) (A.opening e) (S.program e))
    (hcall : ∀ e, S.external e = true → weight (A.opening e) = 0)
    (hstep : ∀ {p q : Pool S} {a : Action S} {st : Step S} {th : Thread S}, p.Reachable →
      p.act a = some q → q.toWorld = p.toWorld.push st →
        (∀ st ∈ q.trace, A.possible st.op st.reply) →
      p.threads[st.tid]? = some th → A.allowed (A.account p.toWorld th.entry st.tid) st.op →
      value p.state + A.total weight p = value S.init →
      A.Conserves weight value p.toWorld th.entry st)
    {p : Pool S} (hp : p.Reachable) (hc : ∀ st ∈ p.trace, A.possible st.op st.reply) :
    value p.state + A.total weight p = value S.init := by
  induction hp with
  | start => simp [Pool.start, total]
  | @act p q a hp ha ih =>
    have hc' : ∀ st ∈ p.trace, A.possible st.op st.reply :=
      fun st hst => hc st (Pool.trace_subset ha hst)
    rcases Pool.act_cases ha with ⟨e, he, rfl⟩ | ⟨tid, c, th, o, k, s, r, hth, hprog, _, rfl⟩
    · rw [total_call weight hp, hcall e he, add_zero]
      exact ih hc'
    · let st : Step S := ⟨tid, o, r, p.state, s, p.threads.length⟩
      have hfollows := follows_of_reachable hA hp hc' hth
      rw [hprog] at hfollows
      have hbalance : A.Conserves weight value p.toWorld th.entry st :=
        hstep hp ha rfl hc hth hfollows.1 (ih hc')
      have htotal := total_step weight hp (show p.threads[st.tid]? = some th from hth) (k r)
      apply add_right_cancel
      calc value st.post + A.total weight _ + weight (A.account p.toWorld th.entry tid)
          = value st.post + (A.total weight p +
              weight (A.record (A.account p.toWorld th.entry tid) o r) + A.forked weight o) := by
            rw [add_assoc, htotal]
        _ = (value st.post + weight (A.record (A.account p.toWorld th.entry tid) o r) +
              A.forked weight o) + A.total weight p := by abel
        _ = value S.init + weight (A.account p.toWorld th.entry tid) := by
            rw [hbalance, ← ih hc']
            abel

end Conservation

end Accounting

end Concurrent
