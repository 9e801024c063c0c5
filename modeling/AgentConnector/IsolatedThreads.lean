import AgentConnector.ConcurrentPool

/-!
# Threads with a part of the state of their own

In many services a thread has a part of the shared state that no other thread touches, such as its
open transaction. An `Isolation` names that part together with an invariant of the whole state. Then
a program can be followed from one of its operations to the next although other threads run in
between: `Safe` states that every step of a program keeps a guarantee and that its result satisfies
a postcondition, where both may speak about the steps the thread has taken before.
-/

namespace Concurrent

open List

open World

variable {σ τ : Signature}

structure Isolation (S : Service σ) where
  inv : S.State → Prop
  Local : Type
  loc : ℕ → S.State → Local
  idle : Local
  inv_init : inv S.init
  loc_init : ∀ tid, loc tid S.init = idle
  inv_exec : ∀ {tid s o c s' r}, inv s → S.exec tid s o c = some (s', r) → inv s'
  loc_exec : ∀ {tid j s o c s' r}, inv s → S.exec tid s o c = some (s', r) → j ≠ tid →
    loc j s' = loc j s

namespace Isolation

variable {S : Service σ} (I : Isolation S) {α β : Type}

/-- Thread `tid`, whose own part of the state is `x` and whose steps so far are `l`, can run the
program: every step keeps the guarantee `G` and the result satisfies `Q`. -/
def Safe (tid : ℕ) (G : List (Step S) → Step S → Prop) (Q : α → I.Local → List (Step S) → Prop) :
    Prog σ α → I.Local → List (Step S) → Prop
  | .pure a, x, l => Q a x l
  | .op o k, x, l => ∀ s c s' r next, I.inv s → I.loc tid s = x → S.exec tid s o c = some (s', r) →
      G l ⟨tid, o, r, s, s', next⟩ ∧
        Safe tid G Q (k r) (I.loc tid s') (⟨tid, o, r, s, s', next⟩ :: l)

variable {I} {tid : ℕ} {G : List (Step S) → Step S → Prop} {x : I.Local} {l : List (Step S)}
  {Q : α → I.Local → List (Step S) → Prop}

variable {p : Prog σ α}

theorem Safe.mono {Q' : α → I.Local → List (Step S) → Prop} (hp : I.Safe tid G Q p x l)
    (hQ : ∀ a x l, Q a x l → Q' a x l) : I.Safe tid G Q' p x l := by
  induction p generalizing x l with
  | pure a => exact hQ a x l hp
  | op o k ih =>
    intro s c s' r next hinv hloc hex
    obtain ⟨hG, hrest⟩ := hp s c s' r next hinv hloc hex
    exact ⟨hG, ih r hrest⟩

theorem Safe.weaken {G' : List (Step S) → Step S → Prop} (hp : I.Safe tid G Q p x l)
    (hG : ∀ l st, G l st → G' l st) : I.Safe tid G' Q p x l := by
  induction p generalizing x l with
  | pure a => exact hp
  | op o k ih =>
    intro s c s' r next hinv hloc hex
    obtain ⟨hstep, hrest⟩ := hp s c s' r next hinv hloc hex
    exact ⟨hG _ _ hstep, ih r hrest⟩

theorem safe_bind {Q : β → I.Local → List (Step S) → Prop} {f : α → Prog σ β}
    (hp : I.Safe tid G (fun a x l => I.Safe tid G Q (f a) x l) p x l) :
    I.Safe tid G Q (p.bind f) x l := by
  induction p generalizing x l with
  | pure a => exact hp
  | op o k ih =>
    intro s c s' r next hinv hloc hex
    obtain ⟨hG, hrest⟩ := hp s c s' r next hinv hloc hex
    exact ⟨hG, ih r hrest⟩

theorem safe_try {ε : Type} {y : ExceptT ε (Prog σ) α} {f : α → ExceptT ε (Prog σ) β}
    {R : Except ε α → I.Local → List (Step S) → Prop}
    {Q : Except ε β → I.Local → List (Step S) → Prop} (hy : I.Safe tid G R y.run x l)
    (herror : ∀ e x l, R (.error e) x l → Q (.error e) x l)
    (hok : ∀ a x l, R (.ok a) x l → I.Safe tid G Q (f a).run x l) :
    I.Safe tid G Q (y >>= f).run x l := by
  apply safe_bind
  apply hy.mono
  intro r x l hr
  cases r with
  | ok a => exact hok a x l hr
  | error e => exact herror e x l hr

theorem safe_ofExcept {ε : Type} {r : Except ε α} {f : α → ExceptT ε (Prog σ) β}
    {Q : Except ε β → I.Local → List (Step S) → Prop}
    (herror : ∀ e, r = .error e → Q (.error e) x l)
    (hok : ∀ a, r = .ok a → I.Safe tid G Q (f a).run x l) :
    I.Safe tid G Q ((ExceptT.mk (.pure r) : ExceptT ε (Prog σ) α) >>= f).run x l := by
  cases r with
  | error e => exact herror e rfl
  | ok a => exact hok a rfl

theorem safe_of_everywhere {A : σ.Op → Prop} {K : List (Step S) → Prop} (hp : p.Everywhere A) (hstep
      : ∀ l (st : Step S), K l → A st.op → st.tid = tid → I.inv st.pre → (∃ c, S.exec tid st.pre
      st.op c = some (st.post, st.reply)) → G l st ∧ K (st :: l)) (hQ : ∀ a x l, K l → Q a x l)
    (hl : K l) : I.Safe tid G Q p x l := by
  induction p generalizing x l with
  | pure a => exact hQ a x l hl
  | op o k ih =>
    intro s c s' r next hinv hloc hex
    obtain ⟨hG, hK⟩ := hstep l ⟨tid, o, r, s, s', next⟩ hl hp.1 rfl hinv ⟨c, hex⟩
    exact ⟨hG, ih r (hp.2 r) hK⟩

theorem safe_trivial (p : Prog σ α) (hG : ∀ l st, G l st) (hQ : ∀ a x l, Q a x l) :
    I.Safe tid G Q p x l := by
  induction p generalizing x l with
  | pure a => exact hQ a x l
  | op o k ih => exact fun s c s' r next _ _ _ => ⟨hG _ _, ih r⟩

structure Follows (I : Isolation S) (G : S.Entry → List (Step S) → Step S → Prop)
    (Q : S.Entry → S.Result → I.Local → List (Step S) → Prop) (p : Pool S) (tid : ℕ)
    (th : Thread S) : Prop where
  safe : I.Safe tid (G th.entry) (Q th.entry) th.prog (I.loc tid p.state) (p.own tid)
  kept : ∀ {l st l'}, p.own tid = l ++ st :: l' → G th.entry l' st

theorem inv_of_reachable (I : Isolation S) {p : Pool S} (hp : p.Reachable) :
    I.inv p.state ∧ ∀ tid, p.threads.length ≤ tid → I.loc tid p.state = I.idle := by
  induction hp with
  | start => exact ⟨I.inv_init, fun tid _ => I.loc_init tid⟩
  | @act p q a hp ha ih =>
    have hlen := Pool.act_length_le ha
    rcases Pool.act_cases ha with ⟨e, _, rfl⟩ | ⟨i, c, th, o, k, s, r, hth, _, hex, rfl⟩
    · exact ⟨ih.1, fun tid htid => ih.2 tid (hlen.trans htid)⟩
    · refine ⟨I.inv_exec ih.1 hex, fun tid htid => ?_⟩
      have hi : i < p.threads.length := (List.getElem?_eq_some_iff.mp hth).1
      exact (I.loc_exec ih.1 hex (by omega)).trans (ih.2 tid (hlen.trans htid))

section

variable {G : S.Entry → List (Step S) → Step S → Prop}
  {Q : S.Entry → S.Result → I.Local → List (Step S) → Prop}
  (hspec : ∀ tid e, I.Safe tid (G e) (Q e) (S.program e) I.idle [])

include hspec

variable {p : Pool S}

theorem follows_new (e : S.Entry) (hloc : I.loc tid p.state = I.idle) (hown : p.own tid = []) :
    Follows I G Q p tid ⟨e, S.program e⟩ where
  safe := by
    rw [hloc, hown]
    exact hspec tid e
  kept h := by
    rw [hown] at h
    simp at h

theorem follows_of_reachable (hp : p.Reachable) (hth : p.threads[tid]? = some th) :
    Follows I G Q p tid th := by
  induction hp generalizing tid th with
  | start => simp [Pool.start] at hth
  | @act p q a hp ha ih =>
    obtain ⟨hinv, hidle⟩ := I.inv_of_reachable hp
    rcases Pool.act_cases ha with ⟨e, _, rfl⟩ | ⟨i, c, old, o, k, s, r, hold, hprog, hex, rfl⟩
    · rcases Pool.getElem?_concat_cases hth with hth | ⟨rfl, rfl⟩
      · exact ⟨(ih hth).safe, (ih hth).kept⟩
      · exact follows_new hspec e (hidle _ le_rfl) hp.own_length_eq_nil
    · let st : Step S := ⟨i, o, r, p.state, s, p.threads.length⟩
      have hi : i < p.threads.length := (List.getElem?_eq_some_iff.mp hold).1
      rcases Pool.spawn_getElem?_cases hth with hth | ⟨e, _, hlen, rfl⟩
      · by_cases hit : i = tid
        · subst hit
          rw [getElem?_set_self hi] at hth
          cases hth
          obtain ⟨hsafe, hkept⟩ := ih hold
          rw [hprog] at hsafe
          obtain ⟨hG, hrest⟩ := hsafe p.state c s r p.threads.length hinv rfl hex
          have hself : (p.toWorld.push st).own i = st :: p.own i := own_push_self _ st
          refine ⟨by rw [hself]; exact hrest, fun {l st' l'} h => ?_⟩
          rw [hself] at h
          cases l with
          | nil =>
            obtain ⟨rfl, rfl⟩ := List.cons.inj h
            exact hG
          | cons st'' l => exact hkept (List.cons.inj h).2
        · rw [getElem?_set_ne hit] at hth
          obtain ⟨hsafe, hkept⟩ := ih hth
          have hsame : (p.toWorld.push st).own tid = p.own tid := own_push_ne _ hit
          refine ⟨?_, fun h => hkept (hsame.symm.trans h)⟩
          rw [hsame, ← I.loc_exec hinv hex (Ne.symm hit)] at *
          exact hsafe
      · rw [length_set] at hlen
        subst hlen
        exact follows_new hspec e ((I.loc_exec hinv hex (by omega)).trans (hidle _ le_rfl))
          ((own_push_ne _ (Nat.ne_of_lt hi)).trans hp.own_length_eq_nil)

theorem post_of_reachable (hp : p.Reachable) (hth : p.threads[tid]? = some th)
    (hr : th.prog.result? = some r) :
    Q th.entry r (I.loc tid p.state) (p.own tid) := by
  have hsafe := (follows_of_reachable hspec hp hth).safe
  rw [Prog.eq_pure_of_result? hr] at hsafe
  exact hsafe

theorem kept_of_mem_trace (hp : p.Reachable) (hst : st ∈ p.trace) :
    ∃ th l l', p.threads[st.tid]? = some th ∧ p.own st.tid = l ++ st :: l' ∧ G th.entry l' st := by
  obtain ⟨th, hth⟩ := hp.exists_thread hst
  obtain ⟨l, l', hown⟩ := append_of_mem (mem_own.mpr ⟨hst, rfl⟩)
  exact ⟨th, l, l', hth, hown, (follows_of_reachable hspec hp hth).kept hown⟩

end

end Isolation

end Concurrent
