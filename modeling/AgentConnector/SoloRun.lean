import AgentConnector.ConcurrentPool

/-!
# Runs of one thread

`Solo S tid next s p l s' p'` states that thread `tid`, alone, can take the program `p` and the
state `s` to `p'` and `s'` by the steps `l`, newest first, none of which starts a thread. A long
schedule is built from such runs: they compose, a run of a program is a run of anything that starts
with it, and a pool can follow a run of one of its threads. `Ensures` and `Completes` speak about
all runs of a program alone.
-/

namespace Concurrent

open List

variable {σ : Signature} {α β : Type}

inductive Solo (S : Service σ) (tid next : ℕ) :
    S.State → Prog σ α → List (Step S) → S.State → Prog σ α → Prop where
  | refl (s : S.State) (p : Prog σ α) : Solo S tid next s p [] s p
  | op {s s₁ s' : S.State} {o : σ.Op} {k : σ.Reply o → Prog σ α} {c : S.Choice} {r : σ.Reply o}
      {l : List (Step S)} {p' : Prog σ α} (hex : S.exec tid s o c = some (s₁, r))
      (hfork : S.fork o = none) (h : Solo S tid next s₁ (k r) l s' p') :
      Solo S tid next s (.op o k) (l ++ [⟨tid, o, r, s, s₁, next⟩]) s' p'

variable {S : Service σ} {tid next : ℕ} {s s' : S.State} {p p' : Prog σ α} {l : List (Step S)}

namespace Solo

theorem exists_op {s₁ : S.State} {o : σ.Op} {k : σ.Reply o → Prog σ α} {c : S.Choice}
    {r : σ.Reply o} (hex : S.exec tid s o c = some (s₁, r)) (hfork : S.fork o = none)
    (h : ∃ l, Solo S tid next s₁ (k r) l s' p') :
    ∃ l, Solo S tid next s (.op o k) l s' p' := by
  obtain ⟨l, hl⟩ := h
  exact ⟨_, .op hex hfork hl⟩

theorem exists_op_some {s₁ : S.State} {o : σ.Op} {k : σ.Reply o → Prog σ α} {c : S.Choice}
    {r : σ.Reply o} (hex : S.exec tid s o c = some (s₁, r)) (hfork : S.fork o = none)
    (h : ∃ l q, Solo S tid next s₁ (k r) l s' q) :
    ∃ l q, Solo S tid next s (.op o k) l s' q := by
  obtain ⟨l, q, hl⟩ := h
  exact ⟨_, q, .op hex hfork hl⟩

theorem first {k : σ.Reply o → Prog σ α} (h : Solo S tid next s (.op o k) l s' (.pure a)) :
    ∃ c s₁ r l', S.exec tid s o c = some (s₁, r) ∧ Solo S tid next s₁ (k r) l' s' (.pure a) := by
  generalize hp : Prog.op o k = p at h
  generalize hq : Prog.pure a = q at h
  cases h with
  | refl =>
    subst hp
    cases hq
  | op hex hfork h =>
    cases hp
    exact ⟨_, _, _, _, hex, h⟩

theorem eq_of_pure (h : Solo S tid next s (.pure b) l s' (.pure a)) : b = a := by
  generalize hp : Prog.pure b = p at h
  generalize hq : Prog.pure a = q at h
  cases h with
  | refl => exact Prog.pure.inj (hp.trans hq.symm)
  | op => cases hp

theorem trans (h : Solo S tid next s p l s' p') (h' : Solo S tid next s' p' l' s'' p'') :
    Solo S tid next s p (l' ++ l) s'' p'' := by
  induction h with
  | refl => simpa using h'
  | op hex hfork _ ih =>
    rw [← append_assoc]
    exact .op hex hfork (ih h')

theorem bind (h : Solo S tid next s p l s' p') (f : α → Prog σ β) :
    Solo S tid next s (p.bind f) l s' (p'.bind f) := by
  induction h with
  | refl => exact .refl _ _
  | op hex hfork _ ih => exact .op hex hfork ih

theorem try_ok {ε : Type} {x : ExceptT ε (Prog σ) α} {f : α → ExceptT ε (Prog σ) β}
    {q : Prog σ (Except ε β)} (hx : Solo S tid next s x.run l s' (.pure (.ok a)))
    (hf : Solo S tid next s' (f a).run l' s'' q) :
    Solo S tid next s (x >>= f).run (l' ++ l) s'' q :=
  (hx.bind _).trans hf

end Solo

section Outcomes

variable {C : S.Choice → Prop} {Q Q' : α → S.State → Prop}

/-- Every run of the program alone, with choices that meet `C`, that comes to an end ends in `Q`. -/
def Ensures (S : Service σ) (tid : ℕ) (C : S.Choice → Prop) (Q : α → S.State → Prop) :
    Prog σ α → S.State → Prop
  | .pure a, s => Q a s
  | .op o k, s => ∀ c, C c → ∀ s' r, S.exec tid s o c = some (s', r) → Ensures S tid C Q (k r) s'

/-- As `Ensures`, and no operation has to wait. -/
def Completes (S : Service σ) (tid : ℕ) (C : S.Choice → Prop) (Q : α → S.State → Prop) :
    Prog σ α → S.State → Prop
  | .pure a, s => Q a s
  | .op o k, s => ∀ c, C c → ∃ s' r, S.exec tid s o c = some (s', r) ∧ Completes S tid C Q (k r) s'

theorem Ensures.mono (hQ : ∀ a s, Q a s → Q' a s) (h : Ensures S tid C Q p s) :
    Ensures S tid C Q' p s := by
  induction p generalizing s with
  | pure a => exact hQ a s h
  | op o k ih => exact fun c hc s' r hex => ih r (h c hc s' r hex)

theorem ensures_bind {R : β → S.State → Prop} {f : α → Prog σ β}
    (h : Ensures S tid C (fun a s' => Ensures S tid C R (f a) s') p s) :
    Ensures S tid C R (p.bind f) s := by
  induction p generalizing s with
  | pure a => exact h
  | op o k ih => exact fun c hc s' r hex => ih r (h c hc s' r hex)

theorem Completes.mono (hQ : ∀ a s, Q a s → Q' a s) (h : Completes S tid C Q p s) :
    Completes S tid C Q' p s := by
  induction p generalizing s with
  | pure a => exact hQ a s h
  | op o k ih =>
    intro c hc
    obtain ⟨s', r, hex, hrest⟩ := h c hc
    exact ⟨s', r, hex, ih r hrest⟩

theorem completes_bind {R : β → S.State → Prop} {f : α → Prog σ β}
    (h : Completes S tid C (fun a s' => Completes S tid C R (f a) s') p s) :
    Completes S tid C R (p.bind f) s := by
  induction p generalizing s with
  | pure a => exact h
  | op o k ih =>
    intro c hc
    obtain ⟨s', r, hex, hrest⟩ := h c hc
    exact ⟨s', r, hex, ih r hrest⟩

end Outcomes

theorem Pool.Reachable.solo {p : Pool S} (hp : p.Reachable) (hth : p.threads[tid]? = some ⟨e, prog⟩)
    (h : Solo S tid p.threads.length p.state prog l s' prog') :
    ∃ q : Pool S, q.Reachable ∧ q.state = s' ∧ q.threads = p.threads.set tid ⟨e, prog'⟩ ∧
      ∀ j, q.own j = if tid = j then l ++ p.own j else p.own j := by
  -- The induction is on the run; the pool after its first step has the same number of threads.
  generalize hn : p.threads.length = n at h
  generalize hs : p.state = s at h
  induction h generalizing p with
  | refl =>
    obtain ⟨hlt, hget⟩ := List.getElem?_eq_some_iff.mp hth
    refine ⟨p, hp, hs, ?_, fun j => ?_⟩
    · rw [← hget, List.set_getElem_self]
    · simp
  | @op _ s₁ _ o k c r l _ hex hfork h ih =>
    subst hn hs
    have hlt : tid < p.threads.length := (List.getElem?_eq_some_iff.mp hth).1
    have hstep : p.act (.step tid c) = some
        { state := s₁
          trace := ⟨tid, o, r, p.state, s₁, p.threads.length⟩ :: p.trace
          threads := p.threads.set tid ⟨e, k r⟩ } := by
      simp only [Pool.act, hth, hex, Pool.spawn, hfork]
    obtain ⟨q, hq, hstate, hthreads, hown⟩ := ih (hp.act hstep) (getElem?_set_self hlt)
      (length_set ..) rfl
    refine ⟨q, hq, hstate, ?_, fun j => ?_⟩
    · rw [hthreads, set_set]
    · rw [hown]
      by_cases hj : tid = j
      · simp [World.own, hj]
      · simp [World.own, hj]

end Concurrent
