import AgentConnector.ConcurrentPool

/-!
# Rely-guarantee reasoning for pools

A protocol says what every world satisfies (`inv`), what the other threads may do between two
operations of a thread (`rely`), what holds when a thread starts (`pre`) and what its result means
(`post`). `Safe tid Q p w` is the weakest condition on the world `w` under which thread `tid` can
run `p`: after any interference the next operation keeps the protocol, and a finished program
satisfies `Q`; `Triple` is its form with a precondition. `Sound` asks for one such fact for each
entry point, and then the invariant holds in all reachable pools; facts already proved of every
step enter later protocols through `given`.
-/

namespace Concurrent

open List

variable {σ : Signature} {S : Service σ}

structure Protocol (S : Service σ) where
  given : World S → Step S → Prop
  inv : World S → Prop
  rely : ℕ → World S → World S → Prop
  pre : ℕ → S.Entry → World S → Prop
  post : ℕ → S.Entry → S.Result → World S → Prop
  rely_refl : ∀ tid w, rely tid w w
  rely_trans : ∀ tid w₁ w₂ w₃, rely tid w₁ w₂ → rely tid w₂ w₃ → rely tid w₁ w₃

namespace Protocol

variable (P : Protocol S) {α β : Type}

/-- What thread `tid` may find when it is resumed after other threads have run. -/
structure Env (tid : ℕ) (w w' : World S) : Prop where
  inv : P.inv w'
  rely : P.rely tid w w'

structure Keeps (w : World S) (st : Step S) : Prop where
  inv : P.inv (w.push st)
  rely : ∀ j, j ≠ st.tid → P.rely j w (w.push st)
  fork : ∀ e, S.fork st.op = some e → P.pre st.next e (w.push st)

def Safe (tid : ℕ) (Q : α → World S → Prop) : Prog σ α → World S → Prop
  | .pure a, w => ∀ w', P.Env tid w w' → Q a w'
  | .op o k, w => ∀ w', P.Env tid w w' → ∀ c s r next,
      S.exec tid w'.state o c = some (s, r) → tid < next → w'.own next = [] →
      P.given w' ⟨tid, o, r, w'.state, s, next⟩ →
      P.Keeps w' ⟨tid, o, r, w'.state, s, next⟩ ∧
        Safe tid Q (k r) (w'.push ⟨tid, o, r, w'.state, s, next⟩)

variable {P} {tid : ℕ} {w : World S}

theorem Env.refl (h : P.inv w) : P.Env tid w w := ⟨h, P.rely_refl tid w⟩

theorem Env.trans (h : P.Env tid w w') (h' : P.Env tid w' w'') :
    P.Env tid w w'' :=
  ⟨h'.inv, P.rely_trans tid _ _ _ h.rely h'.rely⟩

theorem Keeps.env (h : P.Keeps w st) (hj : j ≠ st.tid) :
    P.Env j w (w.push st) := ⟨h.inv, h.rely j hj⟩

variable {p : Prog σ α}

theorem Safe.env {Q : α → World S → Prop} (hp : P.Safe tid Q p w) (h : P.Env tid w w') :
    P.Safe tid Q p w' := by
  cases p with
  | pure a | op o k => exact fun w'' h' => hp w'' (h.trans h')

theorem Safe.mono {Q Q' : α → World S → Prop} (hp : P.Safe tid Q p w)
    (hQ : ∀ a w', P.inv w' → Q a w' → Q' a w') : P.Safe tid Q' p w := by
  induction p generalizing w with
  | pure a => exact fun w' h => hQ a w' h.inv (hp w' h)
  | op o k ih =>
    intro w' h c s r next hex hlt hown hg
    obtain ⟨hk, hs⟩ := hp w' h c s r next hex hlt hown hg
    exact ⟨hk, ih r hs⟩

theorem safe_bind {Q : β → World S → Prop} {f : α → Prog σ β} (hw : P.inv w)
    (hp : P.Safe tid (fun a w' => P.Safe tid Q (f a) w') p w) : P.Safe tid Q (p.bind f) w := by
  induction p generalizing w with
  | pure a => exact hp w (Env.refl hw)
  | op o k ih =>
    intro w' h c s r next hex hlt hown hg
    obtain ⟨hk, hs⟩ := hp w' h c s r next hex hlt hown hg
    exact ⟨hk, ih r hk.inv hs⟩

def Stable (P : Protocol S) (tid : ℕ) (R : World S → Prop) : Prop :=
  ∀ w w', P.Env tid w w' → R w → R w'

theorem Stable.and {P : Protocol S} {R R' : World S → Prop} (hR : P.Stable tid R)
    (hR' : P.Stable tid R') : P.Stable tid (fun w => R w ∧ R' w) :=
  fun w w' he h => ⟨hR w w' he h.1, hR' w w' he h.2⟩

/-- From every world that satisfies `R`, thread `tid` can run `p` and ends in `Q`. -/
def Triple (P : Protocol S) (tid : ℕ) (R : World S → Prop) (p : Prog σ α)
    (Q : α → World S → Prop) : Prop :=
  ∀ w, P.inv w → R w → P.Safe tid Q p w

variable {R R' : World S → Prop} {Q : α → World S → Prop}

theorem Triple.conseq {Q' : α → World S → Prop} (h : P.Triple tid R p Q)
    (hR : ∀ w, P.inv w → R' w → R w) (hQ : ∀ a w, P.inv w → Q a w → Q' a w) :
    P.Triple tid R' p Q' :=
  fun w hi hw => (h w hi (hR w hi hw)).mono hQ

theorem triple_pure (hR' : P.Stable tid R') (hR : ∀ w, P.inv w → R w → R' w)
    (h : ∀ w, P.inv w → R' w → Q a w) : P.Triple tid R (Prog.pure a) Q :=
  fun w hi hw w' he => h w' he.inv (hR' w w' he (hR w hi hw))

/-- One operation: it has to keep the protocol and establish what the continuation starts from. -/
theorem triple_op {k : σ.Reply o → Prog σ α} {T : σ.Reply o → World S → Prop} (hR : P.Stable tid R)
    (h : ∀ w c s r next, P.inv w → R w → S.exec tid w.state o c = some (s, r) → tid < next →
      w.own next = [] → P.given w ⟨tid, o, r, w.state, s, next⟩ →
      P.Keeps w ⟨tid, o, r, w.state, s, next⟩ ∧ T r (w.push ⟨tid, o, r, w.state, s, next⟩))
    (hk : ∀ r, P.Triple tid (T r) (k r) Q) : P.Triple tid R (Prog.op o k) Q := by
  intro w _ hw w' he c s r next hex hlt hown hg
  obtain ⟨hkeeps, hT⟩ := h w' c s r next he.inv (hR w w' he hw) hex hlt hown hg
  exact ⟨hkeeps, hk r _ hkeeps.inv hT⟩

/-- An operation and what is returned of its reply. -/
theorem triple_last {g : σ.Reply o → α} (hR : P.Stable tid R) (hQ : ∀ r, P.Stable tid (Q (g r)))
    (h : ∀ w c s r next, P.inv w → R w → S.exec tid w.state o c = some (s, r) → tid < next →
      w.own next = [] → P.given w ⟨tid, o, r, w.state, s, next⟩ →
      P.Keeps w ⟨tid, o, r, w.state, s, next⟩ ∧ Q (g r) (w.push ⟨tid, o, r, w.state, s, next⟩)) :
    P.Triple tid R (Prog.op o fun r => .pure (g r)) Q :=
  triple_op hR h (fun r => triple_pure (hQ r) (fun _ _ hq => hq) (fun _ _ hq => hq))

theorem triple_bind {T : β → World S → Prop} {f : α → Prog σ β} (hp : P.Triple tid R p Q)
    (hf : ∀ a, P.Triple tid (Q a) (f a) T) :
    P.Triple tid R (p.bind f) T :=
  fun w hi hw => safe_bind hi ((hp w hi hw).mono fun a w' hi' hq => hf a w' hi' hq)

theorem triple_try {ε : Type} {x : ExceptT ε (Prog σ) α} {f : α → ExceptT ε (Prog σ) β}
    {Q : Except ε α → World S → Prop} {T : Except ε β → World S → Prop}
    (hx : P.Triple tid R x.run Q)
    (herror : ∀ e, P.Triple tid (Q (.error e)) (Prog.pure (.error e)) T)
    (hok : ∀ a, P.Triple tid (Q (.ok a)) (f a).run T) : P.Triple tid R (x >>= f).run T := by
  refine triple_bind hx (fun r => ?_)
  cases r with
  | ok a => exact hok a
  | error e => exact herror e

/-- The same, if the first program always succeeds. -/
theorem triple_try_ok {ε : Type} {x : ExceptT ε (Prog σ) α} {f : α → ExceptT ε (Prog σ) β}
    {Q : α → World S → Prop} {T : Except ε β → World S → Prop}
    (hx : P.Triple tid R x.run (fun r w => ∃ a, r = .ok a ∧ Q a w))
    (hok : ∀ a, P.Triple tid (Q a) (f a).run T) : P.Triple tid R (x >>= f).run T := by
  refine triple_try hx (fun e => ?_) (fun a => ?_)
  · rintro w _ ⟨a, ha, _⟩
    cases ha
  · rintro w hi ⟨_, ⟨⟩, ha⟩
    exact hok a w hi ha

theorem triple_of_everywhere {A : σ.Op → Prop} (hp : p.Everywhere A) (hkeep : ∀ w o c s r next, A o
      → P.inv w → S.exec tid w.state o c = some (s, r) → tid < next → w.own next = [] → P.given w
      ⟨tid, o, r, w.state, s, next⟩ → P.Keeps w ⟨tid, o, r, w.state, s, next⟩)
    (hQ : ∀ a w, P.inv w → Q a w) : P.Triple tid R p Q := by
  induction p generalizing R with
  | pure a => exact fun w _ _ w' he => hQ a w' he.inv
  | op o k ih =>
    intro w _ _ w' he c s r next hex hlt hown hg
    have hkeeps := hkeep w' o c s r next hp.1 he.inv hex hlt hown hg
    exact ⟨hkeeps, ih r (hp.2 r) (R := fun _ => True) _ hkeeps.inv trivial⟩

/-- What a protocol asks of a service, under a condition `cond` on the steps of the run. -/
structure Sound (P : Protocol S) (cond : Step S → Prop) : Prop where
  given : ∀ {p q : Pool S} {a : Action S} {st : Step S}, p.Reachable → p.act a = some q →
    q.toWorld = p.toWorld.push st → (∀ st' ∈ q.trace, cond st') → P.given p.toWorld st
  init : P.inv (Pool.start S).toWorld
  call : ∀ {tid e w}, S.external e = true → P.inv w → w.own tid = [] → P.pre tid e w
  entry : ∀ {tid e w}, P.inv w → w.own tid = [] → P.pre tid e w →
    P.Safe tid (P.post tid e) (S.program e) w

variable {cond : Step S → Prop}

theorem Sound.act (hP : P.Sound cond) {p q : Pool S} (hr : p.Reachable) (ha : p.act a = some q)
    (hc : ∀ st ∈ q.trace, cond st) (hi : P.inv p.toWorld)
    (hs : ∀ tid th, p.threads[tid]? = some th → P.Safe tid (P.post tid th.entry) th.prog p.toWorld)
    :
    P.inv q.toWorld ∧ ∀ tid th, q.threads[tid]? = some th →
      P.Safe tid (P.post tid th.entry) th.prog q.toWorld := by
  rcases Pool.act_cases ha with ⟨e, he, rfl⟩ | ⟨tid, c, th, o, k, s, r, hth, hprog, hex, rfl⟩
  · refine ⟨hi, fun tid th hth => ?_⟩
    rcases Pool.getElem?_concat_cases hth with hth | ⟨rfl, rfl⟩
    · exact hs tid th hth
    · have hown := hr.own_length_eq_nil
      exact hP.entry hi hown (hP.call he hi hown)
  · have htid : tid < p.threads.length := (List.getElem?_eq_some_iff.mp hth).1
    have hsafe := hs tid th hth
    rw [hprog] at hsafe
    obtain ⟨hk, hcont⟩ := hsafe p.toWorld (Env.refl hi) c s r p.threads.length hex htid
      hr.own_length_eq_nil (hP.given hr ha rfl hc)
    refine ⟨hk.inv, fun j th' hj => ?_⟩
    rcases Pool.spawn_getElem?_cases hj with hj | ⟨e, he, hlen, rfl⟩
    · by_cases hjt : j = tid
      · subst j
        rw [getElem?_set_self htid] at hj
        cases hj
        exact hcont
      · rw [getElem?_set_ne (Ne.symm hjt)] at hj
        exact (hs j th' hj).env (hk.env hjt)
    · rw [length_set] at hlen
      subst j
      exact hP.entry hk.inv ((World.own_push_ne _ (Nat.ne_of_lt htid)).trans hr.own_length_eq_nil)
        (hk.fork e he)

/-- Every reachable pool whose steps meet the condition satisfies the invariant, and each of its
threads is safe to continue. -/
theorem Sound.reachable (hP : P.Sound cond) {p : Pool S} (hr : p.Reachable)
    (hc : ∀ st ∈ p.trace, cond st) :
    P.inv p.toWorld ∧ ∀ tid th, p.threads[tid]? = some th →
      P.Safe tid (P.post tid th.entry) th.prog p.toWorld := by
  induction hr with
  | start => exact ⟨hP.init, fun tid th h => by simp [Pool.start] at h⟩
  | @act p q a hr ha ih =>
    have hc' : ∀ st ∈ p.trace, cond st := fun st hst => hc st (Pool.trace_subset ha hst)
    obtain ⟨hi, hs⟩ := ih hc'
    exact hP.act hr ha hc hi hs

theorem Sound.inv (hP : P.Sound cond) {p : Pool S} (hr : p.Reachable)
    (hc : ∀ st ∈ p.trace, cond st) : P.inv p.toWorld := (hP.reachable hr hc).1

theorem Sound.post (hP : P.Sound cond) {p : Pool S} (hr : p.Reachable)
    (hc : ∀ st ∈ p.trace, cond st) (hth : p.threads[tid]? = some th)
    (hres : th.prog.result? = some r) : P.post tid th.entry r p.toWorld := by
  obtain ⟨hi, hs⟩ := hP.reachable hr hc
  have hsafe := hs tid th hth
  rw [Prog.eq_pure_of_result? hres] at hsafe
  exact hsafe p.toWorld (Env.refl hi)

theorem Sound.keeps (hP : P.Sound cond) {p q : Pool S} (hr : p.Reachable) (ha : p.act a = some q)
    (hc : ∀ st ∈ q.trace, cond st) (hst : q.toWorld = p.toWorld.push st) :
    P.Keeps p.toWorld st := by
  have hc' : ∀ st ∈ p.trace, cond st := fun st' h => hc st' (Pool.trace_subset ha h)
  obtain ⟨hi, hs⟩ := hP.reachable hr hc'
  rcases Pool.act_cases ha with ⟨e, _, rfl⟩ | ⟨tid, c, th, o, k, s, r, hth, hprog, hex, rfl⟩
  · have hl := congrArg (fun w => w.trace.length) hst
    simp at hl
  · cases congrArg World.trace hst
    have htid : tid < p.threads.length := (List.getElem?_eq_some_iff.mp hth).1
    have hsafe := hs tid th hth
    rw [hprog] at hsafe
    exact (hsafe p.toWorld (Env.refl hi) c s r p.threads.length hex htid
      hr.own_length_eq_nil (hP.given hr ha rfl hc)).1

theorem Sound.forall_trace (hP : P.Sound cond) {C : Step S → Prop}
    (hC : ∀ w st, st.pre = w.state → P.inv w → P.Keeps w st → C st) {p : Pool S}
    (hr : p.Reachable) (hc : ∀ st ∈ p.trace, cond st) : ∀ st ∈ p.trace, C st := by
  induction hr with
  | start => intro st hst; cases hst
  | @act p q a hr ha ih =>
    have hc' : ∀ st ∈ p.trace, cond st := fun st hst => hc st (Pool.trace_subset ha hst)
    rcases Pool.act_cases ha with ⟨e, _, rfl⟩ | ⟨tid, c, th, o, k, s, r, _, _, _, rfl⟩
    · exact ih hc'
    · intro st hst
      rcases mem_cons.mp hst with rfl | hst
      · exact hC p.toWorld _ rfl (hP.inv hr hc') (hP.keeps hr ha hc rfl)
      · exact ih hc' st hst

end Protocol

end Concurrent
