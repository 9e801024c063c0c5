import AgentConnector.ConcurrentPool

/-!
# The steps of a thread determine the rest of its program

What is left of the program of a thread is what remains of its entry point after the operations of
its recorded steps have been answered with the recorded replies. A fact about the shape of a program
(what follows which operation) is thereby a fact about the steps of every thread that runs it.
-/

namespace Concurrent

variable {σ : Signature} {S : Service σ} {α β : Type}

/-- The steps `l`, newest first, lead from the program `p` to the rest `q`. -/
inductive Replays : Prog σ α → List (Step S) → Prog σ α → Prop where
  | nil (p : Prog σ α) : Replays p [] p
  | cons {p : Prog σ α} {l : List (Step S)} (st : Step S) {k : σ.Reply st.op → Prog σ α} :
      Replays p l (.op st.op k) → Replays p (st :: l) (k st.reply)

/-- The step performed `o` and was answered with `r`. -/
def Step.Did (st : Step S) (o : σ.Op) (r : σ.Reply o) : Prop :=
  st = ⟨st.tid, o, r, st.pre, st.post, st.next⟩

variable {st : Step S}

theorem Step.Did.op_eq (h : st.Did o r) : st.op = o :=
  congrArg Step.op h

theorem Step.Did.apply_eq (h : st.Did o r) (f : (o : σ.Op) → σ.Reply o → β) :
    f st.op st.reply = f o r := by
  rw [h]

theorem Step.Did.executed (h : st.Did o r) {p : Pool S} (hp : p.Reachable) (hst : st ∈ p.trace) :
    ∃ c, S.exec st.tid st.pre o c = some (st.post, r) := by
  have hex := hp.executed st hst
  rw [h] at hex
  exact hex

namespace Replays

variable {p q : Prog σ α} {l l' : List (Step S)}

theorem eq_of_nil (h : Replays (S := S) p [] q) : q = p := by
  cases h
  rfl

theorem split (h : Replays p (l ++ st :: l') q) :
    ∃ k, Replays p l' (.op st.op k) ∧ Replays (k st.reply) l q := by
  induction l generalizing q with
  | nil =>
    cases h with
    | cons st h => exact ⟨_, h, .nil _⟩
  | cons st' l ih =>
    cases h with
    | cons st' h =>
      obtain ⟨k, hbefore, hafter⟩ := ih h
      exact ⟨k, hbefore, .cons st' hafter⟩

theorem eq_pure (h : Replays (.pure a) l q) : l = [] ∧ q = .pure a := by
  induction l generalizing q with
  | nil =>
    cases h
    exact ⟨rfl, rfl⟩
  | cons st l ih =>
    cases h with
    | cons st h => cases (ih h).2

variable {o : σ.Op}

theorem exists_first {k : σ.Reply o → Prog σ α} (h : Replays (.op o k) l q) :
    (l = [] ∧ q = .op o k) ∨ ∃ l' st r, l = l' ++ [st] ∧ st.Did o r ∧ Replays (k r) l' q := by
  induction l generalizing q with
  | nil =>
    cases h
    exact .inl ⟨rfl, rfl⟩
  | cons st l ih =>
    cases h with
    | cons st h =>
      rcases ih h with ⟨rfl, hfirst⟩ | ⟨l', first, r, rfl, hdid, hrest⟩
      · obtain ⟨tid, o', r, pre, post, next⟩ := st
        cases hfirst
        exact .inr ⟨[], _, r, rfl, rfl, .nil _⟩
      · exact .inr ⟨st :: l', first, r, rfl, hdid, .cons st hrest⟩

theorem preserves {A : Prog σ α → Prop} {C : Step S → Prop}
    (hA : ∀ (st : Step S) (k : σ.Reply st.op → Prog σ α), C st → A (.op st.op k) → A (k st.reply))
    (h : Replays p l q) (hC : ∀ st ∈ l, C st) (hp : A p) : A q := by
  induction h with
  | nil => exact hp
  | cons st _ ih =>
    have hrest := ih (fun st' hst' => hC st' (List.mem_cons_of_mem _ hst'))
    exact hA st _ (hC st (List.mem_cons_self ..)) hrest

theorem everywhere {A : σ.Op → Prop} (h : Replays p l q) (hp : p.Everywhere A) :
    q.Everywhere A ∧ ∀ st ∈ l, A st.op := by
  induction h with
  | nil => exact ⟨hp, fun st hst => by cases hst⟩
  | cons st _ ih =>
    refine ⟨ih.1.2 st.reply, fun st' hst' => ?_⟩
    rcases List.mem_cons.mp hst' with rfl | hst'
    · exact ih.1.1
    · exact ih.2 st' hst'

/-- The steps of a sequence are those of its first part, followed by those of the rest once the
first part has returned. -/
theorem bind_cases {f : α → Prog σ β} {q : Prog σ β} (h : Replays (p.bind f) l q) :
    (∃ o k, Replays p l (.op o k) ∧ q = (Prog.op o k).bind f) ∨
      ∃ a l₁ l₂, l = l₂ ++ l₁ ∧ Replays p l₁ (.pure a) ∧ Replays (f a) l₂ q := by
  induction l generalizing q with
  | nil =>
    cases h
    cases p with
    | pure a => exact .inr ⟨a, [], [], rfl, .nil _, .nil _⟩
    | op o k => exact .inl ⟨o, k, .nil _, rfl⟩
  | cons st l ih =>
    cases h with
    | cons st h =>
      rcases ih h with ⟨o, k, hp, hq⟩ | ⟨a, l₁, l₂, rfl, hp, hf⟩
      · obtain ⟨tid, o', r, pre, post, next⟩ := st
        cases hq
        have hnext := Replays.cons ⟨tid, o', r, pre, post, next⟩ hp
        change (∃ o k', Replays p _ (.op o k') ∧ (k r).bind f = _) ∨
          ∃ a l₁ l₂, _ ∧ Replays p l₁ (.pure a) ∧ Replays (f a) l₂ ((k r).bind f)
        cases hk : k r with
        | pure a =>
          rw [hk] at hnext
          exact .inr ⟨a, _, [], rfl, hnext, .nil _⟩
        | op o k' =>
          rw [hk] at hnext
          exact .inl ⟨o, k', hnext, rfl⟩
      · exact .inr ⟨a, l₁, st :: l₂, rfl, hp, .cons st hf⟩

theorem bind_pure {f : α → Prog σ β} (h : Replays (p.bind f) l (.pure b)) :
    ∃ a l₁ l₂, l = l₂ ++ l₁ ∧ Replays p l₁ (.pure a) ∧ Replays (f a) l₂ (.pure b) := by
  rcases h.bind_cases with ⟨o, k, _, hq⟩ | hdone
  · cases hq
  · exact hdone

theorem map_pure {f : α → β} (h : Replays (p.bind (fun a => .pure (f a))) l (.pure b)) :
    ∃ a, Replays p l (.pure a) ∧ b = f a := by
  obtain ⟨a, l₁, l₂, rfl, hp, hend⟩ := h.bind_pure
  obtain ⟨rfl, hb⟩ := hend.eq_pure
  exact ⟨a, hp, Prog.pure.inj hb⟩

theorem try_pure {ε : Type} {x : ExceptT ε (Prog σ) α} {f : α → ExceptT ε (Prog σ) β}
    {r : Except ε β} (h : Replays (x >>= f).run l (.pure r)) :
    (∃ e, Replays x.run l (.pure (.error e)) ∧ r = .error e) ∨
      ∃ a l₁ l₂, l = l₂ ++ l₁ ∧ Replays x.run l₁ (.pure (.ok a)) ∧
        Replays (f a).run l₂ (.pure r) := by
  obtain ⟨a, l₁, l₂, rfl, hx, hf⟩ := Replays.bind_pure h
  cases a with
  | error e =>
    have hend := (show Replays (.pure (.error e)) l₂ (.pure r) from hf).eq_pure
    obtain ⟨rfl, hr⟩ := hend
    cases hr
    exact .inl ⟨e, hx, rfl⟩
  | ok a => exact .inr ⟨a, l₁, l₂, rfl, hx, hf⟩

theorem try_op {ε : Type} {x : ExceptT ε (Prog σ) α} {f : α → ExceptT ε (Prog σ) β}
    {k : σ.Reply o → Prog σ (Except ε β)} (h : Replays (x >>= f).run l (.op o k)) :
    (∃ k', Replays x.run l (.op o k')) ∨
      ∃ a l₁ l₂, l = l₂ ++ l₁ ∧ Replays x.run l₁ (.pure (.ok a)) ∧
        Replays (f a).run l₂ (.op o k) := by
  rcases Replays.bind_cases h with ⟨o', k', hx, hq⟩ | ⟨r, l₁, l₂, rfl, hx, hf⟩
  · cases hq
    exact .inl ⟨k', hx⟩
  · cases r with
    | error e =>
      have hend := (show Replays (.pure (.error e)) l₂ (.op o k) from hf).eq_pure
      cases hend.2
    | ok a => exact .inr ⟨a, l₁, l₂, rfl, hx, hf⟩

theorem map_op {f : α → β} {k : σ.Reply o → Prog σ β}
    (h : Replays (p.bind (fun a => .pure (f a))) l (.op o k)) : ∃ k', Replays p l (.op o k') := by
  rcases h.bind_cases with ⟨o', k', hp, hq⟩ | ⟨a, l₁, l₂, rfl, _, hend⟩
  · cases hq
    exact ⟨k', hp⟩
  · cases hend.eq_pure.2

theorem op_pure {k : σ.Reply o → Prog σ α} (h : Replays (.op o k) l (.pure a)) :
    ∃ l' st r, l = l' ++ [st] ∧ st.Did o r ∧ Replays (k r) l' (.pure a) := by
  rcases h.exists_first with ⟨_, hq⟩ | hfirst
  · cases hq
  · exact hfirst

end Replays

theorem Pool.Reachable.replays {p : Pool S} (hp : p.Reachable) (hth : p.threads[tid]? = some th) :
    Replays (S.program th.entry) (p.own tid) th.prog := by
  induction hp generalizing th with
  | start => simp [Pool.start] at hth
  | act hp ha ih =>
    rcases hp.act_thread_cases ha hth with ⟨hnew, hown⟩ | ⟨hold, hown⟩ | ⟨st, k, _, hold, hk, hown⟩
    · rw [hnew, hown]
      exact .nil _
    · rw [hown]
      exact ih hold
    · rw [hown, hk]
      exact .cons st (ih hold)

end Concurrent
