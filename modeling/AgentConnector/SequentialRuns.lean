import AgentConnector.ConcurrentProgram
import AgentConnector.StepRuns

/-!
# Sequential runs of programs

A machine performs the operations of one program at a time. The choice given to an operation stands
for everything its outcome depends on besides the state, so a fault is a choice. A session calls
entry points one after another; a call may also abandon the program that was running, which is what
happens to a process that is killed. `Wp C I Q p s` is the weakest condition on `s` under which
every run of `p` whose steps meet `C` stays in `I` and ends in `Q`.
-/

namespace Sequential

open Concurrent (Signature Prog)

structure Machine (σ : Signature) where
  State : Type
  Choice : Type
  exec : State → (o : σ.Op) → Choice → State × σ.Reply o

structure Session {σ : Signature} (M : Machine σ) (R : Type) where
  state : M.State
  prog : Prog σ R

inductive Input {σ : Signature} (M : Machine σ) (E : Type)
  | call (e : E)
  | reply (c : M.Choice)

variable {σ : Signature} {M : Machine σ} {E R α β ε : Type}

def step (program : E → Prog σ R) (s : Session M R) : Input M E → Option (Session M R)
  | .call e => some ⟨s.state, program e⟩
  | .reply c =>
    match s.prog with
    | .pure _ => none
    | .op o k => some ⟨(M.exec s.state o c).1, k (M.exec s.state o c).2⟩

/-- The condition `K` on the calls of a session and `C` on the operations they perform. -/
def Meets (K : E → M.State → Prop) (C : M.State → σ.Op → M.Choice → Prop) (s : Session M R) :
    Input M E → Prop
  | .call e => K e s.state
  | .reply c =>
    match s.prog with
    | .pure _ => True
    | .op o _ => C s.state o c

instance decidableMeets (K : E → M.State → Prop) (C : M.State → σ.Op → M.Choice → Prop)
    [∀ e s, Decidable (K e s)] [∀ s o c, Decidable (C s o c)] :
    (s : Session M R) → (i : Input M E) → Decidable (Meets K C s i)
  | s, .call e => inferInstanceAs (Decidable (K e s.state))
  | ⟨_, .pure _⟩, .reply _ => isTrue trivial
  | ⟨s, .op o _⟩, .reply c => inferInstanceAs (Decidable (C s o c))

def Wp (C : M.State → σ.Op → M.Choice → Prop) (I : M.State → Prop) (Q : α → M.State → Prop) :
    Prog σ α → M.State → Prop
  | .pure a, s => Q a s
  | .op o k, s => ∀ c, C s o c → I (M.exec s o c).1 ∧ Wp C I Q (k (M.exec s o c).2) (M.exec s o c).1

/-- A fallible program ends in `T` if it succeeds and in `F` if it fails. -/
def Ends (T : α → M.State → Prop) (F : ε → M.State → Prop) : Except ε α → M.State → Prop
  | .ok a, s => T a s
  | .error e, s => F e s

section Rules

variable {C : M.State → σ.Op → M.Choice → Prop} {I : M.State → Prop} {s : M.State}

variable {p : Prog σ α}

theorem Wp.mono {Q Q' : α → M.State → Prop} (hp : Wp C I Q p s) (hQ : ∀ a s', Q a s' → Q' a s') :
    Wp C I Q' p s := by
  induction p generalizing s with
  | pure a => exact hQ a s hp
  | op o k ih => exact fun c hc => ⟨(hp c hc).1, ih _ (hp c hc).2⟩

theorem wp_bind {Q : β → M.State → Prop} {f : α → Prog σ β}
    (hp : Wp C I (fun a s' => Wp C I Q (f a) s') p s) : Wp C I Q (p.bind f) s := by
  induction p generalizing s with
  | pure a => exact hp
  | op o k ih => exact fun c hc => ⟨(hp c hc).1, ih _ (hp c hc).2⟩

theorem wp_try {T : α → M.State → Prop} {T' : β → M.State → Prop} {F : ε → M.State → Prop}
    {f : α → ExceptT ε (Prog σ) β} (hx : Wp C I (Ends T F) x.run s)
    (hf : ∀ a s', T a s' → Wp C I (Ends T' F) (f a).run s') :
    Wp C I (Ends T' F) (x >>= f).run s := by
  refine wp_bind (hx.mono fun r s' hr => ?_)
  cases r with
  | ok a => exact hf a s' hr
  | error e => exact hr

end Rules

/-- The program, asked before each of its operations whether it should go on. -/
def interruptible (poll : σ.Op) (stop : σ.Reply poll → Bool) : Prog σ α → Prog σ (Option α)
  | .pure a => .pure (some a)
  | .op o k => .op poll fun r =>
      if stop r then .pure none else .op o fun x => interruptible poll stop (k x)

variable {I : M.State → Prop}

theorem wp_interruptible {C : M.State → σ.Op → M.Choice → Prop} {Q : Option α → M.State → Prop}
    {stop : σ.Reply poll → Bool} (hpoll : ∀ s c, (M.exec s poll c).1 = s) (hs : I s)
    (hnone : ∀ s', I s' → Q none s') (hp : Wp C I (fun a s' => Q (some a) s') p s) :
    Wp C I Q (interruptible poll stop p) s := by
  induction p generalizing s with
  | pure a => exact hp
  | op o k ih =>
    intro c _
    rw [hpoll]
    refine ⟨hs, ?_⟩
    dsimp only
    by_cases hr : stop (M.exec s poll c).2 = true
    · rw [if_pos hr]
      exact hnone s hs
    · rw [if_neg hr]
      exact fun c' hc' => ⟨(hp c' hc').1, ih _ (hp c' hc').1 (hp c' hc').2⟩

/-- From every state in `I` and `A` the call stays in `I`, and where it succeeds it ends in `B`. -/
def Triple (C : M.State → σ.Op → M.Choice → Prop) (I A : M.State → Prop)
    (x : ExceptT ε (Prog σ) α) (B : α → M.State → Prop) : Prop :=
  ∀ s, I s → A s → Wp C I (Ends (fun a s' => I s' ∧ B a s') (fun _ s' => I s')) x.run s

section Triples

variable {C : M.State → σ.Op → M.Choice → Prop} {I A A' : M.State → Prop}
  {B B' : α → M.State → Prop} {D : β → M.State → Prop} {x y : ExceptT ε (Prog σ) α}
  {f : α → ExceptT ε (Prog σ) β}

theorem Triple.bind (hx : Triple C I A x B) (hf : ∀ a, Triple C I (B a) (f a) D) :
    Triple C I A (x >>= f) D :=
  fun s hI hA => wp_try (hx s hI hA) fun a s' h => hf a s' h.1 h.2

theorem Triple.strengthen (hx : Triple C I A x B) (hA : ∀ s, A' s → A s)
    (hB : ∀ a s, B a s → B' a s) : Triple C I A' x B' := by
  refine fun s hI h => (hx s hI (hA s h)).mono fun r s' hr => ?_
  cases r with
  | ok a => exact ⟨hr.1, hB a s' hr.2⟩
  | error err => exact hr

theorem Triple.weaken (hx : Triple C I A x B) (hA : ∀ s, A' s → A s) : Triple C I A' x B :=
  hx.strengthen hA fun _ _ h => h

theorem triple_pure (h : ∀ s, A s → B a s) :
    Triple C I A (pure a : ExceptT ε (Prog σ) α) B :=
  fun s hI hA => ⟨hI, h s hA⟩

theorem triple_throw : Triple C I A (throw err : ExceptT ε (Prog σ) α) B :=
  fun _ hI _ => hI

theorem triple_ite (ht : b = true → Triple C I A x B) (hf : b = false → Triple C I A y B) :
    Triple C I A (if b = true then x else y) B := by
  cases b with
  | true => exact ht rfl
  | false => exact hf rfl

theorem triple_of_everywhere {P : σ.Op → Prop} (hA : ∀ s o c, P o → A s → A (M.exec s o c).1)
    (hx : x.run.Everywhere P) : Triple C (fun _ => True) A x (fun _ => A) := by
  intro s _ hs
  revert hx
  generalize x.run = p
  intro hp
  induction p generalizing s with
  | pure r =>
    cases r with
    | ok a => exact ⟨trivial, hs⟩
    | error e => trivial
  | op o k ih => exact fun c _ => ⟨trivial, ih _ _ (hA s o c hp.1 hs) (hp.2 _)⟩

end Triples

variable {program : E → Prog σ R}

theorem session_invariant {K : E → M.State → Prop} {C : M.State → σ.Op → M.Choice → Prop}
    (hcalls : ∀ e t, I t → K e t → Wp C I (fun _ _ => True) (program e) t)
    (hrun : Steps.run (step program) s is = some s')
    (hC : Steps.Along (step program) (Meets K C) s is) (hs : I s.state)
    (hp : Wp C I (fun _ _ => True) s.prog s.state) : I s'.state := by
  refine (Steps.run_invariant (K := fun t : Session M R =>
    I t.state ∧ Wp C I (fun _ _ => True) t.prog t.state) ?_ hrun hC ⟨hs, hp⟩).1
  rintro ⟨t, p⟩ i t' ⟨ht, hwp⟩ hi hstep
  cases i with
  | call e =>
    cases hstep
    exact ⟨ht, hcalls e t ht hi⟩
  | reply c =>
    cases p with
    | pure r => cases hstep
    | op o k =>
      cases hstep
      exact hwp c hi

theorem Wp.of_run {Q : R → M.State → Prop} {cs : List M.Choice}
    (hp : Wp (fun _ _ _ => True) I Q p s)
    (hrun : Steps.run (step program) ⟨s, p⟩ (cs.map .reply) = some ⟨t, .pure r⟩) : Q r t := by
  induction cs generalizing p s with
  | nil =>
    cases hrun
    exact hp
  | cons c cs ih =>
    cases p with
    | pure a => cases hrun
    | op o k => exact ih (hp c trivial).2 hrun

section Traces

/-- An operation of a run, with the state it was performed in and the choice it was given. -/
structure Performed (M : Machine σ) where
  state : M.State
  op : σ.Op
  choice : M.Choice

def performed : Prog σ α → M.State → List M.Choice → List (Performed M)
  | .op o k, s, c :: cs =>
    ⟨s, o, c⟩ :: performed (k (M.exec s o c).2) (M.exec s o c).1 cs
  | _, _, _ => []

/-- What each operation of a program keeps holds throughout its run; it may speak of the operations
performed so far. -/
theorem performed_invariant {P : σ.Op → Prop} {I : List (Performed M) → M.State → Prop}
    (hI : ∀ l s o c, P o → I l s → I (l ++ [⟨s, o, c⟩]) (M.exec s o c).1) (hp : p.Everywhere P)
    (hs : I [] s) (hrun : Steps.run (step program) ⟨s, p⟩ (cs.map .reply) = some s') :
    I (performed p s cs) s'.state := by
  suffices h : ∀ l, I l s → I (l ++ performed p s cs) s'.state from h [] hs
  clear hs
  induction cs generalizing p s with
  | nil =>
    cases hrun
    intro l hl
    unfold performed
    simpa using hl
  | cons c cs ih =>
    cases p with
    | pure a => cases hrun
    | op o k =>
      intro l hl
      have hrest := ih (hp.2 _) hrun (l ++ [⟨s, o, c⟩]) (hI l s o c hp.1 hl)
      rwa [List.append_assoc] at hrest

theorem everywhere_interruptible {P : σ.Op → Prop} {stop : σ.Reply poll → Bool} (hpoll : P poll)
    (hp : p.Everywhere P) : (interruptible poll stop p).Everywhere P := by
  induction p with
  | pure a => trivial
  | op o k ih =>
    refine ⟨hpoll, fun r => ?_⟩
    dsimp only
    split
    · trivial
    · exact ⟨hp.1, fun x => ih x (hp.2 x)⟩

end Traces

end Sequential
