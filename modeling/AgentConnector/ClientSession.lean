import AgentConnector.ConcurrentPool

/-!
# Clients of a service

A client runs turn after turn. Within a turn it may call programs of the service, whose results it
awaits, and look at the shared state. A turn yields at most one item, and the client ends when it
has no next turn. A session is a pool together with one client; everything else that uses the
service, other clients included, is part of the schedule of the pool.
-/

namespace Concurrent

open List Option

inductive ClientOp (E Q : Type) where
  | call (e : E)
  | look (q : Q)

abbrev ClientOp.Reply {E Q : Type} (R : Type) (Answer : Q → Type) : ClientOp E Q → Type
  | .call _ => R
  | .look q => Answer q

abbrev clientSig (E R Q : Type) (Answer : Q → Type) : Signature :=
  ⟨ClientOp E Q, ClientOp.Reply R Answer⟩

/-- An operation of a client that calls no entry point outside `A`. -/
def ClientOp.Calls {E Q : Type} (A : E → Prop) : ClientOp E Q → Prop
  | .call e => A e
  | .look _ => True

variable {σ : Signature}

structure Client (S : Service σ) where
  Query : Type
  Answer : Query → Type
  look : S.State → (q : Query) → S.Choice → Option (Answer q)
  Phase : Type
  Item : Type
  init : Phase
  turn : Phase → Option (Prog (clientSig S.Entry S.Result Query Answer) (Phase × Option Item))

variable {S : Service σ}

abbrev Client.Act (C : Client S) (α : Type) : Type :=
  Prog (clientSig S.Entry S.Result C.Query C.Answer) α

abbrev Client.Turn (C : Client S) : Type := C.Act (C.Phase × Option C.Item)

/-- What a client has seen of the shared state, and the state it was seen in. -/
structure Look (C : Client S) where
  query : C.Query
  answer : C.Answer query
  state : S.State

/-- The pool, and what the client has done so far: the threads it has called and its looks, newest
first, and the items it has yielded, oldest first. -/
structure Record (C : Client S) where
  pool : Pool S
  calls : List ℕ
  looks : List (Look C)
  items : List C.Item

structure Session (C : Client S) extends Record C where
  /-- What is left of the turn, unless the client has ended. -/
  rest : Option C.Turn
  /-- The thread whose result the client awaits. -/
  awaited : Option ℕ

inductive SessionAction (S : Service σ) where
  | core (a : Action S)
  | own (c : S.Choice)

variable {C : Client S}

namespace Record

variable (C) in
def start (p : Pool S) : Record C := ⟨p, [], [], []⟩

variable (g : Record C)

def calling (p : Pool S) : Record C :=
  { g with pool := p, calls := g.pool.threads.length :: g.calls }

def looking (q : C.Query) (a : C.Answer q) : Record C :=
  { g with looks := ⟨q, a, g.pool.state⟩ :: g.looks }

def emit (item : Option C.Item) : Record C :=
  { g with items := g.items ++ item.toList }

@[simp] theorem emit_none : g.emit none = g := by
  simp [emit]

def Later (g g' : Record C) : Prop :=
  (∃ as, g.pool.run as = some g'.pool) ∧ g' = { g with pool := g'.pool }

/-- The pool has moved on and the client has done more, but not yielded an item. -/
structure Grows (g g' : Record C) : Prop where
  pool : ∃ as, g.pool.run as = some g'.pool
  calls : g.calls <:+ g'.calls
  looks : g.looks <:+ g'.looks
  items : g'.items = g.items

theorem Later.refl : g.Later g := ⟨⟨[], rfl⟩, rfl⟩

theorem exists_run_trans {p q r : Pool S} (h : ∃ as, p.run as = some q)
    (h' : ∃ as, q.run as = some r) : ∃ as, p.run as = some r := by
  obtain ⟨as, has⟩ := h
  obtain ⟨bs, hbs⟩ := h'
  exact ⟨as ++ bs, by rw [Pool.run_append, has]; exact hbs⟩

theorem exists_run_act {p q : Pool S} (h : p.act a = some q) :
    ∃ as, p.run as = some q :=
  ⟨[a], by simp [Pool.run, h]⟩

variable {g : Record C}

variable {g' : Record C}

theorem Later.trans {g'' : Record C} (h : g.Later g') (h' : g'.Later g'') : g.Later g'' := by
  refine ⟨exists_run_trans h.1 h'.1, ?_⟩
  rw [h'.2, h.2]

theorem later_act {a : Action S} (h : g.pool.act a = some p) :
    g.Later { g with pool := p } :=
  ⟨exists_run_act h, rfl⟩

theorem Grows.refl (g : Record C) : g.Grows g :=
  ⟨⟨[], rfl⟩, suffix_rfl, suffix_rfl, rfl⟩

theorem Grows.trans {g'' : Record C} (h : g.Grows g') (h' : g'.Grows g'') : g.Grows g'' :=
  ⟨exists_run_trans h.pool h'.pool, h.calls.trans h'.calls, h.looks.trans h'.looks,
    h'.items.trans h.items⟩

theorem Later.grows (h : g.Later g') : g.Grows g' := by
  refine ⟨h.1, ?_, ?_, ?_⟩
  all_goals rw [h.2]

theorem grows_calling {e : S.Entry} (h : g.pool.act (.call e) = some p) :
    g.Grows (g.calling p) :=
  ⟨exists_run_act h, suffix_cons _ _, suffix_rfl, rfl⟩

theorem grows_looking (g : Record C) (q : C.Query) (a : C.Answer q) : g.Grows (g.looking q a) :=
  ⟨⟨[], rfl⟩, suffix_rfl, suffix_cons _ _, rfl⟩

theorem Grows.reachable (h : g.Grows g') (hp : g.pool.Reachable) : g'.pool.Reachable := by
  obtain ⟨as, has⟩ := h.pool
  exact hp.run has

/-- The client has called `e` and has got the result `r`. -/
def Called (g : Record C) (e : S.Entry) (r : S.Result) : Prop :=
  ∃ tid ∈ g.calls, ∃ th, g.pool.threads[tid]? = some th ∧ th.entry = e ∧ th.prog.result? = some r

theorem Called.grows (h : g.Called e r) (hg : g.Grows g') :
    g'.Called e r := by
  obtain ⟨tid, htid, th, hth, he, hr⟩ := h
  obtain ⟨as, has⟩ := hg.pool
  exact ⟨tid, hg.calls.subset htid, th, (Pool.run_finished has hth hr).1, he, hr⟩

/-- Between the two records the client has looked at the state `s`. -/
structure Looked (g g' : Record C) (q : C.Query) (a : C.Answer q) (s : S.State) : Prop where
  mem : ⟨q, a, s⟩ ∈ g'.looks
  seen : ∃ c, C.look s q c = some a
  pool : ∃ p : Pool S, p.state = s ∧ (∃ as, g.pool.run as = some p) ∧ ∃ as, p.run as = some g'.pool

theorem Looked.grows (h : Looked g g' q a s) (hg : g'.Grows g'') : Looked g g'' q a s := by
  obtain ⟨p, hp, hbefore, hafter⟩ := h.pool
  exact ⟨hg.looks.subset h.mem, h.seen, p, hp, hbefore, exists_run_trans hafter hg.pool⟩

end Record

namespace Session

def begin (C : Client S) (p : Pool S) : Session C :=
  { Record.start C p with rest := C.turn C.init, awaited := none }

/-- The client calls a program, or goes on with the result of the one it awaits. -/
def actCall (s : Session C) (e : S.Entry) (k : S.Result → C.Turn) : Option (Session C) :=
  match s.awaited with
  | none => match s.pool.act (.call e) with
    | none => none
    | some p => some
        { s.toRecord.calling p with rest := s.rest, awaited := some s.pool.threads.length }
  | some tid => match s.pool.threads[tid]? with
    | none => none
    | some th => match th.prog.result? with
      | none => none
      | some r => some { s with rest := some (k r), awaited := none }

def actLook (s : Session C) (q : C.Query) (k : C.Answer q → C.Turn) (c : S.Choice) :
    Option (Session C) :=
  match C.look s.pool.state q c with
  | none => none
  | some a => some { s.toRecord.looking q a with rest := some (k a), awaited := s.awaited }

def act (s : Session C) : SessionAction S → Option (Session C)
  | .core a => match s.pool.act a with
    | none => none
    | some p => some { s with pool := p }
  | .own c => match s.rest with
    | none => none
    | some (.pure x) => some { s.toRecord.emit x.2 with rest := C.turn x.1, awaited := s.awaited }
    | some (.op (.call e) k) => s.actCall e k
    | some (.op (.look q) k) => s.actLook q k c

def run (s : Session C) : List (SessionAction S) → Option (Session C)
  | [] => some s
  | a :: as => (s.act a).bind (fun s' => s'.run as)

/-- The sessions that some schedule leads to, whenever the client has begun. -/
inductive Reachable : Session C → Prop where
  | begin {p : Pool S} : p.Reachable → Reachable (begin C p)
  | act {s s' : Session C} {a : SessionAction S} : Reachable s → s.act a = some s' → Reachable s'

theorem Reachable.run (hs : Reachable s) (h : s.run as = some s') : Reachable s' := by
  induction as generalizing s with
  | nil =>
    cases h
    exact hs
  | cons a as ih =>
    obtain ⟨r, hr, hs'⟩ := bind_eq_some_iff.mp h
    exact ih (hs.act hr) hs'

/-- Schedules that can be run, before and after the client begins, lead to a reachable session. -/
theorem exists_reachable (as : List (Action S)) (bs : List (SessionAction S)) (P : Session C → Prop)
    (h : ∃ p ∈ (Pool.start S).run as, ∃ s ∈ (begin C p).run bs, P s) :
    ∃ s : Session C, s.Reachable ∧ P s := by
  obtain ⟨p, hp, s, hs, hP⟩ := h
  exact ⟨s, Reachable.run (.begin (Pool.Reachable.start.run hp)) hs, hP⟩

end Session

/-- What the client does can only end with `Q` of what it returns and the record then, however the
pool moves on in between. -/
def Client.Ensures {α : Type} (C : Client S) (Q : α → Record C → Prop) : C.Act α → Record C → Prop
  | .pure a => fun g => ∀ g', g.Later g' → Q a g'
  | .op (.call e) k => fun g => ∀ g', g.Later g' → ∀ p, g'.pool.act (.call e) = some p →
      ∀ g'', (g'.calling p).Later g'' → ∀ th r,
        g''.pool.threads[g'.pool.threads.length]? = some th → th.entry = e →
        th.prog.result? = some r → C.Ensures Q (k r) g''
  | .op (.look q) k => fun g => ∀ g', g.Later g' → ∀ c a, C.look g'.pool.state q c = some a →
      C.Ensures Q (k a) (g'.looking q a)

namespace Client.Ensures

variable {α β : Type} {Q : α → Record C → Prop} {g : Record C}

variable {p : C.Act α}

theorem later (h : C.Ensures Q p g) (hl : g.Later g') : C.Ensures Q p g' := by
  match p with
  | .pure x => exact fun g'' hl' => h g'' (hl.trans hl')
  | .op (.call e) k => exact fun g'' hl' => h g'' (hl.trans hl')
  | .op (.look q) k => exact fun g'' hl' => h g'' (hl.trans hl')

theorem bind {R : β → Record C → Prop} {f : α → C.Act β} (h : C.Ensures Q p g)
    (hf : ∀ a g', Q a g' → C.Ensures R (f a) g') : C.Ensures R (p.bind f) g := by
  induction p generalizing g with
  | pure a => exact hf a g (h g (.refl g))
  | op o k ih =>
    match o with
    | .call e =>
      intro g' hl p hp g'' hl' th r hth he hr
      exact ih r (h g' hl p hp g'' hl' th r hth he hr)
    | .look q =>
      intro g' hl c a ha
      exact ih a (h g' hl c a ha)

theorem mono {R : α → Record C → Prop} (h : C.Ensures Q p g) (hR : ∀ a g', Q a g' → R a g') :
    C.Ensures R p g := by
  induction p generalizing g with
  | pure a => exact fun g' hl => hR a g' (h g' hl)
  | op o k ih =>
    match o with
    | .call e =>
      intro g' hl p hp g'' hl' th r hth he hr
      exact ih r (h g' hl p hp g'' hl' th r hth he hr)
    | .look q =>
      intro g' hl c a ha
      exact ih a (h g' hl c a ha)

theorem grows {g₀ : Record C} (h : C.Ensures Q p g) (hg : g₀.Grows g) :
    C.Ensures (fun a g' => g₀.Grows g' ∧ Q a g') p g := by
  induction p generalizing g with
  | pure a => exact fun g' hl => ⟨hg.trans hl.grows, h g' hl⟩
  | op o k ih =>
    match o with
    | .call e =>
      intro g' hl p hp g'' hl' th r hth he hr
      exact ih r (h g' hl p hp g'' hl' th r hth he hr)
        (hg.trans (hl.grows.trans ((Record.grows_calling hp).trans hl'.grows)))
    | .look q =>
      intro g' hl c a ha
      exact ih a (h g' hl c a ha) (hg.trans (hl.grows.trans (Record.grows_looking g' q a)))

theorem call (g : Record C) (e : S.Entry) :
    C.Ensures (fun r g' => g'.Called e r) (.op (.call e) .pure) g := by
  intro g₁ _ p _ g₂ hl th r hth he hr g₃ hl'
  refine Record.Called.grows ⟨g₁.pool.threads.length, ?_, th, hth, he, hr⟩ hl'.grows
  exact hl.grows.calls.subset (mem_cons_self ..)

theorem look (g : Record C) (q : C.Query) :
    C.Ensures (fun a g' => ∃ s, Record.Looked g g' q a s) (.op (.look q) .pure) g := by
  intro g₁ hl c a ha g₂ hl'
  refine ⟨g₁.pool.state, Record.Looked.grows ?_ hl'.grows⟩
  exact ⟨mem_cons_self .., ⟨c, ha⟩, g₁.pool, rfl, hl.1, [], rfl⟩

theorem tryBind {ε : Type} {x : ExceptT ε (Prog (clientSig S.Entry S.Result C.Query C.Answer)) α}
    {f : α → ExceptT ε (Prog (clientSig S.Entry S.Result C.Query C.Answer)) β}
    {P : Except ε α → Record C → Prop} {R : Except ε β → Record C → Prop}
    (hx : C.Ensures P x.run g)
    (herror : ∀ e g', P (.error e) g' → ∀ g'', g'.Later g'' → R (.error e) g'')
    (hok : ∀ a g', P (.ok a) g' → C.Ensures R (f a).run g') : C.Ensures R (x >>= f).run g := by
  refine bind hx (fun r g' hr => ?_)
  cases r with
  | error e => exact fun g'' hl => herror e g' hr g'' hl
  | ok a => exact hok a g' hr

end Client.Ensures

variable {Q : C.Phase × Option C.Item → Record C → Prop}

namespace Session

/-- What is left of the turn ensures `Q`. -/
def Ensures (s : Session C) (Q : C.Phase × Option C.Item → Record C → Prop) : Prop :=
  match s.rest, s.awaited with
  | none, _ => True
  | some turn, none => C.Ensures Q turn s.toRecord
  | some turn, some tid => ∃ e k, turn = .op (.call e) k ∧
      (∃ th, s.pool.threads[tid]? = some th ∧ th.entry = e) ∧
      ∀ g, s.toRecord.Later g → ∀ th r, g.pool.threads[tid]? = some th → th.entry = e →
        th.prog.result? = some r → C.Ensures Q (k r) g

theorem ensures_core {s : Session C} (h : s.Ensures Q) (ha : s.pool.act a = some p) :
    ({ s with pool := p } : Session C).Ensures Q := by
  have hl : s.toRecord.Later { s.toRecord with pool := p } := Record.later_act ha
  obtain ⟨record, rest, awaited⟩ := s
  match rest, awaited with
  | none, _ => trivial
  | some turn, none => exact Client.Ensures.later h hl
  | some turn, some tid =>
    obtain ⟨e, k, rfl, ⟨th, hth, he⟩, hres⟩ := h
    obtain ⟨th', hth', he'⟩ := Pool.act_entry ha hth
    exact ⟨e, k, rfl, ⟨th', hth', he'.trans he⟩, fun g hg => hres g (hl.trans hg)⟩

variable {s s' : Session C}

theorem ensures_call {k : S.Result → C.Turn} (hrest : s.rest = some (.op (.call e) k))
    (h : s.Ensures Q) (ha : s.actCall e k = some s') :
    s.toRecord.Grows s'.toRecord ∧ s'.Ensures Q ∧ s'.rest.isSome = true := by
  unfold Ensures at h
  rw [hrest] at h
  unfold actCall at ha
  cases haw : s.awaited with
  | none =>
    rw [haw] at h ha
    cases hp : s.pool.act (.call e) with
    | none =>
      rw [hp] at ha
      cases ha
    | some p =>
      rw [hp] at ha
      cases ha
      have hentry : ∃ th, p.threads[s.pool.threads.length]? = some th ∧ th.entry = e := by
        simp only [Pool.act] at hp
        split at hp
        · cases hp
          exact ⟨_, getElem?_concat_length, rfl⟩
        · cases hp
      refine ⟨Record.grows_calling hp, ?_, by rw [hrest]; rfl⟩
      simp only [hrest]
      exact ⟨e, k, rfl, hentry, fun g hg => h s.toRecord (.refl _) p hp g hg⟩
  | some tid =>
    rw [haw] at h ha
    obtain ⟨e', k', hturn, ⟨th, hth, hentry⟩, hres⟩ := h
    cases hturn
    simp only [hth] at ha
    cases hr : th.prog.result? with
    | none =>
      rw [hr] at ha
      cases ha
    | some r =>
      rw [hr] at ha
      cases ha
      exact ⟨.refl _, hres s.toRecord (.refl _) th r hth hentry hr, rfl⟩

theorem ensures_look {k : C.Answer q → C.Turn} (hrest : s.rest = some (.op (.look q) k))
    (h : s.Ensures Q) (ha : s.actLook q k c = some s') :
    s.toRecord.Grows s'.toRecord ∧ s'.Ensures Q ∧ s'.rest.isSome = true := by
  unfold Ensures at h
  rw [hrest] at h
  unfold actLook at ha
  cases hlook : C.look s.pool.state q c with
  | none =>
    rw [hlook] at ha
    cases ha
  | some a =>
    rw [hlook] at ha
    cases ha
    refine ⟨Record.grows_looking _ _ _, ?_, rfl⟩
    cases haw : s.awaited with
    | none =>
      rw [haw] at h
      exact h s.toRecord (.refl _) c a hlook
    | some tid =>
      rw [haw] at h
      obtain ⟨_, _, hturn, _⟩ := h
      cases hturn

variable {a : SessionAction S}

theorem act_cases (h : s.Ensures Q) (ha : s.act a = some s') :
    (s.toRecord.Grows s'.toRecord ∧ s'.Ensures Q ∧ s'.rest.isSome = s.rest.isSome) ∨
      ∃ phase item, Q (phase, item) s.toRecord ∧ s'.toRecord = s.toRecord.emit item ∧
        s'.rest = C.turn phase ∧ s'.awaited = none := by
  cases a with
  | core a =>
    simp only [act] at ha
    cases hp : s.pool.act a with
    | none =>
      rw [hp] at ha
      cases ha
    | some p =>
      rw [hp] at ha
      cases ha
      exact .inl ⟨(Record.later_act hp).grows, ensures_core h hp, rfl⟩
  | own c =>
    simp only [act] at ha
    match hrest : s.rest with
    | none =>
      rw [hrest] at ha
      cases ha
    | some (.pure x) =>
      rw [hrest] at ha
      cases ha
      unfold Ensures at h
      rw [hrest] at h
      cases haw : s.awaited with
      | none =>
        rw [haw] at h
        exact .inr ⟨x.1, x.2, h s.toRecord (.refl _), rfl, rfl, rfl⟩
      | some tid =>
        rw [haw] at h
        obtain ⟨_, _, hturn, _⟩ := h
        cases hturn
    | some (.op (.call e) k) =>
      rw [hrest] at ha
      exact .inl (ensures_call hrest h ha)
    | some (.op (.look q) k) =>
      rw [hrest] at ha
      exact .inl (ensures_look hrest h ha)

theorem act_pool (ha : s.act a = some s') : ∃ as, s.pool.run as = some s'.pool := by
  cases a with
  | core a =>
    simp only [act] at ha
    split at ha
    · cases ha
    · rename_i p hp
      cases ha
      exact Record.exists_run_act hp
  | own c =>
    simp only [act] at ha
    split at ha
    · cases ha
    · cases ha
      exact ⟨[], rfl⟩
    · unfold actCall at ha
      split at ha
      · split at ha
        · cases ha
        · rename_i p hp
          cases ha
          exact Record.exists_run_act hp
      · split at ha
        · cases ha
        · split at ha
          · cases ha
          · cases ha
            exact ⟨[], rfl⟩
    · unfold actLook at ha
      split at ha
      · cases ha
      · cases ha
        exact ⟨[], rfl⟩

theorem Reachable.pool {s : Session C} (hs : s.Reachable) : s.pool.Reachable := by
  induction hs with
  | begin hp => exact hp
  | act _ ha ih =>
    obtain ⟨as, has⟩ := act_pool ha
    exact ih.run has

section

variable {I : C.Phase → Record C → Prop}

/-- The turn in progress began with the invariant and ensures it for the next one. -/
def Keeps (I : C.Phase → Record C → Prop) (s : Session C) : Prop :=
  s.Ensures (fun x g' => I x.1 (g'.emit x.2)) ∧ ∃ phase g, I phase g ∧ g.pool.Reachable ∧
    g.Grows s.toRecord ∧ s.rest.isSome = (C.turn phase).isSome

variable (hturn : ∀ phase turn g, g.pool.Reachable → I phase g → C.turn phase = some turn →
  C.Ensures (fun x g' => I x.1 (g'.emit x.2)) turn g)

include hturn

variable {s : Session C}

theorem keeps_of_turn (hp : s.pool.Reachable) (hinv : I phase s.toRecord)
    (hrest : s.rest = C.turn phase) (haw : s.awaited = none) :
    Keeps I s := by
  refine ⟨?_, phase, s.toRecord, hinv, hp, .refl _, congrArg Option.isSome hrest⟩
  unfold Ensures
  cases ht : C.turn phase with
  | none => rw [hrest, ht]; trivial
  | some turn =>
    rw [hrest, ht, haw]
    exact hturn phase turn _ hp hinv ht

theorem Keeps.act {s' : Session C} (h : Keeps I s) (hp : s.pool.Reachable) (ha : s.act a = some s')
    : Keeps I s' := by
  obtain ⟨hens, phase, g, hinv, hg, hgrows, hrest⟩ := h
  rcases act_cases hens ha with ⟨hmore, hens', hsome⟩ | ⟨phase', item, hQ, hrec, hrest', haw⟩
  · exact ⟨hens', phase, g, hinv, hg, hgrows.trans hmore, hsome.trans hrest⟩
  · obtain ⟨as, has⟩ := act_pool ha
    refine keeps_of_turn hturn (hp.run has) ?_ hrest' haw
    rw [hrec]
    exact hQ

theorem Keeps.run {s' : Session C} (h : Keeps I s) (hp : s.pool.Reachable)
    (hrun : s.run as = some s') :
    Keeps I s' := by
  induction as generalizing s with
  | nil =>
    cases hrun
    exact h
  | cons a as ih =>
    obtain ⟨r, hr, hrun'⟩ := bind_eq_some_iff.mp hrun
    obtain ⟨bs, hbs⟩ := act_pool hr
    exact ih (h.act hturn hp hr) (hp.run hbs) hrun'

/-- What holds when a client begins on the pool `p`, and after a turn if it held before, held when
the turn in progress began. -/
theorem invariant_of_run (hp : p.Reachable) (hinit : I C.init (Record.start C p))
    (hrun : (begin C p).run as = some s) :
    ∃ phase g, I phase g ∧ g.pool.Reachable ∧ g.Grows s.toRecord ∧
      s.rest.isSome = (C.turn phase).isSome := by
  have hbegin : Keeps I (begin C p) := keeps_of_turn hturn hp hinit rfl rfl
  exact (hbegin.run hturn hp hrun).2

/-- What holds when a client begins, and after a turn if it held before, held when the turn in
progress began. -/
theorem Reachable.invariant (hinit : ∀ p : Pool S, p.Reachable → I C.init (Record.start C p))
    (hs : s.Reachable) :
    ∃ phase g, I phase g ∧ g.pool.Reachable ∧ g.Grows s.toRecord ∧
      s.rest.isSome = (C.turn phase).isSome := by
  have hkeeps : Keeps I s := by
    induction hs with
    | @begin p hp => exact keeps_of_turn hturn hp (hinit p hp) rfl rfl
    | act hs ha ih => exact ih.act hturn hs.pool ha
  exact hkeeps.2

end

section

variable {A : S.Entry → Prop}

/-- Every thread that the client has called is newer than the pool `p` and has an entry point in
`A`, and so have those that the rest of its turn calls. -/
structure CallsOnly (A : S.Entry → Prop) (p : Pool S) (s : Session C) : Prop where
  newer : p.threads.length ≤ s.pool.threads.length
  called : ∀ tid ∈ s.calls, p.threads.length ≤ tid ∧
    ∃ th, s.pool.threads[tid]? = some th ∧ A th.entry
  rest : ∀ turn, s.rest = some turn → turn.Everywhere (ClientOp.Calls A)

variable {p : Pool S}

theorem CallsOnly.pool {s : Session C} (h : CallsOnly A p s) {a : Action S}
    (ha : s.pool.act a = some q) :
    CallsOnly A p { s with pool := q } where
  newer := h.newer.trans (Pool.act_length_le ha)
  called tid htid := by
    obtain ⟨hlt, th, hth, hA⟩ := h.called tid htid
    obtain ⟨th', hth', hentry⟩ := Pool.act_entry ha hth
    exact ⟨hlt, th', hth', hentry ▸ hA⟩
  rest := h.rest

theorem CallsOnly.call {e : S.Entry} {k : S.Result → C.Turn} (h : CallsOnly A p s)
    (hrest : s.rest = some (.op (.call e) k)) (ha : s.actCall e k = some s') :
    CallsOnly A p s' := by
  obtain ⟨he, hk⟩ := h.rest _ hrest
  unfold actCall at ha
  split at ha
  · split at ha
    · cases ha
    · rename_i q hq
      cases ha
      have hmoved := h.pool hq
      refine ⟨hmoved.newer, fun tid htid => ?_, h.rest⟩
      rcases mem_cons.mp htid with rfl | htid
      · simp only [Pool.act] at hq
        split at hq
        · cases hq
          exact ⟨h.newer, _, getElem?_concat_length, he⟩
        · cases hq
      · exact hmoved.called tid htid
  · split at ha
    · cases ha
    · split at ha
      · cases ha
      · rename_i r _
        cases ha
        exact ⟨h.newer, h.called, fun turn hturn => Option.some.inj hturn ▸ hk r⟩

variable (hA : ∀ phase turn, C.turn phase = some turn → turn.Everywhere (ClientOp.Calls A))

include hA

theorem CallsOnly.act (h : CallsOnly A p s) (ha : s.act a = some s') : CallsOnly A p s' := by
  cases a with
  | core a =>
    simp only [Session.act] at ha
    split at ha
    · cases ha
    · rename_i q hq
      cases ha
      exact h.pool hq
  | own c =>
    simp only [Session.act] at ha
    match hrest : s.rest with
    | none =>
      rw [hrest] at ha
      cases ha
    | some (.pure x) =>
      rw [hrest] at ha
      cases ha
      exact ⟨h.newer, h.called, fun turn hturn => hA _ turn hturn⟩
    | some (.op (.call e) k) =>
      rw [hrest] at ha
      exact h.call hrest ha
    | some (.op (.look q) k) =>
      rw [hrest] at ha
      change s.actLook q k c = some s' at ha
      unfold actLook at ha
      split at ha
      · cases ha
      · rename_i answer _
        cases ha
        exact ⟨h.newer, h.called, fun turn hturn =>
          Option.some.inj hturn ▸ (h.rest _ hrest).2 answer⟩

theorem callsOnly_of_run {s : Session C} (hrun : (begin C p).run as = some s) :
    CallsOnly A p s := by
  have hbegin : CallsOnly A p (begin C p) :=
    ⟨le_rfl, fun _ htid => (not_mem_nil htid).elim, hA _⟩
  generalize begin C p = s₀ at hrun hbegin
  induction as generalizing s₀ with
  | nil =>
    cases hrun
    exact hbegin
  | cons a as ih =>
    obtain ⟨r, hr, hrun'⟩ := bind_eq_some_iff.mp hrun
    exact ih r hrun' (hbegin.act hA hr)

end

end Session

end Concurrent
