import AgentConnector.RelyGuarantee
import AgentConnector.CoreInvariant

/-!
# Proof rules for the programs of the core

The rules of the program logic for the primitives the core is written with: a single operation, a
store call, and the timeout around the run of a driver. A timed program may be given up at each of
its operations; an assertion that holds there has to survive every step of the program.
-/

namespace AgentConnector

open Concurrent Protocol AdapterCore

section

variable {M : StoreMachine} {setup : CoreSetup} {P : Protocol (coreService M setup)} {tid : ℕ}
variable {α β : Type} {R : World (coreService M setup) → Prop}

def TimerNeutral (P : Protocol (coreService M setup)) (tid : ℕ) : Prop :=
  ∀ w r next, P.inv w → P.given w ⟨tid, .timer, r, w.state, w.state, next⟩ →
    P.Keeps w ⟨tid, .timer, r, w.state, w.state, next⟩ ∧
      P.Env tid w (w.push ⟨tid, .timer, r, w.state, w.state, next⟩)

structure Lasting (P : Protocol (coreService M setup)) (tid : ℕ)
    (J : World (coreService M setup) → Prop) : Prop where
  stable : P.Stable tid J
  step : ∀ w st, st.tid = tid → st.pre = w.state → P.given w st → P.Keeps w st → J w → J (w.push st)

/-- The end of a timed program: `Q` of its value, or `J` if it was given up. -/
def Timed (Q : α → World (coreService M setup) → Prop) (J : World (coreService M setup) → Prop) :
    Option α → World (coreService M setup) → Prop
  | some a, w => Q a w
  | none, w => J w

theorem safe_withTimeout (hN : TimerNeutral P tid) {J : World (coreService M setup) → Prop}
    (hJ : Lasting P tid J)
    (habandon : P.Triple tid J (core.store.abandon.embed (storeEmbedding M.sig)) (fun _ => J))
    {Q : α → World (coreService M setup) → Prop} (hw : P.inv w) (hj : J w) (hp : P.Safe tid Q p w) :
    P.Safe tid (Timed Q J) (withTimeout core p) w := by
  -- The future is dropped: what is left is the store's own clean-up.
  have hdrop : ∀ w, P.inv w → J w → P.Safe tid (Timed Q J) (dropped core) w :=
    triple_bind habandon (fun _ => triple_pure hJ.stable (fun _ _ h => h) (fun _ _ h => h))
  induction p generalizing w with
  | pure a => exact hp
  | op o k ih =>
    rw [withTimeout]
    intro w' he c s r next hex hlt hown hg
    cases hex
    generalize c.timer = poll at hg ⊢
    obtain ⟨hkeeps, henv⟩ := hN w' poll next he.inv hg
    have hjp := hJ.stable _ _ henv (hJ.stable _ _ he hj)
    refine ⟨hkeeps, ?_⟩
    cases poll with
    | pending =>
      intro w'' he' c' s' r' next' hex' hlt' hown' hg'
      obtain ⟨hkeeps', hsafe⟩ := hp w'' ((he.trans henv).trans he') c' s' r' next'
        hex' hlt' hown' hg'
      have hj' := hJ.step _ _ rfl rfl hg' hkeeps' (hJ.stable _ _ he' hjp)
      exact ⟨hkeeps', ih r' hkeeps'.inv hj' hsafe⟩
    | elapsed => exact hdrop _ hkeeps.inv hjp
    | elapsedMidway =>
      intro w'' he' c' s' r' next' hex' hlt' hown' hg'
      obtain ⟨hkeeps', _⟩ := hp w'' ((he.trans henv).trans he') c' s' r' next' hex' hlt' hown' hg'
      have hj' := hJ.step _ _ rfl rfl hg' hkeeps' (hJ.stable _ _ he' hjp)
      exact ⟨hkeeps', hdrop _ hkeeps'.inv hj'⟩

theorem safe_withTimeout_pending (hN : TimerNeutral P tid)
    (hpending : ∀ w r next, P.given w ⟨tid, .timer, r, w.state, w.state, next⟩ → r = .pending)
    {Q : α → World (coreService M setup) → Prop} (hp : P.Safe tid Q p w) :
    P.Safe tid (Timed Q (fun _ => False)) (withTimeout core p) w := by
  induction p generalizing w with
  | pure a => exact hp
  | op o k ih =>
    rw [withTimeout]
    intro w' he c s r next hex hlt hown hg
    cases hex
    generalize c.timer = poll at hg ⊢
    obtain ⟨hkeeps, henv⟩ := hN w' poll next he.inv hg
    refine ⟨hkeeps, ?_⟩
    rw [hpending w' poll next hg] at henv ⊢
    intro w'' he' c' s' r' next' hex' hlt' hown' hg'
    obtain ⟨hkeeps', hsafe⟩ := hp w'' ((he.trans henv).trans he') c' s' r' next' hex' hlt' hown' hg'
    exact ⟨hkeeps', ih r' hsafe⟩

end

/-- The core over the contract store. -/
abbrev contractCore (setup : CoreSetup) := coreService contractMachine setup

abbrev CoreSetup.contract (setup : CoreSetup) : CoreConfig contractSig :=
  setup.over contractMachine

/-- The operations with which a thread neither changes a task nor starts a worker. -/
def CoreOp.Free : CoreOp contractSig → Prop
  | .store (.append _) => False
  | .store (.claim _) => False
  | .activeSend _ _ => False
  | .spawn _ => False
  | _ => True

/-- The task still is the one in the snapshot, or it has moved on to a later revision. -/
def CoreState.Known (s : CoreState LogStore) (snap : TaskSnapshot) : Prop :=
  ∃ cur, s.db.tasks snap.taskId = some cur ∧ snap.Succeeds cur

variable {s : CoreState LogStore} {snap : TaskSnapshot}

theorem CoreState.Known.extends (h : s.Known snap) (hext : s.Extends s') :
    s'.Known snap := by
  obtain ⟨cur, hcur, hsucc⟩ := h
  obtain ⟨cur', hcur', hsucc'⟩ := hext.db.task hcur
  exact ⟨cur', hcur', hsucc.trans hsucc'⟩

theorem CoreState.WF.known (h : s.WF) {id : TaskId} (hs : s.db.tasks id = some snap) :
    snap.taskId = id ∧ s.Known snap := by
  have hid := (h.db.log hs).taskId
  exact ⟨hid, snap, by rw [hid]; exact hs, .refl snap⟩

theorem CoreState.Known.of_check (h : s.Known snap) (hid : t.taskId = snap.taskId)
    (hrev : t.expectedRevision = snap.revision) (hc : s.db.check t = .ok cur) :
    cur = snap ∧ snap.state ∈ t.allowedStates := by
  obtain ⟨htask, hr, hs⟩ := (LogStore.check_eq_ok_iff s.db t cur).mp hc
  obtain ⟨cur', hcur', hsucc⟩ := h
  rw [hid, hcur'] at htask
  cases htask
  have hcur : cur = snap := hsucc.same (hr.trans hrev)
  exact ⟨hcur, hcur ▸ hs⟩

structure Decides (snap : TaskSnapshot) (allowed : List TaskState) (next : TaskState)
    (kind : CoreEventKind) : Prop where
  live : ∀ state ∈ allowed, state.terminal = false
  next : snap.state ∈ allowed → next = kind.state

theorem Decides.legal {next : TaskState} (h : Decides snap allowed next kind) (hk : s.Known snap) :
    s.db.Legal ⟨snap.taskId, snap.revision, allowed, next, kind⟩ := by
  intro cur hc
  obtain ⟨rfl, hs⟩ := hk.of_check rfl rfl hc
  exact ⟨h.next hs, h.live _ hs⟩

/-- Thread `tid` can keep the protocol and the assertion `J` while it works on tasks, and may end
those in `H`. -/
structure Carries (setup : CoreSetup) (P : Protocol (contractCore setup)) (tid : ℕ)
    (J : World (contractCore setup) → Prop) (H : TaskId → Prop) : Prop where
  wf : ∀ w, P.inv w → w.state.WF
  grows : ∀ w w', P.Env tid w w' → w.state.Extends w'.state
  stable : P.Stable tid J
  free : ∀ w o c s r next, o.Free → P.inv w → J w →
    coreExec contractMachine tid w.state o c = some (s, r) →
    P.given w ⟨tid, o, r, w.state, s, next⟩ →
    P.Keeps w ⟨tid, o, r, w.state, s, next⟩ ∧ J (w.push ⟨tid, o, r, w.state, s, next⟩)
  send : ∀ w id e c s r next, e ∈ w.state.db.events id → P.inv w → J w →
    coreExec contractMachine tid w.state (.activeSend id e) c = some (s, r) →
    P.given w ⟨tid, .activeSend id e, r, w.state, s, next⟩ →
    P.Keeps w ⟨tid, .activeSend id e, r, w.state, s, next⟩ ∧
      J (w.push ⟨tid, .activeSend id e, r, w.state, s, next⟩)
  append : ∀ w t c s r next, w.state.db.Legal t → (t.nextState.terminal = true → H t.taskId) →
    P.inv w → J w → coreExec contractMachine tid w.state (.store (.append t)) c = some (s, r) →
    P.given w ⟨tid, .store (.append t), r, w.state, s, next⟩ →
    P.Keeps w ⟨tid, .store (.append t), r, w.state, s, next⟩ ∧
      J (w.push ⟨tid, .store (.append t), r, w.state, s, next⟩)

section

variable {setup : CoreSetup} {P : Protocol (contractCore setup)} {tid : ℕ} {α β : Type}
variable {R J : World (contractCore setup) → Prop} {H : TaskId → Prop}

theorem triple_call {ρ : Type} {p : Prog contractSig (Except StoreError ρ)}
    {f : o.Reply → Except StoreError ρ} (hp : p = .op o (fun r => .pure (f r)))
    {Q : Except CoreError ρ → World (contractCore setup) → Prop} (hR : P.Stable tid R)
    (hQ : ∀ r, P.Stable tid (Q r))
    (h : ∀ w c s r next, P.inv w → R w →
      coreExec contractMachine tid w.state (.store o) c = some (s, r) → tid < next →
      w.own next = [] → P.given w ⟨tid, .store o, r, w.state, s, next⟩ →
      P.Keeps w ⟨tid, .store o, r, w.state, s, next⟩ ∧
      Q ((f r).mapError CoreError.store) (w.push ⟨tid, .store o, r, w.state, s, next⟩)) :
    P.Triple tid R (fromStore p).run Q := by
  subst hp
  exact triple_last hR (fun r => hQ _) h

variable (hJ : Carries setup P tid J H)

include hJ

theorem triple_free (hp : p.Everywhere CoreOp.Free) :
    P.Triple tid J p (fun _ => J) := by
  induction p with
  | pure a => exact triple_pure hJ.stable (fun _ _ h => h) (fun _ _ h => h)
  | op o k ih =>
    refine triple_op hJ.stable ?_ (fun r => ih r (hp.2 r))
    intro w c s r next hi hw hex _ _ hg
    exact hJ.free w o c s r next hp.1 hi hw hex hg

variable {T : Except CoreError β → World (contractCore setup) → Prop}

/-- Sequencing under a carried assertion; `K` is what is known of the value of the first
program. -/
theorem triple_carry {f : α → CoreM contractSig β} {K : α → World (contractCore setup) → Prop}
    (hx : P.Triple tid R x.run (fun r w => J w ∧ ∀ a, r = .ok a → K a w))
    (herror : ∀ e w, P.inv w → J w → T (.error e) w)
    (hf : ∀ a, P.Triple tid (fun w => J w ∧ K a w) (f a).run T) :
    P.Triple tid R (x >>= f).run T := by
  refine triple_try hx (fun e => ?_) (fun a => ?_)
  · exact triple_pure hJ.stable (fun _ _ h => h.1) (herror e)
  · exact (hf a).conseq (fun _ _ h => ⟨h.1, h.2 a rfl⟩) (fun _ _ _ h => h)

theorem triple_seq {f : α → CoreM contractSig β} (hx : P.Triple tid R x.run (fun _ => J))
    (herror : ∀ e w, P.inv w → J w → T (.error e) w) (hf : ∀ a, P.Triple tid J (f a).run T) :
    P.Triple tid R (x >>= f).run T := by
  refine triple_carry hJ (hx.conseq (fun _ _ h => h)
    (fun _ _ _ h => ⟨h, fun _ _ => trivial⟩)) herror (fun a => ?_)
  exact (hf a).conseq (fun _ _ h => h.1) (fun _ _ _ h => h)

variable (id : TaskId)

def Read (w : World (contractCore setup)) (snap : TaskSnapshot) : Prop :=
  snap.taskId = id ∧ w.state.Known snap

theorem Carries.stable_read (snap : TaskSnapshot) : P.Stable tid (fun w => Read id w snap) :=
  fun w w' he h => ⟨h.1, h.2.extends (hJ.grows w w' he)⟩

theorem triple_snapshot : P.Triple tid J (snapshot setup.contract id).run
      (fun r w => J w ∧ ∀ s, r = .ok s → Read id w s) := by
  have hcall : P.Triple tid J (fromStore (setup.contract.store.getSnapshot id)).run
      (fun r w => J w ∧ ∀ s, r = .ok (some s) → Read id w s) := by
    refine triple_call rfl hJ.stable ?_ ?_
    · intro r w w' he h
      exact ⟨hJ.stable w w' he h.1, fun s hs => hJ.stable_read id s w w' he (h.2 s hs)⟩
    · intro w c s r next hi hw hex _ _ hg
      obtain ⟨hkeeps, hj⟩ := hJ.free w _ c s r next trivial hi hw hex hg
      refine ⟨hkeeps, hj, fun snap hsnap => ?_⟩
      obtain ⟨db, hdb, rfl⟩ := coreExec_store hex
      obtain ⟨rfl, rfl | ⟨e, rfl, _⟩⟩ := LogStore.exec_get hdb
      · exact (hJ.wf w hi).known (Except.ok.inj hsnap)
      · cases hsnap
  refine triple_try hcall (fun e => ?_) (fun x => ?_)
  · exact triple_pure hJ.stable (fun _ _ h => h.1) (fun _ _ h => ⟨h, fun s hs => by cases hs⟩)
  · cases x with
    | none =>
      exact triple_pure hJ.stable (fun _ _ h => h.1) (fun _ _ h => ⟨h, fun s hs => by cases hs⟩)
    | some snap =>
      refine triple_pure (hJ.stable.and (hJ.stable_read id snap))
        (fun _ _ h => ⟨h.1, h.2 snap rfl⟩) (fun _ _ h => ⟨h.1, ?_⟩)
      intro s hs
      cases hs
      exact h.2

theorem triple_action_free (ho : o.Free) :
    P.Triple tid J (action o).run (fun _ => J) :=
  triple_free hJ ⟨ho, fun _ => trivial⟩

theorem triple_action_then (o : CoreOp contractSig) (ho : o.Free)
    {f : o.Reply → CoreM contractSig β} (hf : ∀ r, P.Triple tid J (f r).run T) :
    P.Triple tid J (action o >>= f).run T :=
  triple_bind (p := perform o) (triple_free hJ (Prog.everywhere_perform ho)) hf

omit hJ in
theorem CoreOp.Free.obliged {o : CoreOp contractSig} (h : o.Free) (s : CoreState LogStore) :
    o.Obliged s := by
  cases o with
  | store o =>
    cases o with
    | append t => exact h.elim
    | _ => trivial
  | activeSend id e => exact h.elim
  | _ => trivial

theorem Carries.known (snap : TaskSnapshot) : P.Stable tid (fun w => J w ∧ w.state.Known snap) :=
  fun w w' he h => ⟨hJ.stable w w' he h.1, h.2.extends (hJ.grows w w' he)⟩

theorem triple_perform_known (snap : TaskSnapshot) (o : CoreOp contractSig) (ho : o.Free) :
    P.Triple tid (fun w => J w ∧ w.state.Known snap) (perform o)
      (fun _ w => J w ∧ w.state.Known snap) := by
  refine triple_last (hJ.known snap) (fun _ => hJ.known snap) ?_
  intro w c s r next hi hw hex _ _ hg
  obtain ⟨hkeeps, hj⟩ := hJ.free w o c s r next ho hi hw.1 hex hg
  exact ⟨hkeeps, hj, hw.2.extends ((hJ.wf w hi).coreExec (ho.obliged _) hex).2⟩

theorem triple_known_then (o : CoreOp contractSig) (ho : o.Free) {f : o.Reply → CoreM contractSig β}
    (hf : ∀ r, P.Triple tid (fun w => J w ∧ w.state.Known snap) (f r).run T) :
    P.Triple tid (fun w => J w ∧ w.state.Known snap) (action o >>= f).run T :=
  triple_bind (p := perform o) (triple_perform_known hJ snap o ho) hf

theorem triple_send (e : CoreEvent) :
    P.Triple tid (fun w => J w ∧ e ∈ w.state.db.events id) (action (.activeSend id e)).run
      (fun _ => J) := by
  refine triple_last ?_ (fun r => hJ.stable) ?_
  · exact fun w w' he h => ⟨hJ.stable w w' he h.1, ((hJ.grows w w' he).db.events id).subset h.2⟩
  · intro w c s r next hi hw hex _ _ hg
    exact hJ.send w id e c s r next hw.2 hi hw.1 hex hg

theorem triple_transition (site : Site) {next : TaskState} (hd : Decides snap allowed next kind)
    (hH : next.terminal = true → H snap.taskId) :
    P.Triple tid (fun w => J w ∧ w.state.Known snap)
      (transition setup.contract site snap allowed next kind).run
      (fun _ => J) := by
  refine triple_known_then hJ (.enter site) trivial (fun _ => ?_)
  have happend : P.Triple tid (fun w => J w ∧ w.state.Known snap)
      (fromStore (setup.contract.store.appendEventAndTransition
        ⟨snap.taskId, snap.revision, allowed, next, kind⟩)).run
      (fun r w => J w ∧ ∀ a, r = .ok a → a.event ∈ w.state.db.events snap.taskId) := by
    refine triple_call rfl (hJ.known snap) ?_ ?_
    · exact fun r w w' he h => ⟨hJ.stable w w' he h.1,
        fun a ha => ((hJ.grows w w' he).db.events _).subset (h.2 a ha)⟩
    · intro w c s r n hi hw hex _ _ hg
      obtain ⟨hkeeps, hj⟩ := hJ.append w _ c s r n (hd.legal hw.2) hH hi hw.1 hex hg
      refine ⟨hkeeps, hj, fun a ha => ?_⟩
      obtain ⟨db, hdb, rfl⟩ := coreExec_store hex
      rcases LogStore.exec_append hdb with ⟨cur, _, rfl, rfl⟩ | ⟨e, _, rfl, _⟩ | ⟨e, rfl, _⟩
      · cases ha
        exact LogStore.mem_events_record _ _ _ _
      · cases ha
      · cases ha
  refine triple_carry hJ happend (fun _ _ _ h => h) (fun a => ?_)
  refine triple_seq hJ ((triple_send hJ snap.taskId a.event).conseq (fun _ _ h => h)
    (fun _ _ _ h => h)) (fun _ _ _ h => h) (fun _ => ?_)
  exact triple_pure hJ.stable (fun _ _ h => h) (fun _ _ h => h)

end

end AgentConnector
