import AgentConnector.CoreIsolation
import AgentConnector.StoreKeys

/-!
# Invocations under one key

All calls of `invoke` for one caller under one idempotency key, over any of the three stores. The
step at which the store enters a task under the key happens at most once; every call that is
answered with a task is answered with that task, and only the call that made the step spawns a
worker, which calls the driver once.
-/

namespace AgentConnector

open Concurrent Isolation AdapterCore World List

theorem pairwise_of_split {α : Type} {P : α → Prop} {l : List α}
    (h : ∀ l₁ a l₂, l = l₁ ++ a :: l₂ → P a → ∀ b ∈ l₂, ¬ P b) :
    l.Pairwise (fun a b => ¬ (P a ∧ P b)) := by
  induction l with
  | nil => exact .nil
  | cons a l ih =>
    refine .cons (fun b hb hab => h [] a l rfl hab.1 b hb hab.2) (ih fun l₁ b l₂ hl => ?_)
    exact h (a :: l₁) b l₂ (by rw [hl]; rfl)

theorem eq_of_pairwise {α : Type} {P : α → Prop} {l : List α}
    (h : l.Pairwise (fun a b => ¬ (P a ∧ P b))) {a b : α} (ha : a ∈ l) (hb : b ∈ l) (hPa : P a)
    (hPb : P b) : a = b := by
  have hsymm : Std.Symm (fun a b => ¬ (P a ∧ P b)) := ⟨fun _ _ hn hab => hn hab.symm⟩
  by_contra hne
  exact h.forall ha hb hne ⟨hPa, hPb⟩

def CoreOp.startsDriver {τ : Signature} : CoreOp τ → Bool
  | .driverInvoke _ _ _ => true
  | _ => false

/-- A call that invokes an agent for the caller under the key; the rest of the request is free. -/
def CoreEntry.Invokes (caller : CallerId) (key : String) : CoreEntry → Prop
  | .dispatch c (.invoke request) => c.id = caller ∧ request.idempotencyKey = key
  | _ => False

/-- The task that a call has returned as created or as existing. -/
def CoreOutcome.returned? : CoreOutcome → Option TaskId
  | .dispatched (.ok (.created s)) => some s.taskId
  | .dispatched (.ok (.existing s)) => some s.taskId
  | _ => none

theorem CoreEntry.Invokes.exists_request {e : CoreEntry} (h : e.Invokes caller key) :
    ∃ c request, e = .dispatch c (.invoke request) ∧
      (c.id, request.idempotencyKey) = (caller, key) := by
  cases e with
  | dispatch c command =>
    cases command with
    | invoke request => exact ⟨c, request, rfl, Prod.ext h.1 h.2⟩
    | _ => exact h.elim
  | _ => exact h.elim

theorem CoreOutcome.exists_returned {r : CoreOutcome} {id : TaskId} (h : r.returned? = some id) :
    ∃ s, s.taskId = id ∧
      (r = .dispatched (.ok (.created s)) ∨ r = .dispatched (.ok (.existing s))) := by
  cases r with
  | dispatched r =>
    cases r with
    | error e => cases h
    | ok d =>
      cases d with
      | created s => exact ⟨s, Option.some.inj h, Or.inl rfl⟩
      | existing s => exact ⟨s, Option.some.inj h, Or.inr rfl⟩
      | _ => cases h
  | _ => cases h

namespace DurableMachine

variable {M : DurableMachine} {db : M.Db} {setup : CoreSetup} {I : Isolation (storeService M db)}
  {tid : ℕ} {x : I.Local} {l : List (Step (M.core db setup))}
  {G : List (Step (M.core db setup)) → Step (M.core db setup) → Prop}

variable (key : IdempotencyKey)

def Enters (st : Step (M.core db setup)) : Prop :=
  M.view.owner st.pre.db key = none ∧ ∃ id, M.view.owner st.post.db key = some id

def SpawnsOnce (l : List (Step (M.core db setup))) (st : Step (M.core db setup)) : Prop :=
  st.op.isSpawn = true → NoSpawn l ∧ ∃ st' ∈ l, Enters key st'

theorem spawnsOnce_of_other {key : IdempotencyKey} (l : List (Step (M.core db setup)))
    (st : Step (M.core db setup)) (h : st.op.isSpawn = false) : SpawnsOnce key l st :=
  fun hspawn => absurd (h.symm.trans hspawn) Bool.false_ne_true

theorem admits_between (store : TaskStore M.sig) :
    Admits store (fun o : CoreOp M.sig => o.isSpawn = false) where
  get _ := Prog.everywhere_true _ (fun _ => rfl)
  append _ := Prog.everywhere_true _ (fun _ => rfl)
  enter _ := rfl
  send _ _ := rfl

/-- If the call succeeds, it returns the task `id` as one it has created. -/
def ReturnsCreated (id : TaskId) (l : List (Step (M.core db setup)))
    (r : Except CoreError DispatchResult) (l' : List (Step (M.core db setup))) : Prop :=
  ∀ d, r = .ok d → ∃ s, d = .created s ∧ s.taskId = id ∧ l ⊆ l'

theorem returnsCreated_error (id : TaskId) (l : List (Step (M.core db setup))) (e : CoreError)
    (l' : List (Step (M.core db setup))) : ReturnsCreated id l (.error e) l' :=
  fun _ h => by cases h

/-- The call has been answered with the task under its key; if it was created, by this call. -/
def Answered (r : Except CoreError DispatchResult) (l : List (Step (M.core db setup))) : Prop :=
  match r with
  | .ok (.created s) => (∃ st ∈ l, Enters key st) ∧
      ∃ st ∈ l, M.view.owner st.post.db key = some s.taskId
  | .ok (.existing s) => ∃ st ∈ l, M.view.owner st.post.db key = some s.taskId
  | _ => True

variable {spares : M.sig.Op → Prop} (H : M.ServesKeys db I spares)

include H

theorem safe_transition (hG : ∀ l st, st.op.isSpawn = false → G l st) (hl : NoSpawn l) (site : Site)
    (snap : TaskSnapshot) (allowed : List TaskState) (next : TaskState) (kind : CoreEventKind) :
    (overCore I setup).Safe tid G
      (fun r _ l' => NoSpawn l' ∧ l ⊆ l' ∧ ∀ s, r = .ok s → s.taskId = snap.taskId)
      (transition (setup.over (M.toStoreMachine.startedAt db)) site snap allowed next
        kind).run x l := by
  refine safe_try (safe_between (everywhere_action rfl) hG hl)
    (fun e x l h => ⟨h.1, h.2, fun _ hs => by cases hs⟩) ?_
  rintro _ x₁ l₁ ⟨hl₁, hsub₁⟩
  refine safe_try (safe_fromStore (H.applied tid _ x₁) hG hl₁)
    (fun e x l h => ⟨h.1, fun _ hst => h.2.1 (hsub₁ hst), fun _ hs => by cases hs⟩) ?_
  rintro applied x₂ l₂ ⟨hl₂, hsub₂, r', ls', hpost, _, hr'⟩
  have hid : applied.snapshot.taskId = snap.taskId := by
    cases r' with
    | error e => cases hr'
    | ok a =>
      cases hr'
      obtain ⟨_, _, _, happlies⟩ := hpost
      exact H.stored happlies.stored
  refine safe_try (safe_between (everywhere_action rfl) hG hl₂)
    (fun e x l h => ⟨h.1, fun _ hst => h.2 (hsub₂ (hsub₁ hst)), fun _ hs => by cases hs⟩) ?_
  rintro _ x₃ l₃ ⟨hl₃, hsub₃⟩
  refine ⟨hl₃, fun _ hst => hsub₃ (hsub₂ (hsub₁ hst)), fun s hs => ?_⟩
  cases hs
  exact hid

/-- After the creation of the task: the call fails, or spawns the worker of the task and returns its
snapshot. -/
theorem safe_startTask (caller : Caller) (request : InvokeRequest) (agent : RegisteredAgent)
    (id : TaskId) (snap : TaskSnapshot) {key : IdempotencyKey} (hl : NoSpawn l)
    (hentered : ∃ st ∈ l, Enters key st) :
    (overCore I setup).Safe tid (SpawnsOnce key) (fun r _ l' => ReturnsCreated snap.taskId l r l')
      (startTask (setup.over (M.toStoreMachine.startedAt db)) caller request agent id
        snap).run x l := by
  -- Everything but the last operation is about permits or ends the call with an error.
  have hstep : ∀ {o : CoreOp M.sig} {k : o.Reply → Prog (coreSig M.sig) _} {x l'},
      o.isSpawn = false → NoSpawn l' ∧ l ⊆ l' →
      (∀ r x l', NoSpawn l' ∧ l ⊆ l' → (overCore I setup).Safe tid (SpawnsOnce key)
        (fun r _ l' => ReturnsCreated snap.taskId l r l') (k r) x l') →
      (overCore I setup).Safe tid (SpawnsOnce key)
        (fun r _ l' => ReturnsCreated snap.taskId l r l') (.op o k) x l' := by
    intro o k x l' ho hl' hk s c s' r next _ _ _
    exact ⟨spawnsOnce_of_other _ _ ho,
      hk r _ _ ⟨hl'.1.cons ho, fun _ hst => mem_cons_of_mem _ (hl'.2 hst)⟩⟩
  have hreject : ∀ reason answer x l', NoSpawn l' ∧ l ⊆ l' →
      (overCore I setup).Safe tid (SpawnsOnce key) (fun r _ l' => ReturnsCreated snap.taskId l r l')
        (reject (setup.over (M.toStoreMachine.startedAt db)) id reason answer).run x l' := by
    intro reason answer x l' hl'
    have hadmits : Admits (setup.over (M.toStoreMachine.startedAt db)).store
      (fun o : CoreOp M.sig => o.isSpawn = false) := admits_between M.store
    refine safe_try (safe_between (hadmits.walk.failActive rfl (fun _ _ _ => trivial) _ _)
      spawnsOnce_of_other hl'.1)
      (fun e _ l' _ => returnsCreated_error _ l e l') ?_
    exact fun _ _ l' _ => returnsCreated_error _ l _ l'
  refine hstep rfl ⟨hl, List.Subset.refl l⟩ (fun _ x l₁ hl₁ => ?_)
  refine safe_try (safe_transition H spawnsOnce_of_other hl₁.1 _ _ _ _ _)
    (fun e _ l' _ => returnsCreated_error _ l e l') ?_
  rintro accepted x l₂ ⟨hl₂, hsub, hid⟩
  refine hstep rfl ⟨hl₂, fun _ hst => hsub (hl₁.2 hst)⟩ (fun queue x l hl => ?_)
  cases queue
  · exact hreject _ _ _ _ hl
  refine hstep rfl hl (fun permit x l hl => ?_)
  cases permit
  · exact hstep rfl hl (fun _ => hreject _ _)
  refine hstep rfl hl (fun permit x l hl => ?_)
  cases permit
  · exact hstep rfl hl (fun _ _ _ hl => hstep rfl hl (fun _ => hreject _ _))
  refine hstep rfl hl (fun permit x l hl => ?_)
  cases permit
  · exact hstep rfl hl (fun _ _ _ hl => hstep rfl hl (fun _ _ _ hl =>
      hstep rfl hl (fun _ => hreject _ _)))
  refine hstep rfl hl (fun _ x l hl => ?_)
  intro s c s' r next _ _ _
  obtain ⟨st, hst, henters⟩ := hentered
  refine ⟨fun _ => ⟨hl.1, st, hl.2 hst, henters⟩, fun d hd => ?_⟩
  cases hd
  exact ⟨accepted, rfl, hid accepted rfl, fun _ hst => mem_cons_of_mem _ (hl.2 hst)⟩

theorem safe_invoke (caller : Caller) (request : InvokeRequest) :
    (overCore I setup).Safe tid (SpawnsOnce (caller.id, request.idempotencyKey))
      (fun r _ l => Answered (caller.id, request.idempotencyKey) r l)
      (invoke (setup.over (M.toStoreMachine.startedAt db)) caller request).run I.idle
      [] := by
  have hnil : NoSpawn ([] : List (Step (M.core db setup))) := fun st hst => by cases hst
  unfold invoke
  split
  · trivial
  refine safe_ofExcept (fun _ _ => trivial) (fun agent _ => ?_)
  refine safe_try (safe_outside (everywhere_chooseTaskId ⟨rfl, rfl⟩ request)
    spawnsOnce_of_other hnil) (fun _ _ _ _ => trivial) ?_
  rintro id x l₁ ⟨rfl, hl₁⟩
  refine safe_try (safe_outside (everywhere_chooseDeadline ⟨rfl, rfl⟩ request)
    spawnsOnce_of_other hl₁) (fun _ _ _ _ => trivial) ?_
  rintro deadlineAt x l₂ ⟨rfl, hl₂⟩
  refine safe_try (safe_fromStore (H.created tid _) spawnsOnce_of_other hl₂)
    (fun _ _ _ _ => trivial) ?_
  rintro initial x l₃ ⟨hl₃, _, r', ls', hpost, hshows, hr'⟩
  have hr : r' = .ok initial := by
    cases r' with
    | error e => cases hr'
    | ok a =>
      cases hr'
      rfl
  subst hr
  cases initial with
  | existing s =>
    obtain ⟨_, st, hst, howner⟩ := hpost
    obtain ⟨st', hst', _, hpost'⟩ := hshows st hst
    exact ⟨st', hst', by rw [hpost']; exact howner⟩
  | created s =>
    obtain ⟨⟨st, hst, hcreates⟩, st₂, hst₂, howner⟩ := hpost
    obtain ⟨st', hst', hpre', hpost'⟩ := hshows st hst
    obtain ⟨st₂', hst₂', _, hpost₂'⟩ := hshows st₂ hst₂
    have henters : Enters (caller.id, request.idempotencyKey) st' := by
      refine ⟨?_, id, ?_⟩
      · rw [hpre']
        exact hcreates.key
      · rw [hpost']
        exact hcreates.owner
    refine (safe_startTask H caller request agent id s hl₃ ⟨st', hst', henters⟩).mono ?_
    intro r x l' hr
    cases r with
    | error e => trivial
    | ok d =>
      obtain ⟨s', rfl, hid, hsub⟩ := hr d rfl
      refine ⟨⟨st', hsub hst', henters⟩, st₂', hsub hst₂', ?_⟩
      rw [hpost₂', hid]
      exact howner

omit H in
theorem safe_worker (args : WorkerArgs) : (overCore I setup).Safe tid
      (fun l st => st.op.startsDriver = true → ∀ st' ∈ l, st'.op.startsDriver = false)
      (fun _ _ _ => True)
      (worker (setup.over (M.toStoreMachine.startedAt db)) args) I.idle [] := by
  have hadmits : Admits (setup.over (M.toStoreMachine.startedAt db)).store
      (fun o : CoreOp M.sig => o.startsDriver = false) :=
    ⟨fun _ => Prog.everywhere_true _ (fun _ => rfl), fun _ => Prog.everywhere_true _ (fun _ => rfl),
      fun _ => rfl, fun _ _ => rfl⟩
  -- What comes after the first two operations does not call the driver again.
  have hrest : ∀ {β : Type} {p : Prog (coreSig M.sig) β} {x l},
      p.Everywhere (fun o : CoreOp M.sig => o.startsDriver = false) →
      (overCore I setup).Safe tid
        (fun l st => st.op.startsDriver = true → ∀ st' ∈ l, st'.op.startsDriver = false)
        (fun _ _ _ => True) p x l := by
    intro β p x l hp
    refine safe_of_everywhere (K := fun _ => True) hp ?_ (fun _ _ _ _ => trivial) trivial
    rintro l' st - hst - - -
    exact ⟨fun h => absurd (hst.symm.trans h) Bool.false_ne_true, trivial⟩
  have hdropped : (dropped (setup.over (M.toStoreMachine.startedAt db)) :
      Prog (coreSig M.sig) (Option (Except CoreError Unit))).Everywhere
      (fun o : CoreOp M.sig => o.startsDriver = false) :=
    Prog.everywhere_bind (Prog.everywhere_embed (Prog.everywhere_true _ (fun _ => rfl)))
      (fun _ => trivial)
  refine safe_bind (Isolation.Safe.mono (Q := fun _ _ _ => True) ?_ (fun outcome x l _ => ?_))
  · intro s c s' poll next _ _ _
    refine ⟨(fun h => by cases h), ?_⟩
    cases poll with
    | pending =>
      intro s₁ c₁ s₁' stream next₁ _ _ _
      refine ⟨fun _ st' hst' => ?_, hrest ?_⟩
      · rw [mem_singleton.mp hst']
        rfl
      · refine everywhere_withTimeout (A := fun o : CoreOp M.sig => o.startsDriver = false) rfl
          (Prog.everywhere_true _ (fun _ => rfl)) ?_
        cases stream with
        | error e => trivial
        | ok events => exact hadmits.walk.drainStream (fun _ => rfl) (fun _ _ => trivial) rfl events
    | elapsed => exact hrest hdropped
    | elapsedMidway =>
      intro s₁ c₁ s₁' stream next₁ _ _ _
      refine ⟨fun _ st' hst' => ?_, hrest hdropped⟩
      rw [mem_singleton.mp hst']
      rfl
  · refine hrest (Prog.everywhere_bind (hadmits.walk.settleWorker
      (fun _ => rfl) (fun _ _ => trivial) rfl outcome) (fun _ => ?_))
    exact ⟨rfl, fun _ => ⟨rfl, fun _ => ⟨rfl, fun _ => ⟨rfl, fun _ => trivial⟩⟩⟩⟩

def KeyGuarantee : CoreEntry → List (Step (M.core db setup)) → Step (M.core db setup) → Prop
  | .dispatch caller (.invoke request) => SpawnsOnce (caller.id, request.idempotencyKey)
  | .worker _ => fun l st => st.op.startsDriver = true → ∀ st' ∈ l, st'.op.startsDriver = false
  | _ => fun _ _ => True

def KeyResult : CoreEntry → CoreOutcome → List (Step (M.core db setup)) → Prop
  | .dispatch caller (.invoke request), .dispatched r =>
    Answered (caller.id, request.idempotencyKey) r
  | _, _ => fun _ => True

theorem safe_entry (tid : ℕ) (e : CoreEntry) :
    (overCore I setup).Safe tid (KeyGuarantee e) (fun r _ l => KeyResult e r l)
      ((M.core db setup).program e) I.idle [] := by
  cases e with
  | dispatch caller command =>
    cases command with
    | invoke request =>
      refine safe_bind ?_
      refine safe_ofExcept (fun _ _ => trivial) (fun _ _ => ?_)
      exact safe_invoke H caller request
    | _ => exact safe_trivial _ (fun _ _ => trivial) (fun _ _ _ => trivial)
  | worker args => exact safe_bind (safe_worker args)
  | _ => exact safe_trivial _ (fun _ _ => trivial) (fun _ _ _ => trivial)

section

variable {p : Pool (M.core db setup)} (hp : p.Reachable) {key : IdempotencyKey} {id : TaskId}

include hp

variable {st : Step (M.core db setup)}

theorem owner_step (hst : st ∈ p.trace) (hid : M.view.owner st.pre.db key = some id) :
    M.view.owner st.post.db key = some id := by
  obtain ⟨l, l', htrace⟩ := append_of_mem hst
  obtain ⟨q, hq, _, hstate⟩ := hp.exists_before htrace
  have hinv : I.inv st.pre.db := by
    rw [← hstate]
    exact ((overCore I setup).inv_of_reachable hq).1
  obtain ⟨c, hex⟩ := hp.executed st hst
  obtain ⟨th, hth⟩ := hp.exists_thread hst
  have hperforms := (hp.performs (everywhere_program (M.toStoreMachine.startedAt db) setup H.within)
    hth).2 st (mem_own.mpr ⟨hst, rfl⟩)
  obtain ⟨tid, o, r, s, s', next⟩ := st
  cases ho : o.isStore with
  | true =>
    obtain ⟨o', rfl⟩ := exists_store ho
    obtain ⟨db', hdb, hs'⟩ := coreExec_store hex
    rw [show s'.db = db' from congrArg CoreState.db hs']
    exact H.kept hinv hperforms hdb hid
  | false =>
    have hsame : s'.db = s.db := coreExec_db_eq ho hex
    rw [hsame]
    exact hid

theorem owner_later (htrace : p.trace = l ++ st :: l') (hid : M.view.owner st.post.db key = some id)
    :
    (∀ st' ∈ l, M.view.owner st'.pre.db key = some id) ∧ M.view.owner p.state.db key = some id := by
  refine hp.trace_induction (K := fun t s => ∀ l₁, t = l₁ ++ st :: l' →
    (∀ st' ∈ l₁, M.view.owner st'.pre.db key = some id) ∧ M.view.owner s.db key = some id)
    ?_ ?_ l htrace
  · intro l₁ h
    simp at h
  · intro l₀ st' t ht ih l₁ heq
    cases l₁ with
    | nil =>
      obtain ⟨rfl, _⟩ := List.cons.inj heq
      exact ⟨(fun _ h => by cases h), hid⟩
    | cons st'' l₁ =>
      obtain ⟨rfl, htail⟩ := List.cons.inj heq
      obtain ⟨hall, hpre⟩ := ih l₁ htail
      have hmem : st' ∈ p.trace := by
        rw [ht]
        simp
      refine ⟨fun st₁ hst₁ => ?_, owner_step H hp hmem hpre⟩
      rcases mem_cons.mp hst₁ with rfl | hst₁
      · exact hpre
      · exact hall st₁ hst₁

theorem owner_of_mem (hst : st ∈ p.trace) (hid : M.view.owner st.post.db key = some id) :
    M.view.owner p.state.db key = some id := by
  obtain ⟨l, l', htrace⟩ := append_of_mem hst
  exact (owner_later H hp htrace hid).2

theorem enters_once (key : IdempotencyKey) :
    p.trace.Pairwise (fun st st' => ¬ (Enters key st ∧ Enters key st')) := by
  apply pairwise_of_split
  rintro l st l' htrace ⟨hnone, _⟩ st' hst' ⟨_, id, hid⟩
  obtain ⟨l₁, l₂, hl'⟩ := append_of_mem hst'
  rw [hl', ← cons_append, ← append_assoc] at htrace
  have hpre := (owner_later H hp htrace hid).1 st (by simp)
  rw [hnone] at hpre
  cases hpre

variable {th : Thread (M.core db setup)} {caller : CallerId}

theorem owner_of_returned {key : String} (hth : p.threads[tid]? = some th)
    (hentry : th.entry.Invokes caller key) (hr : th.prog.result? = some r)
    (hid : r.returned? = some id) :
    M.view.owner p.state.db (caller, key) = some id := by
  have hresult := post_of_reachable (safe_entry H) hp hth hr
  obtain ⟨c, request, he, hkey⟩ := hentry.exists_request
  obtain ⟨s, rfl, hcases⟩ := CoreOutcome.exists_returned hid
  rw [he] at hresult
  rw [← hkey]
  rcases hcases with rfl | rfl
  · obtain ⟨_, st, hst, howner⟩ := hresult
    exact owner_of_mem H hp (mem_own.mp hst).1 howner
  · obtain ⟨st, hst, howner⟩ := hresult
    exact owner_of_mem H hp (mem_own.mp hst).1 howner

theorem spawnsOnce_of_mem {key : String} (hth : p.threads[sp.tid]? = some th)
    (hentry : th.entry.Invokes caller key) (hown : p.own sp.tid = l ++ sp :: l') :
    SpawnsOnce (caller, key) l' sp := by
  have hkept := (follows_of_reachable (safe_entry H) hp hth).kept hown
  obtain ⟨c, request, he, hkey⟩ := hentry.exists_request
  rw [he] at hkept
  rw [← hkey]
  exact hkept

theorem spawn_unique {key : String} (hsp : sp ∈ p.trace) (hsp' : sp' ∈ p.trace)
    (hspawn : sp.op.isSpawn = true) (hspawn' : sp'.op.isSpawn = true)
    (hth : p.threads[sp.tid]? = some th) (hth' : p.threads[sp'.tid]? = some th')
    (hentry : th.entry.Invokes caller key) (hentry' : th'.entry.Invokes caller key) : sp = sp' := by
  have henters : ∀ {sp th}, sp ∈ p.trace → sp.op.isSpawn = true → p.threads[sp.tid]? = some th →
      th.entry.Invokes caller key → ∃ st ∈ p.own sp.tid, Enters (caller, key) st := by
    intro sp th hsp hspawn hth hentry
    obtain ⟨l, l', hown⟩ := append_of_mem (mem_own.mpr ⟨hsp, rfl⟩)
    obtain ⟨st, hst, henters⟩ := (spawnsOnce_of_mem H hp hth hentry hown hspawn).2
    exact ⟨st, by rw [hown]; simp [hst], henters⟩
  obtain ⟨st, hst, hE⟩ := henters hsp hspawn hth hentry
  obtain ⟨st', hst', hE'⟩ := henters hsp' hspawn' hth' hentry'
  obtain ⟨hst, htid⟩ := mem_own.mp hst
  obtain ⟨hst', htid'⟩ := mem_own.mp hst'
  have htids : sp.tid = sp'.tid := by
    rw [← htid, ← htid', eq_of_pairwise (enters_once H hp (caller, key)) hst hst' hE hE']
  -- Both are steps of one call, which spawns only once.
  refine eq_of_pairwise (P := fun st => st.op.isSpawn = true) ?_
    (mem_own.mpr ⟨hsp, rfl⟩) (mem_own.mpr ⟨hsp', htids.symm⟩) hspawn hspawn'
  apply pairwise_of_split
  intro l₁ st₁ l₂ hown hspawn₁ st₂ hst₂ hspawn₂
  have htid₁ : st₁.tid = sp.tid := (mem_own.mp (by rw [hown]; simp)).2
  rw [← htid₁] at hth hown
  have hno := (spawnsOnce_of_mem H hp hth hentry hown hspawn₁).1 st₂ hst₂
  exact absurd (hno.symm.trans hspawn₂) Bool.false_ne_true

end

def StartsDriverFor (p : Pool (M.core db setup)) (caller : CallerId) (key : String)
    (st : Step (M.core db setup)) : Prop :=
  st.op.startsDriver = true ∧ ∃ sp ∈ p.trace, sp.op.isSpawn = true ∧ sp.next = st.tid ∧
    ∃ th, p.threads[sp.tid]? = some th ∧ th.entry.Invokes caller key

/-- All calls for one caller under one key act as one. -/
structure InvokedOnce (p : Pool (M.core db setup)) (caller : CallerId) (key : String) : Prop where
  /-- At most one step of all calls enters a task under the key. -/
  enters : p.trace.Pairwise (fun st st' => ¬ (Enters (caller, key) st ∧ Enters (caller, key) st'))
  /-- Only the call that has made this step is told that it has created the task. -/
  created : ∀ {tid th s}, p.threads[tid]? = some th → th.entry.Invokes caller key →
    th.prog.result? = some (.dispatched (.ok (.created s))) →
    ∃ st ∈ p.own tid, Enters (caller, key) st
  /-- All calls that return a task return the same. -/
  same : ∀ {tid tid' : ℕ} {th th' : Thread (M.core db setup)} {r r' : CoreOutcome}
    {id id' : TaskId}, p.threads[tid]? = some th → p.threads[tid']? = some th' →
    th.entry.Invokes caller key → th'.entry.Invokes caller key → th.prog.result? = some r →
    th'.prog.result? = some r' → r.returned? = some id → r'.returned? = some id' → id = id'
  /-- The driver is called at most once for all of them. -/
  driver : p.trace.Pairwise
    (fun st st' => ¬ (StartsDriverFor p caller key st ∧ StartsDriverFor p caller key st'))

theorem startsDriver_once {p : Pool (M.core db setup)} (hp : p.Reachable) (caller : CallerId)
    (key : String) : p.trace.Pairwise
      (fun st st' => ¬ (StartsDriverFor p caller key st ∧ StartsDriverFor p caller key st')) := by
  apply pairwise_of_split
  rintro l st l' htrace ⟨hstarts, sp, hsp, hspawn, hnext, th, hth, hentry⟩ st' hst'
    ⟨hstarts', sp', hsp', hspawn', hnext', th', hth', hentry'⟩
  have htid : st.tid = st'.tid := by
    rw [← hnext, ← hnext', spawn_unique H hp hsp hsp' hspawn hspawn' hth hth' hentry hentry']
  have hfork : ∃ args, sp.op = .spawn args := by
    revert hspawn
    cases sp.op <;> intro h <;> first | exact ⟨_, rfl⟩ | cases h
  obtain ⟨args, hargs⟩ := hfork
  obtain ⟨w, hw, hworker⟩ := hp.forked sp hsp (.worker args) (by rw [hargs])
  rw [hnext] at hw
  -- The two steps among those of the worker.
  have hown : p.own st.tid = l.filter (fun st₁ => st₁.tid = st.tid) ++
      st :: l'.filter (fun st₁ => st₁.tid = st.tid) := by
    rw [own, htrace, filter_append, filter_cons_of_pos (by simp)]
  have hkept := (follows_of_reachable (safe_entry H) hp hw).kept hown
  rw [hworker] at hkept
  have hno := hkept hstarts st' (mem_filter.mpr ⟨hst', by simp [htid]⟩)
  exact absurd (hno.symm.trans hstarts') Bool.false_ne_true

theorem invokedOnce {p : Pool (M.core db setup)} (hp : p.Reachable) (caller : CallerId)
    (key : String) : InvokedOnce p caller key where
  enters := enters_once H hp (caller, key)
  created {tid th s} hth hentry hr := by
    have hresult := post_of_reachable (safe_entry H) hp hth hr
    obtain ⟨c, request, he, hkey⟩ := hentry.exists_request
    rw [he] at hresult
    rw [← hkey]
    exact hresult.1
  same hth hth' hentry hentry' hr hr' hid hid' := by
    have howner := owner_of_returned H hp hth hentry hr hid
    rw [owner_of_returned H hp hth' hentry' hr' hid'] at howner
    exact (Option.some.inj howner).symm
  driver := startsDriver_once H hp caller key

end DurableMachine

/-- Over any of the stores, all invocations of one caller under one key create at most one task,
return that task and call the driver at most once. -/
theorem StoreKind.invoke_idempotent (k : StoreKind) {db : k.machine.Db} (hdb : k.Starts db)
    (setup : CoreSetup) {p : Pool (k.machine.core db setup)} (hp : p.Reachable)
    (caller : CallerId) (key : String) : DurableMachine.InvokedOnce p caller key := by
  obtain ⟨I, spares, H⟩ := k.servesKeys hdb
  exact DurableMachine.invokedOnce H hp caller key

/-- Two calls that ask for different identifiers: both are answered with the first one, and the
worker has called the driver. -/
theorem invoke_idempotent_of_two_calls :
    ∃ p : Pool (StoreKind.memory.machine.core MemoryState.empty singleAgentSetup), p.Reachable ∧
      (p.threads[0]?.bind (fun th => th.prog.result?)).bind CoreOutcome.returned? = some 1 ∧
      (p.threads[2]?.bind (fun th => th.prog.result?)).bind CoreOutcome.returned? = some 1 ∧
      p.trace.countP (fun st => st.op.startsDriver) = 1 ∧
      DurableMachine.InvokedOnce p ⟨"caller"⟩ "key" := by
  obtain ⟨p, hp, hfirst, hsecond, hdriver⟩ := Pool.exists_reachable
    (S := StoreKind.memory.machine.core MemoryState.empty singleAgentSetup)
    (.call (invokeTask 1) :: List.replicate 11 (.step 0 { store := {} }) ++
      .call (invokeTask 2) :: .step 2 { store := {} } :: List.replicate 2 (.step 1 { store := {} }))
    (fun p => (p.threads[0]?.bind (fun th => th.prog.result?)).bind CoreOutcome.returned? = some 1 ∧
      (p.threads[2]?.bind (fun th => th.prog.result?)).bind CoreOutcome.returned? = some 1 ∧
      p.trace.countP (fun st => st.op.startsDriver) = 1) (by decide +kernel)
  exact ⟨p, hp, hfirst, hsecond, hdriver,
    StoreKind.invoke_idempotent .memory rfl singleAgentSetup hp ⟨"caller"⟩ "key"⟩

end AgentConnector
