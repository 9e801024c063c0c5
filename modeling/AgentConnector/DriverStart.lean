import AgentConnector.TaskStages

/-!
# Drivers that are started after a cancellation

The worker of a task starts the driver without looking at the task or at the cancellation token of
its entry. A task is running or waits for input only once its driver was started, and its driver is
started once. So if no cancellation is applied to a task that is merely created or accepted, no
driver is started for a task whose cancellation was requested before.
-/

namespace AgentConnector

open Concurrent Accounting AdapterCore World Option

variable {setup : CoreSetup}

/-- An append that moves a task on to running or waiting, other than the one that records an
input. -/
def CoreOp.AdvancesTask (id : TaskId) : CoreOp contractSig → Prop
  | .store (.append t) => t.taskId = id ∧ t.allowedStates ≠ [.waitingForInput] ∧
      (t.nextState = .running ∨ t.nextState = .waitingForInput)
  | _ => False

def CoreOp.startsDriver? : CoreOp contractSig → Option TaskId
  | .driverInvoke _ id _ => some id
  | _ => none

def CoreOp.ReadsOwn : (o : CoreOp contractSig) → o.Reply → Prop
  | .store (.get id), .ok (some s) => s.taskId = id
  | _, _ => True

abbrev startAccounts (setup : CoreSetup) : Accounting (contractCore setup) where
  Account := Option TaskId
  opening _ := none
  record started o _ := (o.startsDriver?).orElse (fun _ => started)
  allowed started o := (∀ id, o.startsDriver? = some id → started = none) ∧
    ∀ id, o.AdvancesTask id → started = some id
  possible := CoreOp.ReadsOwn

def CoreOp.KeepsStart (o : CoreOp contractSig) : Prop :=
  o.startsDriver? = none ∧ ∀ id, ¬ o.AdvancesTask id

variable (setup) in
theorem keepsStart_idle (started : Option TaskId) (o : CoreOp contractSig) (ho : o.KeepsStart) :
    (startAccounts setup).allowed started o ∧
      ∀ r, (startAccounts setup).record started o r = started := by
  refine ⟨⟨fun id hid => ?_, fun id hid => (ho.2 id hid).elim⟩, fun r => ?_⟩
  · rw [ho.1] at hid
    cases hid
  · change (o.startsDriver?).orElse _ = started
    rw [ho.1]
    rfl

theorem keepsStart_append
    (h : t.nextState ≠ .running ∧ t.nextState ≠ .waitingForInput ∨
      t.allowedStates = [.waitingForInput]) :
    CoreOp.KeepsStart (.store (.append t)) := by
  refine ⟨rfl, fun id hid => ?_⟩
  obtain ⟨_, hallowed, hnext⟩ := hid
  rcases h with ⟨hr, hw⟩ | h
  · rcases hnext with hnext | hnext
    · exact hr hnext
    · exact hw hnext
  · exact hallowed h

theorem CoreOp.KeepsStart.allowed {o : CoreOp contractSig} (ho : o.KeepsStart) :
    (startAccounts setup).allowed started o := (keepsStart_idle setup _ _ ho).1

theorem CoreEntry.Performs.keepsStart {e : CoreEntry} (h : e.Performs contractAppends o)
    (he : e.worker? = none) : o.KeepsStart := by
  cases o with
  | store o =>
    cases o with
    | append t =>
      apply keepsStart_append
      have happends : e.Appends t := h
      cases e with
      | worker args => cases he
      | dispatch caller command =>
        cases command with
        | invoke request =>
          rcases happends with ⟨_, hnext⟩ | hnext <;> simp [hnext]
        | cancel id reason => simp [happends.2]
        | provideInput id input => exact .inr happends.1
        | getStatus id => exact happends.elim
      | subscribe id afterSeq | stream id afterSeq fuels => exact happends.elim
    | _ => exact ⟨rfl, fun _ h => h⟩
  | driverInvoke agent id request =>
    obtain ⟨args, rfl, _⟩ := h
    cases he
  | _ => exact ⟨rfl, fun _ h => h⟩

section Worker

variable {id : TaskId} {α : Type} {Q : α → Option TaskId → Prop} {started : Option TaskId}

theorem follows_keepsStart (hp : p.Everywhere CoreOp.KeepsStart) (hQ : ∀ x, Q x started) :
    (startAccounts setup).Follows Q started p :=
  follows_idle (keepsStart_idle setup started) hp hQ

theorem follows_start_snapshot (id : TaskId) : (startAccounts setup).Follows
    (fun r started' => started' = started ∧ ∀ s, r = .ok s → s.taskId = id) started
    (snapshot setup.contract id).run := by
  refine ⟨CoreOp.KeepsStart.allowed ⟨rfl, fun _ h => h⟩, fun r hr => ?_⟩
  match r with
  | .error e => exact ⟨rfl, fun s hs => by cases hs⟩
  | .ok none => exact ⟨rfl, fun s hs => by cases hs⟩
  | .ok (some s) =>
    refine ⟨rfl, fun s' hs' => ?_⟩
    rw [← Except.ok.inj hs']
    exact hr

theorem follows_start_transition {allowed : List TaskState} (hid : snap.taskId = id) :
    (startAccounts setup).Follows (fun _ started => started = some id) (some id)
      (transition setup.contract site snap allowed next kind).run := by
  refine ⟨CoreOp.KeepsStart.allowed ⟨rfl, fun _ h => h⟩,
    fun _ _ => ⟨⟨fun _ h => (by cases h), ?_⟩, fun r _ => ?_⟩⟩
  · rintro id' ⟨hid', _⟩
    rw [← hid', ← hid]
    rfl
  · cases r with
    | error e => rfl
    | ok a => exact ⟨CoreOp.KeepsStart.allowed ⟨rfl, fun _ h => h⟩, fun _ _ => rfl⟩

theorem follows_start_failActive (site : Site) (id : TaskId) (error : CoreError) :
    (startAccounts setup).Follows (fun _ started' => started' = started) started
      (failActive setup.contract site id error).run := by
  apply follows_keepsStart
  · refine (walk_everywhere (T := fun t => t.nextState = .failed) (fun _ => ?_) (fun t ht => ?_)
      (fun _ _ _ => ?_)).failActive ?_ (fun _ ht _ => ht) id error
    · exact ⟨⟨rfl, fun _ h => h⟩, fun _ => trivial⟩
    · exact ⟨keepsStart_append (by simp [ht]), fun _ => trivial⟩
    · exact ⟨rfl, fun _ h => h⟩
    · exact ⟨rfl, fun _ h => h⟩
  · exact fun _ => rfl

theorem follows_start_applyDriverEvent (id : TaskId) (event : DriverEvent) :
    (startAccounts setup).Follows (fun _ started => started = some id) (some id)
      (applyDriverEvent setup.contract id event).run := by
  apply follows_try (follows_start_snapshot id)
  · rintro e _ ⟨rfl, _⟩
    rfl
  rintro snap _ ⟨rfl, hsnap⟩
  have hid := hsnap snap rfl
  cases event with
  | accepted => rfl
  | failed error => exact follows_start_failActive _ _ _
  | _ =>
    apply follows_try (follows_start_transition hid)
    · rintro e _ rfl
      rfl
    · rintro s _ rfl
      rfl

theorem follows_start_drainStream (id : TaskId) (events : List DriverEvent) :
    (startAccounts setup).Follows (fun _ started => started = some id) (some id)
      (drainStream setup.contract id events).run := by
  have hrecv : (startAccounts setup).allowed (some id) (.driverRecv id) :=
    CoreOp.KeepsStart.allowed ⟨rfl, fun _ h => h⟩
  induction events with
  | nil =>
    refine ⟨hrecv, fun _ _ => ?_⟩
    apply follows_try (follows_start_snapshot id)
    · rintro e _ ⟨rfl, _⟩
      rfl
    · rintro snap _ ⟨rfl, _⟩
      split <;> rfl
  | cons event rest ih =>
    refine ⟨hrecv, fun _ _ => ?_⟩
    apply follows_try (follows_start_applyDriverEvent id event)
    · rintro e _ rfl
      rfl
    rintro _ _ rfl
    apply follows_try (follows_start_snapshot id)
    · rintro e _ ⟨rfl, _⟩
      rfl
    · rintro snap _ ⟨rfl, _⟩
      split
      · rfl
      · exact ih

theorem follows_start_withTimeout {p : Prog (coreSig contractSig) α}
    (hp : (startAccounts setup).Follows (fun _ _ => True) started p) :
    (startAccounts setup).Follows (fun _ _ => True) started
      (withTimeout setup.contract p) := by
  induction p generalizing started with
  | pure a => trivial
  | op o k ih =>
    rw [withTimeout]
    refine ⟨CoreOp.KeepsStart.allowed ⟨rfl, fun _ h => h⟩, fun poll _ => ?_⟩
    cases poll with
    | pending => exact ⟨hp.1, fun r hr => ih r (hp.2 r hr)⟩
    | elapsed => trivial
    | elapsedMidway => exact ⟨hp.1, fun _ _ => trivial⟩

theorem follows_start_worker (args : WorkerArgs) :
    (startAccounts setup).Follows (fun _ _ => True) none
      (worker setup.contract args) := by
  apply follows_bind
  have hrun : (startAccounts setup).Follows (fun _ _ => True) none
      (runDriver setup.contract args.agent args.taskId args.request).run := by
    refine ⟨⟨fun _ _ => rfl, fun _ h => h.elim⟩, fun r _ => ?_⟩
    cases r with
    | error e => trivial
    | ok events => exact (follows_start_drainStream args.taskId events).mono (fun _ _ _ => trivial)
  refine (follows_start_withTimeout hrun).mono (fun outcome started _ => ?_)
  apply follows_bind
  have hend : ∀ started, (startAccounts setup).Follows (fun _ _ => True) started
      (do perform (.activeRemove args.taskId)
          perform (.release (.agent args.agent.id))
          perform (.release .global)
          perform (.release (.caller args.caller)) : Prog (coreSig contractSig) Unit) := by
    intro started
    exact follows_keepsStart ⟨⟨rfl, fun _ h => h⟩, fun _ => ⟨⟨rfl, fun _ h => h⟩,
      fun _ => ⟨⟨rfl, fun _ h => h⟩, fun _ => ⟨⟨rfl, fun _ h => h⟩, fun _ => trivial⟩⟩⟩⟩
      (fun _ => trivial)
  match outcome with
  | some (.ok ()) => exact hend _
  | some (.error error) =>
    apply follows_bind
    exact (follows_start_failActive _ _ _).mono (fun _ started _ => hend started)
  | none =>
    refine ⟨CoreOp.KeepsStart.allowed ⟨rfl, fun _ h => h⟩, fun _ _ => ?_⟩
    change (startAccounts setup).Follows _ started
      ((failActive setup.contract .workerTimeout args.taskId
        .timeout).run.bind _)
    apply follows_bind
    exact (follows_start_failActive _ _ _).mono (fun _ started _ => hend started)

end Worker

theorem follows_starts (e : CoreEntry) : (startAccounts setup).Follows (fun _ _ => True)
    ((startAccounts setup).opening e) ((contractCore setup).program e) := by
  cases he : e.worker? with
  | none =>
    apply follows_keepsStart
    · apply Prog.everywhere_mono _
        (everywhere_confined contractMachine setup contractStore_confined e)
      exact fun o ho => ho.keepsStart he
    · exact fun _ => trivial
  | some id =>
    obtain ⟨args, rfl, _⟩ := CoreEntry.exists_worker he
    exact follows_bind ((follows_start_worker args).mono (fun _ _ _ => trivial))

/-! ## Started drivers -/

theorem startAccount_eq_some {l : List (Step (contractCore setup))} {id : TaskId}
    (h : l.foldr (fun st a => (startAccounts setup).record a st.op st.reply) none = some id) :
    ∃ st ∈ l, st.op.startsDriver? = some id := by
  induction l with
  | nil => cases h
  | cons st l ih =>
    cases ho : st.op.startsDriver? with
    | some id' =>
      simp only [List.foldr_cons, ho, orElse_some, Option.some.injEq] at h
      exact ⟨st, List.mem_cons_self .., by rw [ho, h]⟩
    | none =>
      simp only [List.foldr_cons, ho, orElse_none] at h
      obtain ⟨st', hst', hid⟩ := ih h
      exact ⟨st', List.mem_cons_of_mem _ hst', hid⟩

theorem startAccount_ne_none {l : List (Step (contractCore setup))} {id : TaskId} (hst : st ∈ l)
    (ho : st.op.startsDriver? = some id) :
    l.foldr (fun st a => (startAccounts setup).record a st.op st.reply) none ≠ none := by
  induction l with
  | nil => cases hst
  | cons st' l ih =>
    rcases List.mem_cons.mp hst with rfl | hst
    · simp [ho]
    · cases ho' : st'.op.startsDriver? with
      | some id' => simp [ho']
      | none =>
        simp only [List.foldr_cons, ho', orElse_none]
        exact ih hst

section

variable {p q : Pool (contractCore setup)}

variable {st : Step (contractCore setup)}

theorem readsOwn_of_mem_trace (hp : p.Reachable) (hst : st ∈ p.trace) :
    CoreOp.ReadsOwn st.op st.reply := by
  have hwf := (extends_of_mem_trace hp hst).1
  obtain ⟨c, hex⟩ := hp.executed st hst
  obtain ⟨tid, o, r, pre, post, next⟩ := st
  have hex : coreExec contractMachine tid pre o c = some (post, r) := hex
  cases o with
  | store o =>
    cases o with
    | get id =>
      match r with
      | .ok (some s) =>
        obtain ⟨db, hdb, _⟩ := coreExec_store hex
        rcases (LogStore.exec_get hdb).2 with hr | ⟨e, hr, _⟩
        · exact (hwf.db.log (Except.ok.inj hr).symm).taskId
        · cases hr
      | .ok none | .error e => trivial
    | _ => trivial
  | _ => trivial

variable {id : TaskId}

theorem tid_eq_of_startsDriver (hp : p.Reachable) (hst : st ∈ p.trace) (hst' : st' ∈ p.trace)
    (ho : st.op.startsDriver? = some id) (ho' : st'.op.startsDriver? = some id) :
    st.tid = st'.tid := by
  have hspawned : ∀ {st : Step (contractCore setup)}, st ∈ p.trace →
      st.op.startsDriver? = some id → ∃ spawn ∈ p.trace, Spawns spawn id ∧ spawn.next = st.tid := by
    intro st hst ho
    obtain ⟨th, hth⟩ := hp.exists_thread hst
    have hperforms := performs_of_own hp hth (mem_own.mpr ⟨hst, rfl⟩)
    have hworker : ∃ args, th.entry = .worker args ∧ args.taskId = id := by
      obtain ⟨tid, o, r, pre, post, next⟩ := st
      cases o with
      | driverInvoke agent id' request =>
        cases Option.some.inj ho
        exact hperforms
      | _ => cases ho
    obtain ⟨args, hargs, rfl⟩ := hworker
    obtain ⟨spawn, hspawn, hfork, hnext⟩ := hp.exists_fork hth (by rw [hargs])
    rw [hargs] at hfork
    exact ⟨spawn, hspawn, spawns_of_fork hfork, hnext⟩
  obtain ⟨spawn, hspawn, hs, hnext⟩ := hspawned hst ho
  obtain ⟨spawn', hspawn', hs', hnext'⟩ := hspawned hst' ho'
  have hinv := (custody_sound setup).inv hp (fun _ _ => trivial)
  rw [← hnext, ← hnext']
  exact hinv.worker spawn hspawn spawn' hspawn' id hs hs'

def Started (p : Pool (contractCore setup)) (id : TaskId) : Prop :=
  ∃ st ∈ p.trace, st.op.startsDriver? = some id

/-- The store will apply the operation, a cancellation, to a task that is merely created or
accepted. -/
def CoreOp.CancelsEarly (s : CoreState LogStore) : CoreOp contractSig → Bool
  | .store (.append t) => match s.db.check t with
    | .ok snap => t.nextState = .cancelRequested ∧ (snap.state = .created ∨ snap.state = .accepted)
    | .error _ => false
  | _ => false

/-- No driver was started for a task whose cancellation was requested before. -/
def NoStartAfterCancel (p : Pool (contractCore setup)) : Prop :=
  ∀ st ∈ p.trace, ∀ id ∈ st.op.startsDriver?,
    ∀ e ∈ st.pre.db.events id, e.kind.state ≠ .cancelRequested

structure StartInv (p : Pool (contractCore setup)) : Prop where
  advanced : ∀ {id snap}, p.state.db.tasks id = some snap →
    snap.state = .running ∨ snap.state = .waitingForInput → Started p id
  cancelled : ∀ {id}, ∀ e ∈ p.state.db.events id, e.kind.state = .cancelRequested → Started p id
  unstarted : NoStartAfterCancel p

variable {a : Action (contractCore setup)}

theorem Started.act (h : Started p id) (ha : p.act a = some q) : Started q id := by
  obtain ⟨st, hst, ho⟩ := h
  exact ⟨st, Pool.trace_subset ha hst, ho⟩

theorem start_allowed (hp : p.Reachable) (ha : p.act a = some q)
    (hw : q.toWorld = p.toWorld.push st) :
    (startAccounts setup).allowed ((p.own st.tid).foldr
      (fun st a => (startAccounts setup).record a st.op st.reply) none) st.op := by
  have hq := hp.act ha
  have htrace : q.trace = st :: p.trace := congrArg trace hw
  have hmem : st ∈ q.trace := by rw [htrace]; exact List.mem_cons_self ..
  obtain ⟨th, hth⟩ := hq.exists_thread hmem
  have hown : q.own st.tid = [] ++ st :: p.own st.tid := by
    rw [show q.own st.tid = (p.toWorld.push st).own st.tid from
      congrArg (fun w => w.own st.tid) hw, own_push_self]
    rfl
  exact allowed_of_own follows_starts hq
    (fun st hst => readsOwn_of_mem_trace hq hst) hth hown

theorem not_started_before (hp : p.Reachable) (ha : p.act a = some q)
    (hw : q.toWorld = p.toWorld.push st) (ho : st.op.startsDriver? = some id) :
    ¬ Started p id := by
  rintro ⟨st', hst', ho'⟩
  have htrace : q.trace = st :: p.trace := congrArg trace hw
  have hmem : st ∈ q.trace := by rw [htrace]; exact List.mem_cons_self ..
  have htid := tid_eq_of_startsDriver (hp.act ha) hmem (Pool.trace_subset ha hst') ho ho'
  exact startAccount_ne_none (mem_own.mpr ⟨hst', htid.symm⟩) ho'
    ((start_allowed hp ha hw).1 id ho)

theorem started_of_advances (hp : p.Reachable) (ha : p.act a = some q)
    (hw : q.toWorld = p.toWorld.push st) (ho : st.op.AdvancesTask id) :
    Started p id := by
  obtain ⟨st', hst', ho'⟩ := startAccount_eq_some ((start_allowed hp ha hw).2 id ho)
  exact ⟨st', (mem_own.mp hst').1, ho'⟩

theorem StartInv.append (hp : p.Reachable) (ha : p.act a = some q)
    (hw : q.toWorld = p.toWorld.push st) (h : StartInv p) (hop : st.op = .store (.append t))
    (hpre : st.pre = p.state) (hcheck : p.state.db.check t = .ok cur)
    (hdb : q.state.db = p.state.db.record (LogStore.applied cur t now))
    (hearly : st.op.CancelsEarly st.pre = false) :
    (t.nextState = .running ∨ t.nextState = .waitingForInput → Started p t.taskId) ∧
      (t.eventKind.state = .cancelRequested → Started p t.taskId) := by
  obtain ⟨htask, _, hallowed⟩ := (LogStore.check_eq_ok_iff _ _ _).mp hcheck
  have hlog := (wf_of_reachable hp).db.log htask
  have hwf := (wf_of_reachable (hp.act ha)).db
  have hlog' : TaskLog t.taskId (cur.advance t.nextState now)
      (p.state.db.events t.taskId ++ [⟨t.taskId, cur.lastSeq + 1, now, t.eventKind⟩]) := by
    rw [hdb] at hwf
    have hlog' := @hwf.log t.taskId (cur.advance t.nextState now)
    simp only [LogStore.record, LogStore.applied, Function.update_self] at hlog'
    exact hlog' trivial
  have hnext : t.nextState = t.eventKind.state := by
    have hstate := hlog'.state
    rw [projection_concat] at hstate
    exact hstate
  refine ⟨fun hadvances => ?_, fun hcancel => ?_⟩
  · by_cases hinput : t.allowedStates = [.waitingForInput]
    · rw [hinput, List.mem_singleton] at hallowed
      exact h.advanced htask (.inr hallowed)
    · apply started_of_advances hp ha hw
      rw [hop]
      exact ⟨rfl, hinput, hadvances⟩
  · rw [hop, hpre] at hearly
    simp only [CoreOp.CancelsEarly, hcheck, hnext, hcancel, true_and, decide_eq_false_iff_not,
      not_or] at hearly
    have hlast : ∀ e ∈ p.state.db.events t.taskId, e.kind.isTerminal = false := by
      intro e he
      apply hlog'.terminal
      rw [List.dropLast_concat]
      exact he
    have hstate := hlog.state
    unfold projection at hstate
    cases hl : (p.state.db.events t.taskId).getLast? with
    | none =>
      rw [hl] at hstate
      exact (hearly.1 hstate).elim
    | some e =>
      rw [hl] at hstate
      have hstate : cur.state = e.kind.state := hstate
      have he := List.mem_of_getLast? hl
      have hterminal := hlast e he
      rw [← CoreEventKind.terminal_state, ← hstate] at hterminal
      cases hcur : cur.state with
      | created => exact (hearly.1 hcur).elim
      | accepted => exact (hearly.2 hcur).elim
      | running => exact h.advanced htask (.inl hcur)
      | waitingForInput => exact h.advanced htask (.inr hcur)
      | cancelRequested => exact h.cancelled e he (hstate.symm.trans hcur)
      | _ =>
        rw [hcur] at hterminal
        cases hterminal

/-- In every run in which no cancellation is applied to a task that is merely created or accepted,
no driver is started for a task whose cancellation was requested before. -/
theorem no_start_after_cancel (setup : CoreSetup) {p : Pool (contractCore setup)} (hp : p.Reachable)
    (hearly : ∀ st ∈ p.trace, st.op.CancelsEarly st.pre = false) : NoStartAfterCancel p := by
  suffices h : StartInv p from h.unstarted
  induction hp with
  | start => exact ⟨fun h => (by cases h), fun e he => (by cases he), fun st hst => (by cases hst)⟩
  | @act p q a hp ha ih =>
    have h := ih (fun st hst => hearly st (Pool.trace_subset ha hst))
    rcases Pool.act_cases ha with ⟨e, _, rfl⟩ | ⟨tid, c, th, o, k, s, r, _, _, hex, rfl⟩
    · exact ⟨fun hs hstate => (h.advanced hs hstate).act ha,
        fun e he hcancel => (h.cancelled e he hcancel).act ha, h.unstarted⟩
    · let st : Step (contractCore setup) := ⟨tid, o, r, p.state, s, p.threads.length⟩
      have hunstarted : ∀ st' ∈ st :: p.trace, ∀ id ∈ st'.op.startsDriver?,
          ∀ e ∈ st'.pre.db.events id, e.kind.state ≠ .cancelRequested := by
        intro st' hst' id hid e he hcancel
        rcases List.mem_cons.mp hst' with rfl | hst'
        · exact not_started_before hp ha rfl hid (h.cancelled e he hcancel)
        · exact h.unstarted st' hst' id hid e he hcancel
      have hst := hearly _ (List.mem_cons_self ..)
      rcases coreExec_db hex with hdb | ⟨n, _, hfree, hdb⟩ | ⟨t, cur, hop, hcheck, hdb⟩
      · refine ⟨fun hs => ?_, fun e he => ?_, hunstarted⟩
        · change s.db.tasks _ = _ at hs
          rw [hdb] at hs
          exact fun hstate => (h.advanced hs hstate).act ha
        · change e ∈ s.db.events _ at he
          rw [hdb] at he
          exact fun hcancel => (h.cancelled e he hcancel).act ha
      · refine ⟨fun {id snap} hs hadvanced => ?_, fun {id} e he hcancel => ?_, hunstarted⟩
        · change s.db.tasks id = _ at hs
          rw [hdb] at hs
          by_cases hid : id = n.taskId
          · subst hid
            simp only [LogStore.insert, Function.update_self, Option.some.injEq] at hs
            rw [← hs] at hadvanced
            rcases hadvanced with h | h <;> cases h
          · simp only [LogStore.insert, Function.update_of_ne hid] at hs
            exact (h.advanced hs hadvanced).act ha
        · change e ∈ s.db.events id at he
          rw [hdb] at he
          by_cases hid : id = n.taskId
          · subst hid
            simp [LogStore.insert] at he
          · simp only [LogStore.insert, Function.update_of_ne hid] at he
            exact (h.cancelled e he hcancel).act ha
      · have happend := h.append hp ha rfl hop rfl hcheck hdb hst
        refine ⟨fun {id snap} hs hadvanced => ?_, fun {id} e he hcancel => ?_, hunstarted⟩
        · change s.db.tasks id = _ at hs
          rw [hdb] at hs
          by_cases hid : id = t.taskId
          · subst hid
            simp only [LogStore.record, LogStore.applied, Function.update_self,
              Option.some.injEq] at hs
            rw [← hs] at hadvanced
            exact (happend.1 hadvanced).act ha
          · simp only [LogStore.record, LogStore.applied, Function.update_of_ne hid] at hs
            exact (h.advanced hs hadvanced).act ha
        · change e ∈ s.db.events id at he
          rw [hdb] at he
          rcases LogStore.eq_of_mem_events_record he with he | ⟨rfl, rfl⟩
          · exact (h.cancelled e he hcancel).act ha
          · exact (happend.2 hcancel).act ha

end

/-- The steps of the pool that start the driver of a task. -/
def startSteps (p : Pool (contractCore setup)) (id : TaskId) : List (Step (contractCore setup)) :=
  p.trace.filter (fun st => st.op.startsDriver? = some id)

/-- The driver reports progress before the task is cancelled. -/
theorem no_start_after_cancel_running :
    ∃ p : Pool (contractCore singleAgentSetup), p.Reachable ∧ (startSteps p 1).length = 1 ∧
      (p.state.db.tasks 1).map TaskSnapshot.state = some .cancelRequested ∧
      NoStartAfterCancel p := by
  obtain ⟨p, hp, hstarts, hstate, hearly⟩ := Pool.exists_reachable
    (acceptedTask ++ turns 1 1 ++ .step 1 { calm with stream := .ok [.progress "started" none] } ::
      turns 1 12 ++ cancelCall 2)
    (fun p => (startSteps p 1).length = 1 ∧
      (p.state.db.tasks 1).map TaskSnapshot.state = some .cancelRequested ∧
      ∀ st ∈ p.trace, st.op.CancelsEarly st.pre = false) (by decide +kernel)
  exact ⟨p, hp, hstarts, hstate, no_start_after_cancel singleAgentSetup hp hearly⟩

/-- The task is cancelled after its acceptance and before its worker takes its first step. -/
theorem driver_started_after_cancel :
    ∃ p : Pool (contractCore singleAgentSetup), p.Reachable ∧
      (∀ st ∈ p.trace, ¬ CoreOp.Fault st.op st.reply) ∧ ¬ NoStartAfterCancel p := by
  obtain ⟨p, hp, hfault, st, hst, hstarts, hcancelled⟩ := Pool.exists_reachable
    (acceptedTask ++ cancelCall 2 ++ turns 1 2)
    (fun p => (∀ st ∈ p.trace, ¬ CoreOp.Fault st.op st.reply) ∧
      ∃ st ∈ p.trace, st.op.startsDriver? = some 1 ∧
        ∃ e ∈ st.pre.db.events 1, e.kind.state = .cancelRequested) (by decide +kernel)
  obtain ⟨e, he, hkind⟩ := hcancelled
  exact ⟨p, hp, hfault, fun h => h st hst 1 hstarts e he hkind⟩

end AgentConnector
