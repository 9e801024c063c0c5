import AgentConnector.ThreadAccounts
import AgentConnector.TaskLifecycle

/-!
# Stages of calls and workers

A call of `invoke` claims its task, inserts its entry into the map of active tasks and hands it on
to the worker, which removes the entry. The stage of a thread is read off its own steps, and no
other thread is responsible for the entry of a task while its creator has not yet inserted it.
-/

namespace AgentConnector

open Concurrent Accounting AdapterCore List

variable {setup : CoreSetup}

inductive Stage where
  | idle
  | created (id : TaskId)
  | inserted (id : TaskId)
  | handedOn
  | running (id : TaskId)
  | removed
  deriving DecidableEq

namespace Stage

def claim (s : Stage) (id : TaskId) : Except StoreError Bool → Stage
  | .ok true => if s = .idle then .created id else s
  | _ => s

def spawn : Stage → Stage
  | inserted _ => .handedOn
  | s => s

def record (s : Stage) : (o : CoreOp contractSig) → o.Reply → Stage
  | .store (.claim n) => fun r => s.claim n.taskId r
  | .activeInsert id => fun _ => if s = .created id then .inserted id else s
  | .spawn _ => fun _ => s.spawn
  | .activeRemove id => fun _ => if s = .running id then .removed else s
  | _ => fun _ => s

/-- The order of the operations: a call creates, inserts and hands on to the worker, which
removes. -/
def Allows (s : Stage) : CoreOp contractSig → Prop
  | .store (.claim _) => s = .idle
  | .activeInsert id => s = .created id
  | .spawn args => s = .inserted args.taskId
  | .activeRemove id => s = .running id
  | _ => s ≠ .handedOn

def weight (id : TaskId) (s : Stage) : ℤ := if s = .inserted id ∨ s = .running id then 1 else 0

end Stage

def CoreOp.Unhindered : (o : CoreOp contractSig) → o.Reply → Prop
  | .store (.append t) => fun r => t.nextState = .accepted → ∃ a, r = .ok a
  | .tryAcquire _ => fun r => r = true
  | _ => fun _ => True

abbrev stageAccounts (setup : CoreSetup) : Accounting (contractCore setup) where
  Account := Stage
  opening
    | .worker args => .running args.taskId
    | _ => .idle
  record := Stage.record
  allowed := Stage.Allows
  possible := CoreOp.Unhindered

def CoreOp.KeepsStage : CoreOp contractSig → Prop
  | .store (.claim _) | .activeInsert _ | .spawn _ | .activeRemove _ => False
  | _ => True

variable (setup) in
theorem keepsStage_idle (hs : s ≠ .handedOn) (o : CoreOp contractSig) (ho : o.KeepsStage) :
    (stageAccounts setup).allowed s o ∧
      ∀ r, (stageAccounts setup).record s o r = s := by
  cases o with
  | store o => cases o <;> first | exact ⟨hs, fun _ => rfl⟩ | exact ho.elim
  | _ => first | exact ⟨hs, fun _ => rfl⟩ | exact ho.elim

theorem admits_keepsStage : Admits contractStore CoreOp.KeepsStage where
  get _ := ⟨trivial, fun _ => trivial⟩
  append _ := ⟨trivial, fun _ => trivial⟩
  enter _ := trivial
  send _ _ := trivial

theorem follows_accept (hs : s ≠ .handedOn) (snap : TaskSnapshot) :
    (stageAccounts setup).Follows (fun r s' => s' = s ∧ ∃ a, r = .ok a) s
      (transition setup.contract .invokeAccept snap [.created] .accepted
        (.accepted false)).run := by
  refine ⟨hs, fun _ _ => ⟨hs, fun r hr => ?_⟩⟩
  obtain ⟨a, rfl⟩ := hr rfl
  exact ⟨hs, fun _ _ => ⟨rfl, a.snapshot, rfl⟩⟩

theorem follows_stage_acquire {α : Type} (hs : s ≠ .handedOn)
    {Q : Except CoreError α → Stage → Prop} {f : Bool → CoreM contractSig α}
    (hf : (stageAccounts setup).Follows Q s (f true).run) :
    (stageAccounts setup).Follows Q s (action (.tryAcquire sem) >>= f).run := by
  refine ⟨hs, fun acquired hacquired => ?_⟩
  cases hacquired
  exact hf

theorem follows_stage_startTask (caller : Caller) (request : InvokeRequest)
    (agent : RegisteredAgent) (id : TaskId) (snap : TaskSnapshot) :
    (stageAccounts setup).Follows (fun _ s => s = .handedOn) (.created id)
      (startTask setup.contract caller request agent id snap).run := by
  have hs : Stage.inserted id ≠ .handedOn := by simp
  refine ⟨rfl, fun _ _ => ?_⟩
  have hinserted : (stageAccounts setup).record (.created id) (.activeInsert id)
    () = .inserted id :=
    if_pos rfl
  rw [hinserted]
  apply follows_try (follows_accept hs snap)
  · rintro e _ ⟨_, a, ha⟩
    cases ha
  rintro accepted _ ⟨rfl, _⟩
  apply follows_stage_acquire hs
  apply follows_stage_acquire hs
  apply follows_stage_acquire hs
  apply follows_stage_acquire hs
  refine ⟨hs, fun _ _ => ⟨rfl, fun _ _ => rfl⟩⟩

theorem follows_create (n : NewTask) : (stageAccounts setup).Follows (fun r s => match r with
        | .ok (.created _) => s = .created n.taskId
        | _ => s ≠ .handedOn ∧ ∀ id, s.weight id = 0) .idle
      (fromStore (contractStore.createOrGetIdempotent n)).run := by
  have hidle : Stage.idle ≠ .handedOn := by simp
  have hcreated : Stage.created n.taskId ≠ .handedOn := by simp
  refine ⟨rfl, fun claimed _ => ?_⟩
  match claimed with
  | .error e => exact ⟨hidle, fun _ => rfl⟩
  | .ok false =>
    refine ⟨hidle, fun row _ => ?_⟩
    cases row with
    | error e | ok s => exact ⟨hidle, fun _ => rfl⟩
  | .ok true =>
    refine ⟨hcreated, fun row _ => ?_⟩
    cases row with
    | error e => exact ⟨hcreated, fun _ => rfl⟩
    | ok s => rfl

theorem follows_stage_invoke (caller : Caller) (request : InvokeRequest) :
    (stageAccounts setup).Follows (fun _ s => ∀ id, s.weight id = 0) .idle
      (invoke setup.contract caller request).run := by
  have hidle := keepsStage_idle setup (s := .idle) (by simp)
  unfold invoke
  split
  · exact fun _ => rfl
  apply follows_idle_try hidle
  · trivial
  · exact fun _ _ => rfl
  intro agent
  apply follows_idle_try hidle (everywhere_chooseTaskId trivial request) (fun _ _ => rfl)
  intro id
  apply follows_idle_try hidle (everywhere_chooseDeadline trivial request) (fun _ _ => rfl)
  intro deadlineAt
  apply follows_try (follows_create _)
  · exact fun e s hs => hs.2
  intro initial s hs
  cases initial with
  | existing snap => exact hs.2
  | created snap =>
    rw [show s = .created id from hs]
    apply (follows_stage_startTask caller request agent id snap).mono
    rintro _ _ rfl
    exact fun _ => rfl

theorem follows_stage_worker (args : WorkerArgs) :
    (stageAccounts setup).Follows (fun _ s => ∀ id, s.weight id = 0) (.running args.taskId)
      (worker setup.contract args) := by
  have hidle := keepsStage_idle setup (s := .running args.taskId) (by simp)
  have hwalk : Walk setup.contract CoreOp.KeepsStage (fun _ => True) (fun p => p.Everywhere _) :=
    Admits.walk admits_keepsStage
  apply follows_bind
  apply follows_idle hidle
  · apply everywhere_withTimeout
    · trivial
    · trivial
    · exact hwalk.runDriver (fun _ => trivial) (fun _ _ => trivial) trivial trivial
  intro outcome
  apply follows_bind
  apply follows_idle hidle
    (hwalk.settleWorker (fun _ => trivial) (fun _ _ => trivial) trivial outcome)
  intro _
  refine ⟨rfl, fun _ _ => ?_⟩
  have hremoved : (stageAccounts setup).record (.running args.taskId)
      (.activeRemove args.taskId) () = .removed := if_pos rfl
  rw [hremoved]
  have hend := keepsStage_idle setup (s := .removed) (by simp)
  apply follows_idle hend
  · exact ⟨trivial, fun _ => ⟨trivial, fun _ => ⟨trivial, fun _ => trivial⟩⟩⟩
  · exact fun _ _ => rfl

def CoreEntry.tracksTask : CoreEntry → Bool
  | .dispatch _ (.invoke _) => true
  | .worker _ => true
  | _ => false

theorem CoreEntry.Performs.keepsStage {e : CoreEntry} (h : e.Performs contractAllows o)
    (he : e.tracksTask = false) : o.KeepsStage := by
  cases o with
  | store o =>
    cases o with
    | claim n =>
      obtain ⟨caller, request, rfl, _⟩ := h
      cases he
    | _ => trivial
  | activeInsert id =>
    obtain ⟨caller, request, rfl⟩ := h
    cases he
  | spawn args =>
    obtain ⟨caller, request, rfl, _⟩ := h
    cases he
  | activeRemove id =>
    obtain ⟨args, rfl, _⟩ := h
    cases he
  | _ => trivial

theorem follows_stages (e : CoreEntry) :
    (stageAccounts setup).Follows (fun _ s => ∀ id, s.weight id = 0)
      ((stageAccounts setup).opening e) ((contractCore setup).program e) := by
  have hidle := keepsStage_idle setup (s := .idle) (by simp)
  have hother : ∀ e : CoreEntry, e.tracksTask = false →
      (stageAccounts setup).Follows (fun _ s => ∀ id, s.weight id = 0) .idle
        ((contractCore setup).program e) := by
    intro e he
    apply follows_idle hidle
    · apply Prog.everywhere_mono _ (contract_performs setup e)
      exact fun o ho => ho.keepsStage he
    · exact fun _ _ => rfl
  cases e with
  | dispatch caller command =>
    cases command with
    | invoke request =>
      apply follows_bind
      apply follows_idle_try hidle
      · trivial
      · exact fun _ _ => rfl
      · exact fun _ => follows_stage_invoke caller request
    | _ => exact hother _ rfl
  | worker args => exact follows_bind (follows_stage_worker args)
  | subscribe id afterSeq | stream id afterSeq fuels => exact hother _ rfl

/-! ## What the stage of a thread says about its steps -/

def ClaimsTask (st : Step (contractCore setup)) (id : TaskId) : Prop :=
  ∃ n : NewTask, n.taskId = id ∧ st.Did (.store (.claim n)) (.ok true)

variable {l : List (Step (contractCore setup))}

/-- The stage after the steps `l`, newest first, from the stage `s`. -/
def stageAfter (s : Stage) (l : List (Step (contractCore setup))) : Stage :=
  l.foldr (fun st s => s.record st.op st.reply) s

theorem stage_record_cases (s : Stage) (st : Step (contractCore setup)) :
    s.record st.op st.reply = s ∨
    (∃ id, s = .idle ∧ s.record st.op st.reply = .created id ∧ ClaimsTask st id) ∨
    (∃ id, s = .created id ∧ s.record st.op st.reply = .inserted id ∧ st.op = .activeInsert id) ∨
    (∃ id, s = .inserted id ∧ s.record st.op st.reply = .handedOn) ∨
    (∃ id, s = .running id ∧ s.record st.op st.reply = .removed ∧ st.op = .activeRemove id) := by
  obtain ⟨tid, o, r, pre, post, next⟩ := st
  cases o with
  | store o =>
    cases o with
    | claim n =>
      match r with
      | .ok true =>
        by_cases hs : s = .idle
        · exact .inr (.inl ⟨n.taskId, hs, if_pos hs, n, rfl, rfl⟩)
        · exact .inl (if_neg hs)
      | .ok false => exact .inl rfl
      | .error e => exact .inl rfl
    | _ => exact .inl rfl
  | activeInsert id =>
    by_cases hs : s = .created id
    · exact .inr (.inr (.inl ⟨id, hs, if_pos hs, rfl⟩))
    · exact .inl (if_neg hs)
  | spawn args =>
    cases s with
    | inserted id => exact .inr (.inr (.inr (.inl ⟨id, rfl, rfl⟩)))
    | _ => exact .inl rfl
  | activeRemove id =>
    by_cases hs : s = .running id
    · exact .inr (.inr (.inr (.inr ⟨id, hs, if_pos hs, rfl⟩)))
    · exact .inl (if_neg hs)
  | _ => exact .inl rfl

theorem stage_of_call (l : List (Step (contractCore setup))) :
    match stageAfter .idle l with
    | .created id => ∃ st ∈ l, ClaimsTask st id
    | .inserted id => (∃ st ∈ l, ClaimsTask st id) ∧ ∃ st ∈ l, st.op = .activeInsert id
    | .running _ => False
    | .removed => False
    | _ => True := by
  induction l with
  | nil => trivial
  | cons st l ih =>
    have hmem : ∀ {P : Step (contractCore setup) → Prop}, (∃ st ∈ l, P st) →
        ∃ st' ∈ st :: l, P st' := by
      rintro P ⟨st', hst', hP⟩
      exact ⟨st', mem_cons_of_mem _ hst', hP⟩
    change match (stageAfter .idle l).record st.op st.reply with
      | .created id => _ | .inserted id => _ | .running _ => _ | .removed => _ | _ => _
    rcases stage_record_cases (stageAfter .idle l) st with
      hsame | ⟨id, _, hnext, hclaim⟩ | ⟨id, hs, hnext, hop⟩ | ⟨id, _, hnext⟩ | ⟨id, hs, _⟩
    · rw [hsame]
      cases hs : stageAfter .idle l with
      | created id =>
        rw [hs] at ih
        exact hmem ih
      | inserted id =>
        rw [hs] at ih
        exact ⟨hmem ih.1, hmem ih.2⟩
      | running id | removed =>
        rw [hs] at ih
        exact ih
      | _ => trivial
    · rw [hnext]
      exact ⟨st, mem_cons_self .., hclaim⟩
    · rw [hnext]
      rw [hs] at ih
      exact ⟨hmem ih, st, mem_cons_self .., hop⟩
    · rw [hnext]
      trivial
    · rw [hs] at ih
      exact ih.elim

theorem stage_of_worker (id : TaskId) (l : List (Step (contractCore setup))) :
    (stageAfter (.running id) l = .running id ∧ ∀ st ∈ l, st.op ≠ .activeRemove id) ∨
      (stageAfter (.running id) l = .removed ∧ ∃ st ∈ l, st.op = .activeRemove id) := by
  induction l with
  | nil => exact .inl ⟨rfl, fun st hst => by cases hst⟩
  | cons st l ih =>
    have hcons : stageAfter (.running id) (st :: l) =
        (stageAfter (.running id) l).record st.op st.reply := rfl
    rw [hcons]
    rcases ih with ⟨hrunning, hnone⟩ | ⟨hremoved, st', hst', hop'⟩
    · rw [hrunning]
      by_cases hop : st.op = .activeRemove id
      · refine .inr ⟨?_, st, mem_cons_self .., hop⟩
        obtain ⟨tid, o, r, pre, post, next⟩ := st
        cases hop
        exact if_pos rfl
      · refine .inl ⟨?_, ?_⟩
        · rcases stage_record_cases (.running id) st with
            hsame | ⟨_, hs, _⟩ | ⟨_, hs, _⟩ | ⟨_, hs, _⟩ | ⟨_, hs, _, hop'⟩
          · exact hsame
          · cases hs
          · cases hs
          · cases hs
          · cases hs
            exact absurd hop' hop
        · intro st' hst'
          rcases mem_cons.mp hst' with rfl | hst'
          · exact hop
          · exact hnone st' hst'
    · refine .inr ⟨?_, st', mem_cons_of_mem _ hst', hop'⟩
      rw [hremoved]
      rcases stage_record_cases .removed st with
        hsame | ⟨_, hs, _⟩ | ⟨_, hs, _⟩ | ⟨_, hs, _⟩ | ⟨_, hs, _⟩
      · exact hsame
      all_goals cases hs

theorem stage_of_inserted (id : TaskId) (l : List (Step (contractCore setup))) :
    stageAfter (.inserted id) l = .inserted id ∨ stageAfter (.inserted id) l = .handedOn := by
  induction l with
  | nil => exact .inl rfl
  | cons st l ih =>
    change (stageAfter (.inserted id) l).record st.op st.reply = _ ∨
      (stageAfter (.inserted id) l).record st.op st.reply = _
    rcases stage_record_cases (stageAfter (.inserted id) l) st with
      hsame | ⟨_, hs, _⟩ | ⟨_, hs, _⟩ | ⟨_, _, hnext⟩ | ⟨_, hs, _⟩
    · rw [hsame]
      exact ih
    · rw [hs] at ih
      simp at ih
    · rw [hs] at ih
      simp at ih
    · exact .inr hnext
    · rw [hs] at ih
      simp at ih

theorem stage_of_handedOn (l : List (Step (contractCore setup))) :
    stageAfter .handedOn l = .handedOn := by
  induction l with
  | nil => rfl
  | cons st l ih =>
    change (stageAfter .handedOn l).record st.op st.reply = _
    rw [ih]
    rcases stage_record_cases .handedOn st with
      hsame | ⟨_, hs, _⟩ | ⟨_, hs, _⟩ | ⟨_, hs, _⟩ | ⟨_, hs, _⟩
    · exact hsame
    all_goals cases hs

section

variable {p : Pool (contractCore setup)} (hp : p.Reachable)
  (hc : ∀ st ∈ p.trace, CoreOp.Unhindered st.op st.reply)

def stageOf (p : Pool (contractCore setup)) (th : Thread (contractCore setup)) (tid : ℕ) : Stage :=
  (stageAccounts setup).account p.toWorld th.entry tid

variable {th : Thread (contractCore setup)} {tid : ℕ} {id : TaskId}

theorem stageOf_worker (he : th.entry.worker? = some id) :
    stageOf p th tid = stageAfter (.running id) (p.own tid) := by
  obtain ⟨args, hargs, rfl⟩ := CoreEntry.exists_worker he
  unfold stageOf account
  rw [hargs]
  rfl

theorem stageOf_call (he : th.entry.worker? = none) :
    stageOf p th tid = stageAfter .idle (p.own tid) := by
  unfold stageOf account
  cases hentry : th.entry with
  | worker args =>
    rw [hentry] at he
    cases he
  | _ => rfl

include hp in
theorem creates_of_claims (hst : st ∈ p.trace) (h : ClaimsTask st id) : Creates st id := by
  obtain ⟨n, rfl, hdid⟩ := h
  obtain ⟨c, hex⟩ := hdid.executed hp hst
  obtain ⟨db, hdb, hpost⟩ := coreExec_store hex
  rcases LogStore.exec_claim hdb with ⟨_, hn, _, rfl⟩ | ⟨hr, _⟩ | ⟨e, hr, _⟩
  · refine ⟨hn, ?_⟩
    rw [hpost]
    simp [LogStore.insert]
  · cases hr
  · cases hr

include hp in
theorem creates_of_stage (h : stageOf p th tid = .created id ∨ stageOf p th tid = .inserted id) :
    ∃ st ∈ p.trace, st.tid = tid ∧ Creates st id := by
  cases he : th.entry.worker? with
  | some id' =>
    rw [stageOf_worker he] at h
    rcases stage_of_worker id' (p.own tid) with ⟨hs, _⟩ | ⟨hs, _⟩ <;> rw [hs] at h <;> simp at h
  | none =>
    rw [stageOf_call he] at h
    have hsteps := stage_of_call (p.own tid)
    obtain ⟨st, hst, hclaims⟩ : ∃ st ∈ p.own tid, ClaimsTask st id := by
      rcases h with h | h
      · rw [h] at hsteps
        exact hsteps
      · rw [h] at hsteps
        exact hsteps.1
    obtain ⟨hmem, htid⟩ := World.mem_own.mp hst
    exact ⟨st, hmem, htid, creates_of_claims hp hmem hclaims⟩

include hp hc in
theorem spawner_stage (hst : st ∈ p.trace) (hop : st.op = .spawn args)
    (hth : p.threads[st.tid]? = some th) :
    stageOf p th st.tid = .handedOn ∧
      ∃ st' ∈ p.trace, st'.tid = st.tid ∧ Creates st' args.taskId := by
  obtain ⟨l, l', hown⟩ := append_of_mem (World.mem_own.mpr ⟨hst, rfl⟩)
  have he : th.entry.worker? = none := by
    have hperforms := performs_of_own hp hth (World.mem_own.mpr ⟨hst, rfl⟩)
    rw [hop] at hperforms
    obtain ⟨caller, request, hentry, _⟩ := hperforms
    rw [hentry]
    rfl
  have hallowed : stageAfter .idle l' = .inserted args.taskId := by
    have h := allowed_of_own follows_stages hp hc hth hown
    rw [hop] at h
    cases hentry : th.entry with
    | worker args =>
      rw [hentry] at he
      cases he
    | _ =>
      rw [hentry] at h
      exact h
  constructor
  · have hsplit : stageAfter .idle (l ++ st :: l') =
        stageAfter ((stageAfter .idle l').record st.op st.reply) l := by
      simp only [stageAfter, foldr_append, foldr_cons]
    rw [stageOf_call he, hown, hsplit, hallowed]
    have hspawn : (Stage.inserted args.taskId).record st.op st.reply = .handedOn := by
      obtain ⟨tid, o, r, pre, post, next⟩ := st
      cases hop
      rfl
    rw [hspawn]
    exact stage_of_handedOn l
  · have hsteps := stage_of_call l'
    rw [hallowed] at hsteps
    obtain ⟨st', hst', hclaims⟩ := hsteps.1
    obtain ⟨hmem, htid⟩ := World.mem_own.mp (show st' ∈ p.own st.tid by simp [hown, hst'])
    exact ⟨st', hmem, htid, creates_of_claims hp hmem hclaims⟩

include hp hc in
/-- While a call has created a task and not yet inserted it, no thread is responsible for an entry
of the task. -/
theorem weight_of_created (hth : p.threads[tid]? = some th)
    (hstage : stageOf p th tid = .created id) (hth' : p.threads[j]? = some th') :
    (stageOf p th' j).weight id = 0 := by
  have hinv := (custody_sound setup).inv hp (fun _ _ => trivial)
  obtain ⟨st, hst, htid, hcreates⟩ := creates_of_stage hp (.inl hstage)
  by_cases hj : stageOf p th' j = .inserted id
  · -- Only one thread has created the task, and it has not inserted it.
    obtain ⟨st', hst', htid', hcreates'⟩ := creates_of_stage hp (.inr hj)
    have heq : j = tid := by
      rw [← htid, ← htid']
      exact hinv.creator st' hst' st hst id hcreates' hcreates
    subst heq
    rw [hth] at hth'
    cases hth'
    rw [hstage] at hj
    cases hj
  by_cases hj' : stageOf p th' j = .running id
  · cases he : th'.entry.worker? with
    | none =>
      rw [stageOf_call he] at hj'
      have hsteps := stage_of_call (p.own j)
      rw [hj'] at hsteps
      exact hsteps.elim
    | some id' =>
      obtain ⟨args, hargs, rfl⟩ := CoreEntry.exists_worker he
      obtain ⟨spawned, hspawned, hfork, _⟩ := hp.exists_fork hth' (by rw [hargs])
      rw [hargs] at hfork
      obtain ⟨args', hop, hid'⟩ := spawns_of_fork hfork
      have hid : args.taskId = id := by
        rw [stageOf_worker he] at hj'
        rcases stage_of_worker args.taskId (p.own j) with ⟨hs, _⟩ | ⟨hs, _⟩ <;> rw [hs] at hj'
        · exact Stage.running.inj hj'
        · cases hj'
      obtain ⟨spawner, hspawner⟩ := hp.exists_thread hspawned
      obtain ⟨hended, st', hst', htid', hcreates'⟩ := spawner_stage hp hc hspawned hop hspawner
      rw [hid', hid] at hcreates'
      have heq : spawned.tid = tid := by
        rw [← htid, ← htid']
        exact hinv.creator st' hst' st hst id hcreates' hcreates
      rw [heq] at hspawner hended
      rw [hth] at hspawner
      cases hspawner
      rw [hstage] at hended
      cases hended
  · exact if_neg (by simp [hj, hj'])

end

end AgentConnector
