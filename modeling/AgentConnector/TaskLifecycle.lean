import AgentConnector.TaskCustody
import AgentConnector.MethodTriples

/-!
# The lifecycle of a task

Every entry point of the core keeps the custody protocol. A transition is decided on a snapshot
that may be stale by the time of the append; the revision check makes the append succeed only if
the stored task is still the one the decision was made on, so the list of allowed states and the
computed next state are those of the stored task.
-/

namespace AgentConnector

open Concurrent Protocol List

variable {setup : CoreSetup} {tid : ℕ}

theorem CoreOp.Free.owes (h : o.Free) (w : World (contractCore setup)) :
    Owes w tid o := by
  cases o with
  | store o =>
    cases o with
    | append t => exact h.elim
    | _ => trivial
  | activeSend id e | spawn args => exact h.elim
  | _ => trivial

theorem CoreOp.Free.ne_spawn {o : CoreOp contractSig} (h : o.Free) (args : WorkerArgs) :
    o ≠ .spawn args := by
  rintro rfl
  exact h

theorem carries_custody {J : World (contractCore setup) → Prop} {H : TaskId → Prop}
    (hstable : (custodyProtocol setup).Stable tid J)
    (hstep : ∀ w st, (∀ args, st.op ≠ .spawn args) → J w → J (w.push st))
    (hH : ∀ w id, J w → H id → Holds w tid id) :
    Carries setup (custodyProtocol setup) tid J H where
  wf _ hi := hi.state
  grows _ _ he := he.rely.state
  stable := hstable
  free w o c s r next ho hi hw hex _ :=
    ⟨keeps_of_owes hi (ho.owes w) hex, hstep w _ ho.ne_spawn hw⟩
  send w id e c s r next he hi hw hex _ :=
    ⟨keeps_of_owes hi he hex, hstep w _ (fun args => by simp) hw⟩
  append w t c s r next hl ht hi hw hex _ :=
    ⟨keeps_of_owes hi ⟨hl, fun h => hH w _ hw (ht h)⟩ hex, hstep w _ (fun args => by simp) hw⟩

theorem carries_nothing :
    Carries setup (custodyProtocol setup) tid (fun _ => True) (fun _ => False) :=
  carries_custody (fun _ _ _ _ => trivial) (fun _ _ _ _ => trivial) (fun _ _ _ h => h.elim)

theorem carries_creator (id : TaskId) :
    Carries setup (custodyProtocol setup) tid (fun w => HoldsAsCreator w tid id) (· = id) :=
  carries_custody (fun _ _ he h => he.rely.creator id h)
    (fun _ _ hspawn h => h.push (fun ⟨args, hop, _⟩ => hspawn args hop))
    (fun _ _ h hid => hid ▸ Or.inl h)

theorem carries_worker (id : TaskId) :
    Carries setup (custodyProtocol setup) tid (fun w => HoldsAsWorker w tid id) (· = id) :=
  carries_custody (fun _ _ he h => he.rely.worker id h) (fun _ _ _ h => h.push)
    (fun _ _ h hid => hid ▸ Or.inr h)

theorem timerNeutral_custody : TimerNeutral (custodyProtocol setup) tid := by
  intro w r next hi _
  have hex : coreExec contractMachine tid w.state .timer { calm with timer := r } =
      some (w.state, r) := rfl
  exact ⟨keeps_of_owes hi trivial hex, env_of_owes hi trivial hex (by simp) (by simp)⟩

theorem triple_custody_worker (args : WorkerArgs) :
    (custodyProtocol setup).Triple tid (fun w => HoldsAsWorker w tid args.taskId)
      (AdapterCore.worker setup.contract args)
      (fun _ w => HoldsAsWorker w tid args.taskId) :=
  triple_worker (carries_worker args.taskId) timerNeutral_custody
    ⟨(carries_worker args.taskId).stable, fun _ _ _ _ _ _ h => h.push⟩ args rfl

theorem triple_claim (n : NewTask) (w : World (contractCore setup))
    (c : CoreChoice ContractChoice) (s : CoreState LogStore) (r : Except StoreError Bool) (next : ℕ)
    (hi : CustodyInv w)
    (hex : coreExec contractMachine tid w.state (.store (.claim n)) c = some (s, r)) :
    (custodyProtocol setup).Keeps w ⟨tid, .store (.claim n), r, w.state, s, next⟩ ∧
      (r = .ok true → HoldsAsCreator (w.push ⟨tid, .store (.claim n), r, w.state, s, next⟩) tid
        n.taskId) := by
  refine ⟨keeps_of_owes hi trivial hex, ?_⟩
  rintro rfl
  obtain ⟨db, hdb, rfl⟩ := coreExec_store hex
  rcases LogStore.exec_claim hdb with ⟨_, hn, _, rfl⟩ | ⟨hr, _⟩ | ⟨e, hr, _⟩
  · refine ⟨⟨_, mem_cons_self .., rfl, hn, ?_⟩, ?_⟩
    · simp [LogStore.insert]
    · intro st hst hspawn
      rcases mem_cons.mp hst with rfl | hst
      · obtain ⟨args, hop, _⟩ := hspawn
        cases hop
      · have := hi.spawned st hst _ hspawn
        rw [hn] at this
        cases this
  · cases hr
  · cases hr

variable (caller : Caller)

theorem triple_custody_startTask (request : InvokeRequest) (agent : RegisteredAgent) (id : TaskId)
    (snap : TaskSnapshot) (hid : snap.taskId = id) :
    (custodyProtocol setup).Triple tid (fun w => HoldsAsCreator w tid id ∧ w.state.Known snap)
      (AdapterCore.startTask setup.contract caller request agent id snap).run
      (fun _ _ => True) := by
  have hJ := @carries_creator setup tid id
  have hdecides : Decides snap [.created] .accepted (.accepted false) :=
    ⟨by decide, fun _ => rfl⟩
  refine triple_startTask hJ caller request agent id snap (fun f hf => ?_) (fun reason answer => ?_)
    (fun s => ?_)
  · exact triple_seq hJ (triple_transition hJ .invokeAccept hdecides (fun _ => hid))
      (fun _ _ _ _ => trivial) hf
  · exact (triple_reject hJ rfl reason answer).conseq (fun _ _ h => h) (fun _ _ _ _ => trivial)
  · refine triple_last hJ.stable (fun _ _ _ _ _ => trivial) ?_
    intro w c s r next hi hw hex _ _ _
    exact ⟨keeps_of_owes (c := c) hi hw hex, trivial⟩

theorem triple_custody_dispatch (command : CoreCommand) :
    (custodyProtocol setup).Triple tid (fun _ => True)
      (AdapterCore.dispatch setup.contract caller command).run
      (fun _ _ => True) := by
  refine triple_dispatch carries_nothing (fun _ _ _ _ => trivial) carries_creator
    (fun _ _ _ _ => trivial) (fun _ _ _ _ _ _ => trivial) ?_ caller
    (triple_custody_startTask caller) command
  intro n w c s r next hi _ hex _
  obtain ⟨hkeeps, hcreated⟩ := triple_claim n w c s r next hi hex
  exact ⟨hkeeps, hcreated, fun _ => trivial⟩

/-- The core keeps the custody protocol, whatever its clients, its drivers and its storage do. -/
theorem custody_sound (setup : CoreSetup) : (custodyProtocol setup).Sound (fun _ => True) where
  given _ _ _ _ := trivial
  init :=
    { state := ⟨LogStore.wf_empty, fun h => by simp [Pool.start] at h, fun h => by cases h⟩
      created := fun st hst => by cases hst
      creator := fun st hst => by cases hst
      spawned := fun st hst => by cases hst
      worker := fun st hst => by cases hst }
  call {tid e w} he _ _ := by
    cases e with
    | worker args => cases he
    | _ => trivial
  entry {tid e w} hi _ hpre := by
    have hend : ∀ {α : Type} {p : Prog (coreSig contractSig) α} {R : World _ → Prop}
        {Q : α → World (contractCore setup) → Prop} (f : α → CoreOutcome),
        (custodyProtocol setup).Triple tid R p Q → R w →
        (custodyProtocol setup).Safe tid (fun _ _ => True) (p.bind (fun a => .pure (f a))) w :=
      fun f hp hw => triple_bind (hp.conseq (fun _ _ h => h) (fun _ _ _ _ => trivial))
        (fun _ => triple_done carries_nothing (fun _ h => h) _) w hi hw
    cases e with
    | dispatch caller command => exact hend _ (triple_custody_dispatch caller command) trivial
    | worker args => exact hend _ (triple_custody_worker args) hpre.1
    | subscribe id afterSeq | stream id afterSeq fuels =>
      exact (triple_reader carries_nothing rfl w hi trivial).mono (fun _ _ _ h => h)

structure CoreStep (st : Step (contractCore setup)) : Prop where
  wf : st.post.WF
  grows : st.pre.Extends st.post

variable {p : Pool (contractCore setup)} {st : Step (contractCore setup)}

theorem custody_coreStep (hp : p.Reachable) (ha : p.act a = some q)
    (hst : q.toWorld = p.toWorld.push st) :
    CoreStep st ∧ st.pre = p.state := by
  have hkeeps := (custody_sound setup).keeps hp ha (fun _ _ => trivial) hst
  have hpre := (Pool.act_executed ha hst).1
  refine ⟨⟨hkeeps.inv.state, ?_⟩, hpre⟩
  rw [hpre]
  exact (hkeeps.rely (st.tid + 1) (Nat.succ_ne_self _)).state

theorem extends_of_mem_trace (hp : p.Reachable) (hst : st ∈ p.trace) :
    st.pre.WF ∧ st.pre.Extends st.post ∧ st.post.Extends p.state := by
  induction hp with
  | start => cases hst
  | @act p q a hp ha ih =>
    have hinv := (custody_sound setup).inv hp (fun _ _ => trivial)
    rcases Pool.act_cases ha with ⟨e, _, rfl⟩ | ⟨tid, c, th, o, k, s, r, _, _, _, rfl⟩
    · exact ih hst
    · have hgrows := (custody_coreStep hp ha rfl).1.grows
      rcases mem_cons.mp hst with rfl | hst
      · exact ⟨hinv.state, hgrows, .refl _⟩
      · obtain ⟨hwf, hstep, hext⟩ := ih hst
        exact ⟨hwf, hstep, hext.trans hgrows⟩

theorem wf_of_reachable (hp : p.Reachable) : p.state.WF :=
  ((custody_sound setup).inv hp (fun _ _ => trivial)).state

theorem run_extends (hp : p.Reachable) (h : p.run as = some q) :
    p.state.Extends q.state := by
  induction as generalizing p with
  | nil =>
    cases h
    exact .refl _
  | cons a as ih =>
    obtain ⟨p', hp', hq⟩ := Option.bind_eq_some_iff.mp h
    refine CoreState.Extends.trans ?_ (ih (hp.act hp') hq)
    rcases Pool.act_cases hp' with ⟨e, _, rfl⟩ | ⟨tid, c, th, o, k, s, r, _, _, _, rfl⟩
    · exact .refl _
    · exact (custody_coreStep hp hp' rfl).1.grows

theorem extends_between (hp : p.Reachable) (hown : p.own tid = l ++ st :: l') (hst' : st' ∈ l') :
    st'.post.Extends st.pre := by
  obtain ⟨l₁, l₂, htrace, hfilter⟩ := World.own_split hown
  obtain ⟨q, hq, hqtrace, hqstate⟩ := hp.exists_before htrace
  rw [← hfilter, ← hqtrace] at hst'
  rw [← hqstate]
  exact (extends_of_mem_trace hq (mem_filter.mp hst').1).2.2

/-- The numbering of a task's events, its revision and its state agree with its log, and only the
last event may be terminal. -/
structure FollowsLifecycle (snap : TaskSnapshot) (events : List CoreEvent) : Prop where
  seqs : events.map CoreEvent.seq = List.range' 1 events.length
  revision : snap.revision = events.length
  lastSeq : snap.lastSeq = events.length
  state : snap.state = projection events
  terminal : ∀ e ∈ events.dropLast, e.kind.isTerminal = false

/-- In every state reached by any interleaving of calls, workers and streams, every task follows
its lifecycle, and no step has ever changed a task that was terminal. -/
theorem tasks_follow_lifecycle (setup : CoreSetup) {p : Pool (contractCore setup)}
    (hp : p.Reachable) :
    (∀ id snap, p.state.db.tasks id = some snap → FollowsLifecycle snap (p.state.db.events id)) ∧
      ∀ st ∈ p.trace, ∀ id snap, st.pre.db.tasks id = some snap → snap.state.terminal = true →
        st.post.db.tasks id = some snap := by
  have hinv := (custody_sound setup).inv hp (fun _ _ => trivial)
  refine ⟨fun id snap hs => ?_, ?_⟩
  · have hlog := hinv.state.db.log hs
    exact ⟨hlog.seqs, hlog.revision, hlog.lastSeq, hlog.state, hlog.terminal⟩
  · refine (custody_sound setup).forall_trace (fun w st hpre _ hkeeps id snap hs ht => ?_) hp
      (fun _ _ => trivial)
    rw [hpre] at hs
    have hext := (hkeeps.rely (st.tid + 1) (Nat.succ_ne_self _)).state
    obtain ⟨snap', hs', hsucc⟩ := hext.db.task hs
    rw [← hsucc.terminal ht]
    exact hs'

theorem tasks_follow_lifecycle_after_invoke :
    ∃ p : Pool (contractCore singleAgentSetup), p.Reachable ∧
      (p.state.db.tasks 7).map TaskSnapshot.state = some .accepted ∧
      (∀ id snap, p.state.db.tasks id = some snap →
        FollowsLifecycle snap (p.state.db.events id)) := by
  obtain ⟨p, hp, hstate⟩ := Pool.exists_reachable (.call (invokeTask 7) :: turns 0 12)
    (fun p => (p.state.db.tasks 7).map TaskSnapshot.state = some .accepted) (by decide)
  exact ⟨p, hp, hstate, (tasks_follow_lifecycle singleAgentSetup hp).1⟩

end AgentConnector
