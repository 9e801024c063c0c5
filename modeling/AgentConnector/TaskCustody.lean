import AgentConnector.CoreTriples

/-!
# Custody of a task

A task is in the custody of one thread: of the call that created it until that call spawns a
worker, and of the worker from then on. Other threads may append to the task (`cancel`,
`provide_input`), but only the thread in custody moves it to a terminal state. The protocol of
this module carries that rule together with the invariant of the shared state.
-/

namespace AgentConnector

open Concurrent Protocol List

variable {setup : CoreSetup}

def Creates (st : Step (contractCore setup)) (id : TaskId) : Prop :=
  st.pre.db.tasks id = none ∧ (st.post.db.tasks id).isSome = true

def Spawns (st : Step (contractCore setup)) (id : TaskId) : Prop :=
  ∃ args : WorkerArgs, st.op = .spawn args ∧ args.taskId = id

variable {st : Step (contractCore setup)}

theorem spawns_of_fork (h : (contractCore setup).fork st.op = some (.worker args)) :
    Spawns st args.taskId := by
  obtain ⟨tid, o, r, pre, post, next⟩ := st
  cases o with
  | spawn _ =>
    cases h
    exact ⟨args, rfl, rfl⟩
  | _ => cases h

/-- The thread has created the task and no worker has been spawned for it. -/
structure HoldsAsCreator (w : World (contractCore setup)) (tid : ℕ) (id : TaskId) : Prop where
  creates : ∃ st ∈ w.trace, st.tid = tid ∧ Creates st id
  unspawned : ∀ st ∈ w.trace, ¬ Spawns st id

def HoldsAsWorker (w : World (contractCore setup)) (tid : ℕ) (id : TaskId) : Prop :=
  ∃ st ∈ w.trace, Spawns st id ∧ st.next = tid

def Holds (w : World (contractCore setup)) (tid : ℕ) (id : TaskId) : Prop :=
  HoldsAsCreator w tid id ∨ HoldsAsWorker w tid id

structure CustodyInv (w : World (contractCore setup)) : Prop where
  state : w.state.WF
  created : ∀ st ∈ w.trace, ∀ id, Creates st id → (w.state.db.tasks id).isSome = true
  creator : ∀ st ∈ w.trace, ∀ st' ∈ w.trace, ∀ id, Creates st id → Creates st' id → st.tid = st'.tid
  spawned : ∀ st ∈ w.trace, ∀ id, Spawns st id → (w.state.db.tasks id).isSome = true
  worker : ∀ st ∈ w.trace, ∀ st' ∈ w.trace, ∀ id, Spawns st id → Spawns st' id → st.next = st'.next

variable {id : TaskId}

variable {w : World (contractCore setup)}

theorem CustodyInv.holds_unique (h : CustodyInv w) (hi : Holds w i id) (hj : Holds w j id) :
    i = j := by
  rcases hi with hi | ⟨st, hst, hs, rfl⟩
  · rcases hj with hj | ⟨st', hst', hs', rfl⟩
    · obtain ⟨st, hst, rfl, hc⟩ := hi.creates
      obtain ⟨st', hst', rfl, hc'⟩ := hj.creates
      exact h.creator st hst st' hst' id hc hc'
    · exact absurd hs' (hi.unspawned st' hst')
  · rcases hj with hj | ⟨st', hst', hs', rfl⟩
    · exact absurd hs (hj.unspawned st hst)
    · exact h.worker st hst st' hst' id hs hs'

/-- What the other threads leave alone: custody, and whether a task in the thread's custody has
ended. -/
structure CustodyRely (tid : ℕ) (w w' : World (contractCore setup)) : Prop where
  state : w.state.Extends w'.state
  creator : ∀ id, HoldsAsCreator w tid id → HoldsAsCreator w' tid id
  worker : ∀ id, HoldsAsWorker w tid id → HoldsAsWorker w' tid id
  running : ∀ id snap snap', Holds w tid id → w.state.db.tasks id = some snap →
    w'.state.db.tasks id = some snap' → snap'.state.terminal = true → snap.state.terminal = true

variable {tid : ℕ}

theorem CustodyRely.holds (h : CustodyRely tid w w') (hw : Holds w tid id) : Holds w' tid id :=
  hw.imp (h.creator id) (h.worker id)

theorem CustodyRely.refl (tid : ℕ) (w : World (contractCore setup)) : CustodyRely tid w w where
  state := .refl _
  creator _ h := h
  worker _ h := h
  running id snap snap' _ hs hs' ht := by
    rw [hs] at hs'
    cases hs'
    exact ht

theorem CustodyRely.trans (h : CustodyRely tid w w') (h' : CustodyRely tid w' w'') :
    CustodyRely tid w w'' where
  state := h.state.trans h'.state
  creator id hw := h'.creator id (h.creator id hw)
  worker id hw := h'.worker id (h.worker id hw)
  running id snap snap'' hw hs hs'' ht := by
    obtain ⟨snap', hs', _⟩ := h.state.db.task hs
    exact h.running id snap snap' hw hs hs' (h'.running id snap' snap'' (h.holds hw) hs' hs'' ht)

def custodyProtocol (setup : CoreSetup) : Protocol (contractCore setup) where
  given _ _ := True
  inv := CustodyInv
  rely := CustodyRely
  pre tid e w := match e with
    | .worker args => HoldsAsWorker w tid args.taskId ∧ (w.state.db.tasks args.taskId).isSome = true
    | _ => True
  post _ _ _ _ := True
  rely_refl := CustodyRely.refl
  rely_trans _ _ _ _ := CustodyRely.trans

def Owes (w : World (contractCore setup)) (tid : ℕ) : CoreOp contractSig → Prop
  | .store (.append t) =>
    w.state.db.Legal t ∧ (t.nextState.terminal = true → Holds w tid t.taskId)
  | .activeSend id e => e ∈ w.state.db.events id
  | .spawn args => HoldsAsCreator w tid args.taskId
  | _ => True

theorem Owes.obliged (h : Owes w tid o) : o.Obliged w.state := by
  cases o with
  | store o =>
    cases o with
    | append t => exact h.1
    | _ => trivial
  | activeSend id e => exact h
  | _ => trivial

theorem coreExec_terminal (hex : coreExec contractMachine tid s o c = some (s', r))
    (hs : s.db.tasks id = some snap) (hs' : s'.db.tasks id = some snap')
    (ht : snap'.state.terminal = true) (hnot : snap.state.terminal = false) :
    ∃ t, o = .store (.append t) ∧ t.taskId = id ∧ t.nextState.terminal = true ∧
      snap' = snap.advance t.nextState c.store.now := by
  rcases coreExec_db hex with hdb | ⟨n, _, hn, hdb⟩ | ⟨t, cur, rfl, hc, hdb⟩
  · rw [hdb, hs] at hs'
    cases hs'
    rw [hnot] at ht
    cases ht
  · have hid : id ≠ n.taskId := by
      rintro rfl
      rw [hn] at hs
      cases hs
    rw [hdb] at hs'
    simp only [LogStore.insert, Function.update_of_ne hid] at hs'
    rw [hs] at hs'
    cases hs'
    rw [hnot] at ht
    cases ht
  · rw [hdb] at hs'
    by_cases hid : id = t.taskId
    · subst id
      obtain ⟨hcur, _, _⟩ := (LogStore.check_eq_ok_iff s.db t cur).mp hc
      rw [hcur] at hs
      cases hs
      simp only [LogStore.record, LogStore.applied, Function.update_self, Option.some.injEq] at hs'
      subst snap'
      exact ⟨t, rfl, rfl, ht, rfl⟩
    · simp only [LogStore.record, LogStore.applied, Function.update_of_ne hid] at hs'
      rw [hs] at hs'
      cases hs'
      rw [hnot] at ht
      cases ht

section

variable {w : World (contractCore setup)} {tid next : ℕ} {o : CoreOp contractSig}
variable {c : CoreChoice ContractChoice} {s : CoreState LogStore} {r : o.Reply}

theorem HoldsAsCreator.push (h : HoldsAsCreator w j id) (hst : ¬ Spawns st id) :
    HoldsAsCreator (w.push st) j id := by
  obtain ⟨st', hst', htid, hc⟩ := h.creates
  refine ⟨⟨st', mem_cons_of_mem _ hst', htid, hc⟩, ?_⟩
  intro st'' hst''
  rcases mem_cons.mp hst'' with rfl | hst''
  · exact hst
  · exact h.unspawned st'' hst''

theorem HoldsAsWorker.push (h : HoldsAsWorker w j id) : HoldsAsWorker (w.push st) j id := by
  obtain ⟨st', hst', hs⟩ := h
  exact ⟨st', mem_cons_of_mem _ hst', hs⟩

theorem CustodyInv.push (h : CustodyInv w) (ho : Owes w tid o)
    (hex : coreExec contractMachine tid w.state o c = some (s, r)) :
    CustodyInv (w.push ⟨tid, o, r, w.state, s, next⟩) := by
  obtain ⟨hwf, hext⟩ := h.state.coreExec ho.obliged hex
  -- A task created by the new step was unknown to all earlier ones.
  have hnew : ∀ id, w.state.db.tasks id = none → ∀ st ∈ w.trace, ¬ Creates st id := by
    intro id hid st hst hc
    have := h.created st hst id hc
    rw [hid] at this
    cases this
  have hspawn : ∀ id, Spawns (⟨tid, o, r, w.state, s, next⟩ : Step (contractCore setup)) id →
      HoldsAsCreator w tid id := by
    rintro id ⟨args, hop, rfl⟩
    change o = .spawn args at hop
    subst o
    exact ho
  have hstays : ∀ id, (w.state.db.tasks id).isSome = true → (s.db.tasks id).isSome = true := by
    intro id hid
    obtain ⟨snap, hsnap⟩ := Option.isSome_iff_exists.mp hid
    obtain ⟨snap', hsnap', _⟩ := hext.db.task hsnap
    exact Option.isSome_iff_exists.mpr ⟨snap', hsnap'⟩
  refine ⟨hwf, fun st hst id hc => ?_, fun st hst st' hst' id hc hc' => ?_,
    fun st hst id hs => ?_, fun st hst st' hst' id hs hs' => ?_⟩
  · rcases mem_cons.mp hst with rfl | hst
    · exact hc.2
    · exact hstays id (h.created st hst id hc)
  · rcases mem_cons.mp hst with rfl | hst
    · rcases mem_cons.mp hst' with rfl | hst'
      · rfl
      · exact absurd hc' (hnew id hc.1 st' hst')
    · rcases mem_cons.mp hst' with rfl | hst'
      · exact absurd hc (hnew id hc'.1 st hst)
      · exact h.creator st hst st' hst' id hc hc'
  · rcases mem_cons.mp hst with rfl | hst
    · obtain ⟨st', hst', _, hc⟩ := (hspawn id hs).creates
      exact hstays id (h.created st' hst' id hc)
    · exact hstays id (h.spawned st hst id hs)
  · rcases mem_cons.mp hst with rfl | hst
    · rcases mem_cons.mp hst' with rfl | hst'
      · rfl
      · exact absurd hs' ((hspawn id hs).unspawned st' hst')
    · rcases mem_cons.mp hst' with rfl | hst'
      · exact absurd hs ((hspawn id hs').unspawned st hst)
      · exact h.worker st hst st' hst' id hs hs'

theorem keeps_of_owes (h : CustodyInv w) (ho : Owes w tid o)
    (hex : coreExec contractMachine tid w.state o c = some (s, r)) :
    (custodyProtocol setup).Keeps w ⟨tid, o, r, w.state, s, next⟩ := by
  obtain ⟨_, hext⟩ := h.state.coreExec ho.obliged hex
  refine ⟨h.push ho hex, fun j hj => ⟨hext, fun id hid => ?_, fun id hid => hid.push, ?_⟩, ?_⟩
  · apply hid.push
    rintro ⟨args, hop, rfl⟩
    change o = .spawn args at hop
    subst o
    exact hj (h.holds_unique (Or.inl hid) (Or.inl ho))
  · intro id snap snap' hid hs hs' ht
    cases hnot : snap.state.terminal with
    | true => rfl
    | false =>
      obtain ⟨t, rfl, rfl, htn, _⟩ := coreExec_terminal hex hs hs' ht hnot
      exact absurd (h.holds_unique hid (ho.2 htn)) hj
  · intro e he
    cases o with
    | spawn args =>
      cases hex
      cases he
      obtain ⟨st, hst, _, hc⟩ := ho.creates
      exact ⟨⟨_, mem_cons_self .., ⟨args, rfl, rfl⟩, rfl⟩, h.created st hst _ hc⟩
    | _ => cases he

theorem env_of_owes (h : CustodyInv w) (ho : Owes w tid o)
    (hex : coreExec contractMachine tid w.state o c = some (s, r))
    (happend : ∀ t, o ≠ .store (.append t)) (hspawn : ∀ args, o ≠ .spawn args) :
    (custodyProtocol setup).Env tid w (w.push ⟨tid, o, r, w.state, s, next⟩) := by
  obtain ⟨_, hext⟩ := h.state.coreExec ho.obliged hex
  refine ⟨h.push ho hex, hext, fun id hid => ?_, fun id hid => hid.push, ?_⟩
  · apply hid.push
    rintro ⟨args, hop, _⟩
    exact hspawn args hop
  · intro id snap snap' _ hs hs' ht
    cases hnot : snap.state.terminal with
    | true => rfl
    | false =>
      obtain ⟨t, hop, _⟩ := coreExec_terminal hex hs hs' ht hnot
      exact absurd hop (happend t)

end

end AgentConnector
