import AgentConnector.StreamTriples

/-!
# Reliable streams deliver the log in order

Subscribing starts a stream at `afterSeq`, each emission extends what has been delivered by the
next event, and all other threads are silent. In every run in which no live event is polled more
than 501 ahead of the last delivered one, a stream delivers the events after `afterSeq` one after
the other. A longer gap loses events: the catch-up reads one page and then appends the live event.
-/

namespace AgentConnector

open Concurrent Protocol Broadcast ReliableTaskStream

variable {setup : CoreSetup} {strict : Prop} {tid : ℕ} {id : TaskId} {afterSeq : ℕ}

theorem Returned.streamAt (h : Returned strict tid id afterSeq (some r, s) w) :
    StreamAt strict tid id afterSeq (handed r) s w ∧
      (strict → r = .ok none → w.state.EndedBy id s.lastSeq) := by
  match r with
  | .ok (some e) => exact ⟨h, fun _ hr => by cases hr⟩
  | .ok none => exact ⟨h.1, fun hs _ => h.2 hs⟩
  | .error e => exact ⟨h, fun _ hr => by cases hr⟩

theorem emitted_emit (w : World (contractCore setup)) (id : TaskId) (afterSeq next : ℕ)
    (r : Except CoreError (Option CoreEvent)) :
    (emitted (⟨tid, .emit id afterSeq r, (), w.state, w.state, next⟩ :
      Step (contractCore setup))).toList = handed r := by
  match r with
  | .ok (some e) => rfl
  | .ok none => rfl
  | .error e => rfl

theorem keeps_emit (hi : StreamInv strict w) (hs : StreamAt strict tid id afterSeq (handed r) s w)
    (hended : strict → r = .ok none → w.state.EndedBy id s.lastSeq)
    (hg : (streamProtocol strict setup).given w
      ⟨tid, .emit id afterSeq r, (), w.state, w.state, next⟩) :
    (streamProtocol strict setup).Keeps w ⟨tid, .emit id afterSeq r, (), w.state, w.state, next⟩ ∧
      StreamAt strict tid id afterSeq [] s
        (w.push ⟨tid, .emit id afterSeq r, (), w.state, w.state, next⟩) := by
  obtain ⟨hstep, _, hsame⟩ := hg
  have hself : delivered (w.push ⟨tid, .emit id afterSeq r, (), w.state, w.state, next⟩) tid =
      delivered w tid ++ handed r := by
    rw [← emitted_emit w id afterSeq next r]
    exact delivered_push_self w ⟨tid, .emit id afterSeq r, (), w.state, w.state, next⟩
  have hinv : StreamInv strict (w.push ⟨tid, .emit id afterSeq r, (), w.state, w.state, next⟩) := by
    refine ⟨hstep.wf, fun st hst id' afterSeq' r' hop => ?_, fun h => hi.closed h⟩
    rcases List.mem_cons.mp hst with rfl | hold
    · cases hop
      refine ⟨?_, ?_, fun h hr => ?_⟩
      · rw [hself]
        exact hs.numbered
      · rw [hself]
        exact hs.logged
      · rw [hself, ← hs.lastSeq]
        exact hended h hr
    · by_cases htid : tid = st.tid
      · obtain ⟨rfl, rfl⟩ := hsame id afterSeq r rfl st (World.mem_own.mpr ⟨hold, htid.symm⟩) id'
          afterSeq' r' hop
        rw [← htid]
        refine ⟨?_, ?_, fun h hr => ?_⟩
        · rw [hself]
          exact hs.numbered
        · rw [hself]
          exact hs.logged
        · have hend := (hi.delivers st hold _ _ _ hop).ended h hr
          rw [← htid] at hend
          rw [hself, List.length_append]
          exact hend.extends (.refl _) (by omega)
      · exact (hi.delivers st hold id' afterSeq' r' hop).push (.refl _) (delivered_push_ne w htid)
  refine ⟨⟨hinv, fun j hj => ⟨.refl _, delivered_push_ne w (Ne.symm hj)⟩, fun _ _ => trivial⟩, ?_⟩
  refine ⟨hs.task, ?_, ?_, ?_, hs.pending, hs.pendingLogged, hs.receiver, hs.ended⟩
  · rw [List.append_nil, hself]
    exact hs.numbered
  · rw [List.append_nil, hself]
    exact hs.logged
  · rw [List.append_nil, hself]
    exact hs.lastSeq

theorem triple_emit (r : Except CoreError (Option CoreEvent)) (s : ReliableTaskStream) :
    (streamProtocol strict setup).Triple tid (Returned strict tid id afterSeq (some r, s))
      (perform (.emit s.taskId afterSeq r))
      (fun _ => StreamAt strict tid id afterSeq [] s) := by
  have hstable : (streamProtocol strict setup).Stable tid (fun w =>
      StreamAt strict tid id afterSeq (handed r) s w ∧
        (strict → r = .ok none → w.state.EndedBy id s.lastSeq)) :=
    fun w w' he h => ⟨StreamAt.stable _ _ w w' he h.1,
      fun hs hr => (h.2 hs hr).extends he.rely.1 le_rfl⟩
  intro w hi hw
  obtain ⟨hat, hended⟩ := hw.streamAt
  rw [hat.task]
  refine triple_last hstable (fun _ => StreamAt.stable _ _) ?_ w hi ⟨hat, hended⟩
  intro w c st reply next hi hw hex _ _ hg
  cases hex
  exact keeps_emit hi hw.1 hw.2 hg

theorem triple_consume (fuels : List ℕ) (s : ReliableTaskStream) :
    (streamProtocol strict setup).Triple tid (StreamAt strict tid id afterSeq [] s)
      (consume (AdapterCore.history setup.contract) afterSeq fuels s)
      (fun _ _ => True) := by
  induction fuels generalizing s with
  | nil => exact triple_pure (StreamAt.stable _ _) (fun _ _ h => h) (fun _ _ _ => trivial)
  | cons fuel rest ih =>
    refine triple_bind (triple_nextLoop fuel s) (fun polled => ?_)
    obtain ⟨r, s'⟩ := polled
    cases r with
    | none => exact fun _ _ _ _ _ => trivial
    | some r => exact triple_bind (triple_emit r s') (fun _ => ih s')

/-- What a subscription hands out: a page of the log, and a receiver of the task's events. -/
def Subscribed (id : TaskId) (afterSeq : ℕ) (r : Except CoreError TaskSubscription)
    (w : World (contractCore setup)) : Prop :=
  ∀ subscription, r = .ok subscription → w.state.db.IsPage id afterSeq 500 0 subscription.history ∧
      ∃ ch : TaskChannel, w.state.channels[subscription.receiver.channel]? = some ch ∧ ch.task = id

theorem triple_subscribe {R : World (contractCore setup) → Prop}
    (hR : (streamProtocol strict setup).Stable tid R) (id : TaskId) (afterSeq : ℕ) :
    (streamProtocol strict setup).Triple tid R
      (AdapterCore.subscribe setup.contract id afterSeq).run
      (fun r w => R w ∧ Subscribed id afterSeq r w) := by
  refine triple_try ((triple_history hR id afterSeq 0).conseq
    (fun _ _ h => ⟨h, Nat.zero_le _⟩) (fun _ _ _ h => h)) (fun e => ?_) (fun history => ?_)
  · exact triple_pure hR (fun _ _ h => h.1) (fun _ _ h => ⟨h, fun _ hr => by cases hr⟩)
  have hpage : (streamProtocol strict setup).Stable tid
      (fun w => R w ∧ w.state.db.IsPage id afterSeq 500 0 history) :=
    hR.and fun w w' he h => h.extends he.rely.1.db
  have hreceiver : ∀ receiver : Receiver, (streamProtocol strict setup).Stable tid
      (fun w => ∃ ch : TaskChannel, w.state.channels[receiver.channel]? = some ch ∧
        ch.task = id) := by
    rintro receiver w w' he ⟨ch, hch, htask⟩
    obtain ⟨ch', hch', htask', _⟩ := he.rely.1.channels hch
    exact ⟨ch', hch', htask'.trans htask⟩
  have hreturn : ∀ receiver : Receiver, (streamProtocol strict setup).Triple tid
      (fun w => (R w ∧ w.state.db.IsPage id afterSeq 500 0 history) ∧
        ∃ ch : TaskChannel, w.state.channels[receiver.channel]? = some ch ∧ ch.task = id)
      (Prog.pure (.ok ⟨history, receiver, history.getLast?.map CoreEvent.seq⟩))
      (fun r w => R w ∧ Subscribed id afterSeq r w) := by
    intro receiver
    refine triple_pure (hpage.and (hreceiver receiver)) (fun _ _ h => h) (fun w _ h => ⟨h.1.1, ?_⟩)
    intro subscription hr
    cases hr
    exact ⟨h.1.2, h.2⟩
  refine Triple.conseq (R := fun w => R w ∧ w.state.db.IsPage id afterSeq 500 0 history) ?_
    (fun _ _ h => ⟨h.1, h.2 history rfl⟩) (fun _ _ _ h => h)
  refine triple_silent (o := .activeSubscribe id) (T := fun reply w =>
    (R w ∧ w.state.db.IsPage id afterSeq 500 0 history) ∧ match reply with
      | some receiver => ∃ ch : TaskChannel, w.state.channels[receiver.channel]? = some ch ∧
          ch.task = id
      | none => strict → w.state.Ended id) hpage (fun _ _ _ h => by cases h)
    (fun _ _ _ _ h => by cases h) ?_ (fun reply => ?_)
  · intro w c s reply next hi hw hpush hex hcond
    cases hex
    refine ⟨hpush, ?_⟩
    cases ha : w.state.active id with
    | none =>
      have hnone : w.state.subscribe id = none := by simp [CoreState.subscribe, ha]
      have hattach := hcond.attach
      rw [hnone] at hattach ⊢
      exact hattach
    | some a =>
      obtain ⟨ch, hch, htask, _⟩ := hi.state.active ha
      have hsome : w.state.subscribe id = some ⟨a.channel, ch.channel.sent.length⟩ := by
        simp [CoreState.subscribe, ha, hch]
      rw [hsome]
      exact ⟨ch, hch, htask⟩
  · cases reply with
    | some receiver => exact hreturn receiver
    | none =>
      have hended : (streamProtocol strict setup).Stable tid (fun w =>
          (R w ∧ w.state.db.IsPage id afterSeq 500 0 history) ∧ (strict → w.state.Ended id)) :=
        fun w w' he h => ⟨hpage w w' he h.1, fun hs => (h.2 hs).extends he.rely.1⟩
      refine triple_silent (o := .closedReceiver id)
        hended (fun _ _ _ h => by cases h) (fun w hw hs id' h => ?_) ?_ hreturn
      · cases h
        exact hw.2 hs
      · intro w c s receiver next hi hw hpush hex _
        cases hex
        exact ⟨hpush.1, ⟨id, ⟨1, [], true⟩⟩, by simp, rfl⟩

theorem triple_session (id : TaskId) (afterSeq : ℕ) (fuels : List ℕ) :
    (streamProtocol strict setup).Triple tid (fun w => delivered w tid = [])
      (session setup.contract id afterSeq fuels) (fun _ _ => True) := by
  have hR : (streamProtocol strict setup).Stable tid (fun w => delivered w tid = []) :=
    fun w w' he h => he.rely.2.trans h
  refine triple_bind (triple_subscribe hR id afterSeq) (fun r => ?_)
  cases r with
  | error e => exact triple_pure hR (fun _ _ h => h.1) (fun _ _ _ => trivial)
  | ok subscription =>
    have hconsume : (streamProtocol strict setup).Triple tid
        (StreamAt strict tid id afterSeq [] (new id afterSeq subscription))
        (consume (AdapterCore.history setup.contract) afterSeq fuels
          (new id afterSeq subscription)) (fun _ _ => True) := triple_consume fuels _
    refine hconsume.conseq (fun w _ h => ?_) (fun _ _ _ h => h)
    obtain ⟨hnone, hsub⟩ := h
    obtain ⟨hpage, hreceiver⟩ := hsub subscription rfl
    have hpending : (new id afterSeq subscription).pending = subscription.history := by
      refine List.filter_eq_self.mpr (fun e he => ?_)
      have := (hpage.numbered.mem_bounds he).1
      simpa using this
    refine ⟨rfl, ?_, ?_, ?_, ?_, ?_, hreceiver, fun _ h => by cases h⟩
    · rw [hnone]
      exact Numbered.nil _ _
    · rw [hnone]
      simp
    · rw [hnone]
      rfl
    · rw [hpending]
      exact hpage.numbered
    · rw [hpending]
      exact hpage.logged

theorem triple_writer (he : e.writes = true) :
    (streamProtocol strict setup).Triple tid (fun _ => True) ((contractCore setup).program e)
      (fun _ _ => True) := by
  refine triple_of_everywhere (contract_performs setup e) ?_
    (fun _ _ _ => trivial)
  intro w o c s r next ho hi hex _ _ hg
  refine (keeps_silent hi hex hg ?_ ?_).1
  · rintro id afterSeq x rfl
    obtain ⟨fuels, rfl⟩ := ho
    cases he
  · rintro _ id rfl
    rcases ho with ⟨afterSeq, rfl⟩ | ⟨afterSeq, fuels, rfl⟩
    · cases he
    · cases he

theorem stream_sound (strict : Prop) (setup : CoreSetup) :
    (streamProtocol strict setup).Sound (StreamStep strict) where
  given {p q a st} hr ha hst hc := by
    refine ⟨(custody_coreStep hr ha hst).1, hc st ?_, ?_⟩
    · rw [show q.trace = st :: p.trace from congrArg World.trace hst]
      exact List.mem_cons_self ..
    · intro id afterSeq r hop st' hst' id' afterSeq' r' hop'
      obtain ⟨th, _, hentry, hown⟩ := hr.step_performs (contract_performs setup) ha hst
      have hold := hown st' hst'
      rw [hop] at hentry
      rw [hop'] at hold
      obtain ⟨fuels, hfuels⟩ := hentry
      obtain ⟨fuels', hfuels'⟩ := hold
      rw [hfuels] at hfuels'
      cases hfuels'
      exact ⟨rfl, rfl⟩
  init :=
    { state := ⟨LogStore.wf_empty, fun h => by simp [Pool.start] at h, fun h => by cases h⟩
      delivers := fun st hst => by cases hst
      closed := fun _ _ _ h => by simp [Pool.start] at h }
  call _ _ _ := trivial
  entry {tid e w} hi hown _ := by
    cases e with
    | dispatch caller command | worker args => exact triple_writer rfl w hi trivial
    | subscribe id afterSeq =>
      have hR : (streamProtocol strict setup).Stable tid (fun _ => True) := fun _ _ _ h => h
      exact safe_bind hi ((triple_subscribe hR id afterSeq w hi trivial).mono
        fun _ _ _ _ _ _ => trivial)
    | stream id afterSeq fuels =>
      have hnone : delivered w tid = [] := by
        rw [delivered, hown]
        rfl
      exact safe_bind hi ((triple_session id afterSeq fuels w hi hnone).mono
        fun _ _ _ _ _ _ => trivial)

/-- In every run in which no stream polls a live event more than a page and one event ahead of the
last event it has delivered, what a stream has delivered are the logged events numbered from
`afterSeq + 1` on: none skipped, none repeated, none out of order. -/
theorem stream_delivers_consecutively (setup : CoreSetup) {p : Pool (contractCore setup)}
    (hp : p.Reachable) (hgap : ∀ st ∈ p.trace, CoreOp.GapWithin 501 st.op st.reply) {tid : ℕ}
    {th : Thread (contractCore setup)} (hth : p.threads[tid]? = some th) {id : TaskId}
    {afterSeq : ℕ} (hentry : th.entry.stream? = some (id, afterSeq)) :
    (delivered p.toWorld tid).map CoreEvent.seq =
        List.range' (afterSeq + 1) (delivered p.toWorld tid).length ∧
      ∀ e ∈ delivered p.toWorld tid, e ∈ p.state.db.events id := by
  have hinv := (stream_sound False setup).inv hp
    (fun st hst => ⟨hgap st hst, False.elim, False.elim⟩)
  cases hnone : delivered p.toWorld tid with
  | nil => exact ⟨rfl, fun e he => by cases he⟩
  | cons e rest =>
    rw [← hnone]
    -- Something was delivered, so the thread has a step that delivers, and all its steps agree on
    -- the stream they belong to.
    have he : e ∈ (p.own tid).reverse.filterMap emitted := by
      rw [← delivered, hnone]
      exact List.mem_cons_self ..
    obtain ⟨st, hst, hemitted⟩ := List.mem_filterMap.mp he
    rw [List.mem_reverse] at hst
    have hop : ∃ id' afterSeq' r, st.op = .emit id' afterSeq' r := by
      unfold emitted at hemitted
      split at hemitted
      · rename_i id' afterSeq' e' h
        exact ⟨id', afterSeq', _, h⟩
      · cases hemitted
    obtain ⟨id', afterSeq', r, hop⟩ := hop
    have hlabel := performs_of_own hp hth hst
    rw [hop] at hlabel
    obtain ⟨fuels, hfuels⟩ := hlabel
    rw [hfuels] at hentry
    cases hentry
    obtain ⟨htrace, rfl⟩ := World.mem_own.mp hst
    have hdelivers := hinv.delivers st htrace _ _ _ hop
    exact ⟨hdelivers.numbered, hdelivers.logged⟩

theorem stream_delivers_consecutively_live :
    ∃ p : Pool (contractCore singleAgentSetup), p.Reachable ∧ (delivered p.toWorld 2).length = 2 ∧
      (delivered p.toWorld 2).map CoreEvent.seq = List.range' 1 (delivered p.toWorld 2).length := by
  obtain ⟨p, hp, hgap, ⟨th, hth, hentry⟩, hlength⟩ := Pool.exists_reachable
    (acceptedTask ++ .call (.stream 1 0 [1, 1]) :: turns 2 3 ++ turns 1 1 ++
      .step 1 { store := {}, stream := .ok [.progress "half" (some 50)] } ::
      turns 1 12 ++ turns 2 2)
    (fun p => (∀ st ∈ p.trace, CoreOp.GapWithin 501 st.op st.reply) ∧
      (∃ th ∈ p.threads[2]?, th.entry.stream? = some (1, 0)) ∧
      (delivered p.toWorld 2).length = 2) (by decide +kernel)
  exact ⟨p, hp, hlength, (stream_delivers_consecutively singleAgentSetup hp hgap hth hentry).1⟩

end AgentConnector
