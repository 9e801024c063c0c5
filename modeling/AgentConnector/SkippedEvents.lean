import AgentConnector.ReliableDelivery
import AgentConnector.SoloRun

/-!
# A stream that skips an event

The condition on gaps is needed. A consumer that subscribes to a task with 1001 events gets the
first 500 of them with its subscription. The next live event, number 1002, reveals a gap to it: the
stream reads one page, which ends at number 1000, appends the live event to it, and the consumer
gets number 1002 right after number 1000.
-/

namespace AgentConnector

open Concurrent Broadcast AdapterCore ReliableTaskStream

theorem solo_withTimeout (core : CoreConfig M.sig) {α : Type} {p p' : Prog (coreSig M.sig) α}
    (h : Solo (coreService M setup) tid next s p l s' p') :
    ∃ l', Solo (coreService M setup) tid next s (withTimeout core p) l' s'
      (withTimeout core p') := by
  induction h with
  | refl => exact ⟨[], .refl _ _⟩
  | @op _ _ _ _ _ c _ _ _ hex hfork _ ih =>
    obtain ⟨l', hl'⟩ := ih
    exact ⟨_, .op (c := { c with timer := .pending }) rfl rfl (.op hex hfork hl')⟩

section

variable {tid : ℕ} {id : TaskId} {s : CoreState LogStore} {snap : TaskSnapshot}

/-- A task that can report progress, with an entry whose channel is `i`. -/
structure Reporting (id : TaskId) (i : ℕ) (snap : TaskSnapshot) (s : CoreState LogStore) :
    Prop where
  task : s.db.tasks id = some snap
  taskId : snap.taskId = id
  state : snap.state = .accepted ∨ snap.state = .running
  active : s.active id = some ⟨i, false⟩
  channel : ∃ sent, s.channels[i]? = some ⟨id, ⟨256, sent, false⟩⟩

def reported (snap : TaskSnapshot) : AppliedTransition :=
  LogStore.applied snap ⟨snap.taskId, snap.revision, [.accepted, .running], .running,
    .progress "" none⟩ 0

/-- The state after the worker `tid` has handled one report. -/
def report (tid : ℕ) (snap : TaskSnapshot) (s : CoreState LogStore) : CoreState LogStore :=
  CoreState.send { s with
      sites := Function.update s.sites tid (some .driverEvent)
      db := s.db.record (reported snap) } snap.taskId (reported snap).event

variable {i : ℕ}

theorem Reporting.report_eq (h : Reporting id i snap s) : report tid snap s = CoreState.onChannel
      { s with
        sites := Function.update s.sites tid (some .driverEvent)
        db := s.db.record (reported snap) } i (fun ch => ch.send (reported snap).event) := by
  unfold report CoreState.send
  rw [h.taskId]
  simp only [h.active]

theorem Reporting.after_report (h : Reporting id i snap s) :
    Reporting id i (reported snap).snapshot (report tid snap s) := by
  have hid : (reported snap).event.taskId = id := h.taskId
  rw [h.report_eq]
  refine ⟨?_, h.taskId, Or.inr rfl, h.active, ?_⟩
  · simp [CoreState.onChannel, LogStore.record, hid]
  · obtain ⟨sent, hch⟩ := h.channel
    refine ⟨sent ++ [(reported snap).event], ?_⟩
    simp [CoreState.onChannel, hch, Channel.send]

theorem Reporting.check (h : Reporting id i snap s) :
    s.db.check ⟨snap.taskId, snap.revision, [.accepted, .running], .running,
      .progress "" none⟩ = .ok snap := by
  rw [LogStore.check_eq_ok_iff]
  refine ⟨?_, rfl, ?_⟩
  · rw [h.taskId]
    exact h.task
  · rcases h.state with hs | hs <;> simp [hs]

theorem Reporting.solo (h : Reporting id i snap s) (setup : CoreSetup) (tid next : ℕ)
    (rest : List DriverEvent) :
    ∃ l, Solo (contractCore setup) tid next s
      (drainStream setup.contract id (.progress "" none :: rest)).run l
      (report tid snap s) (drainStream setup.contract id rest).run := by
  have hget : ∀ {s' : CoreState LogStore} {snap' : TaskSnapshot}, s'.db.tasks id = some snap' →
      coreExec contractMachine tid s' (.store (.get id)) calm = some (s', .ok (some snap')) := by
    intro s' snap' hs'
    simp only [coreExec, LogStore.exec, LogStore.settle, calm, hs']
  have hnext : (if snap.state = .accepted then TaskState.running else snap.state) = .running := by
    rcases h.state with hs | hs <;> simp [hs]
  have happend : coreExec contractMachine tid
      { s with sites := Function.update s.sites tid (some .driverEvent) }
      (.store (.append ⟨snap.taskId, snap.revision, [.accepted, .running], .running,
        .progress "" none⟩)) calm =
      some ({ s with
        sites := Function.update s.sites tid (some .driverEvent)
        db := s.db.record (reported snap) }, .ok (reported snap)) := by
    simp only [coreExec, LogStore.exec, h.check, LogStore.settle]
    rfl
  refine Solo.exists_op (c := calm) rfl rfl ?_
  refine Solo.exists_op (c := calm) (hget h.task) rfl ?_
  refine Solo.exists_op (c := calm) rfl rfl ?_
  rw [hnext]
  refine Solo.exists_op happend rfl ?_
  refine Solo.exists_op (c := calm) rfl rfl ?_
  have hnext : Reporting id i (reported snap).snapshot (report tid snap s) := h.after_report
  refine Solo.exists_op (c := calm) (hget hnext.task) rfl ?_
  exact ⟨[], .refl _ _⟩

theorem Reporting.solo_replicate (h : Reporting id i snap s) (setup : CoreSetup) (tid next n : ℕ)
    (rest : List DriverEvent) :
    ∃ l s' snap', Solo (contractCore setup) tid next s (drainStream setup.contract id
        (List.replicate n (.progress "" none) ++ rest)).run l
      s' (drainStream setup.contract id rest).run ∧
      Reporting id i snap' s' ∧ snap'.lastSeq = snap.lastSeq + n := by
  induction n generalizing s snap with
  | zero => exact ⟨[], s, snap, .refl _ _, h, rfl⟩
  | succ n ih =>
    have hreport : Reporting id i (reported snap).snapshot (report tid snap s) := h.after_report
    obtain ⟨l, hl⟩ := h.solo setup tid next (List.replicate n (.progress "" none) ++ rest)
    obtain ⟨l', s', snap', hl', hs', hseq⟩ := ih hreport
    refine ⟨l' ++ l, s', snap', hl.trans hl', hs', ?_⟩
    rw [hseq]
    change snap.lastSeq + 1 + n = snap.lastSeq + (n + 1)
    omega

end

namespace ReliableTaskStream

variable (setup : CoreSetup) (tid next : ℕ) (source : EventHistorySource contractSig)
variable {s : CoreState LogStore}

variable {stream : ReliableTaskStream}

theorem foldl_deliver (hopen : stream.terminal = false)
    (hevents : ∀ e ∈ events, e.kind.isTerminal = false)
    (hnumbered : Numbered CoreEvent.seq (stream.lastSeq + 1) events) :
    events.foldl deliver stream = { stream with lastSeq := stream.lastSeq + events.length } := by
  induction events generalizing stream with
  | nil => rfl
  | cons e rest ih =>
    obtain ⟨he, hrest⟩ := Numbered.cons_iff.mp hnumbered
    have hdeliver : deliver stream e = { stream with lastSeq := stream.lastSeq + 1 } := by
      simp [deliver, he, hopen, hevents e (List.mem_cons_self ..)]
    have hfold : rest.foldl deliver { stream with lastSeq := stream.lastSeq + 1 } =
        { stream with lastSeq := stream.lastSeq + 1 + rest.length } :=
      ih hopen (fun e' he' => hevents e' (List.mem_cons_of_mem _ he')) hrest
    rw [List.foldl_cons, hdeliver, hfold, List.length_cons, Nat.add_assoc, Nat.add_comm 1]

variable {source} in
theorem nextLoop_pending (hopen : stream.terminal = false) :
    nextLoop source (fuel + 1) { stream with pending := e :: rest } =
      pure (some (.ok (some e)), deliver { stream with pending := rest } e) := by
  rw [nextLoop, if_neg (by simp [hopen])]

theorem solo_consume (s : CoreState LogStore) (afterSeq fuel : ℕ) (fuels : List ℕ)
    (events rest : List CoreEvent) (hopen : stream.terminal = false)
    (hevents : ∀ e ∈ events, e.kind.isTerminal = false) :
    ∃ l, Solo (contractCore setup) tid next s
      (consume source afterSeq (List.replicate events.length (fuel + 1) ++ fuels)
        { stream with pending := events ++ rest }) l
      s (consume source afterSeq fuels (events.foldl deliver { stream with pending := rest })) ∧
      l.reverse.filterMap emitted = events := by
  induction events generalizing stream with
  | nil => exact ⟨[], .refl _ _, rfl⟩
  | cons e events ih =>
    have hterminal : (deliver stream e).terminal = false := by
      simp [deliver, hopen, hevents e (List.mem_cons_self ..)]
    obtain ⟨l, hl, hemitted⟩ := ih hterminal (fun e' he' => hevents e' (List.mem_cons_of_mem _ he'))
    refine ⟨l ++ [⟨tid, .emit stream.taskId afterSeq (.ok (some e)), (), s, s, next⟩], ?_, ?_⟩
    · rw [List.length_cons, List.replicate_succ, List.cons_append, List.cons_append, consume,
        nextLoop_pending hopen]
      exact Solo.op (c := calm) rfl rfl hl
    · simp [hemitted, emitted]

abbrev contractHistory (setup : CoreSetup) : EventHistorySource contractSig :=
  AdapterCore.history setup.contract

/-- A live event reveals a gap: the stream reads one page and continues with that and the event. -/
theorem solo_gap (afterSeq fuel : ℕ) (fuels : List ℕ) (hopen : stream.terminal = false)
    (hpending : stream.pending = []) {receiver : Receiver}
    (hpoll : s.poll stream.receiver = some (.value e, receiver)) (hgap : stream.lastSeq + 1 < e.seq)
    (hread : coreExec contractMachine tid s (.store (.eventsAfter stream.taskId stream.lastSeq 500))
      calm = some (s, .ok page)) :
    ∃ l, Solo (contractCore setup) tid next s
      (consume (contractHistory setup) afterSeq ((fuel + 1) :: fuels) stream) l
      s (consume (contractHistory setup) afterSeq (fuel :: fuels) { stream with
          receiver := receiver
          pending := OrderedMap.values (merge stream.lastSeq page (some e)) }) ∧
      l.reverse.filterMap emitted = [] := by
  have hrecv : coreExec contractMachine tid s (.recv stream.taskId stream.receiver stream.lastSeq)
      calm = some (s, .value e, receiver) := by
    simp only [coreExec, hpoll]
  have hloop : nextLoop (contractHistory setup) (fuel + 1) stream =
      .op (.recv stream.taskId stream.receiver stream.lastSeq)
        (fun got => onRecv (contractHistory setup) (nextLoop (contractHistory setup) fuel)
          { stream with receiver := got.2 } got.1) := by
    rw [nextLoop, if_neg (by simp [hopen]), hpending]
    rfl
  have hrecover : onRecv (contractHistory setup) (nextLoop (contractHistory setup) fuel)
      { stream with receiver := receiver } (.value e) =
      recover (contractHistory setup) { stream with receiver := receiver } (some e)
        (nextLoop (contractHistory setup) fuel) := by
    rw [onRecv, if_neg (by simp only; omega), if_neg (by simp only; omega)]
  obtain ⟨k, hk⟩ : ∃ k, ∀ fuel stream, consume (contractHistory setup) afterSeq (fuel :: fuels)
      stream = (nextLoop (contractHistory setup) fuel stream).bind k := ⟨_, fun _ _ => rfl⟩
  have hcatchUp : Solo (contractCore setup) tid next s
      (onRecv (contractHistory setup) (nextLoop (contractHistory setup) fuel)
        { stream with receiver := receiver } (.value e))
      [⟨tid, .store (.eventsAfter stream.taskId stream.lastSeq 500), .ok page, s, s, next⟩]
      s (nextLoop (contractHistory setup) fuel { stream with
          receiver := receiver
          pending := OrderedMap.values (merge stream.lastSeq page (some e)) }) := by
    rw [hrecover]
    exact Solo.op hread rfl (.refl _ _)
  rw [hk, hk, hloop]
  exact ⟨_, Solo.bind (.op (c := calm) hrecv rfl hcatchUp) k, rfl⟩

theorem solo_session {id : TaskId} {receiver : Receiver}
    (hread : coreExec contractMachine tid s (.store (.eventsAfter id afterSeq 500)) calm = some
      (s, .ok (s.db.page id afterSeq 500)))
    (hsubscribe : s.subscribe id = some receiver) :
    ∃ l, Solo (contractCore setup) tid next s
      (session setup.contract id afterSeq fuels) l
      s (consume (contractHistory setup) afterSeq fuels
        (new id afterSeq ⟨s.db.page id afterSeq 500, receiver,
          (s.db.page id afterSeq 500).getLast?.map CoreEvent.seq⟩)) ∧
      l.reverse.filterMap emitted = [] := by
  have hactive : coreExec contractMachine tid s (.activeSubscribe id) calm =
      some (s, some receiver) := by
    simp only [coreExec, hsubscribe]
  exact ⟨_, Solo.op (S := contractCore setup) hread rfl
    (.op (c := calm) hactive rfl (.refl _ _)), rfl⟩

end ReliableTaskStream

section

variable {s : CoreState LogStore} {snap : TaskSnapshot} {id : TaskId} {i : ℕ}

theorem Reporting.read (h : Reporting id i snap s) (tid afterSeq limit : ℕ) :
    coreExec contractMachine tid s (.store (.eventsAfter id afterSeq limit)) calm =
      some (s, .ok (s.db.page id afterSeq limit)) := by
  simp [coreExec, LogStore.exec, LogStore.settle, calm, h.task]

theorem Reporting.isTerminal (h : Reporting id i snap s) (hwf : s.db.WF) :
    ∀ e ∈ s.db.events id, e.kind.isTerminal = false := by
  intro e he
  by_contra hterminal
  rw [Bool.not_eq_false] at hterminal
  have hsnap := ((hwf.log h.task).of_terminal_event he hterminal).1
  rcases h.state with hs | hs <;> rw [hs] at hsnap <;> cases hsnap

theorem Reporting.poll (h : Reporting id i snap s) (tid : ℕ) : ∃ n, s.subscribe id = some ⟨i, n⟩ ∧
      (report tid snap s).poll ⟨i, n⟩ = some (.value (reported snap).event, ⟨i, n + 1⟩) := by
  obtain ⟨sent, hch⟩ := h.channel
  refine ⟨sent.length, ?_, ?_⟩
  · simp [CoreState.subscribe, h.active, hch]
  · rw [h.report_eq]
    simp [CoreState.poll, CoreState.onChannel, hch, Channel.send, Channel.recv]

end

theorem exists_reporting (events : List DriverEvent) :
    ∃ (p : Pool (contractCore singleAgentSetup)) (t : Thread (contractCore singleAgentSetup))
      (e : CoreEntry) (f : Option (Except CoreError Unit) → Prog (coreSig contractSig) Unit)
      (g : Unit → Prog (coreSig contractSig) CoreOutcome) (snap : TaskSnapshot), p.Reachable ∧
      p.threads = [t, ⟨e, ((withTimeout (singleAgentSetup.over contractMachine)
        (drainStream (singleAgentSetup.over contractMachine) 1 events).run).bind f).bind g⟩] ∧
      Reporting 1 0 snap p.state ∧ snap.lastSeq = 1 :=
  ⟨⟨⟨_, _⟩, _⟩, _, _, _, _, _, Pool.Reachable.start.run
    (rfl : (Pool.start (contractCore singleAgentSetup)).run
      (acceptedTask ++ turns 1 1 ++ [.step 1 { calm with stream := .ok events }]) = _), rfl,
    ⟨rfl, rfl, Or.inl rfl, rfl, ⟨_, rfl⟩⟩, rfl⟩

/-- A task with 1001 events and one more to come, and a consumer that is about to subscribe. -/
theorem exists_backlog (fuels : List ℕ) :
    ∃ (p : Pool (contractCore singleAgentSetup)) (t : Thread (contractCore singleAgentSetup))
      (e : CoreEntry) (f : Option (Except CoreError Unit) → Prog (coreSig contractSig) Unit)
      (g : Unit → Prog (coreSig contractSig) CoreOutcome) (snap : TaskSnapshot), p.Reachable ∧
      p.threads = [t, ⟨e, ((withTimeout (singleAgentSetup.over contractMachine)
        (drainStream (singleAgentSetup.over contractMachine) 1 [.progress "" none]).run).bind
          f).bind g⟩, ⟨.stream 1 0 fuels, (session
          (singleAgentSetup.over contractMachine) 1 0 fuels).bind (fun _ => .pure .streamed)⟩] ∧
      Reporting 1 0 snap p.state ∧ snap.lastSeq = 1001 ∧ p.own 2 = [] := by
  obtain ⟨p, t, e, f, g, snap, hp, hthreads, hreporting, hseq⟩ :=
    exists_reporting (List.replicate 1000 (.progress "" none) ++ [.progress "" none])
  obtain ⟨l, s', snap', hsolo, hreporting', hseq'⟩ := hreporting.solo_replicate
    singleAgentSetup 1 p.threads.length 1000 [.progress "" none]
  obtain ⟨l', hsolo'⟩ := solo_withTimeout (singleAgentSetup.over contractMachine) hsolo
  obtain ⟨q, hq, hstate, hthreads', hown⟩ := hp.solo (by rw [hthreads]; rfl)
    ((hsolo'.bind f).bind g)
  have hcall : q.act (.call (.stream 1 0 fuels)) = some { q with
      threads := q.threads ++ [⟨.stream 1 0 fuels, _⟩] } := rfl
  refine ⟨_, t, e, f, g, snap', hq.act hcall, ?_, ?_, ?_, ?_⟩
  · simp only [hthreads', hthreads]
    rfl
  · simp only [hstate]
    exact hreporting'
  · omega
  · have hnone := hq.own_length_eq_nil
    rw [hthreads', hthreads] at hnone
    exact hnone

/-- What a consumer that has the first page of a log of 1002 events gets, when the next live event
it polls is the last one. -/
theorem Reporting.solo_skip {s : CoreState LogStore} (h : Reporting 1 i snap s) (setup : CoreSetup)
    (tid next : ℕ) (hwf : s.db.WF) (hseq : snap.lastSeq = 1002)
    (hfirst : Numbered CoreEvent.seq 1 first) (hlength : first.length = 500)
    (hopen : ∀ e ∈ first, e.kind.isTerminal = false) (he : e.seq = 1002)
    (hkind : e.kind.isTerminal = false) {receiver receiver' : Receiver}
    (hpoll : s.poll receiver = some (.value e, receiver')) :
    ∃ l stream, Solo (contractCore setup) tid next s (consume (contractHistory setup) 0
        (List.replicate 500 1 ++ 2 :: List.replicate 500 1) ⟨1, 0, first, receiver, false⟩) l
      s (consume (contractHistory setup) 0 [] stream) ∧
      (l.reverse.filterMap emitted).map CoreEvent.seq = List.range' 1 1000 ++ [1002] := by
  have hpage := hwf.isPage 1 500 500 (Nat.zero_le _)
  have hsecond : (s.db.page 1 500 500).length = 500 := by
    rw [hwf.page_eq, List.length_take, List.length_drop, ← (hwf.log h.task).lastSeq, hseq]
    rfl
  have hclosed : ∀ e' ∈ s.db.page 1 500 500 ++ [e], e'.kind.isTerminal = false := by
    intro e' he'
    rcases List.mem_append.mp he' with he' | he'
    · exact h.isTerminal hwf e' (hpage.logged e' he')
    · rw [List.mem_singleton] at he'
      rw [he']
      exact hkind
  -- The first page; the live event, which makes the stream read the second page; the rest.
  have hdrained : first.foldl deliver ⟨1, 0, [], receiver, false⟩ =
      ⟨1, 500, [], receiver, false⟩ := by
    rw [foldl_deliver rfl hopen hfirst, hlength]
  obtain ⟨l₁, hsolo₁, hl₁⟩ := solo_consume setup tid next
    (contractHistory setup) s 0 0 (2 :: List.replicate 500 1) first []
    (show (⟨1, 0, [], receiver, false⟩ : ReliableTaskStream).terminal = false from rfl) hopen
  rw [hdrained, List.append_nil, hlength] at hsolo₁
  obtain ⟨l₂, hsolo₂, hl₂⟩ := solo_gap setup tid next 0 1 (List.replicate 500 1)
    (show (⟨1, 500, [], receiver, false⟩ : ReliableTaskStream).terminal = false from rfl) rfl hpoll
    (by simp only; omega) (h.read tid 500 500)
  rw [values_merge_after hpage.numbered (by omega)] at hsolo₂
  obtain ⟨l₃, hsolo₃, hl₃⟩ := solo_consume setup tid next
    (contractHistory setup) s 0 0 [] (s.db.page 1 500 500 ++ [e]) []
    (show (⟨1, 500, [], receiver', false⟩ : ReliableTaskStream).terminal = false from rfl) hclosed
  rw [List.append_nil, List.append_nil, List.length_append, hsecond] at hsolo₃
  refine ⟨l₃ ++ (l₂ ++ l₁), _, (hsolo₁.trans hsolo₂).trans hsolo₃, ?_⟩
  have hnumbered : Numbered CoreEvent.seq 1 (first ++ s.db.page 1 500 500) := by
    rw [Numbered.append_iff, hlength]
    exact ⟨hfirst, hpage.numbered⟩
  rw [List.reverse_append, List.reverse_append, List.filterMap_append, List.filterMap_append, hl₁,
    hl₂, hl₃, List.append_nil, ← List.append_assoc, List.map_append, hnumbered, List.length_append,
    hlength, hsecond, List.map_singleton, he]

/-- The consumer of a log of 1002 events that is never told about number 1001. -/
theorem stream_skips_event : ∃ p : Pool (contractCore singleAgentSetup), p.Reachable ∧
      (∃ th, p.threads[2]? = some th ∧ th.entry.stream? = some (1, 0)) ∧
      (p.state.db.events 1).map CoreEvent.seq = List.range' 1 1002 ∧
      (delivered p.toWorld 2).map CoreEvent.seq = List.range' 1 1000 ++ [1002] := by
  obtain ⟨p, t, e, f, g, snap, hp, hthreads, hreporting, hseq, hown⟩ :=
    exists_backlog (List.replicate 500 1 ++ 2 :: List.replicate 500 1)
  have hwf := ((custody_sound singleAgentSetup).inv hp (fun _ _ => trivial)).state.db
  -- The consumer subscribes and gets the first page.
  obtain ⟨n, hsubscribe, hpoll⟩ := hreporting.poll 1
  obtain ⟨l₁, hsolo₁, hl₁⟩ := solo_session singleAgentSetup 2 p.threads.length
    (hreporting.read 2 0 500) hsubscribe
  obtain ⟨p₁, hp₁, hstate₁, hthreads₁, hown₁⟩ := hp.solo (by rw [hthreads]; rfl) (hsolo₁.bind _)
  -- The worker handles one more report.
  rw [← hstate₁] at hreporting
  obtain ⟨l₂, hsolo₂⟩ := hreporting.solo singleAgentSetup 1 p₁.threads.length []
  obtain ⟨l₂', hsolo₂'⟩ := solo_withTimeout (singleAgentSetup.over contractMachine) hsolo₂
  obtain ⟨p₂, hp₂, hstate₂, hthreads₂, hown₂⟩ := hp₁.solo (by rw [hthreads₁, hthreads]; rfl)
    ((hsolo₂'.bind f).bind g)
  have hwf₂ := ((custody_sound singleAgentSetup).inv hp₂ (fun _ _ => trivial)).state.db
  have hreporting₂ : Reporting 1 0 (reported snap).snapshot p₂.state := by
    rw [hstate₂]
    exact hreporting.after_report
  have hseq₂ : (reported snap).snapshot.lastSeq = 1002 := by
    change snap.lastSeq + 1 = 1002
    omega
  rw [← hstate₁, ← hstate₂] at hpoll
  -- The consumer gets the page, the event that was sent live, and the rest of what it read.
  rw [hstate₁] at hreporting
  have hpage := hwf.isPage 1 0 500 (Nat.zero_le _)
  have hlength : (p.state.db.page 1 0 500).length = 500 := by
    rw [hwf.page_eq, List.length_take, List.length_drop, ← (hwf.log hreporting.task).lastSeq, hseq]
    rfl
  have hfilter : (p.state.db.page 1 0 500).filter (fun e => 0 < e.seq) =
      p.state.db.page 1 0 500 := by
    rw [List.filter_eq_self]
    intro e' he'
    have := (hpage.numbered.mem_bounds he').1
    simp only [decide_eq_true_eq]
    omega
  obtain ⟨l₃, stream, hsolo₃, hl₃⟩ := hreporting₂.solo_skip singleAgentSetup 2
    p₂.threads.length hwf₂ hseq₂ hpage.numbered hlength
    (fun e' he' => hreporting.isTerminal hwf e' (hpage.logged e' he')) hseq₂ rfl hpoll
  have hth : p₂.threads[2]? = some ⟨.stream 1 0 (List.replicate 500 1 ++ 2 :: List.replicate 500 1),
      (consume (contractHistory singleAgentSetup) 0
        (List.replicate 500 1 ++ 2 :: List.replicate 500 1)
        ⟨1, 0, p.state.db.page 1 0 500, ⟨0, n⟩, false⟩).bind (fun _ => .pure .streamed)⟩ := by
    rw [hthreads₂, hthreads₁, hthreads, new, hfilter]
    rfl
  obtain ⟨p₃, hp₃, hstate₃, hthreads₃, hown₃⟩ := hp₂.solo hth (hsolo₃.bind _)
  refine ⟨p₃, hp₃, ?_, ?_, ?_⟩
  · obtain ⟨hlt, _⟩ := List.getElem?_eq_some_iff.mp hth
    exact ⟨_, hthreads₃ ▸ List.getElem?_set_self hlt, rfl⟩
  · rw [hstate₃, (hwf₂.log hreporting₂.task).seqs, ← (hwf₂.log hreporting₂.task).lastSeq, hseq₂]
  · rw [delivered, hown₃, if_pos rfl, hown₂, if_neg (by decide), hown₁, if_pos rfl, hown,
      List.append_nil, List.reverse_append, List.filterMap_append, hl₁, List.nil_append]
    exact hl₃

end AgentConnector
