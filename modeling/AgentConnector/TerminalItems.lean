import AgentConnector.ExecutorTurns

/-!
# Terminal items of the A2A stream

The executor ends its stream after a terminal event that it receives, and answers a closed channel
with a cancelled task. It does neither look for terminal events in the history nor at the state of
the task whose channel is closed. If the history holds no terminal event, and a channel that is
found closed is that of a cancelled task, then a terminal item is the last one and tells the truth.
-/

namespace AgentConnector

open Concurrent Broadcast AdapterAgentExecutor List Option

open A2a (A2AError StreamResponse)

variable {this : AdapterAgentExecutor} {parse : String → Option Uuid} {setup : CoreSetup}
  {ctx : ExecutorContext}

/-- If the operation reads a page of a log, no event of the page is terminal. -/
def CoreOp.ReadsLive (s : CoreState LogStore) : CoreOp contractSig → Prop
  | .store (.eventsAfter id afterSeq limit) =>
    ∀ e ∈ s.db.page id afterSeq limit, e.kind.isTerminal = false
  | _ => True

instance (s : CoreState LogStore) (o : CoreOp contractSig) : Decidable (o.ReadsLive s) :=
  decidable_of_bool (match o with
    | .store (.eventsAfter id afterSeq limit) =>
      ∀ e ∈ s.db.page id afterSeq limit, e.kind.isTerminal = false
    | _ => true) (by unfold CoreOp.ReadsLive; split <;> simp)

def closedOn? : Look (executorStream this parse setup ctx) → Option Receiver
  | ⟨.recv receiver, (.closed, _), _⟩ => some receiver
  | _ => none

def CoreState.polledTask (s : CoreState LogStore) (receiver : Receiver) : Option TaskSnapshot :=
  (s.channels[receiver.channel]?).bind (fun ch => s.db.tasks ch.task)

/-- The stream has read only events that are not terminal as history, and has found only channels of
cancelled tasks closed. -/
structure EndsLive (g : Record (executorStream this parse setup ctx)) : Prop where
  read : ∀ tid ∈ g.calls, ∀ st ∈ g.pool.own tid, st.op.ReadsLive st.pre
  closed : ∀ l ∈ g.looks, ∀ receiver ∈ closedOn? l,
    (l.state.polledTask receiver).map TaskSnapshot.state = some .cancelled

theorem EndsLive.of_grows (h : EndsLive g') (hg : g.Grows g') : EndsLive g := by
  obtain ⟨as, has⟩ := hg.pool
  exact ⟨fun tid htid st hst => h.read tid (hg.calls.subset htid) st (Pool.run_own has hst),
    fun l hl => h.closed l (hg.looks.subset hl)⟩

/-- The state is the stored terminal state of the task that is streamed. -/
def IsStoredEnd (g : Record (executorStream this parse setup ctx)) (state : A2a.TaskState) : Prop :=
  ∃ id sub snap, g.Called (.subscribe id 0) (.subscribed (.ok sub)) ∧
    g.pool.state.db.tasks id = some snap ∧ snap.state.terminal = true ∧
    mapTaskState snap.state = state

/-- Every terminal item is the last one, ends the stream and names the stored state. -/
def TellsEnd (s : Session (executorStream this parse setup ctx)) : Prop :=
  ∀ i response state, s.items[i]? = some (.ok response) → response.ended? = some state →
    i + 1 = s.items.length ∧ s.rest = none ∧ IsStoredEnd s.toRecord state

def Quiet (items : List (Except A2AError StreamResponse)) : Prop :=
  ∀ response, .ok response ∈ items → response.ended? = none

theorem ended?_eventToStreamResponse (e : CoreEvent) (now : DateTime) :
    (eventToStreamResponse e now).ended? =
      if e.kind.isTerminal then some (mapTaskState e.kind.state) else none := by
  unfold eventToStreamResponse
  cases e.kind <;> rfl

theorem Quiet.concat (h : Quiet items) (he : e.kind.isTerminal = false) (now : DateTime) :
    Quiet (items ++ [.ok (eventToStreamResponse e now)]) := by
  intro response hmem
  rcases mem_append.mp hmem with hmem | hmem
  · exact h response hmem
  · rw [mem_singleton] at hmem
    rw [Except.ok.inj hmem, ended?_eventToStreamResponse, he]
    rfl

theorem IsStoredEnd.emit (h : IsStoredEnd g state) (item : Option (Except A2AError StreamResponse))
    : IsStoredEnd (g.emit item) state := h

theorem IsStoredEnd.grows (h : IsStoredEnd g state) (hp : g.pool.Reachable) (hg : g.Grows g') :
    IsStoredEnd g' state := by
  obtain ⟨id, sub, snap, hcalled, hsnap, hterminal, hstate⟩ := h
  obtain ⟨as, has⟩ := hg.pool
  obtain ⟨snap', hsnap', hsucc⟩ := (run_extends hp has).db.task hsnap
  rw [hsucc.terminal hterminal] at hsnap'
  exact ⟨id, sub, snap, hcalled.grows hg, hsnap', hterminal, hstate⟩

section

variable {g g' : Record (executorStream this parse setup ctx)} {id : TaskId}
  {sub : TaskSubscription}

theorem Streaming.live (h : Streaming g id sub) (hp : g.pool.Reachable) (hlive : EndsLive g)
    (he : e ∈ sub.history) : e.kind.isTerminal = false := by
  obtain ⟨sub₀, ⟨tid, htid, th, hth, hentry, hres⟩, _, _, hsuffix⟩ := h
  obtain ⟨read, opened, hopened⟩ := exists_openedBy hp hth hentry hres
  have hmem := hsuffix.subset he
  rw [hopened.history] at hmem
  have hread := hlive.read tid htid read hopened.memRead
  rw [hopened.reads] at hread
  exact hread e hmem

theorem Streaming.isStoredEnd (h : Streaming g id sub) (hp : g.pool.Reachable) (hg : g.Grows g')
    (hlook : Record.Looked g g' (.recv sub.receiver) (.value e, receiver) s)
    (he : e.kind.isTerminal = true) : IsStoredEnd g' (mapTaskState e.kind.state) := by
  obtain ⟨hwf, _, hext, _, ch, hch, htask, hrecv⟩ := h.polled hp hlook
  have hlogged := hwf.sent hch e (Channel.mem_sent_of_recv hrecv)
  rw [htask] at hlogged
  have hmem := (hext.db.events id).subset hlogged
  obtain ⟨sub₀, hcalled, _⟩ := h
  have hwf' := wf_of_reachable (hg.reachable hp)
  cases hsnap : g'.pool.state.db.tasks id with
  | none =>
    rw [hwf'.db.unknown hsnap] at hmem
    cases hmem
  | some snap =>
    have hstate := (hwf'.db.log hsnap).state_of_terminal_event hmem he
    refine ⟨id, sub₀, snap, hcalled.grows hg, hsnap, ?_, by rw [hstate]⟩
    rw [hstate, CoreEventKind.terminal_state]
    exact he

theorem Streaming.isStoredEnd_closed (h : Streaming g id sub) (hp : g.pool.Reachable)
    (hg : g.Grows g') (hlive : EndsLive g')
    (hlook : Record.Looked g g' (.recv sub.receiver) (.closed, receiver) s) :
    IsStoredEnd g' .canceled := by
  obtain ⟨_, _, hext, _, ch, hch, htask, _⟩ := h.polled hp hlook
  have hcancelled := hlive.closed _ hlook.mem sub.receiver rfl
  simp only [CoreState.polledTask, hch, bind_some, htask] at hcancelled
  obtain ⟨snap, hsnap, hstate⟩ := map_eq_some_iff.mp hcancelled
  have hterminal : snap.state.terminal = true := by rw [hstate]; rfl
  obtain ⟨snap', hsnap', hsucc⟩ := hext.db.task hsnap
  rw [hsucc.terminal hterminal] at hsnap'
  obtain ⟨sub₀, hcalled, _⟩ := h
  exact ⟨id, sub₀, snap, hcalled.grows hg, hsnap', hterminal, by rw [hstate]; rfl⟩

end

def EndInv (phase : State) (g : Record (executorStream this parse setup ctx)) : Prop :=
  EndsLive g → match phase with
    | .init => g.items = []
    | .ready sub => Quiet g.items ∧ ∃ id, Streaming g id sub
    | .done => ∃ front last, g.items = front ++ [last] ∧ Quiet front ∧
        ∀ response state, last = .ok response → response.ended? = some state → IsStoredEnd g state

theorem ensures_endInv (phase : State) (turn : (executorStream this parse setup ctx).Turn)
    (g : Record (executorStream this parse setup ctx)) (hp : g.pool.Reachable)
    (hinv : EndInv phase g) (ht : this.turn parse ctx phase = some turn) :
    (executorStream this parse setup ctx).Ensures
      (fun x g' => EndInv x.1 (g'.emit x.2)) turn g := by
  cases phase with
  | init =>
    refine (ensures_init g ht).mono ?_
    rintro x g' ⟨hg, hx⟩ hlive
    have hlive' : EndsLive g' := ⟨hlive.read, hlive.closed⟩
    have hitems : g'.items = [] := hg.items.trans (hinv (hlive'.of_grows hg))
    rcases hx with ⟨id, sub, rfl, _, _, _, _, _, _, _, _, _, hcalled⟩ | ⟨e, rfl, _⟩
    · refine ⟨?_, id, sub, hcalled, rfl, rfl, suffix_rfl⟩
      intro response hmem
      simp [Record.emit, hitems] at hmem
    · refine ⟨[], .error e, by simp [Record.emit, hitems], ?_, fun _ _ h => by cases h⟩
      intro response hmem
      cases hmem
  | ready sub =>
    refine (ensures_ready g ht).mono ?_
    rintro x g' ⟨hg, hx⟩ hlive
    have hlive' : EndsLive g' := ⟨hlive.read, hlive.closed⟩
    obtain ⟨hquiet, id, hstream⟩ := hinv (hlive'.of_grows hg)
    rw [← hg.items] at hquiet
    cases hx with
    | @history e rest now h =>
      have he := hstream.live hp (hlive'.of_grows hg) (e := e) (by rw [h]; simp)
      exact ⟨hquiet.concat he now, id, ((hstream.rest h).grows hg).emit _⟩
    | skipped h hlook =>
      have hchannel := (hstream.polled hp hlook).2.2.2.1
      refine ⟨?_, id, ((hstream.moved hchannel).grows hg).emit _⟩
      rw [Record.emit, toList_none, append_nil]
      exact hquiet
    | @received e receiver s now h hlook hlast =>
      cases he : e.kind.isTerminal with
      | true =>
        refine ⟨g'.items, _, rfl, hquiet, ?_⟩
        intro response state hresponse hended
        rw [← Except.ok.inj hresponse, ended?_eventToStreamResponse, he] at hended
        cases hended
        exact (hstream.isStoredEnd hp hg hlook he).emit _
      | false =>
        have hchannel := (hstream.polled hp hlook).2.2.2.1
        exact ⟨hquiet.concat he now, id, ((hstream.moved hchannel).grows hg).emit _⟩
    | closed h hlook =>
      refine ⟨g'.items, _, rfl, hquiet, ?_⟩
      intro response state hresponse hended
      rw [← Except.ok.inj hresponse] at hended
      cases hended
      exact (hstream.isStoredEnd_closed hp hg hlive' hlook).emit _
    | lagged h hlook =>
      exact ⟨g'.items, _, rfl, hquiet, fun _ _ h => by cases h⟩
  | done => cases ht

/-- In every session in which the history that was read holds no terminal event, and no channel was
found closed unless its task was cancelled, every terminal item is the last one, ends the stream and
names the stored state of the task. -/
theorem terminal_items_tell_end (this : AdapterAgentExecutor) (parse : String → Option Uuid)
    (setup : CoreSetup) (ctx : ExecutorContext)
    {s : Session (executorStream this parse setup ctx)} (hs : s.Reachable)
    (hlive : EndsLive s.toRecord) : TellsEnd s := by
  obtain ⟨phase, g, hinv, hp, hg, hrest⟩ := hs.invariant ensures_endInv (fun p _ _ => rfl)
  have hinv := hinv (hlive.of_grows hg)
  have hquiet : ∀ {i : ℕ} {response : StreamResponse} {state : A2a.TaskState}, Quiet s.items →
      s.items[i]? = some (.ok response) → response.ended? = some state → False := by
    intro i response state hq hi hended
    rw [hq response (mem_of_getElem? hi)] at hended
    cases hended
  intro i response state hi hended
  cases phase with
  | init =>
    rw [hg.items, hinv] at hi
    cases hi
  | ready sub =>
    rw [← hg.items] at hinv
    exact (hquiet hinv.1 hi hended).elim
  | done =>
    obtain ⟨front, last, hitems, hfront, hlast⟩ := hinv
    rw [← hg.items] at hitems
    have hdone : s.rest = none := by
      cases hr : s.rest with
      | none => rfl
      | some turn =>
        rw [hr] at hrest
        cases hrest
    by_cases hi' : i < front.length
    · rw [hitems, getElem?_append_left hi'] at hi
      rw [hfront response (mem_of_getElem? hi)] at hended
      cases hended
    · have hlt : i < s.items.length := (List.getElem?_eq_some_iff.mp hi).1
      rw [hitems, List.length_append, List.length_singleton] at hlt
      have hlen : i = front.length := by omega
      rw [hitems, hlen, getElem?_concat_length] at hi
      refine ⟨by rw [hitems, hlen]; simp, hdone, ?_⟩
      exact (hlast response state (Option.some.inj hi) hended).grows hp hg

def firstTask : ExecutorContext := ⟨"1", "1", none, none, []⟩

def streamOwn (n : ℕ) : List (SessionAction (contractCore singleAgentSetup)) :=
  List.replicate n (.own calm)

def streamCore (as : List (Action (contractCore singleAgentSetup))) :
    List (SessionAction (contractCore singleAgentSetup)) :=
  as.map .core

def completingWorker : List (Action (contractCore singleAgentSetup)) :=
  .step 1 calm :: .step 1 { calm with stream := .ok [.completed []] } :: steps singleAgentSetup 1 16

def endOf : Except A2AError StreamResponse → Option A2a.TaskState
  | .ok response => response.ended?
  | .error _ => none

abbrev localStream : Client (contractCore singleAgentSetup) :=
  executorStream (.new "caller") (fun _ => some 1) singleAgentSetup firstTask

/-- The stream subscribes while the task runs and receives its completion. -/
theorem terminal_items_tell_end_live : ∃ s : Session localStream, s.Reachable ∧
      s.items.map endOf = [none, some .completed] ∧ TellsEnd s := by
  obtain ⟨s, hs, hitems, hread, hclosed⟩ := Session.exists_reachable (C := localStream) []
    (streamOwn 1 ++ streamCore (turns 0 12) ++ streamOwn 2 ++
      streamCore (turns 2 2) ++ streamOwn 4 ++ streamCore completingWorker ++ streamOwn 3)
    (fun s => s.items.map endOf = [none, some .completed] ∧
      (∀ tid ∈ s.calls, ∀ st ∈ s.pool.own tid, st.op.ReadsLive st.pre) ∧
      ∀ l ∈ s.looks, ∀ receiver ∈ closedOn? l,
        (l.state.polledTask receiver).map TaskSnapshot.state = some .cancelled)
    (by decide +kernel)
  exact ⟨s, hs, hitems, terminal_items_tell_end _ _ _ _ hs ⟨hread, hclosed⟩⟩

/-- The task has completed before the stream subscribes: its completion is handed on from the
history, and a cancelled task follows. -/
theorem terminal_history_continues : ∃ s : Session localStream, s.Reachable ∧
      s.items.map endOf = [none, some .completed, some .canceled] ∧
      (s.pool.state.db.tasks 1).map TaskSnapshot.state = some .completed ∧ ¬ TellsEnd s := by
  obtain ⟨s, hs, hitems, hstate⟩ := Session.exists_reachable (C := localStream) []
    (streamOwn 1 ++ streamCore (turns 0 12 ++ completingWorker) ++ streamOwn 2 ++
      streamCore (turns 2 3) ++ streamOwn 9)
    (fun s => s.items.map endOf = [none, some .completed, some .canceled] ∧
      (s.pool.state.db.tasks 1).map TaskSnapshot.state = some .completed)
    (by decide +kernel)
  refine ⟨s, hs, hitems, hstate, fun htells => ?_⟩
  have hlen : s.items.length = 3 := by simpa using congrArg List.length hitems
  have hitem : (s.items[1]?).map endOf = some (some .completed) := by
    rw [← getElem?_map, hitems]
    rfl
  obtain ⟨item, hi, hend⟩ := map_eq_some_iff.mp hitem
  cases item with
  | error e => cases hend
  | ok response =>
    have hlast := (htells 1 response .completed hi hend).1
    omega

end AgentConnector
