import AgentConnector.BroadcastOrder
import AgentConnector.TerminalItems

/-!
# The A2A stream and the log

The executor hands on the history and then what it receives, except for received events that the
history covers. It relies on the receiver to continue where the history ends and on broadcasts to
come in the order of the log. If they do, and a channel that is found closed is that of a task whose
whole log was read or broadcast, then the items are the events of the log from the first one on,
without a gap, and the stream only ends with an error or with the end of the log.
-/

namespace AgentConnector

open Concurrent Broadcast AdapterAgentExecutor List Option

open A2a (A2AError StreamResponse)

variable {this : AdapterAgentExecutor} {parse : String → Option Uuid} {setup : CoreSetup}
  {ctx : ExecutorContext}

def CoreState.sentOn (s : CoreState LogStore) (receiver : Receiver) : ℕ :=
  match s.channels[receiver.channel]? with
  | some ch => ch.channel.sent.length
  | none => 0

/-- Events of the task are broadcast in the order of its log, the receiver of the stream is opened
before the broadcasts have come past the history, and when its channel is found closed the task has
ended and all of its events were in the history or broadcast. -/
structure InOrder (g : Record (executorStream this parse setup ctx)) (id : TaskId) : Prop where
  sends : ∀ st ∈ g.pool.trace, st.op.SendsNext id st.pre
  opened : ∀ tid ∈ g.calls, ∀ read ∈ g.pool.own tid, ∀ opened ∈ g.pool.own tid,
    read.op.reads = true → opened.op.opens = true →
    (opened.pre.broadcast id).length ≤ (read.pre.db.page id 0 500).length
  closed : ∀ l ∈ g.looks, ∀ receiver ∈ closedOn? l, ∀ tid ∈ g.calls, ∀ read ∈ g.pool.own tid,
    read.op.reads = true →
    (l.state.polledTask receiver).any (fun snap => snap.state.terminal) = true ∧
      (l.state.db.events id).length ≤
        max (read.pre.db.page id 0 500).length (l.state.sentOn receiver)

variable {g : Record (executorStream this parse setup ctx)} {id : TaskId}

theorem InOrder.of_grows (h : InOrder g' id) (hg : g.Grows g') : InOrder g id := by
  obtain ⟨as, has⟩ := hg.pool
  obtain ⟨l, hl⟩ := Pool.run_trace has
  refine ⟨fun st hst => h.sends st (by rw [hl]; exact mem_append_right l hst), ?_, ?_⟩
  · intro tid htid read hread opened hopened
    exact h.opened tid (hg.calls.subset htid) read (Pool.run_own has hread) opened
      (Pool.run_own has hopened)
  · intro look hlook receiver hreceiver tid htid read hread
    exact h.closed look (hg.looks.subset hlook) receiver hreceiver tid (hg.calls.subset htid) read
      (Pool.run_own has hread)

def Images (items : List (Except A2AError StreamResponse)) (events : List CoreEvent) : Prop :=
  List.Forall₂ (fun item e => ∃ now, item = .ok (eventToStreamResponse e now)) items events

theorem Images.concat (h : Images items events) (e : CoreEvent) (now : DateTime) :
    Images (items ++ [.ok (eventToStreamResponse e now)]) (events ++ [e]) :=
  rel_append h (.cons ⟨now, rfl⟩ .nil)

def TaskSubscription.reach (sub : TaskSubscription) : ℕ :=
  max (sub.historyEndSeq.getD 0) sub.receiver.next

/-- The stream has handed on `events`, and its history continues the log after them. -/
structure HandedOn (g : Record (executorStream this parse setup ctx)) (id : TaskId)
    (sub : TaskSubscription) (events : List CoreEvent) : Prop where
  stream : Streaming g id sub
  images : Images g.items events
  split : events ++ sub.history = (g.pool.state.db.events id).take sub.reach
  reach : sub.reach ≤ (g.pool.state.db.events id).length
  next : sub.history ≠ [] → sub.receiver.next ≤ sub.historyEndSeq.getD 0

theorem take_eq_of_extends {α : Type} {l l' : List α} (h : l <+: l') (hn : n ≤ l.length) :
    l'.take n = l.take n := by
  obtain ⟨rest, rfl⟩ := h
  exact take_append_of_le_length hn

section

variable {g g' : Record (executorStream this parse setup ctx)} {id : TaskId}
  {sub : TaskSubscription} {events : List CoreEvent}

theorem HandedOn.grows (h : HandedOn g id sub events) (hp : g.pool.Reachable) (hg : g.Grows g') :
    HandedOn g' id sub events := by
  obtain ⟨as, has⟩ := hg.pool
  have hlog := (run_extends hp has).db.events id
  refine ⟨h.stream.grows hg, by rw [hg.items]; exact h.images, ?_, ?_, h.next⟩
  · rw [take_eq_of_extends hlog h.reach]
    exact h.split
  · exact h.reach.trans hlog.length_le

theorem OpenedBy.endSeq_eq (hp : p.Reachable) {read opened : Step (contractCore setup)}
    (h : OpenedBy p tid id sub read opened) :
    sub.historyEndSeq.getD 0 = (read.pre.db.page id 0 500).length := by
  obtain ⟨hwf, _, _⟩ := extends_of_mem_trace hp (World.mem_own.mp h.memRead).1
  have hpage := hwf.db.isPage id 0 500 (le_refl (read.pre.db.events id).length)
  rw [h.endSeq, h.history]
  exact hpage.numbered.getLast?_getD

theorem handedOn_of_called (hp : g.pool.Reachable) (hitems : g.items = [])
    (hcalled : g.Called (.subscribe id 0) (.subscribed (.ok sub))) (horder : InOrder g id) :
    HandedOn g id sub [] := by
  obtain ⟨tid, htid, th, hth, hentry, hres⟩ := hcalled
  obtain ⟨read, opened, hopened⟩ := exists_openedBy hp hth hentry hres
  obtain ⟨hwf, hgrows, hext⟩ := extends_of_mem_trace hp (World.mem_own.mp hopened.memRead).1
  have hlog := (hgrows.trans hext).db.events id
  have hend := hopened.endSeq_eq hp
  have hnext : sub.receiver.next ≤ sub.historyEndSeq.getD 0 := by
    rw [hend]
    exact hopened.next.trans (horder.opened tid htid read hopened.memRead opened hopened.memOpened
      (by rw [hopened.reads]; rfl) (by rw [hopened.opens]; rfl))
  have hreach : sub.reach = (read.pre.db.page id 0 500).length := by
    rw [TaskSubscription.reach, Nat.max_eq_left hnext, hend]
  have hpage := hwf.db.page_eq id 0 500
  rw [drop_zero] at hpage
  have hle : sub.reach ≤ (read.pre.db.events id).length := by
    rw [hreach, hpage, length_take]
    exact Nat.min_le_right _ _
  refine ⟨⟨sub, ⟨tid, htid, th, hth, hentry, hres⟩, rfl, rfl, suffix_rfl⟩, ?_, ?_,
    hle.trans hlog.length_le, fun _ => hnext⟩
  · rw [hitems]
    exact .nil
  · rw [nil_append, take_eq_of_extends hlog hle, hopened.history, hreach, hpage,
    length_take,
      ← take_take, take_length]

variable {e : CoreEvent}

theorem HandedOn.history (h : HandedOn g id sub events) (hhistory : sub.history = e :: rest)
    (now : DateTime) :
    HandedOn (g.emit (some (.ok (eventToStreamResponse e now)))) id { sub with history := rest }
      (events ++ [e]) := by
  refine ⟨(h.stream.rest hhistory).emit _, h.images.concat e now, ?_, h.reach, fun _ => h.next ?_⟩
  · rw [append_assoc, singleton_append, ← hhistory]
    exact h.split
  · rw [hhistory]
    exact cons_ne_nil _ _

variable {receiver : Receiver} {s : CoreState LogStore}

theorem Streaming.polled_value (h : Streaming g id sub) (hp : g.pool.Reachable)
    (horder : InOrder g' id)
    (hlook : Record.Looked g g' (.recv sub.receiver) (.value e, receiver) s) :
    e.seq = sub.receiver.next + 1 ∧ receiver.next = sub.receiver.next + 1 ∧
      receiver.channel = sub.receiver.channel ∧ e ∈ g'.pool.state.db.events id := by
  obtain ⟨hwf, _, hext, hchannel, ch, hch, htask, hrecv⟩ := h.polled hp hlook
  obtain ⟨hget, hnext⟩ := Channel.value_of_recv hrecv
  have hlogged := hwf.sent hch e (mem_of_getElem? hget)
  rw [htask] at hlogged
  refine ⟨?_, hnext, hchannel, (hext.db.events id).subset hlogged⟩
  obtain ⟨q, rfl, ⟨as, has⟩, ⟨bs, hbs⟩⟩ := hlook.pool
  obtain ⟨l, hl⟩ := Pool.run_trace hbs
  have hnumbered := sent_numbered (hp.run has)
    (fun st hst => horder.sends st (by rw [hl]; exact mem_append_right l hst)) hch htask
  rw [hnumbered.of_getElem? hget, Nat.add_comm]

theorem HandedOn.skipped (h : HandedOn g id sub events) (hp : g.pool.Reachable) (hg : g.Grows g')
    (horder : InOrder g' id) (hhistory : sub.history = [])
    (hlook : Record.Looked g g' (.recv sub.receiver) (.value e, receiver) s)
    (hlast : sub.historyEndSeq = some last) (hseq : e.seq ≤ last) :
    HandedOn g' id { sub with receiver := receiver } events := by
  obtain ⟨hvalue, hnext, hchannel, _⟩ := h.stream.polled_value hp horder hlook
  have hg' := h.grows hp hg
  have hreach : TaskSubscription.reach { sub with receiver := receiver } = sub.reach := by
    simp only [TaskSubscription.reach, hlast, getD_some]
    omega
  refine ⟨hg'.stream.moved hchannel, hg'.images, ?_, ?_, fun hne => absurd hhistory hne⟩
  · rw [hreach]
    exact hg'.split
  · rw [hreach]
    exact hg'.reach

theorem HandedOn.received (h : HandedOn g id sub events) (hp : g.pool.Reachable) (hg : g.Grows g')
    (horder : InOrder g' id) (hhistory : sub.history = [])
    (hlook : Record.Looked g g' (.recv sub.receiver) (.value e, receiver) s)
    (hlast : ∀ last, sub.historyEndSeq = some last → last < e.seq) (now : DateTime) :
    HandedOn (g'.emit (some (.ok (eventToStreamResponse e now)))) id
      { sub with receiver := receiver } (events ++ [e]) := by
  obtain ⟨hvalue, hnext, hchannel, hlogged⟩ := h.stream.polled_value hp horder hlook
  have hg' := h.grows hp hg
  have hlog := (wf_of_reachable (hg.reachable hp)).db.numbered id
  have hend : sub.historyEndSeq.getD 0 ≤ sub.receiver.next := by
    cases hseq : sub.historyEndSeq with
    | none => exact Nat.zero_le _
    | some last =>
      have hlt := hlast last hseq
      rw [getD_some]
      omega
  have hreach : sub.reach = sub.receiver.next := Nat.max_eq_right hend
  have hreach' : TaskSubscription.reach { sub with receiver := receiver } =
      sub.receiver.next + 1 := by
    simp only [TaskSubscription.reach]
    omega
  have hsplit := hg'.split
  rw [hhistory, append_nil, hreach] at hsplit
  have hget := hlog.getElem?_of_mem hlogged
  rw [hvalue, Nat.add_sub_cancel] at hget
  refine ⟨(hg'.stream.moved hchannel).emit _, hg'.images.concat e now, ?_, ?_,
    fun hne => absurd hhistory hne⟩
  · rw [hreach', hhistory, append_nil, hsplit]
    change _ = (g'.pool.state.db.events id).take (sub.receiver.next + 1)
    rw [take_add_one, hget, toList_some]
  · rw [hreach']
    exact (List.getElem?_eq_some_iff.mp hget).1

/-- The task has ended, and `events` are all it has. -/
def Complete (g : Record (executorStream this parse setup ctx)) (id : TaskId)
    (events : List CoreEvent) : Prop :=
  events = g.pool.state.db.events id ∧
    ∃ snap, g.pool.state.db.tasks id = some snap ∧ snap.state.terminal = true

theorem Complete.grows (h : Complete g id events) (hp : g.pool.Reachable) (hg : g.Grows g') :
    Complete g' id events := by
  obtain ⟨hevents, snap, hsnap, hterminal⟩ := h
  obtain ⟨as, has⟩ := hg.pool
  obtain ⟨hsnap', hsame⟩ := LogStore.events_of_terminal (wf_of_reachable hp).db
    (wf_of_reachable (hg.reachable hp)).db (run_extends hp has).db hsnap hterminal
  exact ⟨by rw [hsame]; exact hevents, snap, hsnap', hterminal⟩

theorem HandedOn.complete (h : HandedOn g id sub events) (hp : g.pool.Reachable)
    (hhistory : sub.history = []) (hmem : e ∈ events) (he : e.kind.isTerminal = true) :
    Complete g id events := by
  have hwf := (wf_of_reachable hp).db
  have hsplit := h.split
  rw [hhistory, append_nil] at hsplit
  have hlogged : e ∈ g.pool.state.db.events id := by
    rw [hsplit] at hmem
    exact mem_of_mem_take hmem
  cases hsnap : g.pool.state.db.tasks id with
  | none =>
    rw [hwf.unknown hsnap] at hlogged
    cases hlogged
  | some snap =>
    have hlog := hwf.log hsnap
    obtain ⟨hterminal, hlast⟩ := hlog.of_terminal_event hlogged he
    -- The terminal event is the last one of the log.
    have hbound : e.seq < 1 + events.length := by
      have hnumbered := (hwf.numbered id).take sub.reach
      rw [← hsplit] at hnumbered
      exact (hnumbered.mem_bounds hmem).2
    refine ⟨?_, snap, hsnap, hterminal⟩
    rw [hsplit, take_of_length_le]
    rw [hsplit, length_take] at hbound
    have hlen := hlog.lastSeq
    omega

theorem HandedOn.closed (h : HandedOn g id sub events) (hp : g.pool.Reachable) (hg : g.Grows g')
    (horder : InOrder g' id) (hhistory : sub.history = [])
    (hlook : Record.Looked g g' (.recv sub.receiver) (.closed, receiver) s) :
    Complete g' id events := by
  obtain ⟨hwf, hbefore, hafter, _, ch, hch, htask, hrecv⟩ := h.stream.polled hp hlook
  obtain ⟨sub₀, ⟨tid, htid, th, hth, hentry, hres⟩, hend, _, _⟩ := h.stream
  obtain ⟨read, opened, hopened⟩ := exists_openedBy hp hth hentry hres
  obtain ⟨as, has⟩ := hg.pool
  obtain ⟨hterminal, hlen⟩ := horder.closed _ hlook.mem sub.receiver rfl tid
    (hg.calls.subset htid) read (Pool.run_own has hopened.memRead) (by rw [hopened.reads]; rfl)
  have hlog := hbefore.db.events id
  have hdrained := Channel.drained_of_recv hrecv
  simp only [CoreState.polledTask, hch, Option.bind_some, htask, Option.any_eq_true] at hterminal
  simp only [CoreState.sentOn, hch] at hlen
  obtain ⟨snap, hsnap, hterminal⟩ := hterminal
  obtain ⟨hsnap', hsame⟩ := LogStore.events_of_terminal hwf.db
    (wf_of_reachable (hg.reachable hp)).db hafter.db hsnap hterminal
  refine ⟨?_, snap, hsnap', hterminal⟩
  have hsplit := h.split
  rw [hhistory, append_nil] at hsplit
  have hreach : (s.db.events id).length ≤ sub.reach := by
    rw [TaskSubscription.reach, hend, hopened.endSeq_eq hp]
    omega
  rw [hsame, hsplit, ← take_eq_of_extends hlog h.reach, take_of_length_le hreach]

end

/-! ## The stream as a whole -/

/-- The stream has handed on a prefix of the log of its task; it has ended with an error, or with
the whole log of a task that has ended. -/
def DeliveredLog (g : Record (executorStream this parse setup ctx)) : Prop :=
  ∃ id events front tail, g.items = front ++ tail ∧ Images front events ∧
    events <+: g.pool.state.db.events id ∧
    (events ≠ [] → ∃ sub, g.Called (.subscribe id 0) (.subscribed (.ok sub))) ∧
    ((∃ e, tail = [.error e]) ∨
      Complete g id events ∧ (tail = [] ∨ ∃ now, tail = [.ok (terminalStreamResponse ctx now)]))

/-- The conditions for the task that the stream has subscribed to. -/
def StreamsInOrder (g : Record (executorStream this parse setup ctx)) : Prop :=
  ∀ id sub, g.Called (.subscribe id 0) (.subscribed (.ok sub)) → InOrder g id

def LogInv (phase : State) (g : Record (executorStream this parse setup ctx)) : Prop :=
  StreamsInOrder g → match phase with
    | .init => g.items = []
    | .ready sub => ∃ id events, HandedOn g id sub events
    | .done => DeliveredLog g

theorem StreamsInOrder.of_grows (h : StreamsInOrder g') (hg : g.Grows g') : StreamsInOrder g :=
  fun id sub hcalled => (h id sub (hcalled.grows hg)).of_grows hg

theorem StreamsInOrder.of_emit (h : StreamsInOrder (g.emit item)) :
    StreamsInOrder g :=
  fun id sub hcalled => ⟨(h id sub hcalled).sends, (h id sub hcalled).opened,
    (h id sub hcalled).closed⟩

theorem HandedOn.isPrefix (h : HandedOn g id sub events) :
    events <+: g.pool.state.db.events id := by
  have hsplit := prefix_append events sub.history
  rw [h.split] at hsplit
  exact hsplit.trans (List.take_prefix _ _)

theorem ensures_logInv (phase : State) (turn : (executorStream this parse setup ctx).Turn)
    (g : Record (executorStream this parse setup ctx)) (hp : g.pool.Reachable)
    (hinv : LogInv phase g) (ht : this.turn parse ctx phase = some turn) :
    (executorStream this parse setup ctx).Ensures
      (fun x g' => LogInv x.1 (g'.emit x.2)) turn g := by
  cases phase with
  | init =>
    refine (ensures_init g ht).mono ?_
    rintro x g' ⟨hg, hx⟩ horder
    have hitems : g'.items = [] := hg.items.trans (hinv (horder.of_emit.of_grows hg))
    rcases hx with ⟨id, sub, rfl, _, _, _, _, _, _, _, _, _, hcalled⟩ | ⟨e, rfl, _⟩
    · rw [Record.emit_none]
      exact ⟨id, [], handedOn_of_called (hg.reachable hp) hitems hcalled
        (horder.of_emit id sub hcalled)⟩
    · refine ⟨0, [], [], [.error e], by simp [Record.emit, hitems], .nil, nil_prefix, ?_,
        .inl ⟨e, rfl⟩⟩
      exact fun hne => absurd rfl hne
  | ready sub =>
    refine (ensures_ready g ht).mono ?_
    rintro x g' ⟨hg, hx⟩ horder
    obtain ⟨id, events, hon⟩ := hinv (horder.of_emit.of_grows hg)
    have hp' := hg.reachable hp
    have hon' := hon.grows hp hg
    have hcalled : ∃ sub₀, g'.Called (.subscribe id 0) (.subscribed (.ok sub₀)) := by
      obtain ⟨sub₀, hcalled, _⟩ := hon'.stream
      exact ⟨sub₀, hcalled⟩
    have hid : InOrder g' id := by
      obtain ⟨sub₀, hcalled⟩ := hcalled
      exact horder.of_emit id sub₀ hcalled
    cases hx with
    | @history e rest now h => exact ⟨id, events ++ [e], hon'.history h now⟩
    | skipped h hlook hlast hseq =>
      rw [Record.emit_none]
      exact ⟨id, events, hon.skipped hp hg hid h hlook hlast hseq⟩
    | @received e receiver s now h hlook hlast =>
      have hnew := hon.received hp hg hid h hlook hlast now
      cases he : e.kind.isTerminal with
      | true =>
        have hcomplete := hnew.complete hp' h (by simp) he
        exact ⟨id, events ++ [e], _, [], (append_nil _).symm, hnew.images, hnew.isPrefix,
          fun _ => hcalled, .inr ⟨hcomplete, .inl rfl⟩⟩
      | false => exact ⟨id, events ++ [e], hnew⟩
    | @closed receiver s now h hlook =>
      have hcomplete := hon.closed hp hg hid h hlook
      exact ⟨id, events, g'.items, _, rfl, hon'.images, hon'.isPrefix, fun _ => hcalled,
        .inr ⟨hcomplete, .inr ⟨now, rfl⟩⟩⟩
    | lagged h hlook =>
      exact ⟨id, events, g'.items, _, rfl, hon'.images, hon'.isPrefix, fun _ => hcalled,
        .inl ⟨streamLagged, rfl⟩⟩
  | done => cases ht

/-- The event items of a stream are those of the first events of the log of its task, numbered from
one; an item of another kind is the last one, and a stream that has ended without an error has
handed on the whole log of a task that has ended. -/
def FollowsLog (s : Session (executorStream this parse setup ctx)) : Prop :=
  ∃ id events front tail, s.items = front ++ tail ∧ Images front events ∧
    events <+: s.pool.state.db.events id ∧
    events.map CoreEvent.seq = List.range' 1 events.length ∧
    (events ≠ [] → ∃ sub, s.Called (.subscribe id 0) (.subscribed (.ok sub))) ∧
    (s.rest.isSome = true → tail = []) ∧
    (s.rest = none → (∃ e, tail = [.error e]) ∨ Complete s.toRecord id events ∧
        (tail = [] ∨ ∃ now, tail = [.ok (terminalStreamResponse ctx now)]))

/-- In every session in which the events of the streamed task are broadcast in the order of its log,
the receiver is opened before the broadcasts have come past the history, and the channel is found
closed only when the task has ended and its whole log was in the history or broadcast, the stream
follows the log of the task. -/
theorem stream_follows_log (this : AdapterAgentExecutor) (parse : String → Option Uuid)
    (setup : CoreSetup) (ctx : ExecutorContext)
    {s : Session (executorStream this parse setup ctx)} (hs : s.Reachable)
    (horder : StreamsInOrder s.toRecord) : FollowsLog s := by
  obtain ⟨phase, g, hinv, hp, hg, hrest⟩ := hs.invariant ensures_logInv (fun p _ _ => rfl)
  have hinv := hinv (horder.of_grows hg)
  have hnumbered : ∀ {id : TaskId} {events : List CoreEvent}, events <+: s.pool.state.db.events id →
      events.map CoreEvent.seq = List.range' 1 events.length := by
    intro id events hevents
    obtain ⟨rest, hlog⟩ := hevents
    have hall := (wf_of_reachable hs.pool).db.numbered id
    rw [← hlog] at hall
    exact (Numbered.append_iff.mp hall).1
  cases phase with
  | init =>
    refine ⟨0, [], [], [], by rw [hg.items]; exact hinv, .nil, nil_prefix, rfl,
      fun hne => absurd rfl hne, fun _ => rfl, fun hnone => ?_⟩
    rw [hnone] at hrest
    cases hrest
  | ready sub =>
    obtain ⟨id, events, hon⟩ := hinv
    have hon' := hon.grows hp hg
    obtain ⟨sub₀, hcalled, _⟩ := hon'.stream
    refine ⟨id, events, s.items, [], (append_nil _).symm, hon'.images, hon'.isPrefix,
      hnumbered hon'.isPrefix, fun _ => ⟨sub₀, hcalled⟩, fun _ => rfl, fun hnone => ?_⟩
    rw [hnone] at hrest
    cases hrest
  | done =>
    obtain ⟨id, events, front, tail, hitems, himages, hevents, hcalled, hend⟩ := hinv
    obtain ⟨as, has⟩ := hg.pool
    have hevents' := hevents.trans ((run_extends hp has).db.events id)
    refine ⟨id, events, front, tail, by rw [hg.items]; exact hitems, himages, hevents',
      hnumbered hevents', fun hne => ?_, fun hsome => ?_, fun _ => ?_⟩
    · obtain ⟨sub, hsub⟩ := hcalled hne
      exact ⟨sub, hsub.grows hg⟩
    · rw [hrest] at hsome
      cases hsome
    · rcases hend with herror | ⟨hcomplete, htail⟩
      · exact .inl herror
      · exact .inr ⟨hcomplete.grows hp hg, htail⟩

def SubscribesFirst (g : Record localStream) : Prop :=
  ∀ tid ∈ g.calls, ∀ th ∈ g.pool.threads[tid]?, ∀ x ∈ th.entry.subscribe?, x.1 = 1

theorem SubscribesFirst.eq {g : Record localStream} (h : SubscribesFirst g)
    (hcalled : g.Called (.subscribe id 0) (.subscribed (.ok sub))) :
    id = 1 := by
  obtain ⟨tid, htid, th, hth, hentry, _⟩ := hcalled
  exact h tid htid th hth (id, 0) (by rw [hentry]; rfl)

/-- The stream subscribes while the task runs and receives its completion. -/
theorem stream_follows_log_live :
    ∃ s : Session localStream, s.Reachable ∧ s.items.length = 2 ∧ s.rest.isNone = true ∧
      FollowsLog s := by
  obtain ⟨s, hs, hitems, hrest, hfirst, hsends, hopened, hclosed⟩ :=
    Session.exists_reachable (C := localStream) []
      (streamOwn 1 ++ streamCore (turns 0 12) ++ streamOwn 2 ++
        streamCore (turns 2 2) ++ streamOwn 4 ++ streamCore completingWorker ++ streamOwn 3)
      (fun s => s.items.length = 2 ∧ s.rest.isNone = true ∧
        (∀ tid ∈ s.calls, ∀ th ∈ s.pool.threads[tid]?, ∀ x ∈ th.entry.subscribe?, x.1 = 1) ∧
        (∀ st ∈ s.pool.trace, st.op.SendsNext 1 st.pre) ∧
        (∀ tid ∈ s.calls, ∀ read ∈ s.pool.own tid, ∀ opened ∈ s.pool.own tid,
          read.op.reads = true → opened.op.opens = true →
          (opened.pre.broadcast 1).length ≤ (read.pre.db.page 1 0 500).length) ∧
        ∀ l ∈ s.looks, closedOn? l = none)
      (by decide +kernel)
  refine ⟨s, hs, hitems, hrest, stream_follows_log _ _ _ _ hs fun id sub hcalled => ?_⟩
  rw [SubscribesFirst.eq hfirst hcalled]
  refine ⟨hsends, hopened, fun l hl receiver hreceiver => ?_⟩
  rw [hclosed l hl] at hreceiver
  cases hreceiver

/-- The worker of thread 1 runs a driver that reports progress and then completes; the first part
ends with the broadcast of the progress. -/
def reportingWorker : List (Action (contractCore singleAgentSetup)) :=
  .step 1 calm :: .step 1 { calm with stream := .ok [.progress "half" none, .completed []] } ::
    steps singleAgentSetup 1 12

/-- The progress of the task is broadcast between the read of the history and the opening of the
receiver: the stream hands on the first and the third event, and ends without an error. -/
theorem executor_skips_event : ∃ s : Session localStream, s.Reachable ∧
      (∀ st ∈ s.pool.trace, ¬ CoreOp.Fault st.op st.reply ∧ CoreOp.TimerPending st.op st.reply) ∧
      (s.pool.state.db.events 1).map CoreEvent.seq = [1, 2, 3] ∧ s.items.length = 2 ∧
      s.items.map endOf = [none, some .completed] ∧ s.rest.isNone = true ∧ ¬ FollowsLog s := by
  obtain ⟨s, hs, hcalm, hlog, hitems, hends, hrest, hfirst, hok⟩ :=
    Session.exists_reachable (C := localStream) []
      (streamOwn 1 ++ streamCore (turns 0 12) ++ streamOwn 2 ++
        streamCore (turns 2 1 ++ reportingWorker ++ turns 2 1) ++
        streamOwn 4 ++ streamCore (turns 1 12) ++ streamOwn 3)
      (fun s => (∀ st ∈ s.pool.trace, ¬ CoreOp.Fault st.op st.reply ∧
          CoreOp.TimerPending st.op st.reply) ∧
        (s.pool.state.db.events 1).map CoreEvent.seq = [1, 2, 3] ∧ s.items.length = 2 ∧
        s.items.map endOf = [none, some .completed] ∧ s.rest.isNone = true ∧
        (∀ tid ∈ s.calls, ∀ th ∈ s.pool.threads[tid]?, ∀ x ∈ th.entry.subscribe?, x.1 = 1) ∧
        ∀ item ∈ s.items, item.isOk = true)
      (by decide +kernel)
  refine ⟨s, hs, hcalm, hlog, hitems, hends, hrest, ?_⟩
  rintro ⟨id, events, front, tail, hsplit, himages, _, _, hcalled, _, hend⟩
  have hlen := congrArg List.length hsplit
  rw [hitems, length_append, himages.length_eq] at hlen
  rcases hend (isNone_iff_eq_none.mp hrest) with ⟨e, rfl⟩ | ⟨⟨hall, _⟩, htail⟩
  · have herror := hok (.error e) (by rw [hsplit]; simp)
    cases herror
  · have htail' : tail.length ≤ 1 := by
      rcases htail with rfl | ⟨now, rfl⟩ <;> simp
    by_cases hne : events = []
    · rw [hne, length_nil] at hlen
      omega
    · obtain ⟨sub, hsub⟩ := hcalled hne
      rw [SubscribesFirst.eq hfirst hsub] at hall
      have hthree := congrArg List.length hlog
      rw [length_map, ← hall] at hthree
      simp only [length_cons, length_nil] at hthree
      omega

end AgentConnector
