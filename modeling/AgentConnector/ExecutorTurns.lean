import AgentConnector.A2aExecutor
import AgentConnector.RawSubscription

/-!
# The turns of the A2A executor

What each pass through the executor's closure can do, over the contract store: the first one opens
the subscription or fails, the later ones hand on an event of the history, skip or hand on a
received event, or end the stream.
-/

namespace AgentConnector

open Concurrent Broadcast AdapterAgentExecutor

open A2a (A2AError StreamResponse)

variable {this : AdapterAgentExecutor} {parse : String → Option Uuid} {setup : CoreSetup}
  {ctx : ExecutorContext}

/-- The stream of `execute` over the contract store. -/
abbrev executorStream (this : AdapterAgentExecutor) (parse : String → Option Uuid)
    (setup : CoreSetup) (ctx : ExecutorContext) : Client (contractCore setup) :=
  this.execute parse contractMachine setup ctx

section

variable {C : Client (contractCore setup)} {g : Record (executorStream this parse setup ctx)}

theorem ensures_ofExcept {α : Type} (g : Record (executorStream this parse setup ctx))
    (r : Except A2AError α) :
    (executorStream this parse setup ctx).Ensures (fun r' _ => r' = r) (ofExcept r).run g :=
  fun _ _ => rfl

theorem ensures_askCore {α : Type} (g : Record (executorStream this parse setup ctx))
    (e : CoreEntry) (read : CoreOutcome → Except A2AError α) :
    (executorStream this parse setup ctx).Ensures
      (fun r g' => ∃ outcome, g'.Called e outcome ∧ r = read outcome) (askCore e read).run g := by
  refine (Client.Ensures.call g e).bind (fun outcome g' hcalled => ?_)
  exact fun g'' hl => ⟨outcome, hcalled.grows hl.grows, rfl⟩

end

def CoreOutcome.invoked? : CoreOutcome → Option TaskSnapshot
  | .dispatched (.ok (.created s)) => some s
  | .dispatched (.ok (.existing s)) => some s
  | _ => none

variable {outcome : CoreOutcome}

theorem invoked?_of_ok {id : TaskId} (h : dispatched outcome = .ok result)
    (hid : invokedTask result = .ok id) :
    ∃ s, outcome.invoked? = some s ∧ s.taskId = id := by
  match outcome with
  | .dispatched (.ok (.created s)) =>
    cases h
    exact ⟨s, rfl, Except.ok.inj hid⟩
  | .dispatched (.ok (.existing s)) =>
    cases h
    exact ⟨s, rfl, Except.ok.inj hid⟩
  | .dispatched (.ok (.status _)) | .dispatched (.ok (.cancelRequested _))
  | .dispatched (.ok (.inputAccepted _)) =>
    cases h
    cases hid
  | .dispatched (.error _) | .worked | .subscribed _ | .streamed => cases h

variable {e : A2AError}

theorem invoked?_of_error (h : dispatched outcome = .error e) : outcome.invoked? = none := by
  match outcome with
  | .dispatched (.ok _) => cases h
  | .dispatched (.error _) | .worked | .subscribed _ | .streamed => rfl

theorem invoked?_of_unexpected (h : dispatched outcome = .ok result)
    (he : invokedTask result = .error e) :
    outcome.invoked? = none := by
  match outcome with
  | .dispatched (.ok (.created _)) | .dispatched (.ok (.existing _)) =>
    cases h
    cases he
  | .dispatched (.ok (.status _)) | .dispatched (.ok (.cancelRequested _))
  | .dispatched (.ok (.inputAccepted _)) => rfl
  | .dispatched (.error _) | .worked | .subscribed _ | .streamed => rfl

variable {sub : TaskSubscription}

theorem eq_of_subscribed (h : subscribed outcome = .ok sub) : outcome = .subscribed (.ok sub) := by
  match outcome with
  | .subscribed (.ok sub') =>
    cases h
    rfl
  | .subscribed (.error _) | .worked | .dispatched _ | .streamed => cases h

theorem subscription?_of_error (h : subscribed outcome = .error e) :
    outcome.subscription? = none := by
  match outcome with
  | .subscribed (.ok sub) => cases h
  | .subscribed (.error _) | .worked | .dispatched _ | .streamed => rfl

variable (g : Record (executorStream this parse setup ctx))

/-- How `create_and_subscribe` ends. -/
def Opened : Except A2AError (TaskId × TaskSubscription) → Prop
  | .ok (id, sub) => ∃ t caller outcome s, parse ctx.taskId = some t ∧
      this.resolveCaller ctx = .ok caller ∧
      g.Called (.dispatch caller (.invoke (invokeRequest parse ctx t))) outcome ∧
      outcome.invoked? = some s ∧ s.taskId = id ∧
      g.Called (.subscribe id 0) (.subscribed (.ok sub))
  | .error _ => parse ctx.taskId = none ∨ (∃ e, this.resolveCaller ctx = .error e) ∨
      ∃ t caller outcome, parse ctx.taskId = some t ∧ this.resolveCaller ctx = .ok caller ∧
        g.Called (.dispatch caller (.invoke (invokeRequest parse ctx t))) outcome ∧
        (outcome.invoked? = none ∨ ∃ s outcome', outcome.invoked? = some s ∧
          g.Called (.subscribe s.taskId 0) outcome' ∧ outcome'.subscription? = none)

theorem Opened.grows {g g' : Record (executorStream this parse setup ctx)} (h : Opened g r)
    (hg : g.Grows g') :
    Opened g' r := by
  cases r with
  | ok x =>
    obtain ⟨t, caller, outcome, s, hparse, hcaller, hcalled, hs, hid, hsub⟩ := h
    exact ⟨t, caller, outcome, s, hparse, hcaller, hcalled.grows hg, hs, hid, hsub.grows hg⟩
  | error e =>
    rcases h with h | h | ⟨t, caller, outcome, hparse, hcaller, hcalled, hfail⟩
    · exact .inl h
    · exact .inr (.inl h)
    · refine .inr (.inr ⟨t, caller, outcome, hparse, hcaller, hcalled.grows hg, ?_⟩)
      rcases hfail with h | ⟨s, outcome', hs, hcalled', hnone⟩
      · exact .inl h
      · exact .inr ⟨s, outcome', hs, hcalled'.grows hg, hnone⟩

theorem ensures_createAndSubscribe :
    (executorStream this parse setup ctx).Ensures (fun r g' => Opened g' r)
      (this.createAndSubscribe parse ctx).run g := by
  refine (ensures_ofExcept g (parseTaskId parse ctx)).tryBind ?_ ?_
  · intro e _ he _ _
    unfold parseTaskId at he
    split at he
    · cases he
    · rename_i hparse
      exact .inl hparse
  intro t g₁ ht
  have hparse : parse ctx.taskId = some t := by
    unfold parseTaskId at ht
    split at ht
    · rename_i id hid
      rw [Except.ok.inj ht]
      exact hid
    · cases ht
  refine (ensures_ofExcept g₁ (this.resolveCaller ctx)).tryBind ?_ ?_
  · intro e _ he _ _
    exact .inr (.inl ⟨e, he.symm⟩)
  intro caller g₂ hcaller
  refine (ensures_askCore g₂ _ dispatched).tryBind ?_ ?_
  · rintro e g' ⟨outcome, hcalled, he⟩ g'' hl
    exact .inr (.inr ⟨t, caller, outcome, hparse, hcaller.symm, hcalled.grows hl.grows,
      .inl (invoked?_of_error he.symm)⟩)
  rintro result g₃ ⟨outcome, hcalled, hresult⟩
  refine ((ensures_ofExcept g₃ (invokedTask result)).grows (.refl g₃)).tryBind ?_ ?_
  · rintro e g' ⟨hg, he⟩ g'' hl
    exact .inr (.inr ⟨t, caller, outcome, hparse, hcaller.symm,
      hcalled.grows (hg.trans hl.grows), .inl (invoked?_of_unexpected hresult.symm he.symm)⟩)
  rintro id g₄ ⟨hg₄, hid⟩
  obtain ⟨s, hinvoked, rfl⟩ := invoked?_of_ok hresult.symm hid.symm
  refine ((ensures_askCore g₄ (.subscribe s.taskId 0) subscribed).grows hg₄).tryBind ?_ ?_
  · rintro e g' ⟨hg, outcome', hcalled', he⟩ g'' hl
    exact .inr (.inr ⟨t, caller, outcome, hparse, hcaller.symm,
      hcalled.grows (hg.trans hl.grows), .inr ⟨s, outcome', hinvoked, hcalled'.grows hl.grows,
        subscription?_of_error he.symm⟩⟩)
  rintro sub g₅ ⟨hg, outcome', hcalled', hsub⟩ g₆ hl
  rw [eq_of_subscribed hsub.symm] at hcalled'
  exact ⟨t, caller, outcome, s, hparse, hcaller.symm, hcalled.grows (hg.trans hl.grows), hinvoked,
    rfl, hcalled'.grows hl.grows⟩

theorem ensures_init {turn : (executorStream this parse setup ctx).Turn}
    (ht : this.turn parse ctx .init = some turn) :
    (executorStream this parse setup ctx).Ensures
      (fun x g' => g.Grows g' ∧ ((∃ id sub, x = (.ready sub, none) ∧ Opened g' (.ok (id, sub))) ∨
        ∃ e, x = (.done, some (.error e)) ∧ Opened g' (.error e))) turn g := by
  cases ht
  refine ((ensures_createAndSubscribe g).grows (.refl g)).bind ?_
  rintro r g' ⟨hg, hr⟩
  match r with
  | .error e =>
    exact fun g'' hl => ⟨hg.trans hl.grows, .inr ⟨e, rfl, hr.grows hl.grows⟩⟩
  | .ok (id, sub) =>
    exact fun g'' hl => ⟨hg.trans hl.grows, .inl ⟨id, sub, rfl, hr.grows hl.grows⟩⟩

inductive Handed (sub : TaskSubscription) (g g' : Record (executorStream this parse setup ctx)) :
    State × Option (Except A2AError StreamResponse) → Prop where
  | history {e : CoreEvent} {rest : List CoreEvent} {now : DateTime} (h : sub.history = e :: rest) :
      Handed sub g g'
        (.ready { sub with history := rest }, some (.ok (eventToStreamResponse e now)))
  | skipped {e : CoreEvent} {receiver : Receiver} {s : CoreState LogStore} {last : ℕ}
      (h : sub.history = [])
      (hlook : Record.Looked g g' (.recv sub.receiver) (.value e, receiver) s)
      (hlast : sub.historyEndSeq = some last) (hseq : e.seq ≤ last) :
      Handed sub g g' (.ready { sub with receiver := receiver }, none)
  | received {e : CoreEvent} {receiver : Receiver} {s : CoreState LogStore} {now : DateTime}
      (h : sub.history = [])
      (hlook : Record.Looked g g' (.recv sub.receiver) (.value e, receiver) s)
      (hlast : ∀ last, sub.historyEndSeq = some last → last < e.seq) :
      Handed sub g g'
        (if e.kind.isTerminal then .done else .ready { sub with receiver := receiver },
          some (.ok (eventToStreamResponse e now)))
  | closed {receiver : Receiver} {s : CoreState LogStore} {now : DateTime} (h : sub.history = [])
      (hlook : Record.Looked g g' (.recv sub.receiver) (.closed, receiver) s) :
      Handed sub g g' (.done, some (.ok (terminalStreamResponse ctx now)))
  | lagged {missed : ℕ} {receiver : Receiver} {s : CoreState LogStore} (h : sub.history = [])
      (hlook : Record.Looked g g' (.recv sub.receiver) (.lagged missed, receiver) s) :
      Handed sub g g' (.done, some (.error streamLagged))

theorem ensures_ready {turn : (executorStream this parse setup ctx).Turn}
    (ht : this.turn parse ctx (.ready sub) = some turn) :
    (executorStream this parse setup ctx).Ensures (fun x g' => g.Grows g' ∧ Handed sub g g' x)
      turn g := by
  cases ht
  obtain ⟨history, receiver₀, endSeq⟩ := sub
  cases history with
  | cons e rest =>
    refine ((Client.Ensures.look g .now).grows (.refl g)).bind ?_
    rintro now g' ⟨hg, _⟩ g'' hl
    exact ⟨hg.trans hl.grows, .history rfl⟩
  | nil =>
    refine ((Client.Ensures.look g (.recv receiver₀)).grows (.refl g)).bind ?_
    rintro ⟨got, receiver⟩ g₁ ⟨hg₁, s, hlook⟩
    cases got with
    | value e =>
      change Client.Ensures _ _ (if _ then _ else _) g₁
      split
      · rename_i hdup
        cases endSeq with
        | none => cases hdup
        | some last =>
          exact fun g₂ hl => ⟨hg₁.trans hl.grows,
            .skipped rfl (hlook.grows hl.grows) rfl (of_decide_eq_true hdup)⟩
      · rename_i hnew
        have hlater : ∀ last, endSeq = some last → last < e.seq := by
          rintro last rfl
          simpa using hnew
        refine ((Client.Ensures.look g₁ .now).grows (.refl g₁)).bind ?_
        rintro now g₂ ⟨hg₂, _⟩ g₃ hl
        have hg₃ := hg₂.trans hl.grows
        exact ⟨hg₁.trans hg₃, .received rfl (hlook.grows hg₃) hlater⟩
    | closed =>
      refine ((Client.Ensures.look g₁ .now).grows (.refl g₁)).bind ?_
      rintro now g₂ ⟨hg₂, _⟩ g₃ hl
      have hg₃ := hg₂.trans hl.grows
      exact ⟨hg₁.trans hg₃, .closed rfl (hlook.grows hg₃)⟩
    | lagged missed =>
      exact fun g₂ hl => ⟨hg₁.trans hl.grows, .lagged rfl (hlook.grows hl.grows)⟩

/-! ## What an open stream hands on -/

/-- The steps of the call that has opened a subscription from the start of a task. -/
structure OpenedBy (p : Pool (contractCore setup)) (tid : ℕ) (id : TaskId) (sub : TaskSubscription)
    (read opened : Step (contractCore setup)) : Prop where
  memRead : read ∈ p.own tid
  memOpened : opened ∈ p.own tid
  reads : read.op = .store (.eventsAfter id 0 500)
  opens : opened.op = .activeSubscribe id
  history : sub.history = read.pre.db.page id 0 500
  endSeq : sub.historyEndSeq = sub.history.getLast?.map CoreEvent.seq
  next : sub.receiver.next ≤ (opened.pre.broadcast id).length
  channel : ∃ ch, p.state.channels[sub.receiver.channel]? = some ch ∧ ch.task = id

theorem exists_openedBy (hp : p.Reachable) {id : TaskId} (hth : p.threads[tid]? = some th)
    (hentry : th.entry = .subscribe id 0) (hres : th.prog.result? = some (.subscribed (.ok sub))) :
    ∃ read opened, OpenedBy p tid id sub read opened := by
  have hstart : th.entry.subscribe? = some (id, 0) := by rw [hentry]; rfl
  have hsub : th.prog.result?.bind CoreOutcome.subscription? = some sub := by rw [hres]; rfl
  obtain ⟨read, hread, opened, hopened, hreads, hopens, ⟨c, hex⟩, hend, hreceiver⟩ :=
    exists_subscription_steps hp hth hstart hsub
  have hhistory := LogStore.exec_eventsAfter_ok hex
  rcases hreceiver with hopen | ⟨_, made, hmade, hdid⟩
  · obtain ⟨hwf, hgrows, hext⟩ := extends_of_mem_trace hp (World.mem_own.mp hopened).1
    have hactive : (opened.pre.active id).isSome = true := by
      cases ha : opened.pre.active id with
      | none =>
        rw [CoreState.subscribe, ha] at hopen
        cases hopen
      | some a => rfl
    obtain ⟨channel, ch, hsubscribe, hch, htask, hbroadcast⟩ := hwf.subscribe hactive
    rw [hsubscribe] at hopen
    have hsub : sub.receiver = ⟨channel, ch.channel.sent.length⟩ := (Option.some.inj hopen).symm
    obtain ⟨ch', hch', htask', _⟩ := (hgrows.trans hext).channels hch
    refine ⟨read, opened, hread, hopened, hreads, hopens, hhistory, hend, ?_, ch', ?_, ?_⟩
    · rw [hsub, hbroadcast]
    · rw [hsub]
      exact hch'
    · exact htask'.trans htask
  · obtain ⟨c', hex'⟩ := hdid.executed hp (World.mem_own.mp hmade).1
    obtain ⟨_, _, hext⟩ := extends_of_mem_trace hp (World.mem_own.mp hmade).1
    obtain ⟨hpost, hsub⟩ := Prod.mk.inj (Option.some.inj hex')
    have hch : made.post.channels[sub.receiver.channel]? = some ⟨id, ⟨1, [], true⟩⟩ := by
      rw [← hpost, ← hsub]
      exact List.getElem?_concat_length
    obtain ⟨ch', hch', htask', _⟩ := hext.channels hch
    refine ⟨read, opened, hread, hopened, hreads, hopens, hhistory, hend, ?_, ch', hch', htask'⟩
    rw [← hsub]
    exact Nat.zero_le _

/-- The stream of the task has come to `sub`. -/
def Streaming (id : TaskId) (sub : TaskSubscription) : Prop :=
  ∃ sub₀, g.Called (.subscribe id 0) (.subscribed (.ok sub₀)) ∧
    sub.historyEndSeq = sub₀.historyEndSeq ∧ sub.receiver.channel = sub₀.receiver.channel ∧
    sub.history <:+ sub₀.history

section

variable {g g' : Record (executorStream this parse setup ctx)} {id : TaskId}
  {sub : TaskSubscription}

theorem Streaming.grows (h : Streaming g id sub) (hg : g.Grows g') : Streaming g' id sub := by
  obtain ⟨sub₀, hcalled, hrest⟩ := h
  exact ⟨sub₀, hcalled.grows hg, hrest⟩

theorem Streaming.emit (h : Streaming g id sub) (item : Option (Except A2AError StreamResponse)) :
    Streaming (g.emit item) id sub := h

theorem Streaming.rest {e : CoreEvent} {rest : List CoreEvent} (h : Streaming g id sub)
    (hhistory : sub.history = e :: rest) : Streaming g id { sub with history := rest } := by
  obtain ⟨sub₀, hcalled, hend, hchannel, hsuffix⟩ := h
  rw [hhistory] at hsuffix
  exact ⟨sub₀, hcalled, hend, hchannel, (List.suffix_cons e rest).trans hsuffix⟩

theorem Streaming.moved (h : Streaming g id sub)
    (hreceiver : receiver.channel = sub.receiver.channel) :
    Streaming g id { sub with receiver := receiver } := by
  obtain ⟨sub₀, hcalled, hend, hchannel, hsuffix⟩ := h
  exact ⟨sub₀, hcalled, hend, hreceiver.trans hchannel, hsuffix⟩

theorem Streaming.polled (h : Streaming g id sub) (hp : g.pool.Reachable)
    (hlook : Record.Looked g g' (.recv sub.receiver) (got, receiver) s) :
    s.WF ∧ g.pool.state.Extends s ∧ s.Extends g'.pool.state ∧
      receiver.channel = sub.receiver.channel ∧
      ∃ ch, s.channels[sub.receiver.channel]? = some ch ∧ ch.task = id ∧
        ch.channel.recv sub.receiver.next = some (got, receiver.next) := by
  obtain ⟨sub₀, ⟨tid, _, th, hth, hentry, hres⟩, _, hchannel, _⟩ := h
  obtain ⟨read, opened, hopened⟩ := exists_openedBy hp hth hentry hres
  obtain ⟨q, rfl, ⟨as, has⟩, ⟨bs, hbs⟩⟩ := hlook.pool
  obtain ⟨c, hseen⟩ := hlook.seen
  obtain ⟨ch', hch', hrecv, hreceiver⟩ := CoreState.poll_eq_some hseen
  obtain ⟨ch, hch, htask⟩ := hopened.channel
  have hq := hp.run has
  have hext := run_extends hp has
  obtain ⟨ch₁, hch₁, htask₁, _⟩ := hext.channels hch
  rw [← hchannel, hch'] at hch₁
  cases hch₁
  exact ⟨wf_of_reachable hq, hext, run_extends hq hbs, hreceiver, ch', hch', htask₁.trans htask,
    hrecv⟩

end

end AgentConnector
