import AgentConnector.InputDelivery
import AgentConnector.InvokeSteps
import AgentConnector.TerminalItems

/-!
# Messages to a task that exists

The executor turns every message into an invocation and a subscription. A message to a stored task
is therefore answered with the events of that task, whatever its parts are: no call of the executor
hands them to the driver, and the stream tells so only if the invocation is refused.
-/

namespace AgentConnector

open Concurrent Broadcast AdapterAgentExecutor List

open A2a (A2AError StreamResponse)

variable {this : AdapterAgentExecutor} {parse : String → Option Uuid} {setup : CoreSetup}
  {ctx : ExecutorContext}

/-- An operation of the store has returned an error. -/
def CoreOp.Fails : (o : CoreOp contractSig) → o.Reply → Prop
  | .store (.claim _), .error _ => True
  | .store (.row _), .error _ => True
  | .store (.get _), .error _ => True
  | .store (.append _), .error _ => True
  | .store (.eventsAfter _ _ _), .error _ => True
  | _, _ => False

instance (o : CoreOp contractSig) (r : o.Reply) : Decidable (CoreOp.Fails o r) :=
  decidable_of_bool (match o, r with
    | .store (.claim _), .error _ | .store (.row _), .error _ | .store (.get _), .error _
    | .store (.append _), .error _ | .store (.eventsAfter _ _ _), .error _ => true
    | _, _ => false) (by unfold CoreOp.Fails; split <;> simp)

/-- The core refuses the invocation before it looks into the store. -/
def Refused (setup : CoreSetup) (caller : Caller) (request : InvokeRequest) : Prop :=
  (∃ e, setup.policy caller (.invoke request) = .error e) ∨
    isBlank request.idempotencyKey = true ∨ ∃ e, setup.registry.resolve request = .error e

/-! ## The calls of the executor -/

def IsExecutorCall (e : CoreEntry) : Prop :=
  (∃ caller request, e = .dispatch caller (.invoke request)) ∨ ∃ id afterSeq,
    e = .subscribe id afterSeq

theorem turn_calls (phase : State) (turn : (executorStream this parse setup ctx).Turn)
    (ht : this.turn parse ctx phase = some turn) :
    turn.Everywhere (ClientOp.Calls IsExecutorCall) := by
  have hlook : ∀ q : StreamQuery, (look q).Everywhere (ClientOp.Calls IsExecutorCall) :=
    fun q => ⟨trivial, fun _ => trivial⟩
  have hask : ∀ {α : Type} {e : CoreEntry} (read : CoreOutcome → Except A2AError α),
      IsExecutorCall e → (askCore e read).run.Everywhere (ClientOp.Calls IsExecutorCall) :=
    fun _ he => ⟨he, fun _ => trivial⟩
  cases phase with
  | init =>
    cases ht
    refine Prog.everywhere_bind ?_ (fun r => ?_)
    · refine Prog.everywhere_try trivial (fun id => Prog.everywhere_try trivial (fun caller => ?_))
      refine Prog.everywhere_try (hask _ (.inl ⟨_, _, rfl⟩)) (fun result => ?_)
      refine Prog.everywhere_try trivial (fun id => ?_)
      exact Prog.everywhere_try (hask _ (.inr ⟨_, _, rfl⟩)) (fun _ => trivial)
    · cases r <;> trivial
  | ready sub =>
    cases ht
    obtain ⟨history, receiver, endSeq⟩ := sub
    cases history with
    | cons e rest => exact Prog.everywhere_bind (hlook .now) (fun _ => trivial)
    | nil =>
      refine Prog.everywhere_bind (hlook (.recv receiver)) ?_
      rintro ⟨got, receiver'⟩
      cases got with
      | value e =>
        change Prog.Everywhere _ (if _ then _ else _)
        split
        · trivial
        · exact Prog.everywhere_bind (hlook .now) (fun _ => trivial)
      | closed => exact Prog.everywhere_bind (hlook .now) (fun _ => trivial)
      | lagged missed => trivial
  | done => cases ht

def HandsInput (p : Pool (contractCore setup)) (tid : ℕ) (id : TaskId) (input : List Part) : Prop :=
  ∃ st ∈ p.own tid, ∃ agent, st.op = .driverProvideInput agent id input

variable {p : Pool (contractCore setup)} {tid : ℕ} {th : Thread (contractCore setup)}

theorem not_handsInput (hp : p.Reachable) (hth : p.threads[tid]? = some th)
    (he : IsExecutorCall th.entry) (id : TaskId) (input : List Part) :
    ¬ HandsInput p tid id input := by
  rintro ⟨st, hst, agent, hop⟩
  have hperforms := performs_of_own hp hth hst
  rw [hop] at hperforms
  have hinput : th.entry.input? = some id := hperforms
  rcases he with ⟨caller, request, he⟩ | ⟨id', afterSeq, he⟩
  · rw [he] at hinput
    cases hinput
  · rw [he] at hinput
    cases hinput

variable {id : TaskId}

/-- An invocation that names a stored task and meets no error of the store finds a task unless it is
refused. -/
theorem refused_iff (hp : p.Reachable) {caller : Caller} (hth : p.threads[tid]? = some th)
    (hentry : th.entry = .dispatch caller (.invoke request)) (hres : th.prog.result? = some outcome)
    (hid : request.taskId = some id)
    (hstored : ∀ st ∈ p.own tid, (st.pre.db.tasks id).isSome = true)
    (hok : ∀ st ∈ p.own tid, ¬ CoreOp.Fails st.op st.reply) :
    Refused setup caller request ↔ outcome.invoked? = none := by
  obtain ⟨x, rfl, hx⟩ := replays_dispatched hp hth hentry hres
  rcases replays_dispatch hx with ⟨e, he, _, rfl⟩ | ⟨hallowed, hmethod⟩
  · exact ⟨fun _ => rfl, fun _ => .inl ⟨e, he⟩⟩
  rcases replays_invoke hmethod with ⟨hblank, _, e, rfl⟩ | ⟨e, he, _, rfl⟩ |
    ⟨agent, n, l₀, l₁, l₂, r, hblank, hagent, _, _, htask, hl, _, hcreate, hrest⟩
  · exact ⟨fun _ => rfl, fun _ => .inr (.inl hblank)⟩
  · exact ⟨fun _ => rfl, fun _ => .inr (.inr ⟨e, he⟩)⟩
  have hnot : ¬ Refused setup caller request := by
    rintro (⟨e, he⟩ | hb | ⟨e, he⟩)
    · rw [hallowed] at he
      cases he
    · rw [hblank] at hb
      cases hb
    · rw [hagent] at he
      cases he
  obtain ⟨claimed, claim, hclaimed, hcreated⟩ := replays_create hcreate
  have hmem : ∀ st ∈ l₁, st ∈ p.own tid := by
    intro st hst
    rw [hl]
    simp [hst]
  have hfails : ∀ {o : CoreOp contractSig} {r : o.Reply} {st : Step (contractCore setup)},
      st ∈ l₁ → st.Did o r → CoreOp.Fails o r → False := by
    intro o r st hst hdid hf
    apply hok st (hmem st hst)
    rw [hdid.apply_eq (fun o r => CoreOp.Fails o r)]
    exact hf
  refine ⟨fun h => (hnot h).elim, fun hnone => ?_⟩
  exfalso
  cases claim with
  | error e =>
    obtain ⟨rfl, _⟩ := hcreated
    exact hfails (mem_singleton_self _) hclaimed trivial
  | ok inserted =>
    obtain ⟨row, found, hrow, rfl, rfl⟩ := hcreated
    cases found with
    | error e => exact hfails (mem_cons_self ..) hrow trivial
    | ok s =>
      have hmem' : claimed ∈ p.own tid := hmem claimed (by simp)
      cases inserted with
      | true =>
        obtain ⟨c, hex⟩ := hclaimed.executed hp (World.mem_own.mp hmem').1
        obtain ⟨db, hdb, _⟩ := coreExec_store hex
        have hstored' := hstored claimed hmem'
        rcases LogStore.exec_claim hdb with ⟨_, hfree, _⟩ | ⟨h, _⟩ | ⟨e, h, _⟩
        · rw [← htask id hid, hfree] at hstored'
          cases hstored'
        · cases h
        · cases h
      | false =>
        obtain ⟨_, rfl⟩ := hrest
        cases hnone

theorem subscription?_ne_none (hp : p.Reachable) (hth : p.threads[tid]? = some th)
    (hentry : th.entry = .subscribe id afterSeq) (hres : th.prog.result? = some outcome)
    (hok : ∀ st ∈ p.own tid, ¬ CoreOp.Fails st.op st.reply) : outcome.subscription? ≠ none := by
  have hreplays := hp.replays hth
  rw [hentry, Prog.eq_pure_of_result? hres] at hreplays
  obtain ⟨x, hx, rfl⟩ := Replays.map_pure hreplays
  obtain ⟨read, r, hread, hrest⟩ := replays_subscribe hx
  cases r with
  | error e =>
    obtain ⟨hl, _⟩ := hrest
    have hmem : read ∈ p.own tid := by rw [hl]; simp
    have hfails := hok read hmem
    rw [hread.apply_eq (fun o r => CoreOp.Fails o r)] at hfails
    exact (hfails trivial).elim
  | ok history =>
    obtain ⟨_, _, _, receiver, rfl, _⟩ := hrest
    intro h
    cases h

/-! ## What the stream tells -/

def isLagged : Look (executorStream this parse setup ctx) → Bool
  | ⟨.recv _, (.lagged _, _), _⟩ => true
  | _ => false

/-- No call of the stream meets an error of the store, and its receiver does not fall behind. -/
structure Undisturbed (g : Record (executorStream this parse setup ctx)) : Prop where
  store : ∀ tid ∈ g.calls, ∀ st ∈ g.pool.own tid, ¬ CoreOp.Fails st.op st.reply
  receiver : ∀ l ∈ g.looks, isLagged l = false

def CallsSince (p : Pool (contractCore setup)) (g : Record (executorStream this parse setup ctx)) :
    Prop :=
  ∀ tid ∈ g.calls, p.threads.length ≤ tid

theorem Undisturbed.of_grows (h : Undisturbed g') (hg : g.Grows g') : Undisturbed g := by
  obtain ⟨as, has⟩ := hg.pool
  exact ⟨fun tid htid st hst => h.store tid (hg.calls.subset htid) st (Pool.run_own has hst),
    fun l hl => h.receiver l (hg.looks.subset hl)⟩

theorem stored_since (hp : p.Reachable) (hrun : p.run as = some q)
    (hid : (p.state.db.tasks id).isSome = true) (htid : p.threads.length ≤ tid)
    (hst : st ∈ q.own tid) :
    (st.pre.db.tasks id).isSome = true := by
  have hq := hp.run hrun
  have hsince := Pool.run_since hrun
  obtain ⟨htrace, rfl⟩ := World.mem_own.mp hst
  have hkeeps := (Pool.run_keeps (K := fun s => (s.db.tasks id).isSome = true) hrun hsince
    (fun st' hst' hpre => ?_) hid).2
  · apply hkeeps
    rw [hsince] at htrace
    rcases mem_append.mp htrace with h | h
    · exact h
    · have := (hp.tid_lt st h).1
      omega
  · obtain ⟨snap, hsnap⟩ := Option.isSome_iff_exists.mp hpre
    have hmem : st' ∈ q.trace := by rw [hsince]; exact mem_append_left _ hst'
    obtain ⟨snap', hsnap', _⟩ := (extends_of_mem_trace hq hmem).2.1.db.task hsnap
    rw [hsnap']
    rfl

def HasError (items : List (Except A2AError StreamResponse)) : Prop := ∃ e, .error e ∈ items

theorem hasError_concat :
    HasError (items ++ [.ok response]) ↔ HasError items := by
  simp [HasError]

/-- What holds between two turns of a stream that has begun on the pool `p`, for a message of
`caller` to the task `id`. -/
def AnswerInv (p : Pool (contractCore setup)) (caller : Caller) (id : TaskId) (phase : State)
    (g : Record (executorStream this parse setup ctx)) : Prop :=
  (∃ as, p.run as = some g.pool) ∧ (CallsSince p g → Undisturbed g → match phase with
    | .init => g.items = []
    | .ready _ => ¬ Refused setup caller (invokeRequest parse ctx id) ∧ ¬ HasError g.items
    | .done => HasError g.items ↔ Refused setup caller (invokeRequest parse ctx id))

theorem ensures_answerInv (hp : p.Reachable) {caller : Caller}
    (hid : (p.state.db.tasks id).isSome = true) (hparse : parse ctx.taskId = some id)
    (hcaller : this.resolveCaller ctx = .ok caller) (phase : State)
    (turn : (executorStream this parse setup ctx).Turn)
    (g : Record (executorStream this parse setup ctx)) (hg₀ : g.pool.Reachable)
    (hinv : AnswerInv p caller id phase g) (ht : this.turn parse ctx phase = some turn) :
    (executorStream this parse setup ctx).Ensures
      (fun x g' => AnswerInv p caller id x.1 (g'.emit x.2)) turn g := by
  obtain ⟨hrun, hinv⟩ := hinv
  cases phase with
  | init =>
    refine (ensures_init g ht).mono ?_
    rintro x g' ⟨hg, hx⟩
    have hrun' := Record.exists_run_trans hrun hg.pool
    refine ⟨hrun', fun hsince hcalm => ?_⟩
    have hsince' : CallsSince p g' := hsince
    have hcalm' : Undisturbed g' := ⟨hcalm.store, hcalm.receiver⟩
    have hitems : g'.items = [] :=
      hg.items.trans (hinv (fun tid htid => hsince' tid (hg.calls.subset htid))
        (hcalm'.of_grows hg))
    have hp' := hg.reachable hg₀
    obtain ⟨as, has⟩ := hrun'
    have hiff : ∀ {outcome : CoreOutcome},
        g'.Called (.dispatch caller (.invoke (invokeRequest parse ctx id))) outcome →
        (Refused setup caller (invokeRequest parse ctx id) ↔ outcome.invoked? = none) := by
      rintro outcome ⟨tid, htid, th, hth, hentry, hres⟩
      exact refused_iff hp' hth hentry hres rfl
        (fun st hst => stored_since hp has hid (hsince' tid htid) hst) (hcalm'.store tid htid)
    rcases hx with ⟨_, sub, rfl, t, caller', outcome, s, ht, hc, hcalled, hs, _, _⟩ |
      ⟨e, rfl, hopened⟩
    · rw [hparse] at ht
      rw [hcaller] at hc
      cases ht
      cases hc
      refine ⟨fun hrefused => ?_, ?_⟩
      · rw [(hiff hcalled).mp hrefused] at hs
        cases hs
      · rintro ⟨e, he⟩
        simp [Record.emit, hitems] at he
    · have hhas : HasError (g'.emit (some (.error e))).items := ⟨e, by simp [Record.emit]⟩
      refine ⟨fun _ => ?_, fun _ => hhas⟩
      rcases hopened with h | ⟨e', h⟩ | ⟨t, caller', outcome, ht, hc, hcalled, hfail⟩
      · rw [hparse] at h
        cases h
      · rw [hcaller] at h
        cases h
      · rw [hparse] at ht
        rw [hcaller] at hc
        cases ht
        cases hc
        rcases hfail with hnone | ⟨s, outcome', _, ⟨tid, htid, th, hth, hentry, hres⟩, hnone⟩
        · exact (hiff hcalled).mpr hnone
        · exact (subscription?_ne_none hp' hth hentry hres (hcalm'.store tid htid) hnone).elim
  | ready sub =>
    refine (ensures_ready g ht).mono ?_
    rintro x g' ⟨hg, hx⟩
    refine ⟨Record.exists_run_trans hrun hg.pool, fun hsince hcalm => ?_⟩
    have hcalm' : Undisturbed g' := ⟨hcalm.store, hcalm.receiver⟩
    obtain ⟨hnot, herror⟩ := hinv (fun tid htid => hsince tid (hg.calls.subset htid))
      (hcalm'.of_grows hg)
    rw [← hg.items] at herror
    have hmore : ∀ response, ¬ HasError (g'.emit (some (.ok response))).items :=
      fun response h => herror (hasError_concat.mp h)
    cases hx with
    | history h => exact ⟨hnot, hmore _⟩
    | skipped h hlook =>
      rw [Record.emit_none]
      exact ⟨hnot, herror⟩
    | @received e receiver s now h hlook hlast =>
      cases e.kind.isTerminal with
      | true => exact ⟨fun h => (hmore _ h).elim, fun h => (hnot h).elim⟩
      | false => exact ⟨hnot, hmore _⟩
    | closed h hlook => exact ⟨fun h => (hmore _ h).elim, fun h => (hnot h).elim⟩
    | lagged h hlook => cases hcalm'.receiver _ hlook.mem
  | done => cases ht

/-- The parts of the message have been handed to the driver of the task by a call of the stream. -/
def Delivered (g : Record (executorStream this parse setup ctx)) (id : TaskId) : Prop :=
  ∃ tid ∈ g.calls, HandsInput g.pool tid id (a2aMessageToParts ctx.message)

/-- A stream for a message to a stored task, whose calls meet no error of the store and whose
receiver does not fall behind: once it has yielded an item, the message is delivered or answered
with an error exactly if the core refuses to invoke the task. -/
theorem continuation_answered_iff (this : AdapterAgentExecutor) (parse : String → Option Uuid)
    (setup : CoreSetup) (ctx : ExecutorContext) {p : Pool (contractCore setup)} (hp : p.Reachable)
    {caller : Caller} {id : TaskId} (hid : (p.state.db.tasks id).isSome = true)
    (hparse : parse ctx.taskId = some id) (hcaller : this.resolveCaller ctx = .ok caller)
    {as : List (SessionAction (contractCore setup))}
    {s : Session (executorStream this parse setup ctx)}
    (hrun : (Session.begin (executorStream this parse setup ctx) p).run as = some s)
    (hcalm : Undisturbed s.toRecord) (hitems : s.items ≠ []) :
    (Delivered s.toRecord id ∨ HasError s.items) ↔
      Refused setup caller (invokeRequest parse ctx id) := by
  have hcalls := Session.callsOnly_of_run turn_calls hrun
  have hpool : s.pool.Reachable := (Session.Reachable.run (.begin hp) hrun).pool
  have hdelivered : ¬ Delivered s.toRecord id := by
    rintro ⟨tid, htid, hinput⟩
    obtain ⟨_, th, hth, he⟩ := hcalls.called tid htid
    exact not_handsInput hpool hth he id _ hinput
  have hinit : AnswerInv p caller id .init (Record.start (executorStream this parse setup ctx) p) :=
    ⟨⟨[], rfl⟩, fun _ _ => rfl⟩
  obtain ⟨phase, g, ⟨_, hinv⟩, _, hg, _⟩ := Session.invariant_of_run
    (ensures_answerInv hp hid hparse hcaller) hp hinit hrun
  have hinv := hinv (fun tid htid => (hcalls.called tid (hg.calls.subset htid)).1)
    (hcalm.of_grows hg)
  rw [← hg.items] at hinv
  rw [or_iff_right hdelivered]
  cases phase with
  | init => exact (hitems hinv).elim
  | ready sub => exact ⟨fun h => (hinv.2 h).elim, fun h => (hinv.1 h).elim⟩
  | done => exact hinv

def answerMessage : ExecutorContext :=
  ⟨"1", "1", some ⟨.user, [⟨.text "this one", none, none, none⟩]⟩, none, []⟩

/-- `caller` invokes task 1 as the executor does, and the driver of the task asks for input. -/
def askedThrough (setup : CoreSetup) (caller : Caller) : List (Action (contractCore setup)) :=
  .call (.dispatch caller (.invoke (invokeRequest (fun _ => some 1) firstTask 1))) ::
    steps setup 0 12 ++ steps setup 1 1 ++
    .step 1 { calm with stream := .ok [.inputRequired ⟨"which one?", none⟩, .completed []] } ::
    steps setup 1 12

/-- Callers without a scope are refused. -/
def scopedSetup : CoreSetup :=
  { singleAgentSetup with
    policy := fun caller _ =>
      if caller.scopes.isEmpty then .error (.invalidRequest "scope required") else .ok () }

abbrev answerStream (setup : CoreSetup) : Client (contractCore setup) :=
  executorStream (.new "caller") (fun _ => some 1) setup answerMessage

/-- The answer comes from a caller without a scope. -/
theorem continuation_answered_iff_refused : ∃ s : Session (answerStream scopedSetup), s.Reachable ∧
      (s.pool.state.db.tasks 1).map TaskSnapshot.state = some .waitingForInput ∧
      (Delivered s.toRecord 1 ∨ HasError s.items) := by
  have hrun : ∃ p ∈ (Pool.start (contractCore scopedSetup)).run
        (askedThrough scopedSetup ⟨⟨"caller"⟩, ["invoke"]⟩),
      ∃ s ∈ (Session.begin (answerStream scopedSetup) p).run (List.replicate 3 (.own calm)),
        (p.state.db.tasks 1).isSome = true ∧
        (s.pool.state.db.tasks 1).map TaskSnapshot.state = some .waitingForInput ∧
        (∀ tid ∈ s.calls, ∀ st ∈ s.pool.own tid, ¬ CoreOp.Fails st.op st.reply) ∧
        (∀ l ∈ s.looks, isLagged l = false) ∧ s.items.length = 1 := by
    decide +kernel
  obtain ⟨p, hp, s, hs, hid, hstate, hstore, hreceiver, hlen⟩ := hrun
  have hreachable : p.Reachable := Pool.Reachable.start.run hp
  have hitems : s.items ≠ [] := by
    intro h
    rw [h] at hlen
    cases hlen
  refine ⟨s, Session.Reachable.run (.begin hreachable) hs, hstate, ?_⟩
  apply (continuation_answered_iff (.new "caller") (fun _ => some 1) scopedSetup answerMessage
    hreachable hid rfl rfl hs ⟨hstore, hreceiver⟩ hitems).mpr
  exact .inl ⟨_, rfl⟩

/-- The answer is neither handed to the driver nor refused: the stream replays the history of the
task, which goes on waiting. -/
theorem answer_dropped : ∃ s : Session (answerStream singleAgentSetup), s.Reachable ∧
      (∀ st ∈ s.pool.trace, ¬ CoreOp.Fails st.op st.reply) ∧
      (s.pool.state.db.tasks 1).map TaskSnapshot.state = some .waitingForInput ∧
      s.items.length = 2 ∧ ¬ Delivered s.toRecord 1 ∧ ¬ HasError s.items := by
  obtain ⟨s, hs, hok, hstate, hlen, hinput, herror⟩ := Session.exists_reachable
    (C := answerStream singleAgentSetup) (askedThrough singleAgentSetup localCaller)
    (streamOwn 1 ++ streamCore (turns 2 2) ++ streamOwn 2 ++ streamCore (turns 3 2) ++ streamOwn 6)
    (fun s => (∀ st ∈ s.pool.trace, ¬ CoreOp.Fails st.op st.reply) ∧
      (s.pool.state.db.tasks 1).map TaskSnapshot.state = some .waitingForInput ∧
      s.items.length = 2 ∧ (∀ st ∈ s.pool.trace, st.op.inputFor? = none) ∧
      s.items.all Except.isOk = true)
    (by decide +kernel)
  refine ⟨s, hs, hok, hstate, hlen, ?_, ?_⟩
  · rintro ⟨tid, _, st, hst, agent, hop⟩
    have hnone := hinput st (World.mem_own.mp hst).1
    rw [hop] at hnone
    cases hnone
  · rintro ⟨e, he⟩
    have hisOk := all_eq_true.mp herror _ he
    cases hisOk

end AgentConnector
