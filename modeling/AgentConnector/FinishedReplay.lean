import AgentConnector.ClosedReceivers
import AgentConnector.EventPages
import AgentConnector.ThreadAccounts

/-!
# Replaying the log of a finished task

A stream of a terminal task that is not in `active` gets a closed receiver, so it reads its log page
by page: the first page with the subscription, the next one each time it has handed on the last. The
account of a stream counts the pages it has read and lists what it has handed on.
-/

namespace AgentConnector.ReliableTaskStream

open Concurrent Accounting AdapterCore List Option

/-- A terminal event is the last of the log, and the last event is terminal. -/
structure FinishedLog (log : List CoreEvent) : Prop where
  numbered : Numbered CoreEvent.seq 1 log
  last : ∀ {n e rest}, log.drop n = e :: rest → (e.kind.isTerminal = true ↔ rest = [])

theorem finishedLog_of_terminal {db : LogStore} (hwf : db.WF) {id : TaskId}
    (hsnap : db.tasks id = some snap) (hterminal : snap.state.terminal = true) :
    FinishedLog (db.events id) := by
  have hlog := hwf.log hsnap
  refine ⟨hlog.seqs, fun {n e rest} hdrop => ?_⟩
  have hsplit : db.events id = (db.events id).take n ++ e :: rest := by
    rw [← hdrop, take_append_drop]
  constructor
  · intro he
    by_contra hrest
    have hmem : e ∈ (db.events id).dropLast := by
      rw [hsplit, dropLast_append_of_ne_nil (cons_ne_nil _ _),
        dropLast_cons_of_ne_nil hrest]
      exact mem_append_right _ (mem_cons_self ..)
    rw [hlog.terminal e hmem] at he
    cases he
  · rintro rfl
    rw [hlog.state, hsplit, projection_concat, CoreEventKind.terminal_state] at hterminal
    exact hterminal

structure ReplayAccount where
  pages : ℕ
  failures : ℕ
  results : List (Except CoreError (Option CoreEvent))

def ReplayAccount.record (a : ReplayAccount) : (o : CoreOp contractSig) → o.Reply → ReplayAccount
  | .store (.eventsAfter _ _ _), .ok _ => { a with pages := a.pages + 1 }
  | .store (.eventsAfter _ _ _), .error _ => { a with failures := a.failures + 1 }
  | .emit _ _ r, _ => { a with results := a.results ++ [r] }
  | _, _ => a

/-- The replies a stream of the finished task gets; `dead` holds of receivers that are closed from
the start. -/
def Replayed (id : TaskId) (log : List CoreEvent) (dead : Receiver → Prop) :
    (o : CoreOp contractSig) → o.Reply → Prop
  | .store (.eventsAfter id' n limit), r =>
    id' = id → ∀ page, r = .ok page → page = (log.drop n).take limit
  | .activeSubscribe id', r => id' = id → r = none
  | .closedReceiver _, r => dead r
  | .recv _ receiver _, r => dead receiver → r = (.closed, receiver)
  | _, _ => True

/-- What has been handed on is a beginning of the replay, and no more pages were read than the
replay takes. -/
structure OnCourse (log : List CoreEvent) (afterSeq : ℕ) (a : ReplayAccount) : Prop where
  results : Exhausts (log.drop afterSeq) (succeeded a.results)
  pages : a.pages ≤ ((log.drop afterSeq).length + 499) / 500 + 2

abbrev replayAccounts (setup : CoreSetup) (id : TaskId) (log : List CoreEvent) (afterSeq : ℕ)
    (dead : Receiver → Prop) : Accounting (contractCore setup) where
  Account := ReplayAccount
  opening _ := ⟨0, 0, []⟩
  record := ReplayAccount.record
  allowed a _ := OnCourse log afterSeq a
  possible := Replayed id log dead

/-- The stream has handed on `events` and then `ends` times its end. -/
structure Replaying (id : TaskId) (log : List CoreEvent) (afterSeq : ℕ) (dead : Receiver → Prop)
    (a : ReplayAccount) (s : ReliableTaskStream) (events : List CoreEvent) (ends : ℕ) : Prop where
  taskId : s.taskId = id
  receiver : dead s.receiver
  results : succeeded a.results = events.map some ++ List.replicate ends none
  split : events ++ log.drop s.lastSeq = log.drop afterSeq
  pending : s.pending <+: log.drop s.lastSeq
  fetched : events.length + s.pending.length = min (500 * a.pages) (log.drop afterSeq).length
  unended : s.terminal = false →
    ends = 0 ∧ (log.drop s.lastSeq = [] → log.drop afterSeq = [] ∧ a.pages = 1)
  ended : s.terminal = true → log.drop s.lastSeq = []
  pages : a.pages ≤ ((log.drop afterSeq).length + 499) / 500 + if s.terminal then 2 else 1

variable {setup : CoreSetup} {id : TaskId} {log : List CoreEvent} {afterSeq : ℕ}
  {dead : Receiver → Prop} {a : ReplayAccount} {s : ReliableTaskStream} {events : List CoreEvent}
  {ends : ℕ} {e : CoreEvent}

theorem succeeded_concat (rs : List (Except CoreError (Option CoreEvent)))
    (r : Except CoreError (Option CoreEvent)) :
    succeeded (rs ++ [r]) = succeeded rs ++ r.toOption.toList := by
  unfold succeeded
  rw [filterMap_append]
  cases r <;> rfl

namespace Replaying

theorem onCourse (h : Replaying id log afterSeq dead a s events ends) :
    OnCourse log afterSeq a := by
  refine ⟨?_, ?_⟩
  · rw [Exhausts, h.results]
    cases hterminal : s.terminal with
    | false =>
      rw [(h.unended hterminal).1, ← h.split]
      simp
    | true =>
      rw [← h.split, h.ended hterminal]
      simp [take_append]
  · have hpages := h.pages
    split at hpages <;> omega

theorem deliver (h : Replaying id log afterSeq dead a s events ends) (hlog : FinishedLog log)
    (hopen : s.terminal = false) (hpending : s.pending = e :: queue) :
    Replaying id log afterSeq dead { a with results := a.results ++ [.ok (some e)] }
      (deliver { s with pending := queue } e) (events ++ [e]) 0 := by
  obtain ⟨tail, htail⟩ := h.pending
  rw [hpending, cons_append] at htail
  have hseq : e.seq = s.lastSeq + 1 := by
    have hmem : log[s.lastSeq]? = some e := by
      rw [← head?_drop, ← htail, head?_cons]
    have hnumber := hlog.numbered.of_getElem? hmem
    omega
  have hrest : log.drop e.seq = queue ++ tail := by
    rw [hseq, ← drop_drop, ← htail, drop_one, tail_cons]
  have hend : (AgentConnector.ReliableTaskStream.deliver { s with pending := queue } e).terminal =
      e.kind.isTerminal := by
    simp [AgentConnector.ReliableTaskStream.deliver, hopen]
  have hlast := hlog.last htail.symm
  refine ⟨h.taskId, h.receiver, ?_, ?_, ?_, ?_, fun hmore => ⟨rfl, fun hnil => ?_⟩, fun hdone => ?_,
    ?_⟩
  · rw [succeeded_concat, h.results, (h.unended hopen).1]
    simp [Except.toOption]
  · change events ++ [e] ++ log.drop e.seq = _
    rw [← h.split, ← htail, hrest]
    simp
  · change queue <+: log.drop e.seq
    rw [hrest]
    exact prefix_append _ _
  · have hfetched := h.fetched
    rw [hpending, length_cons] at hfetched
    change (events ++ [e]).length + queue.length = min (500 * a.pages) _
    rw [length_append, length_singleton]
    omega
  · change log.drop e.seq = [] at hnil
    rw [hrest] at hnil
    rw [hend, hlast.mpr hnil] at hmore
    cases hmore
  · change log.drop e.seq = []
    rw [hend] at hdone
    rw [hrest, hlast.mp hdone]
  · have hpages := h.pages
    rw [hopen, if_neg (by decide)] at hpages
    change a.pages ≤ _
    split <;> omega

theorem again (h : Replaying id log afterSeq dead a s events ends) (hend : s.terminal = true) :
    Replaying id log afterSeq dead { a with results := a.results ++ [.ok none] } s events
      (ends + 1) := by
  refine ⟨h.taskId, h.receiver, ?_, h.split, h.pending, h.fetched, fun hopen => ?_,
    h.ended, h.pages⟩
  · rw [succeeded_concat, h.results, replicate_succ', append_assoc]
    rfl
  · rw [hend] at hopen
    cases hopen

theorem fail (h : Replaying id log afterSeq dead a s events ends) (error : CoreError) :
    Replaying id log afterSeq dead
      { a with failures := a.failures + 1, results := a.results ++ [.error error] } s
        events ends := by
  refine ⟨h.taskId, h.receiver, ?_, h.split, h.pending, h.fetched, h.unended, h.ended, h.pages⟩
  rw [succeeded_concat, h.results]
  exact append_nil _

theorem turn (h : Replaying id log afterSeq dead a s events ends) (hopen : s.terminal = false)
    (hpending : s.pending = []) (hmore : log.drop s.lastSeq ≠ []) :
    Replaying id log afterSeq dead { a with pages := a.pages + 1 }
      { s with pending := (log.drop s.lastSeq).take 500 } events ends := by
  have hfetched := h.fetched
  have hsplit := congrArg List.length h.split
  have hrest : 0 < (log.drop s.lastSeq).length := length_pos_of_ne_nil hmore
  rw [hpending, length_nil] at hfetched
  rw [length_append] at hsplit
  refine ⟨h.taskId, h.receiver, h.results, h.split, take_prefix _ _, ?_, fun _ => ?_, h.ended,
    ?_⟩
  · change _ + (List.take 500 _).length = min (500 * (a.pages + 1)) _
    rw [length_take]
    omega
  · exact ⟨(h.unended hopen).1, fun hnil => absurd hnil hmore⟩
  · change a.pages + 1 ≤ _ + if s.terminal = true then 2 else 1
    rw [hopen, if_neg (by decide)]
    omega

theorem close (h : Replaying id log afterSeq dead a s events ends) (hopen : s.terminal = false)
    (hnone : log.drop s.lastSeq = []) :
    Replaying id log afterSeq dead
      { a with pages := a.pages + 1, results := a.results ++ [.ok none] }
      { s with pending := [], terminal := true } events (ends + 1) := by
  obtain ⟨hends, hempty⟩ := h.unended hopen
  obtain ⟨hall, hpages⟩ := hempty hnone
  have hevents : events = [] := (append_eq_nil_iff.mp (h.split.trans hall)).1
  refine ⟨h.taskId, h.receiver, ?_, h.split, nil_prefix, ?_, fun hmore => ?_, fun _ => hnone,
    ?_⟩
  · rw [succeeded_concat, h.results, hends, hevents]
    rfl
  · rw [hevents, hall]
    simp
  · cases hmore
  · change a.pages + 1 ≤ _ + 2
    omega

end Replaying

/-- What a call leaves: its result is not yet handed on, and it has returned if it may take two
iterations. -/
def Called (id : TaskId) (log : List CoreEvent) (afterSeq : ℕ) (dead : Receiver → Prop)
    (a : ReplayAccount) (fuel : ℕ) (out : Polled) (a' : ReplayAccount) : Prop :=
  OnCourse log afterSeq a' ∧ a'.results = a.results ∧ match out.1 with
    | none => fuel < 2
    | some r => ∃ events ends, Replaying id log afterSeq dead
        { a' with results := a'.results ++ [r] } out.2 events ends

theorem follows_page (hlog : FinishedLog log) (h : Replaying id log afterSeq dead a' s events ends)
    (ha : a'.results = a.results) (hopen : s.terminal = false) (hpending : s.pending ≠ [])
    (fuel : ℕ) :
    (replayAccounts setup id log afterSeq dead).Follows
      (Called id log afterSeq dead a (fuel + 1)) a'
      (nextLoop (history setup.contract) fuel s) := by
  cases fuel with
  | zero => exact ⟨h.onCourse, ha, Nat.one_lt_two⟩
  | succ fuel =>
    cases hqueue : s.pending with
    | nil => exact absurd hqueue hpending
    | cons e queue =>
      rw [nextLoop_of_pending fuel hopen hqueue]
      exact ⟨h.onCourse, ha, _, _, h.deliver hlog hopen hqueue⟩

theorem follows_next (hlog : FinishedLog log)
    (h : Replaying id log afterSeq dead a s events ends) (fuel : ℕ) :
    (replayAccounts setup id log afterSeq dead).Follows (Called id log afterSeq dead a fuel) a
      (nextLoop (history setup.contract) fuel s) := by
  cases fuel with
  | zero => exact ⟨h.onCourse, rfl, Nat.zero_lt_two⟩
  | succ fuel =>
    cases hterminal : s.terminal with
    | true =>
      rw [nextLoop_of_terminal fuel hterminal]
      exact ⟨h.onCourse, rfl, _, _, h.again hterminal⟩
    | false =>
      cases hpending : s.pending with
      | cons e queue =>
        rw [nextLoop_of_pending fuel hterminal hpending]
        exact ⟨h.onCourse, rfl, _, _, h.deliver hlog hterminal hpending⟩
      | nil =>
        rw [nextLoop_of_empty fuel hterminal hpending]
        refine ⟨h.onCourse, fun got hgot => ?_⟩
        cases hgot h.receiver
        change (replayAccounts setup id log afterSeq dead).Follows _ a (recover
          (history setup.contract) s none _)
        rw [recover_eq rfl]
        refine ⟨h.onCourse, fun r hr => ?_⟩
        cases r with
        | error error => exact ⟨⟨h.onCourse.results, h.onCourse.pages⟩, rfl, _, _, h.fail _⟩
        | ok page =>
          cases hr h.taskId page rfl
          have hnumbered : Numbered CoreEvent.seq (s.lastSeq + 1)
              ((log.drop s.lastSeq).take 500) := by
            by_cases hle : s.lastSeq ≤ log.length
            · rw [Nat.add_comm]
              exact (hlog.numbered.drop hle).take 500
            · rw [drop_eq_nil_of_le (by omega), take_nil]
              exact Numbered.nil _ _
          change (replayAccounts setup id log afterSeq dead).Follows _
            { a with pages := a.pages + 1 } (if _ then _ else _)
          rw [values_merge_none hnumbered]
          by_cases hnone : log.drop s.lastSeq = []
          · have hclosed := h.close hterminal hnone
            have hcourse := hclosed.pages
            rw [if_pos (by simp [hnone])]
            refine ⟨⟨h.onCourse.results, by simpa using hcourse⟩, rfl, events, ends + 1, ?_⟩
            simpa [hnone] using hclosed
          · rw [if_neg (by simp [hnone])]
            have hturn := h.turn hterminal hpending hnone
            exact follows_page hlog hturn rfl hterminal (by simp [hnone]) fuel

theorem follows_consume (hlog : FinishedLog log) (fuels : List ℕ)
    (h : Replaying id log afterSeq dead a s events ends) :
    (replayAccounts setup id log afterSeq dead).Follows
      (fun _ a' => OnCourse log afterSeq a' ∧ ((∀ fuel ∈ fuels, 2 ≤ fuel) →
        a'.results.length = a.results.length + fuels.length)) a
      (consume (history setup.contract) afterSeq fuels s) := by
  induction fuels generalizing a s events ends with
  | nil => exact ⟨h.onCourse, fun _ => rfl⟩
  | cons fuel fuels ih =>
    refine follows_bind ((follows_next hlog h fuel).mono ?_)
    rintro ⟨r, s'⟩ a' ⟨hcourse, hresults, hcalled⟩
    cases r with
    | none =>
      refine ⟨hcourse, fun hfuels => absurd (hfuels fuel (mem_cons_self ..)) ?_⟩
      exact Nat.not_le.mpr hcalled
    | some r =>
      obtain ⟨events', ends', hnext⟩ := hcalled
      refine ⟨hcourse, fun _ _ => (ih hnext).mono ?_⟩
      rintro _ a'' ⟨hcourse', hlength⟩
      refine ⟨hcourse', fun hfuels => ?_⟩
      rw [hlength (fun n hn => hfuels n (mem_cons_of_mem _ hn)), hresults]
      simp only [length_append, length_cons, length_nil]
      omega

theorem follows_session (hlog : FinishedLog log) (fuels : List ℕ) :
    (replayAccounts setup id log afterSeq dead).Follows
      (fun _ a' => OnCourse log afterSeq a' ∧ (a'.failures = 0 → (∀ fuel ∈ fuels, 2 ≤ fuel) →
        a'.results.length = fuels.length)) ⟨0, 0, []⟩
      (session setup.contract id afterSeq fuels) := by
  have hstart : ∀ pages failures, pages ≤ 1 → OnCourse log afterSeq ⟨pages, failures, []⟩ :=
    fun pages failures hpages => ⟨rfl, hpages.trans (by omega)⟩
  refine ⟨hstart 0 0 (Nat.zero_le _), fun r hr => ?_⟩
  cases r with
  | error error => exact ⟨hstart 0 1 (Nat.zero_le _), fun hnone => absurd hnone Nat.one_ne_zero⟩
  | ok page =>
    cases hr rfl page rfl
    refine ⟨hstart 1 0 le_rfl, fun got hgot => ?_⟩
    cases hgot rfl
    refine ⟨hstart 1 0 le_rfl, fun receiver hdead => ?_⟩
    have hnew : ((log.drop afterSeq).take 500).filter (fun e => decide (afterSeq < e.seq)) =
        (log.drop afterSeq).take 500 := by
      rw [filter_eq_self]
      intro e he
      have hmem := mem_of_mem_take he
      have hbounds : afterSeq + 1 ≤ e.seq := by
        by_cases hle : afterSeq ≤ log.length
        · have hnumber := ((hlog.numbered.drop hle).mem_bounds hmem).1
          omega
        · rw [drop_eq_nil_of_le (by omega)] at hmem
          cases hmem
      exact decide_eq_true hbounds
    have hreplaying : Replaying id log afterSeq dead ⟨1, 0, []⟩ (new id afterSeq
        ⟨(log.drop afterSeq).take 500, receiver,
          ((log.drop afterSeq).take 500).getLast?.map CoreEvent.seq⟩) [] 0 := by
      refine ⟨rfl, hdead, rfl, rfl, ?_, ?_, fun _ => ⟨rfl, fun hnone => ⟨hnone, rfl⟩⟩,
        fun h => ?_, ?_⟩
      · change List.filter _ _ <+: log.drop afterSeq
        rw [hnew]
        exact take_prefix _ _
      · change 0 + (List.filter _ _).length = min (500 * 1) _
        rw [hnew, length_take]
        omega
      · cases h
      · change 1 ≤ _ + 1
        omega
    refine (follows_consume hlog fuels hreplaying).mono ?_
    rintro _ a' ⟨hcourse, hlength⟩
    refine ⟨hcourse, fun _ hfuels => ?_⟩
    rw [hlength hfuels]
    exact Nat.zero_add _

section Threads

variable (st : Step (contractCore setup))

def resultOf : Option (Except CoreError (Option CoreEvent)) :=
  match st.op with
  | .emit _ _ r => some r
  | _ => none

def results (w : World (contractCore setup)) (tid : ℕ) :
    List (Except CoreError (Option CoreEvent)) :=
  (w.own tid).reverse.filterMap resultOf

def isRead : Bool :=
  match st.op with
  | .store (.eventsAfter _ _ _) => true
  | _ => false

def readFails : Bool :=
  match st with
  | ⟨_, .store (.eventsAfter _ _ _), .error _, _, _, _⟩ => true
  | _ => false

theorem record_cases (a : ReplayAccount) (st : Step (contractCore setup)) :
    (isRead st = true ∧ readFails st = false ∧ resultOf st = none ∧
      a.record st.op st.reply = { a with pages := a.pages + 1 }) ∨
    (isRead st = true ∧ readFails st = true ∧ resultOf st = none ∧
      a.record st.op st.reply = { a with failures := a.failures + 1 }) ∨
    (isRead st = false ∧ readFails st = false ∧
      a.record st.op st.reply = { a with results := a.results ++ (resultOf st).toList }) := by
  obtain ⟨tid, o, r, pre, post, next⟩ := st
  have hidle : ({ a with results := a.results ++ [] } : ReplayAccount) = a := by
    rw [append_nil]
  cases o with
  | store o =>
    cases o with
    | eventsAfter id n limit =>
      cases r with
      | ok page => exact .inl ⟨rfl, rfl, rfl, rfl⟩
      | error e => exact .inr (.inl ⟨rfl, rfl, rfl, rfl⟩)
    | _ => exact .inr (.inr ⟨rfl, rfl, hidle.symm⟩)
  | emit id n result => exact .inr (.inr ⟨rfl, rfl, rfl⟩)
  | _ => exact .inr (.inr ⟨rfl, rfl, hidle.symm⟩)

theorem account_eq (l : List (Step (contractCore setup)))
    (ha : l.foldr (fun st a => ReplayAccount.record a st.op st.reply) ⟨0, 0, []⟩ = a) :
    l.countP isRead = a.pages + a.failures ∧ l.countP readFails = a.failures ∧
      l.reverse.filterMap resultOf = a.results := by
  induction l generalizing a with
  | nil =>
    subst ha
    exact ⟨rfl, rfl, rfl⟩
  | cons st l ih =>
    obtain ⟨b, hb⟩ : ∃ b, l.foldr (fun st a => ReplayAccount.record a st.op st.reply) ⟨0, 0, []⟩ =
        b := ⟨_, rfl⟩
    obtain ⟨hreads, hfailures, hresults⟩ := ih hb
    rw [foldr_cons, hb] at ha
    rw [countP_cons, countP_cons, reverse_cons, filterMap_append, hreads,
      hfailures, hresults]
    rcases record_cases b st with ⟨hread, hfails, hresult, hrecord⟩ |
      ⟨hread, hfails, hresult, hrecord⟩ | ⟨hread, hfails, hrecord⟩
    · rw [hrecord] at ha
      subst ha
      simp [hread, hfails, hresult, Nat.add_right_comm]
    · rw [hrecord] at ha
      subst ha
      simp [hread, hfails, hresult, Nat.add_assoc]
    · rw [hrecord] at ha
      subst ha
      simp only [hread, hfails, filterMap_cons, filterMap_nil]
      cases resultOf st <;> simp

theorem poll_dead {s s' : CoreState LogStore} (hext : s.Extends s') (hdead : s'.Dead r.channel)
    (hnext : r.next = 0) (hpoll : s.poll r = some got) : got = (.closed, r) := by
  obtain ⟨got, r'⟩ := got
  obtain ⟨ch, hch, hrecv, hchannel⟩ := CoreState.poll_eq_some hpoll
  obtain ⟨ch', hch', -, hgrown⟩ := hext.channels hch
  obtain ⟨id, hend⟩ := hdead
  rw [hch'] at hend
  cases hend
  have hsent : ch.channel.sent = [] := prefix_nil.mp hgrown.sent
  obtain ⟨channel, next⟩ := r
  obtain ⟨channel', next'⟩ := r'
  cases hnext
  cases hchannel
  simp only [Broadcast.Channel.recv, hsent, length_nil, Nat.not_lt_zero, if_false,
    getElem?_nil] at hrecv
  obtain ⟨-, heq⟩ := ite_none_right_eq_some.mp hrecv
  cases heq
  rfl

theorem replayed_of_own {p : Pool (contractCore setup)} (hp : p.Reachable)
    (hterminal : ∀ st ∈ p.own tid, ∃ snap, st.pre.db.tasks id = some snap ∧
      snap.state.terminal = true)
    (hactive : ∀ st ∈ p.own tid, st.op = .activeSubscribe id → st.pre.active id = none) :
    ∀ st ∈ p.own tid, Replayed id (p.state.db.events id)
      (fun r => p.state.Dead r.channel ∧ r.next = 0) st.op st.reply := by
  intro st hst
  have htrace := (World.mem_own.mp hst).1
  obtain ⟨hwf, hstep, hlater⟩ := extends_of_mem_trace hp htrace
  obtain ⟨c, hex⟩ := hp.executed st htrace
  have hterminal := hterminal st hst
  have hactive := hactive st hst
  obtain ⟨tid', o, r, pre, post, next⟩ := st
  cases o with
  | store o =>
    cases o with
    | eventsAfter id' n limit =>
      rintro rfl page hpage
      cases hpage
      obtain ⟨db, hdb, -⟩ := coreExec_store hex
      obtain ⟨snap, hsnap, hend⟩ := hterminal
      have hsame := (LogStore.events_of_terminal hwf.db (wf_of_reachable hp).db
        (hstep.trans hlater).db hsnap hend).2
      rw [LogStore.exec_eventsAfter_ok hdb, hwf.db.page_eq, hsame]
    | _ => trivial
  | activeSubscribe id' =>
    rintro rfl
    have hr : pre.subscribe id' = r := congrArg Prod.snd (Option.some.inj hex)
    have hnone : pre.active id' = none := hactive rfl
    rw [← hr]
    simp only [CoreState.subscribe, hnone]
  | closedReceiver id' => exact dead_of_mem_trace hp htrace rfl
  | recv id' receiver lastSeq =>
    rintro ⟨hdead, hnext⟩
    have hpoll : pre.poll receiver = some r := by
      simp only [contractCore, coreService, coreExec] at hex
      split at hex
      · cases hex
        assumption
      · cases hex
    exact poll_dead (hstep.trans hlater) hdead hnext hpoll
  | _ => trivial

def streamCalls? : CoreEntry → Option (TaskId × ℕ × List ℕ)
  | .stream id afterSeq fuels => some (id, afterSeq, fuels)
  | _ => none

theorem eq_stream_of_streamCalls? {e : CoreEntry} (h : streamCalls? e = some (id, afterSeq, fuels))
    : e = .stream id afterSeq fuels := by
  cases e <;> cases h
  rfl

end Threads

end AgentConnector.ReliableTaskStream
