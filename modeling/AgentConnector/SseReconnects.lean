import AgentConnector.SseResume

/-!
# Reconnecting to an event stream

How often `stream_events` calls `read_sse`. Every call that ends adds to the attempts, but only one
that fails is checked against `reconnect_attempts`, and a consumer that has gone away counts as a
failure like any other. While a connection that ends without an event has attempts left, and the
consumer stays until the last attempt, the calls between two events are bounded, the driver reports
once that it gives up, and it makes no call for a consumer that has gone away.
-/

namespace AgentConnector

namespace HttpSse

open Steps Entry List

def Entry.isGaveUp : Entry → Bool
  | gaveUp _ => true
  | _ => false

/-- The calls since the last event of the agent. -/
def pending (log : List Entry) : ℕ :=
  (log.takeWhile (fun a => !a.isForwarded)).countP isRequest

/-- A connection that ends without an event leaves an attempt, and the consumer stays: it does not
go away before a reconnect, and a call that ends without it is the last attempt. -/
def measured (cfg : Config) (task : TaskId) (s : State) (i : Input) : Bool :=
  match i, s.phase with
  | .close, .sleeping => false
  | .eof, _ => !s.closed && (s.attempts < cfg.reconnectAttempts || (callLog s.log).any isForwarded)
  | i, _ => !(breaks cfg task s i && s.closed && s.attempts < cfg.reconnectAttempts)

variable {cfg : Config} {task : TaskId} {s s' : State} {i : Input} {log : List Entry}

@[simp] theorem pending_request (n : ℕ) : pending (.request n :: log) = pending log + 1 :=
  countP_cons_of_pos rfl

variable {a : Entry}

theorem pending_cons_quiet (ha : a.quiet = true) : pending (a :: log) = pending log := by
  cases a with
  | request n => cases ha
  | forwarded seq event => cases ha
  | _ => rfl

variable {l : List Entry}

theorem countP_le_pending (h : ∀ a ∈ l, a.isForwarded = false) :
    l.countP isRequest ≤ pending (l ++ log) := by
  have hl : ∀ a ∈ l, (!a.isForwarded) = true := fun a ha => by rw [h a ha]; rfl
  rw [pending, takeWhile_append_of_pos hl, countP_append]
  exact Nat.le_add_right _ _

theorem pending_of_sent_in_call (h : (callLog log).any isForwarded = true) : pending log = 0 := by
  induction log with
  | nil => cases h
  | cons a log ih =>
    cases a with
    | request n => cases h
    | forwarded seq event => rfl
    | _ => exact ih h

/-- No stretch of the log without an event has more than `n` calls. -/
def Spaced (n : ℕ) (log : List Entry) : Prop := ∀ t, t <:+ log → pending t ≤ n

theorem Spaced.cons (h : Spaced n log) (ha : pending (a :: log) ≤ n) :
    Spaced n (a :: log) := by
  intro t ht
  obtain rfl | ht := suffix_cons_iff.mp ht
  · exact ha
  · exact h t ht

theorem Spaced.cons_quiet (h : Spaced n log) (ha : a.quiet = true) :
    Spaced n (a :: log) := by
  refine h.cons ?_
  rw [pending_cons_quiet ha]
  exact h _ (suffix_refl _)

theorem Spaced.append_quiet (h : Spaced n log) (hl : ∀ a ∈ l, a.quiet = true) :
    Spaced n (l ++ log) ∧ pending (l ++ log) = pending log := by
  induction l with
  | nil => exact ⟨h, rfl⟩
  | cons a l ih =>
    obtain ⟨hs, hp⟩ := ih (fun b hb => hl b (mem_cons_of_mem _ hb))
    have ha := hl a mem_cons_self
    exact ⟨hs.cons_quiet ha, (pending_cons_quiet ha).trans hp⟩

/-- What is kept: the bound on the calls, the attempts that pay for them, and a report only at the
end. -/
structure Measured (cfg : Config) (s : State) : Prop where
  spaced : Spaced (cfg.reconnectAttempts + 1) s.log
  sleeping : s.phase = .sleeping →
    pending s.log ≤ cfg.reconnectAttempts ∧ pending s.log ≤ s.attempts ∧ s.closed = false
  calling : ¬ s.over → pending s.log ≤ s.attempts + 1
  silent : s.phase ≠ .finished → s.log.countP isGaveUp = 0
  finished : s.phase = .finished → s.log.countP isGaveUp = 1 ∨
    s.log.countP isGaveUp = 0 ∧ (s.closed = true ∨ pending s.log = 0)

theorem fail_cases (cfg : Config) (s : State) (e : CoreError) :
    (s.attempts + 1 ≤ cfg.reconnectAttempts ∧ s.fail cfg e = { s with
        phase := .sleeping, attempts := s.attempts + 1, log := .returned (.error e) :: s.log }) ∨
    (cfg.reconnectAttempts < s.attempts + 1 ∧ s.closed = true ∧ s.fail cfg e = { s with
        phase := .finished, attempts := s.attempts + 1, log := .returned (.error e) :: s.log }) ∨
    (cfg.reconnectAttempts < s.attempts + 1 ∧ s.closed = false ∧ ∃ event, terminal event = true ∧
      s.fail cfg e = { s with
        phase := .finished, attempts := s.attempts + 1, room := s.room.map (· - 1)
        log := .gaveUp event :: .returned (.error e) :: s.log }) := by
  unfold State.fail
  by_cases hlast : s.attempts + 1 > cfg.reconnectAttempts
  · rw [if_pos hlast]
    unfold State.deliver
    by_cases hclosed : s.closed = true
    · have hclosed' : State.closed
          { s with attempts := s.attempts + 1, log := .returned (.error e) :: s.log } = true :=
        hclosed
      rw [if_pos hclosed']
      exact .inr (.inl ⟨hlast, hclosed, rfl⟩)
    · have hclosed' : ¬ State.closed
          { s with attempts := s.attempts + 1, log := .returned (.error e) :: s.log } = true :=
        hclosed
      rw [if_neg hclosed']
      exact .inr (.inr ⟨hlast, Bool.eq_false_of_not_eq_true hclosed, _, rfl, rfl⟩)
  · rw [if_neg hlast]
    exact .inl ⟨Nat.le_of_not_lt hlast, rfl⟩

theorem countP_append_of_none {p : Entry → Bool} (hl : ∀ a ∈ l, p a = false) :
    (l ++ log).countP p = log.countP p := by
  have hzero : l.countP p = 0 := countP_eq_zero.mpr (fun a ha => by simp [hl a ha])
  rw [countP_append, hzero, Nat.zero_add]

theorem Entry.not_gaveUp_of_isParsed (h : a.isParsed = true) : a.isGaveUp = false := by
  cases a with
  | gaveUp event => cases h
  | _ => rfl

theorem over_of_phase (hp : s.phase = p) (h1 : p ≠ .sleeping) (h2 : p ≠ .finished) :
    ¬ s.over := by
  rintro (h | h)
  · exact h1 (hp.symm.trans h)
  · exact h2 (hp.symm.trans h)

theorem measured_of_breaks (hb : breaks cfg task s i = true) (hC : measured cfg task s i = true)
    (hclosed : s.closed = true) : cfg.reconnectAttempts ≤ s.attempts := by
  unfold measured at hC
  split at hC
  · cases hC
  · cases hb
  · rw [hb, hclosed] at hC
    simpa using hC

theorem measured_of_eof (hC : measured cfg task s .eof = true) :
    s.closed = false ∧ (s.attempts < cfg.reconnectAttempts ∨ pending s.log = 0) := by
  have hC' : (!s.closed && (s.attempts < cfg.reconnectAttempts ||
      (callLog s.log).any isForwarded)) = true := hC
  rw [Bool.and_eq_true, Bool.or_eq_true, Bool.not_eq_true', decide_eq_true_eq] at hC'
  exact ⟨hC'.1, hC'.2.imp_right pending_of_sent_in_call⟩

theorem Measured.within (h : Measured cfg s) (hs : ¬ s.over) (hs' : ¬ s'.over)
    (hlog : s'.log = l ++ s.log) (hl : ∀ a ∈ l, a.isParsed = true)
    (hattempts : s'.attempts = s.attempts) : Measured cfg s' := by
  obtain ⟨hspaced, hpending⟩ :=
    h.spaced.append_quiet (fun a ha => quiet_of_isParsed (hl a ha))
  refine ⟨hlog ▸ hspaced, fun hp => absurd (.inl hp) hs', fun _ => ?_, fun _ => ?_,
    fun hp => absurd (.inr hp) hs'⟩
  · rw [hlog, hpending, hattempts]
    exact h.calling hs
  · rw [hlog, countP_append_of_none (fun a ha => not_gaveUp_of_isParsed (hl a ha))]
    exact h.silent (fun hp => hs (.inr hp))

theorem Measured.fail (h : Measured cfg s) (hs : ¬ s.over) (e : CoreError)
    (hlast : s.closed = true → cfg.reconnectAttempts ≤ s.attempts) :
    Measured cfg (s.fail cfg e) := by
  have hcalls := h.calling hs
  have hsilent := h.silent (fun hp => hs (.inr hp))
  have hquiet : ∀ a ∈ [returned (.error e)], a.quiet = true := by
    simp [quiet, isRequest, isForwarded]
  obtain ⟨hspaced, hpending⟩ := h.spaced.append_quiet hquiet
  obtain ⟨hle, heq⟩ | ⟨hlt, hclosed, heq⟩ | ⟨hlt, hopen, event, -, heq⟩ := fail_cases cfg s e
  · rw [heq]
    refine ⟨hspaced, fun _ => ?_, fun hp => absurd (.inl rfl) hp, fun _ => hsilent,
      (fun hp => by cases hp)⟩
    have hopen : s.closed = false := by
      by_contra hclosed
      have := hlast (Bool.eq_true_of_not_eq_false hclosed)
      omega
    change pending ([_] ++ s.log) ≤ _ ∧ pending ([_] ++ s.log) ≤ _ ∧ s.closed = false
    rw [hpending]
    exact ⟨by omega, hcalls, hopen⟩
  · rw [heq]
    exact ⟨hspaced, (fun hp => by cases hp), fun hp => absurd (.inr rfl) hp,
      fun hp => absurd rfl hp, fun _ => .inr ⟨hsilent, .inl hclosed⟩⟩
  · rw [heq]
    have hreported : (gaveUp event :: .returned (.error e) :: s.log).countP isGaveUp = 1 := by
      rw [countP_cons_of_pos rfl]
      exact congrArg (· + 1) hsilent
    exact ⟨hspaced.cons_quiet rfl, (fun hp => by cases hp),
      fun hp => absurd (.inr rfl) hp, fun hp => absurd rfl hp, fun _ => .inl hreported⟩

theorem Measured.step (h : Measured cfg s) (hC : measured cfg task s i = true)
    (hstep : step cfg task s i = some s') : Measured cfg s' := by
  have hnil : ∀ a ∈ ([] : List Entry), a.isParsed = true := fun _ h => by cases h
  cases step_move hstep with
  | closed =>
    refine ⟨h.spaced, fun hp => ?_, h.calling, h.silent, fun hp => ?_⟩
    · have hsleeping : s.phase = .sleeping := hp
      unfold measured at hC
      rw [hsleeping] at hC
      cases hC
    · exact (h.finished hp).imp_right (fun ⟨hzero, _⟩ => ⟨hzero, .inl rfl⟩)
  | opened hr | arrived hr | emptied hr =>
    exact h.within (over_of_phase hr (by simp) (by simp))
      (over_of_phase rfl (by simp) (by simp)) rfl hnil rfl
  | broke l e hb hns hnf hl =>
    have hs : ¬ s.over := fun hover => hover.elim hns hnf
    have hparsed : Measured cfg { s with log := l ++ s.log } := h.within hs hs rfl hl rfl
    have hlast : s.closed = true → cfg.reconnectAttempts ≤ s.attempts := measured_of_breaks hb hC
    exact hparsed.fail hs e hlast
  | @ended r hr =>
    have hs : ¬ s.over := over_of_phase hr (by simp) (by simp)
    have hcalls := h.calling hs
    obtain ⟨hopen, hpaid⟩ := measured_of_eof hC
    refine ⟨h.spaced.cons_quiet rfl, fun _ => ?_, fun hp => absurd (.inl rfl) hp,
      fun _ => h.silent (fun hp => hs (.inr hp)), (fun hp => by cases hp)⟩
    change pending s.log ≤ _ ∧ pending s.log ≤ s.attempts + 1 ∧ s.closed = false
    obtain hlt | hzero := hpaid
    · exact ⟨by omega, hcalls, hopen⟩
    · exact ⟨by omega, hcalls, hopen⟩
  | @skipped r r' l hr hle hl =>
    exact h.within (over_of_phase hr (by simp) (by simp))
      (over_of_phase rfl (by simp) (by simp)) rfl hl rfl
  | @sent r r' seq event id data hr _ hlt hlatest =>
    have hparsed := h.spaced.cons_quiet (a := .parsed id data) rfl
    have hs : ¬ s.over := over_of_phase hr (by simp) (by simp)
    exact ⟨hparsed.cons (Nat.zero_le _), (fun hp => by cases hp), fun _ => Nat.zero_le _,
      fun _ => h.silent (fun hp => hs (.inr hp)), (fun hp => by cases hp)⟩
  | @concluded r seq event id data hr _ hlt _ =>
    have hparsed := h.spaced.cons_quiet (a := .parsed id data) rfl
    have hs : ¬ s.over := over_of_phase hr (by simp) (by simp)
    exact ⟨(hparsed.cons (Nat.zero_le _)).cons (Nat.zero_le _), (fun hp => by cases hp),
      fun hp => absurd (.inr rfl) hp, fun hp => absurd rfl hp,
      fun _ => .inr ⟨h.silent (fun hp => hs (.inr hp)), .inr rfl⟩⟩
  | woke hr =>
    obtain ⟨hle, hle', hopen⟩ := h.sleeping hr
    refine ⟨h.spaced.cons ?_, (fun hp => by cases hp), fun _ => ?_, fun _ => ?_,
      (fun hp => by cases hp)⟩
    · rw [pending_request]
      exact Nat.succ_le_succ hle
    · rw [pending_request]
      exact Nat.succ_le_succ hle'
    · exact h.silent (by simp [hr])

theorem measured_start (cfg : Config) (room : Option ℕ) : Measured cfg (start cfg room) where
  spaced t ht := by
    obtain rfl | ht := suffix_cons_iff.mp ht
    · exact Nat.succ_le_succ (Nat.zero_le _)
    · rw [suffix_nil.mp ht]
      exact Nat.zero_le _
  sleeping hp := by cases hp
  calling _ := le_refl _
  silent _ := rfl
  finished hp := by cases hp

theorem Measured.step_closed (h : Measured cfg s) (hclosed : s.closed = true)
    (hstep : HttpSse.step cfg task s i = some s') :
    s'.closed = true ∧ s'.log.countP isRequest = s.log.countP isRequest := by
  have hparsed : ∀ l : List Entry, (∀ a ∈ l, a.isParsed = true) →
      (l ++ s.log).countP isRequest = s.log.countP isRequest := fun l hl =>
    countP_append_of_none (fun a ha => isRequest_of_quiet (quiet_of_isParsed (hl a ha)))
  cases step_move hstep with
  | closed => exact ⟨rfl, rfl⟩
  | opened hr | arrived hr | ended hr | emptied hr => exact ⟨hclosed, rfl⟩
  | broke l e hb hns hnf hl =>
    obtain ⟨-, heq⟩ | ⟨-, -, heq⟩ | ⟨-, hopen, -⟩ := fail_cases cfg { s with log := l ++ s.log } e
    · rw [heq]
      exact ⟨hclosed, hparsed l hl⟩
    · rw [heq]
      exact ⟨hclosed, hparsed l hl⟩
    · exact absurd (hclosed.symm.trans hopen) (by decide)
  | skipped l hr hle hl => exact ⟨hclosed, hparsed l hl⟩
  | sent hr hopen | concluded hr hopen => exact absurd (hclosed.symm.trans hopen) (by decide)
  | woke hr =>
    have hopen := (h.sleeping hr).2.2
    exact absurd (hclosed.symm.trans hopen) (by decide)

/-- In every run that is measured: at most `reconnect_attempts + 1` calls between two events, then
one report that ends the stream; and no call for a consumer that has gone away. -/
theorem reconnects_bounded (cfg : Config) (task : TaskId) (room : Option ℕ) (is js : List Input)
    {s₁ s : State} (hrun₁ : run (HttpSse.step cfg task) (start cfg room) is = some s₁)
    (hrun : run (HttpSse.step cfg task) s₁ js = some s)
    (hcalls₁ : Along (HttpSse.step cfg task) (fun s i => measured cfg task s i = true)
      (start cfg room) is)
    (hcalls : Along (HttpSse.step cfg task) (fun s i => measured cfg task s i = true) s₁ js) :
    (∀ l₁ l₂ l₃, s.log = l₁ ++ l₂ ++ l₃ → (∀ a ∈ l₂, a.isForwarded = false) →
      l₂.countP Entry.isRequest ≤ cfg.reconnectAttempts + 1) ∧
    (s.over → cfg.reconnectAttempts + 1 ≤ pending s.log → s.phase = .finished ∧
      (s.closed = false → s.log.countP Entry.isGaveUp = 1)) ∧
    s.log.countP Entry.isGaveUp ≤ 1 ∧
    (0 < s.log.countP Entry.isGaveUp → s.phase = .finished) ∧
    (s₁.closed = true → s.log.countP Entry.isRequest = s₁.log.countP Entry.isRequest) := by
  have h₁ : Measured cfg s₁ := run_invariant (fun h hC hstep => Measured.step h hC hstep) hrun₁
    hcalls₁ (measured_start cfg room)
  have h : Measured cfg s := run_invariant (fun h hC hstep => Measured.step h hC hstep) hrun
    hcalls h₁
  refine ⟨fun l₁ l₂ l₃ hlog hl => ?_, fun hover hmany => ?_, ?_, fun hpos => ?_, fun hclosed => ?_⟩
  · have hsuffix : l₂ ++ l₃ <:+ s.log := ⟨l₁, by rw [hlog, append_assoc]⟩
    exact (countP_le_pending hl).trans (h.spaced _ hsuffix)
  · obtain hp | hp := hover
    · have := (h.sleeping hp).1
      omega
    · refine ⟨hp, fun hopen => ?_⟩
      obtain hone | ⟨-, hclosed | hzero⟩ := h.finished hp
      · exact hone
      · exact absurd (hclosed.symm.trans hopen) (by decide)
      · omega
  · by_cases hp : s.phase = .finished
    · have := h.finished hp
      omega
    · rw [h.silent hp]
      exact Nat.zero_le 1
  · by_contra hp
    exact absurd (h.silent hp) (Nat.pos_iff_ne_zero.mp hpos)
  · have hkept : Measured cfg s ∧ s.closed = true ∧
        s.log.countP isRequest = s₁.log.countP isRequest :=
      run_invariant (K := fun t => Measured cfg t ∧ t.closed = true ∧
          t.log.countP isRequest = s₁.log.countP isRequest)
        (fun ht hC hstep => by
          obtain ⟨ht, hclosed, hcount⟩ := ht
          obtain ⟨hclosed', hcount'⟩ := ht.step_closed hclosed hstep
          exact ⟨ht.step hC hstep, hclosed', hcount'.trans hcount⟩)
        hrun hcalls ⟨h₁, hclosed, rfl⟩
    exact hkept.2.2

/-- A connection that ends at once, over and over. -/
def emptyConnection : List Input := [.respond (.ok ()), .eof, .wake]

/-- With no reconnects allowed, two connections that end without an event lead to three calls and no
report; and a consumer that has gone away is given a second call. -/
theorem reconnects_unbounded :
    (∃ s, run (HttpSse.step (oneEvent 100 0) 0) (start (oneEvent 100 0) none)
        (emptyConnection ++ emptyConnection) = some s ∧
      s.log.all (fun a => !a.isForwarded) = true ∧ s.log.countP Entry.isRequest = 3 ∧
      s.log.countP Entry.isGaveUp = 0) ∧
    ∃ s₁ s, run (HttpSse.step (oneEvent 100 3) 0) (start (oneEvent 100 3) none)
        [.respond (.ok ()), .close] = some s₁ ∧ s₁.closed = true ∧
      run (HttpSse.step (oneEvent 100 3) 0) s₁ [.chunk oneFrame, .proceed, .wake] = some s ∧
      s₁.log.countP Entry.isRequest = 1 ∧ s.log.countP Entry.isRequest = 2 := by
  refine ⟨⟨_, rfl, ?_⟩, ⟨_, _, rfl, ?_, rfl, ?_⟩⟩ <;> decide +kernel

/-- Two failed connections, the second the last attempt. -/
theorem reconnects_bounded_of_failures :
    ∃ s, run (HttpSse.step (oneEvent 100 1) 0) (start (oneEvent 100 1) none)
        [.respond (.error (.driver "down")), .wake, .respond (.error (.driver "down"))] = some s ∧
      s.over ∧ 2 ≤ pending s.log ∧
      s.phase = .finished ∧ (s.closed = false → s.log.countP Entry.isGaveUp = 1) := by
  refine ⟨_, rfl, Or.inr rfl, by decide +kernel, ?_⟩
  exact (reconnects_bounded (oneEvent 100 1) 0 none
    [.respond (.error (.driver "down")), .wake, .respond (.error (.driver "down"))] [] rfl rfl
    (by decide +kernel) trivial).2.1 (Or.inr rfl) (by decide +kernel)

/-! ## The end of the stream -/

def Entry.sent? : Entry → Option DriverEvent
  | forwarded _ event | gaveUp event => some event
  | _ => none

/-- The events that the consumer has been sent, newest first. -/
def sentEvents (log : List Entry) : List DriverEvent := log.filterMap sent?

/-- Only the last event of a stream that has finished is terminal. It is, unless the consumer has
gone away. -/
structure EndsOnce (s : State) : Prop where
  running : s.phase ≠ .finished → ∀ e ∈ sentEvents s.log, terminal e = false
  earlier : ∀ e ∈ (sentEvents s.log).tail, terminal e = false
  last : s.phase = .finished → s.closed = true ∨ (sentEvents s.log).head?.any terminal = true

theorem endsOnce_of_running (hp : s.phase ≠ .finished)
    (h : ∀ e ∈ sentEvents s.log, terminal e = false) : EndsOnce s :=
  ⟨fun _ => h, fun e he => h e (mem_of_mem_tail he), fun hf => absurd hf hp⟩

theorem endsOnce_fail (e : CoreError) (h : ∀ e ∈ sentEvents s.log, terminal e = false) :
    EndsOnce (s.fail cfg e) := by
  obtain ⟨-, heq⟩ | ⟨-, hclosed, heq⟩ | ⟨-, -, event, hevent, heq⟩ := fail_cases cfg s e
  · rw [heq]
    exact endsOnce_of_running (by simp) h
  · rw [heq]
    exact ⟨fun _ => h, fun e he => h e (mem_of_mem_tail he), fun _ => .inl hclosed⟩
  · rw [heq]
    exact ⟨fun hp => absurd rfl hp, h, fun _ => .inr hevent⟩

theorem endsOnce_handle (r : Reader) (frame : Bytes)
    (h : ∀ e ∈ sentEvents s.log, terminal e = false) : EndsOnce (s.handle cfg task r frame) := by
  unfold State.handle
  split
  · exact endsOnce_of_running (by simp) h
  dsimp only
  split
  · exact endsOnce_fail _ h
  · exact endsOnce_of_running (by simp) h
  · unfold State.deliver
    by_cases hclosed : s.room = some 0
    · simp only [State.closed, State.record, hclosed, decide_true, if_true]
      exact endsOnce_fail _ h
    · simp only [State.closed, State.record, hclosed, decide_false, Bool.false_eq_true, if_false]
      split
      · exact ⟨fun hp => absurd rfl hp, h, fun _ => .inr ‹_›⟩
      · exact endsOnce_of_running (by simp)
          (forall_mem_cons.mpr ⟨Bool.eq_false_of_not_eq_true ‹_›, h⟩)

theorem EndsOnce.step (h : EndsOnce s) (hstep : step cfg task s i = some s') : EndsOnce s' := by
  have hall : ∀ {p}, s.phase = p → p ≠ .finished → ∀ e ∈ sentEvents s.log, terminal e = false :=
    fun hr hp => h.running (by rw [hr]; exact hp)
  unfold HttpSse.step at hstep
  split at hstep
  · cases hstep
    exact ⟨h.running, h.earlier, fun _ => .inl rfl⟩
  · cases hstep
    exact endsOnce_of_running (by simp) (hall ‹_› (by simp))
  · cases hstep
    exact endsOnce_fail _ (hall ‹_› (by simp))
  · cases hstep
    unfold State.receive
    split
    · exact endsOnce_fail _ (hall ‹_› (by simp))
    · exact endsOnce_of_running (by simp) (hall ‹_› (by simp))
  · cases hstep
    exact endsOnce_fail _ (hall ‹_› (by simp))
  · cases hstep
    exact endsOnce_fail _ (hall ‹_› (by simp))
  · cases hstep
    exact endsOnce_of_running (by simp [State.disconnect]) (hall ‹_› (by simp))
  · cases hstep
    unfold State.proceed
    split
    · exact endsOnce_of_running (by simp) (hall ‹_› (by simp))
    · exact endsOnce_handle _ _ (hall ‹_› (by simp))
  · cases hstep
    exact endsOnce_of_running (by simp) (hall ‹_› (by simp))
  · cases hstep

/-- In every run, the events that `stream_events` sends are any number of events that are not
terminal and then at most one that is, with which it ends; and it ends only with a terminal event
or when the consumer has gone away. -/
theorem stream_ends_once (cfg : Config) (task : TaskId) (room : Option ℕ) (is : List Input)
    {s : State} (hrun : run (HttpSse.step cfg task) (start cfg room) is = some s) : EndsOnce s :=
  run_keeps (fun h hstep => EndsOnce.step h hstep) hrun
    (endsOnce_of_running (by simp [start]) (fun e he => by cases he))

theorem stream_ends_once_of_failure :
    ∃ s, run (HttpSse.step (oneEvent 100 0) 0) (start (oneEvent 100 0) none)
        [.respond (.ok ()), .chunk oneFrame, .proceed, .proceed, .readError "reset"] = some s ∧
      s.phase = .finished ∧ (sentEvents s.log).length = 2 ∧ EndsOnce s :=
  ⟨_, rfl, rfl, by decide +kernel, stream_ends_once (oneEvent 100 0) 0 none
    [.respond (.ok ()), .chunk oneFrame, .proceed, .proceed, .readError "reset"] rfl⟩

end HttpSse

end AgentConnector
