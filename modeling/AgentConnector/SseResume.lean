import AgentConnector.HttpSseDriver

/-!
# Resuming an event stream

What each step of the HTTP/SSE driver can do, and what this means for the numbers of the events it
sends. Within a call of `read_sse` the cursor only grows and an event is sent only beyond it. When a
call returns `Disconnected`, the next one starts at its cursor; when it returns an error, the next
one starts again where the failed call did.
-/

namespace AgentConnector

namespace HttpSse

open Steps Entry List

namespace Entry

def isRequest : Entry → Bool
  | request _ => true
  | _ => false

def isParsed : Entry → Bool
  | parsed _ _ => true
  | _ => false

/-- An event of the agent that has been sent. -/
def isForwarded : Entry → Bool
  | forwarded _ _ => true
  | _ => false

def seq? : Entry → Option ℕ
  | forwarded seq _ => seq
  | _ => none

end Entry

variable {cfg : Config} {task : TaskId} {s s' : State} {i : Input}

/-- The inputs at which the current call of `read_sse` returns an error: a failed request, a buffer
that is too long, a read error, a timeout, a frame that cannot be read, or an event for a consumer
that has gone away. -/
def breaks (cfg : Config) (task : TaskId) (s : State) (i : Input) : Bool :=
  match i, s.phase with
  | .respond (.error _), .requesting => true
  | .chunk bytes, .reading r => cfg.maxEventBytes < (r.buffer ++ bytes).length
  | .readError _, .reading _ => true
  | .timeout, .reading _ => true
  | .proceed, .draining r =>
    match (findSseBoundary r.buffer).bind (fun n => parseSseFrame (r.buffer.take n)) with
    | none => false
    | some (id, data) => match readEvent cfg task r.latestSeq id data with
      | .error _ => true
      | .ok (_, event) => event.isSome && s.closed
  | _, _ => false

/-- What a step can do. The frames it parses are put on the log as well. -/
inductive Move (cfg : Config) (task : TaskId) (s : State) : Input → State → Prop where
  | closed : Move cfg task s .close { s with room := some 0 }
  | opened : s.phase = .requesting →
      Move cfg task s (.respond (.ok ())) { s with phase := .reading ⟨[], s.afterSeq, true⟩ }
  | broke {i : Input} (l : List Entry) (e : CoreError) : breaks cfg task s i = true →
      s.phase ≠ .sleeping → s.phase ≠ .finished → (∀ a ∈ l, a.isParsed = true) →
      Move cfg task s i (State.fail cfg { s with log := l ++ s.log } e)
  | arrived {r : Reader} {bytes : Bytes} : s.phase = .reading r → Move cfg task s (.chunk bytes)
        { s with phase := .draining ⟨r.buffer ++ bytes, r.latestSeq, false⟩ }
  | ended {r : Reader} : s.phase = .reading r → Move cfg task s .eof (s.disconnect r.latestSeq)
  | emptied {r : Reader} : s.phase = .draining r →
      Move cfg task s .proceed { s with phase := .reading r }
  | skipped {r r' : Reader} (l : List Entry) : s.phase = .draining r → r.latestSeq ≤ r'.latestSeq →
      (∀ a ∈ l, a.isParsed = true) →
      Move cfg task s .proceed { s with phase := .draining r', log := l ++ s.log }
  | sent {r r' : Reader} {seq : Option ℕ} {event : DriverEvent} {id : Option (List Char)}
      {data : Bytes} : s.phase = .draining r → s.closed = false →
      (∀ n ∈ seq, r.latestSeq < n) → r'.latestSeq = seq.getD r.latestSeq →
      Move cfg task s .proceed { s with
          phase := .draining r'
          room := s.room.map (· - 1)
          log := .forwarded seq event :: .parsed id data :: s.log }
  | concluded {r : Reader} {seq : Option ℕ} {event : DriverEvent} {id : Option (List Char)}
      {data : Bytes} : s.phase = .draining r → s.closed = false →
      (∀ n ∈ seq, r.latestSeq < n) → terminal event = true →
      Move cfg task s .proceed { s with
          phase := .finished
          room := s.room.map (· - 1)
          log := .returned (.ok .terminal) :: .forwarded seq event :: .parsed id data :: s.log }
  | woke : s.phase = .sleeping → Move cfg task s .wake { s with
        phase := .requesting
        backoff := min (2 * s.backoff) cfg.reconnectMaxBackoff
        log := .request s.afterSeq :: s.log }

theorem readEvent_cases {id : Option (List Char)}
    (h : readEvent cfg task latest id data = .ok (latest', out)) :
    latest ≤ latest' ∧ ∀ seq event, out = some (seq, event) →
      (∀ n ∈ seq, latest < n) ∧ latest' = seq.getD latest := by
  unfold readEvent at h
  cases hdecode : cfg.decode data with
  | error m =>
    rw [hdecode] at h
    cases h
  | ok event =>
    rw [hdecode] at h
    dsimp only at h
    split at h
    · cases h
      exact ⟨le_refl _, fun _ _ h => by cases h⟩
    · split at h
      · cases h
        exact ⟨le_refl _, fun _ _ h => by cases h⟩
      · rename_i hnew
        have hlt : ∀ n ∈ event.seq.or (id.bind parseU64), latest < n := by
          intro n hn
          rw [Option.mem_def] at hn
          rw [hn] at hnew
          simpa using hnew
        have hle : latest ≤ (event.seq.or (id.bind parseU64)).getD latest := by
          cases hseq : event.seq.or (id.bind parseU64) with
          | none => exact le_refl _
          | some n => exact (hlt n hseq).le
        split at h
        · cases h
        · cases h
          exact ⟨hle, fun _ _ h => by cases h⟩
        · cases h
          refine ⟨hle, fun seq event' heq => ?_⟩
          cases heq
          exact ⟨hlt, rfl⟩

theorem proceed_move (hr : s.phase = .draining r) :
    Move cfg task s .proceed (s.proceed cfg task r) := by
  unfold State.proceed
  cases hn : findSseBoundary r.buffer with
  | none => exact .emptied hr
  | some n =>
    dsimp only
    unfold State.handle
    cases hframe : parseSseFrame (r.buffer.take n) with
    | none => exact .skipped [] hr (le_refl _) (fun _ h => by cases h)
    | some frame =>
      obtain ⟨id, data⟩ := frame
      have hparsed : ∀ a ∈ [parsed id data], a.isParsed = true := by simp [isParsed]
      have hbroke : ∀ e, breaks cfg task s .proceed = true →
          Move cfg task s .proceed (State.fail cfg (s.record (.parsed id data)) e) :=
        fun e hb => .broke [.parsed id data] e hb (by simp [hr]) (by simp [hr]) hparsed
      dsimp only
      cases hread : readEvent cfg task r.latestSeq id data with
      | error e => exact hbroke e (by simp [breaks, hr, hn, hframe, hread])
      | ok out =>
        obtain ⟨latest, out⟩ := out
        obtain ⟨hle, hsent⟩ := readEvent_cases hread
        cases out with
        | none => exact .skipped [.parsed id data] hr hle hparsed
        | some out =>
          obtain ⟨seq, event⟩ := out
          obtain ⟨hlt, hlatest⟩ := hsent seq event rfl
          dsimp only
          unfold State.deliver
          by_cases hclosed : (s.record (.parsed id data)).closed = true
          · rw [if_pos hclosed]
            have hgone : s.closed = true := hclosed
            exact hbroke _ (by simp [breaks, hr, hn, hframe, hread, hgone])
          · rw [if_neg hclosed]
            have hopen : s.closed = false := Bool.eq_false_of_not_eq_true hclosed
            dsimp only
            split
            · exact .concluded hr hopen hlt ‹_›
            · exact .sent hr hopen hlt hlatest

theorem receive_move (hr : s.phase = .reading r) (bytes : Bytes) :
    Move cfg task s (.chunk bytes) (s.receive cfg r bytes) := by
  unfold State.receive
  split
  · rename_i hlong
    have hb : breaks cfg task s (.chunk bytes) = true := by
      simpa [breaks, hr] using hlong
    exact .broke [] _ hb (by simp [hr]) (by simp [hr]) (fun _ h => by cases h)
  · exact .arrived hr

theorem step_move (h : step cfg task s i = some s') : Move cfg task s i s' := by
  have hnil : ∀ a ∈ ([] : List Entry), a.isParsed = true := fun _ h => by cases h
  unfold step at h
  split at h
  · cases h
    exact .closed
  · cases h
    exact .opened ‹_›
  · rename_i e hr
    cases h
    exact .broke [] e (by simp [breaks, hr]) (by simp [hr]) (by simp [hr]) hnil
  · cases h
    exact receive_move ‹_› _
  · rename_i m r hr
    cases h
    exact .broke [] _ (by simp [breaks, hr]) (by simp [hr]) (by simp [hr]) hnil
  · rename_i r hr
    cases h
    exact .broke [] _ (by simp [breaks, hr]) (by simp [hr]) (by simp [hr]) hnil
  · cases h
    exact .ended ‹_›
  · cases h
    exact proceed_move ‹_›
  · cases h
    exact .woke ‹_›
  · cases h

variable (log : List Entry)

/-- The numbers of the events sent so far, newest first. -/
def numbers : List ℕ := log.filterMap seq?

/-- The log of the current call of `read_sse`, and that of the earlier ones with its request. -/
def callLog : List Entry := log.takeWhile (fun a => !a.isRequest)

def earlierLog : List Entry := log.dropWhile (fun a => !a.isRequest)

def Entry.quiet (a : Entry) : Bool := !a.isRequest && !a.isForwarded

theorem Entry.quiet_of_isParsed {a : Entry} (h : a.isParsed = true) : a.quiet = true := by
  cases a with
  | parsed id data => rfl
  | _ => cases h

variable {l : List Entry}

theorem numbers_append_quiet (h : ∀ a ∈ l, a.quiet = true) : numbers (l ++ log) = numbers log := by
  have hnil : numbers l = [] := by
    rw [numbers, filterMap_eq_nil_iff]
    intro a ha
    have hq := h a ha
    cases a with
    | forwarded seq event => cases hq
    | _ => rfl
  rw [numbers, filterMap_append, ← numbers, hnil, nil_append, numbers]

theorem earlierLog_append (h : ∀ a ∈ l, a.isRequest = false) :
    earlierLog (l ++ log) = earlierLog log :=
  dropWhile_append_of_pos (fun a ha => by rw [h a ha]; rfl)

theorem isRequest_of_quiet {a : Entry} (h : a.quiet = true) : a.isRequest = false := by
  cases a with
  | request n => cases h
  | _ => rfl

/-- The call of `read_sse` is over. -/
def State.over (s : State) : Prop := s.phase = .sleeping ∨ s.phase = .finished

theorem fail_log (cfg : Config) (s : State) (e : CoreError) :
    (∃ l, (s.fail cfg e).log = l ++ s.log ∧ ∀ a ∈ l, a.quiet = true) ∧
      (s.fail cfg e).afterSeq = s.afterSeq ∧
      (s.fail cfg e).over := by
  unfold State.fail
  dsimp only
  split
  · unfold State.deliver
    split
    · exact ⟨⟨[_], rfl, by simp [quiet, isRequest, isForwarded]⟩, rfl, .inr rfl⟩
    · exact ⟨⟨[_, _], rfl, by simp [quiet, isRequest, isForwarded]⟩, rfl, .inr rfl⟩
  · exact ⟨⟨[_], rfl, by simp [quiet, isRequest, isForwarded]⟩, rfl, .inl rfl⟩

def State.cursor? (s : State) : Option ℕ :=
  match s.phase with
  | .reading r => some r.latestSeq
  | .draining r => some r.latestSeq
  | .finished => none
  | _ => some s.afterSeq

/-- The numbers sent so far grow; they are not beyond the cursor, and those of earlier calls not
beyond the number at which the current call has started. -/
structure Resumes (s : State) : Prop where
  increasing : (numbers s.log).Pairwise (· > ·)
  cursor : ∀ c ∈ s.cursor?, ∀ n ∈ numbers s.log, n ≤ c
  earlier : ∀ n ∈ numbers (earlierLog s.log), n ≤ s.afterSeq

theorem Resumes.quiet_step (h : Resumes s) (hlog : s'.log = l ++ s.log)
    (hl : ∀ a ∈ l, a.quiet = true) (hafter : s'.afterSeq = s.afterSeq)
    (hcursor : ∀ c' ∈ s'.cursor?, ∀ n ∈ numbers s.log, n ≤ c') : Resumes s' where
  increasing := by
    rw [hlog, numbers_append_quiet _ hl]
    exact h.increasing
  cursor c' hc' := by
    rw [hlog, numbers_append_quiet _ hl]
    exact hcursor c' hc'
  earlier := by
    rw [hlog, earlierLog_append _ (fun a ha => isRequest_of_quiet (hl a ha)), hafter]
    exact h.earlier

theorem increasing_forwarded {seq : Option ℕ} (h : ns.Pairwise (· > ·)) (hc : ∀ n ∈ ns, n ≤ c)
    (hseq : ∀ n ∈ seq, c < n) : (seq.toList ++ ns).Pairwise (· > ·) := by
  cases seq with
  | none => exact h
  | some m => exact .cons (fun n hn => (hc n hn).trans_lt (hseq m rfl)) h

theorem numbers_forwarded (seq : Option ℕ) (event : DriverEvent) (id : Option (List Char))
    (data : Bytes) (log : List Entry) :
    numbers (.forwarded seq event :: .parsed id data :: log) = seq.toList ++ numbers log := by
  cases seq <;> rfl

theorem Resumes.step (h : Resumes s)
    (hC : breaks cfg task s i = true → numbers (callLog s.log) = [])
    (hstep : step cfg task s i = some s') : Resumes s' := by
  have hnil : ∀ a ∈ ([] : List Entry), a.quiet = true := fun _ h => by cases h
  cases step_move hstep with
  | closed => exact h.quiet_step rfl hnil rfl h.cursor
  | opened hr | arrived hr | emptied hr =>
    refine h.quiet_step rfl hnil rfl (fun c hc => h.cursor c ?_)
    rw [State.cursor?, hr]
    exact hc
  | broke l e hb _ _ hl =>
    obtain ⟨⟨l', hlog, hl'⟩, hafter, hphase⟩ := fail_log cfg { s with log := l ++ s.log } e
    refine h.quiet_step (by rw [hlog, append_assoc]) ?_ hafter ?_
    · intro a ha
      exact (mem_append.mp ha).elim (hl' a) (fun ha => quiet_of_isParsed (hl a ha))
    · -- The next call starts where this one did, so this one must not have sent a number.
      have hnone := hC hb
      have hsplit : numbers s.log = numbers (callLog s.log) ++ numbers (earlierLog s.log) := by
        rw [numbers, numbers, numbers, ← filterMap_append, callLog, earlierLog,
          takeWhile_append_dropWhile]
      rw [hsplit, hnone, nil_append]
      intro c hc
      rcases hphase with hp | hp
      · rw [State.cursor?, hp] at hc
        cases hc
        rw [hafter]
        exact h.earlier
      · rw [State.cursor?, hp] at hc
        cases hc
  | @ended r hr =>
    have hcursor : ∀ n ∈ numbers s.log, n ≤ r.latestSeq :=
      h.cursor _ (by rw [State.cursor?, hr]; rfl)
    refine ⟨h.increasing, fun c hc => ?_, fun n hn => ?_⟩
    · cases hc
      exact hcursor
    · have hsub : (earlierLog s.log).Sublist s.log := dropWhile_sublist _
      exact hcursor n ((hsub.filterMap _).subset hn)
  | @skipped r r' l hr hle hl =>
    refine h.quiet_step rfl (fun a ha => quiet_of_isParsed (hl a ha)) rfl ?_
    intro c hc n hn
    cases hc
    exact (h.cursor _ (by rw [State.cursor?, hr]; rfl) n hn).trans hle
  | @sent r r' seq event id data hr _ hlt hlatest =>
    have hcursor : ∀ n ∈ numbers s.log, n ≤ r.latestSeq :=
      h.cursor _ (by rw [State.cursor?, hr]; rfl)
    refine ⟨?_, fun c hc => ?_, h.earlier⟩
    · rw [numbers_forwarded]
      exact increasing_forwarded h.increasing hcursor hlt
    · cases hc
      rw [numbers_forwarded, hlatest]
      intro n hn
      cases seq with
      | none => exact hcursor n hn
      | some m =>
        rcases mem_cons.mp hn with rfl | hn
        · exact le_refl _
        · exact (hcursor n hn).trans (hlt m rfl).le
  | @concluded r seq event id data hr _ hlt _ =>
    have hcursor : ∀ n ∈ numbers s.log, n ≤ r.latestSeq :=
      h.cursor _ (by rw [State.cursor?, hr]; rfl)
    refine ⟨?_, (fun c hc => by cases hc), h.earlier⟩
    change (numbers (.forwarded seq event :: .parsed id data :: s.log)).Pairwise _
    rw [numbers_forwarded]
    exact increasing_forwarded h.increasing hcursor hlt
  | woke hr =>
    have hcursor : ∀ n ∈ numbers s.log, n ≤ s.afterSeq :=
      h.cursor _ (by rw [State.cursor?, hr]; rfl)
    exact ⟨h.increasing, fun c hc => by cases hc; exact hcursor, hcursor⟩

theorem resumes_start (cfg : Config) (room : Option ℕ) : Resumes (start cfg room) where
  increasing := .nil
  cursor _ _ n hn := by cases hn
  earlier n hn := by cases hn

/-- As long as no call of `read_sse` fails after it has sent an event with a number, the numbers
that are sent grow over all calls. -/
theorem numbers_increase (cfg : Config) (task : TaskId) (room : Option ℕ) (is : List Input)
    {s : State} (hrun : run (HttpSse.step cfg task) (start cfg room) is = some s)
    (hcalls : Along (HttpSse.step cfg task)
      (fun s i => breaks cfg task s i = true → numbers (callLog s.log) = []) (start cfg room) is) :
    (numbers s.log).Pairwise (· > ·) :=
  (run_invariant (fun h hC hstep => Resumes.step h hC hstep) hrun hcalls
    (resumes_start cfg room)).increasing

/-- An agent that sends the event number 1, whatever the data. -/
def oneEvent (maxEventBytes reconnectAttempts : ℕ) : Config where
  maxEventBytes := maxEventBytes
  reconnectInitialBackoff := 250
  reconnectMaxBackoff := 30000
  reconnectAttempts := reconnectAttempts
  decode _ := .ok ⟨"uaic/1", "progress", 0, some 1, none, none, none, none, none, none⟩

/-- The frame `data:x`. -/
def oneFrame : Bytes := [100, 97, 116, 97, 58, 120, 10, 10]

/-- A read error after the first event: the event is sent again by the next call. -/
theorem event_sent_twice : ∃ s, run (HttpSse.step (oneEvent 100 8) 0) (start (oneEvent 100 8) none)
        [.respond (.ok ()), .chunk oneFrame, .proceed, .proceed, .readError "reset", .wake,
          .respond (.ok ()), .chunk oneFrame, .proceed] = some s ∧
      numbers s.log = [1, 1] ∧ ¬ (numbers s.log).Pairwise (· > ·) := by
  refine ⟨_, rfl, ?_, ?_⟩ <;> decide +kernel

/-- A connection that ends after its first event and is resumed behind it. -/
theorem numbers_increase_of_disconnect :
    ∃ s, run (HttpSse.step (oneEvent 100 8) 0) (start (oneEvent 100 8) none)
        [.respond (.ok ()), .chunk oneFrame, .proceed, .proceed, .eof, .wake,
          .respond (.ok ()), .chunk oneFrame, .proceed] = some s ∧
      numbers s.log = [1] ∧ (numbers s.log).Pairwise (· > ·) := by
  refine ⟨_, rfl, by decide +kernel, ?_⟩
  exact numbers_increase (oneEvent 100 8) 0 none
    [.respond (.ok ()), .chunk oneFrame, .proceed, .proceed, .eof, .wake,
      .respond (.ok ()), .chunk oneFrame, .proceed] rfl (by decide +kernel)

end HttpSse

end AgentConnector
