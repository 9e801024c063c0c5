import AgentConnector.SseResume

/-!
# Chunks of an event stream

Feeding the driver a stream in chunks. While the buffer stays within `max_event_bytes` and unmixed,
each chunk makes the driver handle the frames that the chunk completes, cut at blank lines, and keep
the rest. So the state after the whole stream, with the frames parsed, the events sent and what
`read_sse` has returned, does not depend on the chunks.
-/

namespace AgentConnector

namespace HttpSse

open Steps Framing Cutter List

def settle (cfg : Config) (task : TaskId) : ℕ → State → State
  | 0, s => s
  | n + 1, s => match s.phase with
    | .draining r => settle cfg task n (s.proceed cfg task r)
    | _ => s

/-- One chunk; a call of `read_sse` that is over takes no more. -/
def feed (cfg : Config) (task : TaskId) (s : State) (bytes : Bytes) : State :=
  match s.phase with
  | .reading r => settle cfg task ((r.buffer ++ bytes).length + 1) (s.receive cfg r bytes)
  | _ => s

def readChunks (cfg : Config) (task : TaskId) (s : State) (chunks : List Bytes) : State :=
  chunks.foldl (feed cfg task) s

variable {cfg : Config} {task : TaskId} {s s' : State}

theorem settle_run (cfg : Config) (task : TaskId) (n : ℕ) (s : State) :
    ∃ is, run (HttpSse.step cfg task) s is = some (settle cfg task n s) := by
  induction n generalizing s with
  | zero => exact ⟨[], rfl⟩
  | succ n ih =>
    cases hp : s.phase with
    | draining r =>
      obtain ⟨is, hrun⟩ := ih (s.proceed cfg task r)
      have hstep : HttpSse.step cfg task s .proceed = some (s.proceed cfg task r) := by
        unfold HttpSse.step
        rw [hp]
      refine ⟨.proceed :: is, ?_⟩
      rw [run, hstep, settle, hp]
      exact hrun
    | _ =>
      refine ⟨[], ?_⟩
      rw [settle, hp]
      rfl

theorem handle_phase (cfg : Config) (task : TaskId) (s : State) (r : Reader) (frame : Bytes) :
    (∃ latest, (s.handle cfg task r frame).phase = .draining { r with latestSeq := latest }) ∨
      (s.handle cfg task r frame).over := by
  unfold State.handle
  split
  · exact .inl ⟨_, rfl⟩
  · dsimp only
    split
    · exact .inr (fail_log _ _ _).2.2
    · exact .inl ⟨_, rfl⟩
    · split
      · exact .inr (fail_log _ _ _).2.2
      · split
        · exact .inr (.inr rfl)
        · exact .inl ⟨_, rfl⟩

theorem settle_of_over (n : ℕ) (h : s.over) : settle cfg task n s = s := by
  cases n with
  | zero => rfl
  | succ n =>
    unfold settle
    obtain h | h := h <;> rw [h]

theorem settle_done (n : ℕ) (s : State) (h : ∀ r, s.phase = .draining r → r.buffer.length < n) :
    ∀ r, (settle cfg task n s).phase ≠ .draining r := by
  induction n generalizing s with
  | zero => exact fun r hr => absurd (h r hr) (Nat.not_lt_zero _)
  | succ n ih =>
    unfold settle
    split
    · rename_i r hr
      apply ih
      intro r' hr'
      have hlen := h r hr
      unfold State.proceed at hr'
      cases hn : findSseBoundary r.buffer with
      | none =>
        rw [hn] at hr'
        cases hr'
      | some k =>
        rw [hn] at hr'
        have hshort := drainBoundary_shorter hn
        obtain ⟨latest, hl⟩ | hover | hover := handle_phase cfg task s
          { r with buffer := drainBoundary (r.buffer.drop k) } (r.buffer.take k)
        · rw [hl] at hr'
          cases hr'
          exact Nat.lt_of_lt_of_le hshort (Nat.le_of_lt_succ hlen)
        · rw [hover] at hr'
          cases hr'
        · rw [hover] at hr'
          cases hr'
    · rename_i hphase
      exact hphase

theorem feed_done (c : Bytes) (hs : ∀ r, s.phase ≠ .draining r) :
    ∀ r, (feed cfg task s c).phase ≠ .draining r := by
  unfold feed
  split
  · apply settle_done
    unfold State.receive
    intro r' hr'
    split at hr'
    · obtain hover | hover := (fail_log cfg s (.driver "SSE event exceeds max_event_bytes")).2.2
      · rw [hover] at hr'
        cases hr'
      · rw [hover] at hr'
        cases hr'
    · cases hr'
      exact Nat.lt_succ_self _
  · exact hs

theorem readChunks_run (chunks : List Bytes) (s : State) (hs : ∀ r, s.phase ≠ .draining r) :
    (∃ is, run (HttpSse.step cfg task) s is = some (readChunks cfg task s chunks)) ∧
      ∀ r, (readChunks cfg task s chunks).phase ≠ .draining r := by
  induction chunks generalizing s with
  | nil => exact ⟨⟨[], rfl⟩, hs⟩
  | cons c cs ih =>
    obtain ⟨⟨is, hrun⟩, hdone⟩ := ih (feed cfg task s c) (feed_done c hs)
    refine ⟨?_, hdone⟩
    cases hp : s.phase with
    | reading r =>
      obtain ⟨js, hsettle⟩ := settle_run cfg task ((r.buffer ++ c).length + 1) (s.receive cfg r c)
      have hstep : HttpSse.step cfg task s (.chunk c) = some (s.receive cfg r c) := by
        unfold HttpSse.step
        rw [hp]
      rw [feed, hp] at hrun
      refine ⟨.chunk c :: (js ++ is), ?_⟩
      rw [run, hstep, readChunks, foldl_cons, feed, hp]
      exact run_append hsettle hrun
    | _ =>
      have hfeed : feed cfg task s c = s := by rw [feed, hp]
      rw [hfeed] at hrun
      refine ⟨is, ?_⟩
      rw [readChunks, foldl_cons, hfeed]
      exact hrun

/-- When a chunk arrives, the buffer stays within the limit and has no LF LF after a CR LF CR LF. -/
def Fits (cfg : Config) (task : TaskId) : State → List Bytes → Prop
  | _, [] => True
  | s, c :: cs => (match s.phase with
      | .reading r => (r.buffer ++ c).length ≤ cfg.maxEventBytes ∧ Unmixed (r.buffer ++ c)
      | _ => True) ∧ Fits cfg task (feed cfg task s c) cs

instance decidableFits (cfg : Config) (task : TaskId) :
    (s : State) → (cs : List Bytes) → Decidable (Fits cfg task s cs)
  | _, [] => isTrue trivial
  | s, c :: cs =>
    have := decidableFits cfg task (feed cfg task s c) cs
    match h : s.phase with
    | .reading r =>
      decidable_of_iff (((r.buffer ++ c).length ≤ cfg.maxEventBytes ∧ Unmixed (r.buffer ++ c)) ∧
        Fits cfg task (feed cfg task s c) cs) (by rw [Fits, h])
    | .requesting | .draining _ | .sleeping | .finished =>
      decidable_of_iff (Fits cfg task (feed cfg task s c) cs) (by simp only [Fits, h, true_and])

def State.base (s : State) : State := { s with phase := .requesting }

def State.goesOn (s : State) : Except State (State × ℕ) :=
  match s.phase with
  | .draining r => .ok (s.base, r.latestSeq)
  | _ => .error s

def handled (cfg : Config) (task : TaskId) (p : State × ℕ) (frame : Bytes) :
    Except State (State × ℕ) :=
  (p.1.handle cfg task ⟨[], p.2, false⟩ frame).goesOn

def absorb (cfg : Config) (task : TaskId) (p : State × ℕ) (frames : List Bytes) :
    Except State (State × ℕ) :=
  frames.foldlM (handled cfg task) p

def conclude (rest : Bytes) : Except State (State × ℕ) → State
  | .error s => s
  | .ok (s, latest) => { s with phase := .reading ⟨rest, latest, false⟩ }

theorem absorb_append (p : State × ℕ) (fs gs : List Bytes) :
    absorb cfg task p (fs ++ gs) = (absorb cfg task p fs).bind (absorb cfg task · gs) :=
  foldlM_append

theorem State.goesOn_of_over (h : s.over) : s.goesOn = .error s := by
  unfold goesOn
  obtain h | h := h <;> rw [h]

theorem fail_phase (s : State) (p : Phase) (e : CoreError) :
    State.fail cfg { s with phase := p } e = State.fail cfg s e := by
  unfold State.fail State.deliver State.closed
  dsimp only
  split
  · split <;> rfl
  · rfl

def resume (buffer : Bytes) : Except State (State × ℕ) → State
  | .error s => s
  | .ok (s, latest) => { s with phase := .draining ⟨buffer, latest, false⟩ }

theorem handle_eq (s : State) (buffer : Bytes) (latest : ℕ) (frame : Bytes) :
    s.handle cfg task ⟨buffer, latest, false⟩ frame =
      resume buffer (handled cfg task (s.base, latest) frame) := by
  have hfail : ∀ (e : Entry) (error : CoreError), State.fail cfg (s.record e) error =
      resume buffer (State.fail cfg (s.base.record e) error).goesOn := by
    intro e error
    have hbase : State.fail cfg (s.base.record e) error = State.fail cfg (s.record e) error :=
      fail_phase (s.record e) .requesting error
    rw [hbase, State.goesOn_of_over (fail_log _ _ _).2.2]
    rfl
  unfold handled State.handle
  cases parseSseFrame frame with
  | none => rfl
  | some p =>
    cases hread : readEvent cfg task latest p.1 p.2 with
    | error e =>
      dsimp only
      rw [hread]
      exact hfail _ e
    | ok r =>
      obtain ⟨latest', sent⟩ := r
      dsimp only
      rw [hread]
      cases sent with
      | none => rfl
      | some sent =>
        dsimp only
        unfold State.deliver
        by_cases hclosed : s.closed = true
        · have h1 : (s.record (.parsed p.1 p.2)).closed = true := hclosed
          have h2 : (s.base.record (.parsed p.1 p.2)).closed = true := hclosed
          rw [if_pos h1, if_pos h2]
          exact hfail _ _
        · have h1 : ¬ (s.record (.parsed p.1 p.2)).closed = true := hclosed
          have h2 : ¬ (s.base.record (.parsed p.1 p.2)).closed = true := hclosed
          rw [if_neg h1, if_neg h2]
          dsimp only
          by_cases hend : terminal sent.2 = true
          · rw [if_pos hend, if_pos hend]
            rfl
          · rw [if_neg hend, if_neg hend]
            rfl

theorem handled_over (h : handled cfg task p frame = .error s') :
    s'.over := by
  unfold handled at h
  obtain ⟨r', hr⟩ | hover := handle_phase cfg task p.1 ⟨[], p.2, false⟩ frame
  · unfold State.goesOn at h
    rw [hr] at h
    cases h
  · rw [State.goesOn_of_over hover] at h
    cases h
    exact hover

theorem goesOn_base (h : s.goesOn = .ok q) : q.1.base = q.1 := by
  unfold State.goesOn at h
  split at h
  · cases h
    rfl
  · cases h

theorem absorb_base (hp : p.1.base = p.1) (h : absorb cfg task p frames = .ok q) :
    q.1.base = q.1 := by
  induction frames generalizing p with
  | nil =>
    cases h
    exact hp
  | cons f fs ih =>
    unfold absorb at h
    rw [foldlM_cons] at h
    cases hf : handled cfg task p f with
    | error s' =>
      rw [hf] at h
      cases h
    | ok p' =>
      rw [hf] at h
      exact ih (goesOn_base hf) h

theorem absorb_over (h : absorb cfg task p frames = .error s') : s'.over := by
  induction frames generalizing p with
  | nil => cases h
  | cons f fs ih =>
    unfold absorb at h
    rw [foldlM_cons] at h
    cases hf : handled cfg task p f with
    | error s' =>
      rw [hf] at h
      cases h
      exact handled_over hf
    | ok p' =>
      rw [hf] at h
      exact ih h

theorem proceed_eq (hb : Unmixed b) (s : State) (latest : ℕ) :
    s.proceed cfg task ⟨b, latest, false⟩ = match blankLines.cut b with
      | none => { s with phase := .reading ⟨b, latest, false⟩ }
      | some (f, rest) => s.handle cfg task ⟨rest, latest, false⟩ f := by
  have hcut : blankLines.cut b = cutBlank b := rfl
  rw [hcut, cutBlank_eq hb]
  unfold State.proceed
  cases findSseBoundary b with
  | none => rfl
  | some n => rfl

theorem Unmixed.rest {b f rest : Bytes} (hb : Unmixed b)
    (h : blankLines.cut b = some (f, rest)) : Unmixed rest := by
  have hcut : cutBlank b = some (f, rest) := h
  rw [cutBlank_eq hb] at hcut
  obtain ⟨n, -, heq⟩ := Option.map_eq_some_iff.mp hcut
  cases heq
  unfold drainBoundary
  split
  · exact (hb.drop n).drop 2
  · split
    · exact (hb.drop n).drop 4
    · exact hb.drop n

theorem settle_draining (b : Bytes) (hb : Unmixed b) (s : State) (latest n : ℕ)
    (hn : b.length < n) :
    settle cfg task n { s with phase := .draining ⟨b, latest, false⟩ } =
      conclude (blankLines.split b).2
        (absorb cfg task (s.base, latest) (blankLines.split b).1) := by
  induction b using split_induction generalizing s latest n with
  | hnone b h =>
    obtain ⟨n, rfl⟩ : ∃ m, n = m + 1 := ⟨n - 1, by omega⟩
    rw [split_of_none h, settle]
    dsimp only
    rw [proceed_eq hb, h]
    cases n with
    | zero => rfl
    | succ n => rfl
  | hsome b f rest h ih =>
    obtain ⟨n, rfl⟩ : ∃ m, n = m + 1 := ⟨n - 1, by omega⟩
    have hshort := blankLines.shorter h
    rw [split_of_some h, settle]
    dsimp only
    rw [proceed_eq hb, h]
    dsimp only
    rw [handle_eq, absorb, foldlM_cons]
    have hbase : State.base { s with phase := .draining ⟨b, latest, false⟩ } = s.base := rfl
    rw [hbase]
    cases hf : handled cfg task (s.base, latest) f with
    | error s' =>
      exact settle_of_over n (handled_over hf)
    | ok p =>
      have := ih (hb.rest h) p.1 p.2 n (by omega)
      rw [goesOn_base hf] at this
      exact this

theorem feed_eq (task : TaskId) (hs : s.phase = .reading r)
    (hlen : (r.buffer ++ c).length ≤ cfg.maxEventBytes) (hb : Unmixed (r.buffer ++ c)) :
    feed cfg task s c = conclude (blankLines.split (r.buffer ++ c)).2
      (absorb cfg task (s.base, r.latestSeq) (blankLines.split (r.buffer ++ c)).1) := by
  unfold feed State.receive
  rw [hs]
  dsimp only
  rw [if_neg (Nat.not_lt.mpr hlen)]
  exact settle_draining _ hb s _ _ (Nat.lt_succ_self _)

theorem eq_nil_of_flatten (hne : ∀ c ∈ cs, c ≠ []) (h : cs.flatten = []) :
    cs = [] := by
  cases cs with
  | nil => rfl
  | cons c cs => exact absurd (append_eq_nil_iff.mp h).1 (hne c mem_cons_self)

theorem readChunks_of_over (h : s.over) (cs : List Bytes) : readChunks cfg task s cs = s := by
  induction cs with
  | nil => rfl
  | cons c cs ih =>
    have hfeed : feed cfg task s c = s := by
      unfold feed
      obtain h | h := h <;> rw [h]
    rw [readChunks, foldl_cons, hfeed]
    exact ih

theorem readChunks_eq (hs : s.phase = .reading r) (hr : blankLines.cut r.buffer = none)
    (hfirst : cs = [] → r.first = false) (hfits : Fits cfg task s cs) :
    readChunks cfg task s cs = conclude (blankLines.split (r.buffer ++ cs.flatten)).2
      (absorb cfg task (s.base, r.latestSeq) (blankLines.split (r.buffer ++ cs.flatten)).1) := by
  induction cs generalizing s r with
  | nil =>
    rw [flatten_nil, append_nil, split_of_none hr]
    show s = { s with phase := .reading ⟨r.buffer, r.latestSeq, false⟩ }
    rw [← hfirst rfl, ← hs]
  | cons c cs ih =>
    obtain ⟨hc, hcs⟩ := hfits
    rw [hs] at hc
    have hfeed := feed_eq task hs hc.1 hc.2
    rw [readChunks, foldl_cons, flatten_cons, ← append_assoc, split_append]
    rw [absorb_append]
    cases hp : absorb cfg task (s.base, r.latestSeq) (blankLines.split (r.buffer ++ c)).1 with
    | error s' =>
      rw [hp] at hfeed
      rw [hfeed]
      exact readChunks_of_over (absorb_over hp) cs
    | ok p =>
      rw [hp] at hfeed
      have hphase : (feed cfg task s c).phase =
          .reading ⟨(blankLines.split (r.buffer ++ c)).2, p.2, false⟩ := by
        rw [hfeed]
        rfl
      have hbase : (feed cfg task s c).base = p.1 := by
        rw [hfeed]
        exact absorb_base rfl hp
      have h := ih hphase (cut_rest _) (fun _ => rfl) hcs
      rw [hbase] at h
      exact h

/-- Two ways to cut a stream into chunks lead to the same state: the same frames parsed, events sent
and results returned so far, and the same rest in the buffer. -/
theorem chunking_irrelevant (cfg : Config) (task : TaskId)
    (hs : s.phase = .reading ⟨[], s.afterSeq, true⟩) {cs cs' : List Bytes}
    (hne : ∀ c ∈ cs, c ≠ []) (hne' : ∀ c ∈ cs', c ≠ []) (hflat : cs.flatten = cs'.flatten)
    (hfits : Fits cfg task s cs) (hfits' : Fits cfg task s cs') :
    readChunks cfg task s cs = readChunks cfg task s cs' := by
  by_cases hnil : cs.flatten = []
  · have hcs : cs = [] := eq_nil_of_flatten hne hnil
    have hcs' : cs' = [] := eq_nil_of_flatten hne' (hflat ▸ hnil)
    rw [hcs, hcs']
  · have h := readChunks_eq hs rfl (fun h => absurd (h ▸ rfl) hnil) hfits
    have h' := readChunks_eq hs rfl (fun h => absurd (hflat ▸ h ▸ rfl) hnil) hfits'
    rw [h, h', hflat]

/-- The stream `data:x`, CR LF CR LF, `data:x`, LF LF. -/
def mixedStream : Bytes := [100, 97, 116, 97, 58, 120, 13, 10, 13, 10] ++ oneFrame

/-- The number of frames that have been parsed. -/
def parsedCount (s : State) : ℕ := s.log.countP Entry.isParsed

def readingState : State := { start (oneEvent 8 3) none with phase := .reading ⟨[], 0, true⟩ }

/-- Two frames in one chunk exceed a limit that each of them meets; and two separators of different
kinds make one frame of two if they arrive together. -/
theorem chunking_matters :
    (blankLines.split (oneFrame ++ oneFrame)).1 = [oneFrame.take 6, oneFrame.take 6] ∧
    parsedCount (readChunks (oneEvent 8 3) 0 readingState [oneFrame ++ oneFrame]) = 0 ∧
    parsedCount (readChunks (oneEvent 8 3) 0 readingState [oneFrame, oneFrame]) = 2 ∧
    (blankLines.split mixedStream).1 = [oneFrame.take 6, oneFrame.take 6] ∧
    parsedCount (readChunks (oneEvent 100 3) 0 readingState [mixedStream]) = 1 ∧
    parsedCount (readChunks (oneEvent 100 3) 0 readingState
      [mixedStream.take 10, mixedStream.drop 10]) = 2 := by
  have hlast : blankLines.split oneFrame = ([oneFrame.take 6], []) := by
    have hcut : blankLines.cut oneFrame = some (oneFrame.take 6, []) := by decide
    rw [split_of_some hcut, split_of_none rfl]
  have hcut : blankLines.cut (oneFrame ++ oneFrame) = some (oneFrame.take 6, oneFrame) := by decide
  have hmixed : blankLines.cut mixedStream = some (oneFrame.take 6, oneFrame) := by decide
  refine ⟨?_, by decide +kernel, by decide +kernel, ?_, by decide +kernel, by decide +kernel⟩
  · rw [split_of_some hcut, hlast]
  · rw [split_of_some hmixed, hlast]

/-- A frame that arrives whole or in two parts. -/
theorem chunking_irrelevant_of_cut_frame : readChunks (oneEvent 8 3) 0 readingState [oneFrame] =
      readChunks (oneEvent 8 3) 0 readingState [oneFrame.take 3, oneFrame.drop 3] :=
  chunking_irrelevant (oneEvent 8 3) 0 rfl (by decide) (by decide) rfl (by decide +kernel)
    (by decide +kernel)

end HttpSse

end AgentConnector
