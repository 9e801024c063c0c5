import AgentConnector.CompleteHistory

/-!
# A stream whose log is final

The channel is closed and the log does not grow any more. What is still to come is fixed, and each
call of `next` returns: it fails, or hands on the first event still to come, or, if there is none,
reports the end. A call takes at most one iteration for each delivery left on the channel and two
more.
-/

namespace AgentConnector.ReliableTaskStream

open Concurrent List

variable {afterSeq : ℕ} {f f' f'' : Feed} {events l : List CoreEvent} {s : ReliableTaskStream}
  {e : CoreEvent}

/-- The events still to come of a stream over a final log. -/
def remaining (log : List CoreEvent) (s : ReliableTaskStream) : List CoreEvent :=
  if s.terminal then [] else upToTerminal (log.drop s.lastSeq)

theorem Follows.remaining_eq (h : Follows afterSeq f events s) (hlate : f.late = false) :
    remaining f.log s = (upToTerminal (f.log.drop afterSeq)).drop events.length := by
  cases hterminal : s.terminal with
  | false =>
    rw [remaining, if_neg (by simp [hterminal]), h.log_eq,
      upToTerminal_append (h.unended hterminal), drop_left]
  | true =>
    rw [remaining, if_pos hterminal]
    rcases h.ended hterminal with ⟨init, e, rfl, hopen, hend⟩ | ⟨hopen, -, hall⟩
    · rw [h.log_eq, append_assoc, upToTerminal_append hopen, singleton_append,
        upToTerminal_cons, if_pos hend, drop_of_length_le (by simp)]
    · have hwhole := upToTerminal_append hopen []
      rw [upToTerminal_nil, append_nil] at hwhole
      rw [← hall hlate, hwhole, drop_length]

inductive Takes : List CoreEvent → Except CoreError (Option CoreEvent) → List CoreEvent → Prop where
  | failed (l : List CoreEvent) (e : CoreError) : Takes l (.error e) l
  | event (e : CoreEvent) (l : List CoreEvent) : Takes (e :: l) (.ok (some e)) l
  | done : Takes [] (.ok none) []

theorem takes_deliver (queue : List CoreEvent) (hopen : s.terminal = false)
    (hnext : log.drop s.lastSeq = e :: rest) (hseq : e.seq = s.lastSeq + 1) :
    Takes (remaining log s) (.ok (some e))
      (remaining log (deliver { s with pending := queue } e)) := by
  have hrest : log.drop e.seq = rest := by
    rw [hseq, ← drop_drop, hnext, drop_one, tail_cons]
  have hbefore : remaining log s = e :: if e.kind.isTerminal then [] else upToTerminal rest := by
    rw [remaining, if_neg (by simp [hopen]), hnext, upToTerminal_cons]
  have hafter : remaining log (deliver { s with pending := queue } e) =
      if e.kind.isTerminal then [] else upToTerminal rest := by
    simp only [remaining, deliver, hopen, Bool.false_or, hrest]
  rw [hbefore, hafter]
  exact .event e _

/-- The channel is closed, and only deliveries that were on it have been taken from it. -/
structure Settles (f f' : Feed) : Prop where
  closed : f'.closed = true
  log : f'.log = f.log
  queue : f'.queue.length ≤ f.queue.length

theorem Settles.trans (h : Settles f f') (h' : Settles f' f'') : Settles f f'' :=
  ⟨h'.closed, h'.log.trans h.log, h'.queue.trans h.queue⟩

/-- The choices that leave the log as it is. -/
def QuietChoice (c : FeedChoice) : Prop := Feed.Quiet c.moves

/-- A call has returned, and its result is what comes next. -/
def Answered (f : Feed) (s : ReliableTaskStream) (out : Polled) (f' : Feed) : Prop :=
  Settles f f' ∧ out.2.pending <+: f.log.drop out.2.lastSeq ∧
    ∃ r, out.1 = some r ∧ Takes (remaining f.log s) r (remaining f.log out.2)

theorem Answered.of_settles (h : Answered f' s' out f'') (hf : Settles f f')
    (hlast : s'.lastSeq = s.lastSeq) (hterminal : s'.terminal = s.terminal) :
    Answered f s out f'' := by
  obtain ⟨hf', hpending, r, hr, htakes⟩ := h
  have hsame : remaining f'.log s' = remaining f.log s := by
    simp only [remaining, hlast, hterminal, hf.log]
  rw [hsame] at htakes
  rw [hf.log] at hpending htakes
  exact ⟨hf.trans hf', hpending, r, hr, htakes⟩

section Calls

variable {trailing : Option CoreEvent}
    {loop : ReliableTaskStream → Prog (coreSig historySig) Polled}

theorem recover_completes (hclosed : f.closed = true) (hpending : s.pending = [])
    (htrailing : ∀ e, trailing = some e → e ∈ f.log ∧ s.lastSeq < e.seq)
    (hloop : Completes feedService 0 QuietChoice (Answered f s)
      (loop { s with pending := f.log.drop s.lastSeq }) f) :
    Completes feedService 0 QuietChoice (Answered f s)
      (recover historySource s trailing loop) f := by
  rw [recover_eq rfl]
  intro c hquiet
  have hf : f.after c.moves = f := Feed.after_of_quiet hclosed hquiet
  cases hfault : c.fault with
  | some error =>
    refine ⟨f, .error error, ?_, ⟨hclosed, rfl, le_rfl⟩, ?_, _, rfl, .failed _ _⟩
    · simp only [feedService, feedExec, hf, hfault]
    · change s.pending <+: _
      rw [hpending]
      exact nil_prefix
  | none =>
    refine ⟨f, .ok (f.history s.lastSeq), ?_, ?_⟩
    · simp only [feedService, feedExec, hf, hfault]
    · dsimp only
      rw [values_merge_history htrailing]
      exact hloop

/-- One call of `next`: by induction on the iterations, each of which takes a delivery from the
channel or is one of the last two. -/
theorem nextLoop_completes (fuel : ℕ) (hclosed : f.closed = true)
    (hpending : s.pending <+: f.log.drop s.lastSeq) (hfuel : 1 ≤ fuel)
    (hqueue : s.pending = [] → f.queue.length + 2 ≤ fuel) :
    Completes feedService 0 QuietChoice (Answered f s) (nextLoop historySource fuel s) f := by
  induction fuel generalizing s f with
  | zero => omega
  | succ fuel ih =>
    have hrefl : Settles f f := ⟨hclosed, rfl, le_rfl⟩
    cases hterminal : s.terminal with
    | true =>
      rw [nextLoop_of_terminal fuel hterminal]
      refine ⟨hrefl, hpending, _, rfl, ?_⟩
      simp only [remaining, hterminal, if_true]
      exact .done
    | false =>
      cases hhead : s.pending with
      | cons e queue =>
        rw [nextLoop_of_pending fuel hterminal hhead]
        obtain ⟨rest, hnext, hrest⟩ := drop_of_pending (hhead ▸ hpending)
        have hseq : e.seq = s.lastSeq + 1 := by
          have hlog := f.numbered_drop s.lastSeq
          rw [hnext] at hlog
          exact (Numbered.cons_iff.mp hlog).1
        refine ⟨hrefl, ?_, _, rfl, takes_deliver queue hterminal hnext hseq⟩
        change queue <+: f.log.drop e.seq
        rw [hseq, ← drop_drop, hnext, drop_one, tail_cons]
        exact hrest
      | nil =>
        have hbound := hqueue hhead
        rw [nextLoop_of_empty fuel hterminal hhead]
        intro c hquiet
        have hf : f.after c.moves = f := Feed.after_of_quiet hclosed hquiet
        obtain ⟨got, hpoll⟩ := Feed.exists_poll hclosed
        refine ⟨f.pop, (got, s.receiver), ?_, ?_⟩
        · simp only [feedService, feedExec, hf, hpoll, Option.map_some]
        have hpop : Settles f f.pop := ⟨hclosed, rfl, by simp [Feed.pop]⟩
        -- The rest of the body is run on the channel without the delivery.
        have hanswer : ∀ {p : Prog (coreSig historySig) Polled},
            Completes feedService 0 QuietChoice (Answered f.pop { s with receiver := s.receiver })
              p f.pop → Completes feedService 0 QuietChoice (Answered f s) p f.pop :=
          fun h => h.mono (fun out f' hout => hout.of_settles hpop rfl rfl)
        have hempty : s.pending <+: f.pop.log.drop s.lastSeq := by
          rw [hhead]
          exact nil_prefix
        have hloop : 1 ≤ fuel → (f.pop.log.drop s.lastSeq = [] → f.pop.queue.length + 2 ≤ fuel) →
            Completes feedService 0 QuietChoice (Answered f.pop { s with receiver := s.receiver })
              (nextLoop historySource fuel { s with pending := f.pop.log.drop s.lastSeq })
                f.pop := by
          intro hpos hlong
          have hrun := ih (f := f.pop) (s := { s with pending := f.pop.log.drop s.lastSeq }) hclosed
            prefix_rfl hpos hlong
          exact hrun.mono (fun out f' hout => hout.of_settles ⟨hclosed, rfl, le_rfl⟩ rfl rfl)
        refine hanswer ?_
        cases Feed.polls_of_poll hpoll with
        | @event e he hlength =>
          change Completes feedService 0 QuietChoice _ (onRecv historySource
            (nextLoop historySource fuel) { s with receiver := s.receiver } (.value e)) _
          simp only [onRecv]
          by_cases hold : e.seq ≤ s.lastSeq
          · rw [if_pos hold]
            exact ih hclosed hempty (by omega) (fun _ => by omega)
          · rw [if_neg hold]
            by_cases hseq : e.seq = s.lastSeq + 1
            · rw [if_pos hseq]
              have hnext := drop_of_mem he hseq
              refine ⟨⟨hclosed, rfl, le_rfl⟩, ?_, _, rfl,
                takes_deliver s.pending hterminal hnext hseq⟩
              change s.pending <+: f.pop.log.drop e.seq
              rw [hhead]
              exact nil_prefix
            · rw [if_neg hseq]
              refine recover_completes hclosed hhead ?_ ?_
              · rintro e' ⟨⟩
                exact ⟨he, Nat.lt_of_not_le hold⟩
              · exact hloop (by omega) (fun _ => by omega)
        | lag hlength =>
          refine recover_completes hclosed hhead (fun e' he' => by cases he') ?_
          exact hloop (by omega) (fun _ => by omega)
        | closed =>
          refine recover_completes hclosed hhead (fun e' he' => by cases he') ?_
          by_cases hend : (f.pop.log.drop s.lastSeq).isEmpty
          · rw [if_pos hend]
            refine ⟨⟨hclosed, rfl, le_rfl⟩, prefix_rfl, _, rfl, ?_⟩
            have hnone : remaining f.pop.log { s with receiver := s.receiver } = [] := by
              simp only [remaining, hterminal, isEmpty_iff.mp hend]
              rfl
            rw [hnone]
            exact .done
          · rw [if_neg hend]
            have hsome : f.pop.log.drop s.lastSeq ≠ [] := fun h => hend (by rw [h]; rfl)
            exact hloop (by omega) (fun h => absurd h hsome)

theorem Exhausts.of_takes (htakes : Takes l r l') (h : Exhausts l' (succeeded rs)) :
    Exhausts l (succeeded (r :: rs)) := by
  cases htakes with
  | failed => exact h
  | event e l' =>
    change some e :: succeeded rs = _
    simp only [succeeded, filterMap_cons, Except.toOption, length_cons, map_cons,
      cons_append, take_succ_cons]
    congr 1
    refine h.trans ?_
    simp only [succeeded, take_append, take_replicate]
    congr 2
    omega
  | done =>
    have hrest : succeeded rs = List.replicate (succeeded rs).length none := by
      simpa only [Exhausts, map_nil, nil_append, take_replicate, min_self] using h
    simp only [succeeded, filterMap_cons, Except.toOption]
    congr 1

theorem calls_completes (fuels : List ℕ) (hclosed : f.closed = true)
    (hpending : s.pending <+: f.log.drop s.lastSeq)
    (hfuels : ∀ fuel ∈ fuels, f.queue.length + 2 ≤ fuel) :
    Completes feedService 0 QuietChoice
      (fun out _ => out.1.length = fuels.length ∧ Exhausts (remaining f.log s) (succeeded out.1))
      (calls historySource fuels s) f := by
  induction fuels generalizing s f with
  | nil => exact ⟨rfl, rfl⟩
  | cons fuel fuels ih =>
    have hfuel := hfuels fuel (mem_cons_self ..)
    refine completes_bind ((nextLoop_completes fuel hclosed hpending (by omega)
      (fun _ => hfuel)).mono ?_)
    rintro ⟨_, s₁⟩ f₁ ⟨hsettles, hpending₁, r, rfl, htakes⟩
    rw [← hsettles.log] at hpending₁
    refine completes_bind ((ih hsettles.closed hpending₁ (fun n hn => ?_)).mono ?_)
    · have hn := hfuels n (mem_cons_of_mem _ hn)
      have hshorter := hsettles.queue
      omega
    · rintro ⟨rs, s₂⟩ f₂ ⟨hlength, hexhausts⟩
      rw [hsettles.log] at hexhausts
      exact ⟨congrArg (· + 1) hlength, hexhausts.of_takes htakes⟩

end Calls

/-- An accepted and completed task, whose completion is on the channel, and a closed channel. -/
def completedFeed : Feed :=
  feedService.init.after
    [.commit 1 0 (.accepted true), .commit 1 0 (.completed []), .send 1, .close]

end AgentConnector.ReliableTaskStream
