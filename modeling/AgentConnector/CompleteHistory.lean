import AgentConnector.HistoryFeed

/-!
# A stream over a complete history

What a stream has delivered is a segment of the log that begins behind `after_seq`, and its queue is
the beginning of what comes next. Errors of the source, lag, gaps and repetitions on the channel
keep this. Once the channel is closed and the log is final, each call that does not fail hands on
the next event, up to the first terminal one, and then reports the end. A stream that finds its
channel closed reports the end as soon as it has read the whole log, so it misses what is logged
afterwards.
-/

namespace AgentConnector.ReliableTaskStream

open Concurrent List

variable {afterSeq : ℕ} {f f' : Feed} {events l rest : List CoreEvent} {s : ReliableTaskStream}
  {e : CoreEvent}

def Open (l : List CoreEvent) : Prop := ∀ e ∈ l, e.kind.isTerminal = false

/-- The events up to the first terminal one, which is included. -/
def upToTerminal (l : List CoreEvent) : List CoreEvent :=
  l.take (l.findIdx (fun e => e.kind.isTerminal) + 1)

theorem upToTerminal_nil : upToTerminal [] = [] := rfl

theorem upToTerminal_cons (e : CoreEvent) (l : List CoreEvent) :
    upToTerminal (e :: l) = e :: if e.kind.isTerminal then [] else upToTerminal l := by
  unfold upToTerminal
  rw [findIdx_cons, take_succ_cons]
  cases e.kind.isTerminal with
  | true => rfl
  | false => rfl

theorem upToTerminal_append (h : Open l) (rest : List CoreEvent) :
    upToTerminal (l ++ rest) = l ++ upToTerminal rest := by
  induction l with
  | nil => rfl
  | cons e l ih =>
    have he : ¬ e.kind.isTerminal = true := by
      rw [h e (mem_cons_self ..)]
      decide
    rw [cons_append, upToTerminal_cons, if_neg he,
      ih (fun x hx => h x (mem_cons_of_mem _ hx)), cons_append]

theorem Open.concat (h : Open l) (he : e.kind.isTerminal = false) : Open (l ++ [e]) := by
  intro x hx
  rcases mem_append.mp hx with hx | hx
  · exact h x hx
  · rw [mem_singleton.mp hx]
    exact he

/-- The stream has delivered `events`, a segment of the log, and its queue comes next. It has ended
with a terminal event, or on a closed channel with all that was logged. -/
structure Follows (afterSeq : ℕ) (f : Feed) (events : List CoreEvent) (s : ReliableTaskStream) :
    Prop where
  delivered : events <+: f.log.drop afterSeq
  lastSeq : s.lastSeq = afterSeq + events.length
  pending : s.pending <+: f.log.drop s.lastSeq
  unended : s.terminal = false → Open events
  ended : s.terminal = true →
    (∃ init e, events = init ++ [e] ∧ Open init ∧ e.kind.isTerminal = true) ∨
      (Open events ∧ f.closed = true ∧ (f.late = false → events = f.log.drop afterSeq))

namespace Follows

theorem grows (h : Follows afterSeq f events s) (hg : f.Grows f') :
    Follows afterSeq f' events s where
  delivered := h.delivered.trans (hg.log.drop afterSeq)
  lastSeq := h.lastSeq
  pending := h.pending.trans (hg.log.drop s.lastSeq)
  unended := h.unended
  ended := by
    intro hterminal
    refine (h.ended hterminal).imp_right (fun ⟨hopen, hclosed, hall⟩ => ?_)
    refine ⟨hopen, hg.closed hclosed, fun hlate => ?_⟩
    rw [hg.final hclosed hlate]
    exact hall (hg.late hlate)

theorem receive (h : Follows afterSeq f events s) (receiver : Receiver) :
    Follows afterSeq f events { s with receiver := receiver } :=
  ⟨h.delivered, h.lastSeq, h.pending, h.unended, h.ended⟩

theorem catchUp (h : Follows afterSeq f events s) :
    Follows afterSeq f events { s with pending := f.log.drop s.lastSeq } :=
  ⟨h.delivered, h.lastSeq, prefix_rfl, h.unended, h.ended⟩

theorem log_eq (h : Follows afterSeq f events s) :
    f.log.drop afterSeq = events ++ f.log.drop s.lastSeq := by
  obtain ⟨tail, htail⟩ := h.delivered
  have hdrop : f.log.drop s.lastSeq = (f.log.drop afterSeq).drop events.length := by
    rw [drop_drop, h.lastSeq]
  rw [hdrop, ← htail, drop_left]

theorem numbered (h : Follows afterSeq f events s) :
    Numbered CoreEvent.seq (afterSeq + 1) events := by
  have hlog := f.numbered_drop afterSeq
  rw [h.log_eq] at hlog
  exact (Numbered.append_iff.mp hlog).1

theorem deliver (h : Follows afterSeq f events s) (hopen : s.terminal = false)
    (hnext : f.log.drop s.lastSeq = e :: rest) (hqueue : queue <+: rest) :
    Follows afterSeq f (events ++ [e]) (deliver { s with pending := queue } e) := by
  have hseq : e.seq = s.lastSeq + 1 := by
    have hlog := f.numbered_drop s.lastSeq
    rw [hnext] at hlog
    exact (Numbered.cons_iff.mp hlog).1
  have hrest : f.log.drop e.seq = rest := by
    rw [hseq, ← drop_drop, hnext, drop_one, tail_cons]
  refine ⟨?_, ?_, ?_, fun hterminal => ?_, fun hterminal => Or.inl ?_⟩
  · rw [h.log_eq, hnext]
    exact ⟨rest, by simp⟩
  · change e.seq = _
    rw [hseq, h.lastSeq, length_append, length_singleton, Nat.add_assoc]
  · change queue <+: f.log.drop e.seq
    rw [hrest]
    exact hqueue
  · exact (h.unended hopen).concat (Bool.or_eq_false_iff.mp hterminal).2
  · refine ⟨events, e, rfl, h.unended hopen, ?_⟩
    have hor : (s.terminal || e.kind.isTerminal) = true := hterminal
    rwa [hopen, Bool.false_or] at hor

theorem close (h : Follows afterSeq f events s) (hopen : s.terminal = false)
    (hclosed : f.closed = true) (hnext : f.log.drop s.lastSeq = []) :
    Follows afterSeq f events { s with terminal := true } := by
  refine ⟨h.delivered, h.lastSeq, h.pending, (fun hterminal => by cases hterminal), fun _ => ?_⟩
  refine Or.inr ⟨h.unended hopen, hclosed, fun _ => ?_⟩
  rw [h.log_eq, hnext, append_nil]

end Follows

theorem drop_of_pending (h : e :: queue <+: l.drop n) :
    ∃ rest, l.drop n = e :: rest ∧ queue <+: rest := by
  obtain ⟨tail, htail⟩ := h
  exact ⟨queue ++ tail, htail.symm, prefix_append _ _⟩

theorem drop_of_mem (he : e ∈ f.log) (hseq : e.seq = n + 1) :
    f.log.drop n = e :: f.log.drop (n + 1) := by
  have hget := f.numbered.getElem?_of_mem he
  rw [hseq, Nat.add_sub_cancel] at hget
  obtain ⟨hlt, hget⟩ := List.getElem?_eq_some_iff.mp hget
  rw [List.drop_eq_getElem_cons hlt, hget]

section Reads

variable {C : FeedChoice → Prop} {trailing : Option CoreEvent}
  {loop : ReliableTaskStream → Prog (coreSig historySig) Polled}

theorem values_merge_history {lastSeq : ℕ}
    (htrailing : ∀ e, trailing = some e → e ∈ f.log ∧ lastSeq < e.seq) :
    OrderedMap.values (merge lastSeq (f.history lastSeq) trailing) = f.log.drop lastSeq := by
  rw [f.history_eq]
  have hnumbered := f.numbered_drop lastSeq
  cases trailing with
  | none => exact values_merge_none hnumbered
  | some e =>
    obtain ⟨he, hlt⟩ := htrailing e rfl
    have hbound := (f.numbered.mem_bounds he).2
    refine values_merge_mem hnumbered hlt ?_
    rw [length_drop]
    omega

theorem feedExec_recv {id : TaskId} {receiver : Receiver}
    (h : feedExec f (.recv id receiver n) c = some (f', got)) :
    f' = (f.after c.moves).pop ∧ (f.after c.moves).Polls got.1 := by
  obtain ⟨got', hpoll, heq⟩ := Option.map_eq_some_iff.mp h
  cases heq
  exact ⟨rfl, Feed.polls_of_poll hpoll⟩

end Reads

section Runs

variable {trailing : Option CoreEvent}
    {loop : ReliableTaskStream → Prog (coreSig historySig) Polled}

def handedBy (r : Option (Except CoreError (Option CoreEvent))) : List CoreEvent :=
  r.elim [] handed

/-- The state of a stream after a call, in terms of what was delivered before it. -/
def Continues (afterSeq : ℕ) (events : List CoreEvent) (out : Polled) (f : Feed) : Prop :=
  Follows afterSeq f (events ++ handedBy out.1) out.2

theorem continues_of_none (hr : handedBy r = []) (h : Follows afterSeq f events s) :
    Continues afterSeq events (r, s) f := by
  change Follows afterSeq f (events ++ handedBy r) s
  rw [hr, append_nil]
  exact h

theorem recover_ensures (h : Follows afterSeq f events s)
    (htrailing : ∀ e, trailing = some e → e ∈ f.log ∧ s.lastSeq < e.seq)
    (hloop : ∀ f', f.Grows f' → Follows afterSeq f' events
      { s with pending := f'.log.drop s.lastSeq } →
      Ensures feedService 0 (fun _ => True) (Continues afterSeq events)
        (loop { s with pending := f'.log.drop s.lastSeq }) f') :
    Ensures feedService 0 (fun _ => True) (Continues afterSeq events)
      (recover historySource s trailing loop) f := by
  rw [recover_eq rfl]
  intro c _ f₁ r hex
  have hgrows := f.grows_after c.moves
  cases hfault : c.fault with
  | some error =>
    have hreply : (f.after c.moves, Except.error error) = (f₁, r) := by
      simpa only [feedService, feedExec, hfault, Option.some.injEq] using hex
    cases hreply
    exact continues_of_none rfl (h.grows hgrows)
  | none =>
    have hreply : (f.after c.moves, Except.ok ((f.after c.moves).history s.lastSeq)) = (f₁, r) := by
      simpa only [feedService, feedExec, hfault, Option.some.injEq] using hex
    cases hreply
    have hread : ∀ e, trailing = some e → e ∈ (f.after c.moves).log ∧ s.lastSeq < e.seq :=
      fun e he => ⟨hgrows.log.subset (htrailing e he).1, (htrailing e he).2⟩
    have hvalues := values_merge_history hread
    dsimp only
    rw [hvalues]
    exact hloop _ hgrows (h.grows hgrows).catchUp

theorem nextLoop_ensures (fuel : ℕ) (h : Follows afterSeq f events s) :
    Ensures feedService 0 (fun _ => True) (Continues afterSeq events)
      (nextLoop historySource fuel s) f := by
  induction fuel generalizing s f with
  | zero => exact continues_of_none rfl h
  | succ fuel ih =>
    cases hterminal : s.terminal with
    | true =>
      rw [nextLoop_of_terminal fuel hterminal]
      exact continues_of_none rfl h
    | false =>
      cases hpending : s.pending with
      | cons e queue =>
        rw [nextLoop_of_pending fuel hterminal hpending]
        obtain ⟨rest, hnext, hqueue⟩ := drop_of_pending (hpending ▸ h.pending)
        exact h.deliver hterminal hnext hqueue
      | nil =>
        rw [nextLoop_of_empty fuel hterminal hpending]
        rintro c - f₁ ⟨got, receiver⟩ hex
        obtain ⟨rfl, hpolls⟩ := feedExec_recv hex
        have hgrows := (f.grows_after c.moves).trans (f.after c.moves).grows_pop
        have hs := (h.grows hgrows).receive receiver
        cases hpolls with
        | @event e he hlength =>
          change Ensures feedService 0 _ _ (onRecv historySource (nextLoop historySource fuel)
            { s with receiver := receiver } (.value e)) _
          simp only [onRecv]
          by_cases hold : e.seq ≤ s.lastSeq
          · rw [if_pos hold]
            exact ih hs
          · rw [if_neg hold]
            by_cases hseq : e.seq = s.lastSeq + 1
            · rw [if_pos hseq]
              have hnext := drop_of_mem he hseq
              have hempty : s.pending <+: (f.after c.moves).pop.log.drop (s.lastSeq + 1) := by
                rw [hpending]
                exact nil_prefix
              exact hs.deliver hterminal hnext hempty
            · rw [if_neg hseq]
              refine recover_ensures hs ?_ (fun f' _ hf' => ih hf')
              rintro e' ⟨⟩
              exact ⟨he, Nat.lt_of_not_le hold⟩
        | lag => exact recover_ensures hs (fun e' he' => by cases he') (fun f' _ hf' => ih hf')
        | closed hclosed =>
          refine recover_ensures hs (fun e' he' => by cases he') (fun f' hf' hfollows => ?_)
          by_cases hend : (f'.log.drop s.lastSeq).isEmpty
          · rw [if_pos hend]
            exact continues_of_none rfl
              (hfollows.close hterminal (hf'.closed hclosed) (isEmpty_iff.mp hend))
          · rw [if_neg hend]
            exact ih hfollows

theorem calls_ensures (fuels : List ℕ) (h : Follows afterSeq f events s) :
    Ensures feedService 0 (fun _ => True)
      (fun out f' => Follows afterSeq f' (events ++ returned out.1) out.2)
      (calls historySource fuels s) f := by
  induction fuels generalizing s f events with
  | nil =>
    change Follows afterSeq f (events ++ []) s
    rwa [append_nil]
  | cons fuel fuels ih =>
    refine ensures_bind ((nextLoop_ensures fuel h).mono ?_)
    rintro ⟨r, s₁⟩ f₁ hcall
    cases r with
    | none => exact hcall
    | some r =>
      refine ensures_bind ((ih hcall).mono ?_)
      rintro ⟨rs, s₂⟩ f₂ hrest
      change Follows afterSeq f₂ (events ++ returned (r :: rs)) s₂
      rw [returned, flatMap_cons, ← append_assoc]
      exact hrest

end Runs

end AgentConnector.ReliableTaskStream
